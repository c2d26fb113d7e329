import Atlas.Proofs.Layer.Times
import Atlas.Proofs.Session.Periods
import Atlas.Proofs.Session.Refusal

/-!
# Periods that are sent again

What layers show as their time is an interval, and an interval can be taken apart into the start
and the end of a period. Whoever sends these two again, as a change of the period, changes no time:
all layers that show a time show the same one, and the period that is read has this interval. This
holds after any messages and of any settings, also if an id stands twice in them.

## Main statements

* `Session.showsOnePeriod_receiveAll` — after any messages all times are those of one period
* `Session.interval_resent` — an interval is read back as its period, and changes no time
-/

namespace Atlas.Session

variable {σ : Type}

/-- A time that can be sent again: it has one slash, and the two texts around it are accepted as
the start and the end of a period, which leaves all times as they are. -/
structure Resends [FileSaver σ] (m : Session σ) (time : String) : Prop where
  slash : time.toList.count '/' = 1
  unchanged : ∀ start stop, time = start ++ "/" ++ stop →
    ∃ m', m.handle Topic.timeChange.name (Period.recordOf start stop) = (m', .ok ()) ∧
      ∀ role, (m'.catalog.shelf role).times = (m.catalog.shelf role).times

theorem showsOnePeriod_mount (s : Settings) (store : σ) :
    (mount s store).catalog.ShowsOnePeriod := by
  refine ⟨none, fun role => ?_, fun t ht => by cases ht⟩
  cases role with
  | base => exact Shelf.showsTime_build .base s.base
  | product =>
    exact (Shelf.showsTime_build .product s.products).sort.restyle (Shelf.restyles_sync .product _)
  | overlay => exact Shelf.showsTime_build .overlay s.overlays

/-- A message that tells a period carries one that exists. -/
theorem valid_of_period? {msg : Message} {p : Period} (h : msg.period? = some p) : p.Valid := by
  obtain ⟨c, hc, hp⟩ := Option.bind_eq_some_iff.1 h
  rw [Message.command?] at hc
  cases hdecode : Command.decode msg.topic msg.payload with
  | error fault =>
    rw [hdecode] at hc
    cases hc
  | ok c' =>
    rw [hdecode] at hc
    cases hc
    have hspells := Command.decode_eq_ok_iff.1 hdecode
    generalize msg.topic = topic at hspells
    cases hspells with
    | changePeriod hread =>
      cases hp
      exact Period.valid_of_ofJson? hread
    | center | changeLayer | setExtent | sortProducts | updateOpacity | activateTool
    | loadFeatures | exportSelection => cases hp

/-- **After any messages all times are those of one period.** -/
theorem showsOnePeriod_receiveAll [FileSaver σ] (s : Settings) (store : σ)
    (msgs : List Message) :
    ((mount s store).receiveAll msgs).catalog.ShowsOnePeriod := by
  rw [catalog_receiveAll]
  refine Catalog.showsOnePeriod_foldl (showsOnePeriod_mount s store) fun op hop p hp => ?_
  have hmem : p ∈ ((mount s store).operations msgs).filterMap Catalog.Operation.period? :=
    List.mem_filterMap.2 ⟨op, hop, hp⟩
  rw [filterMap_period?_operations] at hmem
  obtain ⟨msg, -, hread⟩ := List.mem_filterMap.1 hmem
  exact valid_of_period? hread

/-- The interval of a period can be sent again where all layers that follow the time carry it. -/
theorem resends_of_carries [FileSaver σ] {m : Session σ} {p : Period} (hp : p.Valid)
    (h : ∀ role, (m.catalog.shelf role).Carries p.interval) : m.Resends p.interval := by
  refine ⟨p.count_slash_interval, fun start stop heq => ?_⟩
  have hread := Period.ofJson?_halves hp heq
  refine ⟨(m.changePeriod p.dropFractions).1, handle_of_spells (.changePeriod hread),
    fun role => ?_⟩
  show ((m.catalog.setPeriod p.dropFractions).1.shelf role).times = _
  rw [Catalog.shelf_setPeriod, Period.interval_dropFractions]
  exact (h role).times_setTime

/-- **An interval is read back as its period, and changes no time.** An interval has one slash, and
the texts around it are read as the period to the second, which has the same interval. So periods
with the same interval are the same to the second. In any session the layers that follow the time
carry the interval when the period has been told, and while they do so it can be sent again. After
any messages this is so of every time that a layer shows. -/
theorem interval_resent [FileSaver σ] {v : Json} {p : Period} (h : Period.ofJson? v = some p) :
    p.interval.toList.count '/' = 1 ∧
      (∀ start stop, p.interval = start ++ "/" ++ stop →
        Period.ofJson? (Period.recordOf start stop) = some p.dropFractions) ∧
      p.dropFractions.interval = p.interval ∧
      (∀ v' q, Period.ofJson? v' = some q →
        (q.interval = p.interval ↔ q.dropFractions = p.dropFractions)) ∧
      (∀ m : Session σ, (∀ role, ((m.changePeriod p).1.catalog.shelf role).Carries p.interval) ∧
        ((∀ role, (m.catalog.shelf role).Carries p.interval) → m.Resends p.interval)) ∧
      ∀ (s : Settings) (store : σ) (msgs : List Message) (role : Role),
        ∀ l ∈ ((mount s store).receiveAll msgs).catalog.layers role,
          ∀ time ∈ l.source.time?, ((mount s store).receiveAll msgs).Resends time := by
  have hp := Period.valid_of_ofJson? h
  refine ⟨p.count_slash_interval, fun start stop => Period.ofJson?_halves hp,
    p.interval_dropFractions, fun v' q hq => Period.interval_eq_iff hp (Period.valid_of_ofJson? hq),
    fun m => ⟨fun role => ?_, resends_of_carries hp⟩, fun s store msgs role l hl time htime => ?_⟩
  · show ((m.catalog.setPeriod p).1.shelf role).Carries p.interval
    rw [Catalog.shelf_setPeriod]
    exact Shelf.carries_setTime p.interval (m.catalog.shelf role)
  · obtain ⟨q, hq, rfl, hcarries⟩ :=
      (showsOnePeriod_receiveAll s store msgs).carries hl htime
    exact resends_of_carries hq hcarries

/-- A leap second at an offset, with a fraction, and a year with a sign that an offset leads to:
the layer that was told this period can be told its interval. -/
theorem interval_resent_leap_second :
    let ndvi := { LayerSpec.create "ndvi" .wms ["https://p.example/ows"] with timeEnabled := true }
    let s := { Settings.standard with products := [ndvi] }
    let v := Period.recordOf "2016-12-31T15:59:60.25-08:00" "-0000-01-01 00:30:07+0100"
    let p : Period := ⟨⟨⟨2016, 12, 31⟩, 23, 59, 60, 250000000⟩, ⟨⟨-1, 12, 31⟩, 23, 30, 7, 0⟩⟩
    let m := (mount s Store.refusing).receive ⟨Topic.timeChange.name, v⟩
    Period.ofJson? v = some p ∧
      p.interval = "2016-12-31T23:59:60Z/-0001-12-31T23:30:07Z" ∧
      p.interval.toList.count '/' = 1 ∧
      Period.ofJson? (Period.recordOf "2016-12-31T23:59:60Z" "-0001-12-31T23:30:07Z") =
        some p.dropFractions ∧
      ∃ l ∈ m.catalog.layers .product, l.source.time? = some p.interval ∧ m.Resends p.interval := by
  intro ndvi s v p m
  have hread : Period.ofJson? v = some p := by decide +kernel
  have hinterval : p.interval = "2016-12-31T23:59:60Z/-0001-12-31T23:30:07Z" := by decide +kernel
  have hshown : ∃ l ∈ m.catalog.layers .product, l.source.time? = some p.interval := by
    decide +kernel
  obtain ⟨hslash, hhalves, -, -, -, hresends⟩ := @interval_resent Store _ _ _ hread
  obtain ⟨l, hl, htime⟩ := hshown
  exact ⟨hread, hinterval, hslash, hhalves _ _ hinterval, l, hl, htime,
    hresends s Store.refusing [⟨Topic.timeChange.name, v⟩] .product l hl _ htime⟩

end Atlas.Session
