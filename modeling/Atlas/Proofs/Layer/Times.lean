import Atlas.Proofs.Calendar.Intervals
import Atlas.Proofs.Layer.CatchingUp
import Atlas.Proofs.Layer.Patching

/-!
# Which interval layers show

The layers that were told a period show its interval. They are those that follow the time and lead,
that is, stand behind no other layer with their id; nothing is asked of the ids. Which layers lead
is not changed by mirroring, which leaves all layers at their places, and not by sorting, which
keeps the order of the layers with one id. So all layers that show a time show the last one, and
telling them the same interval once more changes no time.

## Main statements

* `Shelf.mem_leading_sort` — sorting leaves the leading layers in front of the others with their id
* `Shelf.Carries.times_setTime` — an interval that is carried already changes no time
* `Catalog.showsOnePeriod_foldl` — after any operations all times are the interval of one period
-/

namespace Atlas

namespace Shelf

/-! ## Leading layers -/

section
variable {f : Layer → Layer} (hf : ∀ l, (f l).id = l.id)
include hf

theorem leadingFrom_map (ids : List String) (layers : List Layer) :
    leadingFrom ids (layers.map f) = (leadingFrom ids layers).map f := by
  induction layers generalizing ids with
  | nil => rfl
  | cons l ls ih =>
    rw [List.map_cons, leadingFrom, leadingFrom, hf]
    split
    · exact ih ids
    · rw [List.map_cons, ih]

theorem coveredFrom_map (ids : List String) (layers : List Layer) :
    coveredFrom ids (layers.map f) = (coveredFrom ids layers).map f := by
  induction layers generalizing ids with
  | nil => rfl
  | cons l ls ih =>
    rw [List.map_cons, coveredFrom, coveredFrom, hf]
    split
    · rw [List.map_cons, ih]
    · exact ih (l.id :: ids)

end

theorem filter_leadingFrom (id : String) (ids : List String) (layers : List Layer) :
    (leadingFrom ids layers).filter (fun l => l.id = id) =
      if id ∈ ids then [] else (layers.filter (fun l => l.id = id)).take 1 := by
  induction layers generalizing ids with
  | nil => simp [leadingFrom]
  | cons l ls ih =>
    rw [leadingFrom]
    by_cases hl : l.id = id
    · rw [List.filter_cons_of_pos (by simpa using hl)]
      by_cases hid : id ∈ ids
      · rw [if_pos (hl ▸ hid), if_pos hid, ih, if_pos hid]
      · -- the layer leads, and no other one with its id does from here on
        rw [if_neg (hl ▸ hid), if_neg hid, List.filter_cons_of_pos (by simpa using hl), ih,
          if_pos (hl ▸ List.mem_cons_self)]
        rfl
    · rw [List.filter_cons_of_neg (by simpa using hl)]
      split
      · exact ih ids
      · rw [List.filter_cons_of_neg (by simpa using hl), ih]
        simp only [List.mem_cons, Ne.symm hl, false_or]

/-- **The leading layer with an id is the first one.** -/
theorem mem_leading_iff {s : Shelf} {l : Layer} :
    l ∈ s.leading ↔ l ∈ (s.layers.filter (fun l' => l'.id = l.id)).take 1 := by
  have hfilter := filter_leadingFrom l.id [] s.layers
  rw [if_neg List.not_mem_nil] at hfilter
  rw [← hfilter, List.mem_filter, leading]
  simp

/-- **Sorting leaves the leading layers in front of the others with their id.** -/
theorem mem_leading_sort {s : Shelf} {l : Layer} : l ∈ s.sort.leading ↔ l ∈ s.leading := by
  rw [mem_leading_iff, mem_leading_iff, filter_id_sort]

/-! ## Times -/

/-- The intervals that the layers show, bottom to top. -/
def times (s : Shelf) : List (Option String) := s.layers.map (fun l => l.source.time?)

/-- The leading layers show the time if they follow it. All other layers show none. -/
structure ShowsTime (time : Option String) (s : Shelf) : Prop where
  leading : ∀ l ∈ s.leading, l.source.time? = if s.isTimed l then time else none
  covered : ∀ l ∈ s.covered, l.source.time? = none

section
variable {time : Option String} {s s' : Shelf}

theorem ShowsTime.mem_times (h : s.ShowsTime time) {l : Layer} (hl : l ∈ s.layers) {t : String}
    (ht : l.source.time? = some t) : time = some t := by
  rcases mem_leading_or_mem_covered.2 hl with hl | hl
  · rw [h.leading l hl] at ht
    split at ht
    · exact ht
    · cases ht
  · rw [h.covered l hl] at ht
    cases ht

theorem showsTime_build (role : Role) (specs : List LayerSpec) :
    (build role .geographic specs).ShowsTime none := by
  have hnone : ∀ l ∈ (build role .geographic specs).layers, l.source.time? = none := by
    intro l hl
    obtain ⟨spec, -, -, hsource⟩ := upToDate_build role specs l hl
    rw [ite_self] at hsource
    exact hsource.time
  refine ⟨fun l hl => ?_, fun l hl => hnone l (mem_leading_or_mem_covered.1 (.inr hl))⟩
  rw [ite_self]
  exact hnone l (mem_leading_or_mem_covered.1 (.inl hl))

theorem Restyles.isTimed (h : s.Restyles s') (l : Layer) : s'.isTimed l = s.isTimed l :=
  h.relooks.alike.isTimed l

/-- A layer that looks different is as it was but for its look. -/
theorem exists_of_map_unshown {layers layers' : List Layer}
    (h : layers'.map Layer.unshown = layers.map Layer.unshown) {l' : Layer} (hl' : l' ∈ layers') :
    ∃ l ∈ layers, l.id = l'.id ∧ l.source = l'.source := by
  have hmem : l'.unshown ∈ layers.map Layer.unshown := h ▸ List.mem_map_of_mem hl'
  obtain ⟨l, hl, hsame⟩ := List.mem_map.1 hmem
  exact ⟨l, hl, (congrArg Layer.id hsame :), (congrArg Layer.source hsame :)⟩

theorem ShowsTime.restyle (h : s.ShowsTime time) (hs : s.Restyles s') : s'.ShowsTime time := by
  have hid : ∀ l : Layer, l.unshown.id = l.id := fun _ => rfl
  have hleading : s'.leading.map Layer.unshown = s.leading.map Layer.unshown := by
    rw [Shelf.leading, Shelf.leading, ← leadingFrom_map hid, ← leadingFrom_map hid, hs.layers]
  have hcovered : s'.covered.map Layer.unshown = s.covered.map Layer.unshown := by
    rw [Shelf.covered, Shelf.covered, ← coveredFrom_map hid, ← coveredFrom_map hid, hs.layers]
  constructor
  · intro l' hl'
    obtain ⟨l, hl, hid, hsource⟩ := exists_of_map_unshown hleading hl'
    have htimed : s'.isTimed l' = s.isTimed l := by
      rw [hs.isTimed, isTimed, isTimed, hid]
    rw [← hsource, htimed]
    exact h.leading l hl
  · intro l' hl'
    obtain ⟨l, hl, -, hsource⟩ := exists_of_map_unshown hcovered hl'
    rw [← hsource]
    exact h.covered l hl

theorem ShowsTime.sort (h : s.ShowsTime time) : s.sort.ShowsTime time :=
  ⟨fun l hl => h.leading l (mem_leading_sort.1 hl), fun l hl => h.covered l (mem_covered_sort.1 hl)⟩

/-- A layer that has been told an interval several times shows it, and one that has not been told
any shows what it showed before. -/
theorem time?_foldl_setTime (interval : String) (specs : List LayerSpec) (l : Layer) :
    (specs.foldl (fun l _ => l.setTime interval) l).source.time? =
      if specs.isEmpty then l.source.time? else some interval := by
  induction specs generalizing l with
  | nil => rfl
  | cons spec specs ih =>
    have htold : (l.setTime interval).source.time? = some interval := TileSource.time?_setTime _ _
    rw [List.foldl_cons, ih, htold, ite_self]
    rfl

/-- A leading layer is told the interval once for each specification with its id that follows the
time. -/
theorem leading_setTime (interval : String) (s : Shelf) :
    (s.setTime interval).1.leading = s.leading.map (fun l =>
      ((s.specs.filter LayerSpec.timeEnabled).filter (fun spec => spec.id == l.id)).foldl
        (fun l _ => l.setTime interval) l) :=
  (leadingFrom_foldl_updateFirst (fun _ => Layer.id_setTime interval) _ _).trans
    (foldl_updateFirst_eq_map (fun _ => Layer.id_setTime interval) _
      (nodup_leadingFrom [] s.layers))

/-- Of the leading layers those that follow the time show the interval that they are told. -/
theorem map_leading_setTime (interval : String) (s : Shelf) :
    (s.setTime interval).1.leading.map (fun l => (l.id, l.source.time?)) =
      s.leading.map (fun l => (l.id, if s.isTimed l then some interval else l.source.time?)) := by
  rw [leading_setTime, List.map_map]
  refine List.map_congr_left fun l _ => Prod.ext ?_ ?_
  · exact List.foldlRecOn (motive := fun l' : Layer => l'.id = l.id) _ _ rfl fun _ h _ _ => h
  · have hnone : ((s.specs.filter LayerSpec.timeEnabled).filter
        (fun spec => spec.id == l.id)).isEmpty = !s.isTimed l := by
      rw [Bool.eq_iff_iff, List.isEmpty_iff, List.filter_filter, List.filter_eq_nil_iff,
        Bool.not_eq_true', isTimed, List.any_eq_false]
    rw [Function.comp_apply, time?_foldl_setTime, hnone]
    cases s.isTimed l with
    | false | true => rfl

/-- What a leading layer shows after an interval was told. -/
theorem exists_of_mem_leading_setTime {interval : String} {l' : Layer}
    (hl' : l' ∈ (s.setTime interval).1.leading) :
    ∃ l ∈ s.leading, (s.setTime interval).1.isTimed l' = s.isTimed l ∧
      l'.source.time? = if s.isTimed l then some interval else l.source.time? := by
  have hrow : (l'.id, l'.source.time?) ∈ s.leading.map
      (fun l => (l.id, if s.isTimed l then some interval else l.source.time?)) := by
    rw [← map_leading_setTime]
    exact List.mem_map_of_mem hl'
  obtain ⟨l, hl, hsame⟩ := List.mem_map.1 hrow
  obtain ⟨hid, htime⟩ := Prod.mk.inj hsame
  refine ⟨l, hl, ?_, htime.symm⟩
  rw [isTimed, isTimed, hid]
  rfl

/-- **The leading layers that follow the time show the interval that was told last.** -/
theorem ShowsTime.setTime (h : s.ShowsTime time) (interval : String) :
    (s.setTime interval).1.ShowsTime (some interval) := by
  refine ⟨fun l' hl' => ?_, fun l hl => h.covered l (covered_setTime interval s ▸ hl)⟩
  obtain ⟨l, hl, htimed, htime⟩ := exists_of_mem_leading_setTime hl'
  rw [htime, htimed, h.leading l hl]
  split
  · rfl
  · rfl

/-- The leading layers that follow the time carry an interval. -/
def Carries (interval : String) (s : Shelf) : Prop :=
  ∀ l ∈ s.leading, s.isTimed l = true → l.source.time? = some interval

/-- **An interval that is carried already changes no time.** -/
theorem Carries.times_setTime {interval : String} (h : s.Carries interval) :
    (s.setTime interval).1.times = s.times := by
  refine map_eq_of_leadingFrom_of_coveredFrom [] (map_layers_setTime (fun _ => rfl) s) ?_
    (congrArg (List.map _) (covered_setTime interval s))
  have hleading := congrArg (List.map Prod.snd) (map_leading_setTime interval s)
  rw [List.map_map, List.map_map] at hleading
  refine hleading.trans (List.map_congr_left fun l hl => ?_)
  show (if s.isTimed l then some interval else l.source.time?) = l.source.time?
  split
  · next htimed => exact (h l hl htimed).symm
  · rfl

/-- An interval is carried when it has been told. -/
theorem carries_setTime (interval : String) (s : Shelf) :
    (s.setTime interval).1.Carries interval := by
  intro l' hl' htimed'
  obtain ⟨l, -, htimed, htime⟩ := exists_of_mem_leading_setTime hl'
  rw [htime, if_pos (htimed.symm.trans htimed')]

theorem ShowsTime.carries {interval : String} (h : s.ShowsTime (some interval)) :
    s.Carries interval := by
  intro l hl htimed
  rw [h.leading l hl, if_pos htimed]

end
end Shelf

namespace Catalog

/-! ## After any operations -/

/-- Operations that tell no period change no time. -/
theorem Operation.showsTime_onShelf {op : Operation} (hop : op.period? = none) {role : Role}
    {time : Option String} {s : Shelf} (h : s.ShowsTime time) :
    (op.onShelf role s).ShowsTime time := by
  refine op.onShelf_cases (P := fun s => s.ShowsTime time) h ?_ ?_ ?_ ?_ ?_
  · exact fun id visible _ => h.restyle (Shelf.restyles_setVisible role id visible s)
  · exact fun id opacity _ => h.restyle (Shelf.restyles_setOpacity id opacity s)
  · rintro period rfl
    cases hop
  · exact fun _ => h.sort.restyle (Shelf.restyles_sync role s.sort)
  · exact fun _ => h.restyle (Shelf.restyles_sync role s)

/-- All times that layers show are the interval of one period, which exists. -/
def ShowsOnePeriod (c : Catalog) : Prop :=
  ∃ time : Option String, (∀ role, (c.shelf role).ShowsTime time) ∧
    ∀ t ∈ time, ∃ p : Period, p.Valid ∧ p.interval = t

theorem ShowsOnePeriod.apply {c : Catalog} (h : c.ShowsOnePeriod) {op : Operation}
    (hop : ∀ p ∈ op.period?, p.Valid) : (c.apply op).ShowsOnePeriod := by
  obtain ⟨time, htime, hperiod⟩ := h
  cases op with
  | setPeriod p =>
    refine ⟨some p.interval, fun role => ?_, ?_⟩
    · rw [shelf_apply]
      exact (htime role).setTime p.interval
    · rintro t ⟨⟩
      exact ⟨p, hop p rfl, rfl⟩
  | setVisible | setOpacity | reorder | sync =>
    refine ⟨time, fun role => ?_, hperiod⟩
    rw [shelf_apply]
    exact Operation.showsTime_onShelf rfl (htime role)

/-- **After any operations all times are the interval of one period,** the last one. -/
theorem showsOnePeriod_foldl {c : Catalog} (h : c.ShowsOnePeriod) {ops : List Operation}
    (hops : ∀ op ∈ ops, ∀ p ∈ op.period?, p.Valid) : (ops.foldl apply c).ShowsOnePeriod :=
  List.foldlRecOn ops apply h fun _ hc op hop => hc.apply (hops op hop)

/-- A time that some layer shows is the interval of a period, and it is carried on every shelf. -/
theorem ShowsOnePeriod.carries {c : Catalog} (h : c.ShowsOnePeriod) {role : Role} {l : Layer}
    (hl : l ∈ c.layers role) {t : String} (ht : l.source.time? = some t) :
    ∃ p : Period, p.Valid ∧ p.interval = t ∧ ∀ role', (c.shelf role').Carries p.interval := by
  obtain ⟨time, htime, hperiod⟩ := h
  obtain rfl := (htime role).mem_times hl ht
  obtain ⟨p, hp, rfl⟩ := hperiod t rfl
  exact ⟨p, hp, rfl, fun role' => (htime role').carries⟩

end Catalog
end Atlas
