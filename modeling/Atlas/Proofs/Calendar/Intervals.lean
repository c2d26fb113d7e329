import Atlas.Calendar.Period
import Atlas.Proofs.Calendar.Timestamps
import Atlas.Proofs.Json.Records

/-!
# Intervals are read back

An interval is two timestamps around a slash, which neither of them has. So an interval is taken
apart in one way only, and its halves are the start and the end of a period again. The period is
known from its interval but for the fractions of its seconds.

## Main statements

* `Period.count_slash_interval` — an interval has one slash
* `Period.ofJson?_halves` — the record with the halves of an interval is its period, to the second
* `Period.interval_eq_iff` — periods with the same interval are the same to the second
-/

namespace Atlas.Period

/-- Start and end exist. -/
structure Valid (p : Period) : Prop where
  start : p.start.Valid
  stop : p.stop.Valid

/-- The record with two texts as start and end. -/
def recordOf (start stop : String) : Json :=
  Json.ofMembers [("start", .str start), ("end", .str stop)]

theorem valid_of_required {v : Option Json} {t : Instant}
    (h : Json.required instantOfJson? v = some t) : t.Valid := by
  cases v with
  | none => cases h
  | some v =>
    cases v with
    | str s => exact Timestamp.valid_of_read? h
    | null | bool | num | arr | obj => cases h

/-- **A period that is read exists.** -/
theorem valid_of_ofJson? {v : Json} {p : Period} (h : ofJson? v = some p) : p.Valid := by
  obtain ⟨fields, -, h⟩ := Option.bind_eq_some_iff.1 h
  split at h
  · obtain ⟨start, hstart, h⟩ := Option.bind_eq_some_iff.1 h
    obtain ⟨stop, hstop, h⟩ := Option.bind_eq_some_iff.1 h
    cases h
    exact ⟨valid_of_required hstart, valid_of_required hstop⟩
  · cases h

theorem ofJson?_recordOf {start stop : String} {p : Period}
    (hstart : Timestamp.read? start.toList = some p.start)
    (hstop : Timestamp.read? stop.toList = some p.stop) :
    ofJson? (recordOf start stop) = some p := by
  have hnames : ["start", "end"].Nodup := by decide
  have hfields : Json.fields? ["start", "end"] (recordOf start stop) =
      some [some (.str start), some (.str stop)] := Json.fields?_ofMembers hnames
  rw [ofJson?, hfields]
  simp only [Option.bind_eq_bind, Option.bind_some, Json.required, instantOfJson?, hstart, hstop]
  rfl

theorem toList_interval (p : Period) :
    p.interval.toList = p.start.toSeconds ++ '/' :: p.stop.toSeconds := String.toList_ofList

/-- **An interval has one slash.** -/
theorem count_slash_interval (p : Period) : p.interval.toList.count '/' = 1 := by
  rw [toList_interval, List.count_append, List.count_cons_self,
    List.count_eq_zero_of_not_mem p.start.slash_notMem_toSeconds,
    List.count_eq_zero_of_not_mem p.stop.slash_notMem_toSeconds]

theorem interval_eq_append (p : Period) : p.interval =
    String.ofList p.start.toSeconds ++ "/" ++ String.ofList p.stop.toSeconds := by
  rw [interval, ← List.singleton_append, ← List.append_assoc, String.ofList_append,
    String.ofList_append]

/-- The texts around the slash are those of the start and the end. -/
theorem halves_interval {p : Period} {start stop : String}
    (h : p.interval = start ++ "/" ++ stop) :
    start.toList = p.start.toSeconds ∧ stop.toList = p.stop.toSeconds := by
  have hlists : p.start.toSeconds ++ '/' :: p.stop.toSeconds =
      start.toList ++ '/' :: stop.toList := by
    rw [← toList_interval, h, String.toList_append, String.toList_append, List.append_assoc]
    rfl
  obtain ⟨hstart, -, hstop⟩ := (List.append_cons_inj_of_notMem p.start.slash_notMem_toSeconds
    p.stop.slash_notMem_toSeconds).1 hlists
  exact ⟨hstart.symm, hstop.symm⟩

/-- **The record with the halves of an interval is its period,** to the second. -/
theorem ofJson?_halves {p : Period} (hp : p.Valid) {start stop : String}
    (h : p.interval = start ++ "/" ++ stop) :
    ofJson? (recordOf start stop) = some p.dropFractions := by
  obtain ⟨hstart, hstop⟩ := halves_interval h
  refine ofJson?_recordOf ?_ ?_
  · rw [hstart]
    exact Timestamp.read?_toSeconds hp.start
  · rw [hstop]
    exact Timestamp.read?_toSeconds hp.stop

theorem interval_dropFractions (p : Period) : p.dropFractions.interval = p.interval := rfl

/-- **Periods with the same interval are the same to the second.** -/
theorem interval_eq_iff {p q : Period} (hp : p.Valid) (hq : q.Valid) :
    q.interval = p.interval ↔ q.dropFractions = p.dropFractions := by
  constructor
  · intro h
    have hread := ofJson?_halves hq (h.trans (interval_eq_append p))
    rw [ofJson?_halves hp (interval_eq_append p)] at hread
    exact (Option.some_inj.1 hread).symm
  · intro h
    rw [← interval_dropFractions q, h, interval_dropFractions]

end Atlas.Period
