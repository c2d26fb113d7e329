import Atlas.Proofs.Json.Numbers
import Atlas.Proofs.Json.Records
import Atlas.Message.Notice

/-!
# Payloads

What the map publishes has the shape of what it is told: the address of the view is a request for a
center, the box that is shown is one that can be asked for, and a notice about a layer is a change
of it. They are read back as they were written, if their coordinates are finite. A coordinate that
is not has no numeral and leaves a null in the payload; otherwise the payload has none.

## Main statements

* `LayerChange.ofJson?_toJson`, `CenterRequest.ofJson?_toJson`, `Bounds.ofJson?_toJson` — records
  are read back
* `CenterRequest.parse_create` — the request for a center is for that center
* `CenterRequest.hasPart_null_iff`, `Bounds.hasPart_null_iff` — nulls stand for coordinates that are
  not finite
-/

namespace Atlas

/-! ## Records that are read back -/

theorem LayerChange.ofJson?_toJson (c : LayerChange) : ofJson? c.toJson = some c := by
  have hfields : Json.fields? ["id", "isBaseLayer", "visible"] c.toJson =
      some [some (.str c.id), some (.bool c.isBase), some (.bool c.visible)] :=
    Json.fields?_ofMembers (by decide : ["id", "isBaseLayer", "visible"].Nodup)
  rw [ofJson?, hfields]
  rfl

theorem CenterRequest.ofJson?_toJson (r : CenterRequest) : ofJson? r.toJson = some r := by
  have hfields : Json.fields? ["x", "y", "l"] r.toJson = some [some r.x, some r.y, some r.zoom] :=
    Json.fields?_ofMembers (by decide : ["x", "y", "l"].Nodup)
  rw [ofJson?, hfields]
  rfl

theorem Json.ofFloat_of_isFinite {x : Float} (h : x.isFinite = true) :
    ofFloat x = .num (.float x) := by
  rw [ofFloat, if_pos h]

theorem Bounds.ofJson?_toJson {b : Bounds Float} (h : b.isFinite = true) :
    ofJson? b.toJson = some b := by
  obtain ⟨hleft, hbottom, hright, htop⟩ := isFinite_iff.1 h
  have hfields : Json.fields? ["left", "bottom", "right", "top"] b.toJson =
      some [some (Json.ofFloat b.left), some (Json.ofFloat b.bottom), some (Json.ofFloat b.right),
        some (Json.ofFloat b.top)] :=
    Json.fields?_ofMembers (by decide : ["left", "bottom", "right", "top"].Nodup)
  rw [ofJson?, hfields, Json.ofFloat_of_isFinite hleft, Json.ofFloat_of_isFinite hbottom,
    Json.ofFloat_of_isFinite hright, Json.ofFloat_of_isFinite htop]
  rfl

/-- A request is read part by part. -/
theorem CenterRequest.parse_eq_ok_iff {r : CenterRequest} {center : Coord} {zoom : Int} :
    r.parse = .ok (center, zoom) ↔
      finite r.x = .ok center.x ∧ finite r.y = .ok center.y ∧ level r.zoom = .ok zoom := by
  obtain ⟨x, y⟩ := center
  unfold parse
  cases finite r.x with
  | error fault => exact iff_of_false (fun h => by cases h) (fun h => by cases h.1)
  | ok x' =>
    cases finite r.y with
    | error fault => exact iff_of_false (fun h => by cases h) (fun h => by cases h.2.1)
    | ok y' =>
      cases level r.zoom with
      | error fault => exact iff_of_false (fun h => by cases h) (fun h => by cases h.2.2)
      | ok zoom' =>
        constructor
        · intro h
          cases h
          exact ⟨rfl, rfl, rfl⟩
        · rintro ⟨hx, hy, hzoom⟩
          cases hx
          cases hy
          cases hzoom
          rfl

theorem CenterRequest.finite_ofFloat {c : Float} (h : c.isFinite = true) :
    finite (Json.ofFloat c) = .ok c := by
  rw [Json.ofFloat_of_isFinite h, finite]
  show (if c.isFinite then Except.ok c else _) = _
  rw [if_pos h]

theorem CenterRequest.level_ofInt {n : Int} (h : fits32 n = true) :
    level (Json.ofInt n) = .ok n := by
  have hwhole : whole? (Json.ofInt n) = some n := by
    rw [fits32, Bool.and_eq_true, decide_eq_true_eq, decide_eq_true_eq] at h
    show (if n < 0x8000000000000000 then some n else none) = some n
    rw [if_pos (by omega)]
  rw [level, hwhole]
  show (if fits32 n then Except.ok n else _) = _
  rw [if_pos h]

/-- **The request for a center is for that center,** and for its zoom level. -/
theorem CenterRequest.parse_create {center : Coord} {zoom : Int}
    (hcenter : center.isFinite = true) (hzoom : fits32 zoom = true) :
    (create center zoom).parse = .ok (center, zoom) := by
  obtain ⟨hx, hy⟩ := Coord.isFinite_iff.1 hcenter
  exact parse_eq_ok_iff.2 ⟨finite_ofFloat hx, finite_ofFloat hy, level_ofInt hzoom⟩

theorem CenterRequest.isFinite_of_finite {v : Json} {x : Float} (h : finite v = .ok x) :
    x.isFinite = true := by
  rw [finite] at h
  split at h
  · split at h
    · next hx =>
      cases h
      exact hx
    · cases h
  · cases h

/-- The center of a request that is read is finite. -/
theorem CenterRequest.isFinite_of_parse {r : CenterRequest} {center : Coord} {zoom : Int}
    (h : r.parse = .ok (center, zoom)) : center.isFinite = true := by
  obtain ⟨hx, hy, -⟩ := parse_eq_ok_iff.1 h
  exact Coord.isFinite_iff.2 ⟨isFinite_of_finite hx, isFinite_of_finite hy⟩

/-! ## Nulls -/

namespace Json

/-- A number has no other parts. -/
theorem eq_of_hasPart_num {n : Number} {w : Json} (h : (Json.num n).HasPart w) : w = .num n := by
  induction h with
  | whole => rfl
  | item _ _ ih => cases ih
  | member _ _ ih => cases ih

/-- The parts of a record are the record itself and the parts of its members. -/
theorem hasPart_ofMembers {rows : List (String × Json)} {w : Json}
    (h : (ofMembers rows).HasPart w) : w = ofMembers rows ∨ ∃ row ∈ rows, row.2.HasPart w := by
  induction h with
  | whole => exact .inl rfl
  | item _ hx ih =>
    rcases ih with heq | ⟨row, hrow, hpart⟩
    · cases heq
    · exact .inr ⟨row, hrow, hpart.item hx⟩
  | member _ hx ih =>
    rcases ih with heq | ⟨row, hrow, hpart⟩
    · cases heq
      rcases Keyed.mem_of_mem_update (Keyed.mem_of_lookup hx) with hmem | hnil
      · exact .inr ⟨_, hmem, .whole⟩
      · cases hnil
    · exact .inr ⟨row, hrow, hpart.member hx⟩

theorem hasPart_of_mem_ofMembers {rows : List (String × Json)}
    (hkeys : (rows.map Prod.fst).Nodup) {row : String × Json} (hrow : row ∈ rows) :
    (ofMembers rows).HasPart row.2 :=
  HasPart.whole.member (Keyed.lookup_update_of_mem hkeys hrow [])

/-- The nulls in a record of coordinates are those of its members. -/
theorem hasPart_null_ofMembers_iff {rows : List (String × Json)}
    (hkeys : (rows.map Prod.fst).Nodup)
    (hrows : ∀ row ∈ rows, row.2 = .null ∨ ∃ n, row.2 = .num n) :
    (ofMembers rows).HasPart .null ↔ ∃ row ∈ rows, row.2 = .null := by
  constructor
  · intro hnull
    rcases hasPart_ofMembers hnull with heq | ⟨row, hrow, hpart⟩
    · cases heq
    · rcases hrows row hrow with hrownull | ⟨n, hn⟩
      · exact ⟨row, hrow, hrownull⟩
      · rw [hn] at hpart
        cases eq_of_hasPart_num hpart
  · rintro ⟨row, hrow, hnull⟩
    rw [← hnull]
    exact hasPart_of_mem_ofMembers hkeys hrow

theorem ofFloat_eq_null_iff {x : Float} : ofFloat x = .null ↔ ¬ x.isFinite = true := by
  rw [ofFloat]
  split
  · next h => exact iff_of_false (fun hnull => by cases hnull) (not_not_intro h)
  · next h => exact iff_of_true rfl h

theorem ofFloat_cases (x : Float) : ofFloat x = .null ∨ ∃ n, ofFloat x = .num n := by
  rw [ofFloat]
  split
  · exact .inr ⟨_, rfl⟩
  · exact .inl rfl

end Json

/-- **The request for a center has a null in it if the center is not finite,** and only then. -/
theorem CenterRequest.hasPart_null_iff {center : Coord} {zoom : Int} :
    (create center zoom).toJson.HasPart .null ↔ ¬ center.isFinite = true := by
  rw [Coord.isFinite_iff, not_and_or, ← Json.ofFloat_eq_null_iff, ← Json.ofFloat_eq_null_iff,
    toJson, create, Json.hasPart_null_ofMembers_iff]
  · simp [Json.ofInt]
  · exact (by decide : ["x", "y", "l"].Nodup)
  · simp [Json.ofFloat_cases, Json.ofInt]

/-- **A box has a null in its record if a side is not finite,** and only then. -/
theorem Bounds.hasPart_null_iff {b : Bounds Float} :
    b.toJson.HasPart .null ↔ ¬ b.isFinite = true := by
  rw [isFinite_iff, not_and_or, not_and_or, not_and_or, ← Json.ofFloat_eq_null_iff,
    ← Json.ofFloat_eq_null_iff, ← Json.ofFloat_eq_null_iff, ← Json.ofFloat_eq_null_iff, toJson,
    Json.hasPart_null_ofMembers_iff]
  · simp
  · exact (by decide : ["left", "bottom", "right", "top"].Nodup)
  · simp [Json.ofFloat_cases]

end Atlas
