import Atlas.Json.Record
import Atlas.Proofs.Json.Numbers

/-!
# Records are read back

An object keeps its members sorted, so the order in which a record is written is lost. Its fields
are still found by their names, as long as no name is written twice. The other way round, what is
found for a field is a part of the record, whether it is an object or an array.

## Main statements

* `Json.fields?_ofMembers` — the fields of a record are found again, in the order of the names
* `Json.hasPart_of_mem_fields?` — what is found for a field is a part of the record
-/

namespace Atlas

namespace Keyed

variable {β : Type}

theorem lookup_update_of_notMem {k : String} {rows : List (String × β)}
    (h : k ∉ rows.map Prod.fst) (t : Keyed β) : lookup k (update t rows) = lookup k t := by
  induction rows generalizing t with
  | nil => rfl
  | cons row rows ih =>
    rw [List.map_cons, List.mem_cons, not_or] at h
    rw [update_cons, ih h.2, lookup_insert, if_neg h.1]

/-- A row is found if no other one was written for its key. -/
theorem lookup_update_of_mem {k : String} {v : β} {rows : List (String × β)}
    (hkeys : (rows.map Prod.fst).Nodup) (hrow : (k, v) ∈ rows) (t : Keyed β) :
    lookup k (update t rows) = some v := by
  induction rows generalizing t with
  | nil => cases hrow
  | cons row rows ih =>
    obtain ⟨hhead, htail⟩ := List.nodup_cons.1 hkeys
    rcases List.mem_cons.1 hrow with rfl | hrow
    · rw [update_cons, lookup_update_of_notMem hhead, lookup_insert, if_pos rfl]
    · rw [update_cons]
      exact ih htail hrow _

theorem mem_of_mem_update {rows : List (String × β)} {t : Keyed β} {row : String × β}
    (h : row ∈ update t rows) : row ∈ rows ∨ row ∈ t := by
  induction rows generalizing t with
  | nil => exact .inr h
  | cons row' rows ih =>
    rw [update_cons] at h
    rcases ih h with hrows | ht
    · exact .inl (List.mem_cons_of_mem _ hrows)
    · rcases mem_keys_insert ht with rfl | ht
      · exact .inl List.mem_cons_self
      · exact .inr ht

end Keyed

namespace Json

/-- **The fields of a record are found again,** in the order of the names. -/
theorem fields?_ofMembers {members : List (String × Json)}
    (h : (members.map Prod.fst).Nodup) :
    fields? (members.map Prod.fst) (ofMembers members) =
      some (members.map (fun row => some row.2)) := by
  rw [ofMembers, fields?, List.map_map]
  refine congrArg some (List.map_congr_left fun row hrow => ?_)
  exact Keyed.lookup_update_of_mem h hrow []

/-! ## What is found in a record -/

/-- What is found for the field at a place is the element at that place. -/
theorem getElem?_of_align? {names : List String} {items : List Json} {found : List (Option Json)}
    (h : align? names items = some found) {i : Nat} {w : Option Json} (hw : found[i]? = some w) :
    items[i]? = w := by
  induction names generalizing items found i with
  | nil =>
    cases items with
    | nil =>
      cases h
      cases hw
    | cons x xs => cases h
  | cons name names ih =>
    cases items with
    | nil =>
      obtain ⟨found', hfound, rfl⟩ := Option.map_eq_some_iff.1 h
      cases i with
      | zero =>
        cases hw
        rfl
      | succ i => exact ih (i := i) hfound hw
    | cons x xs =>
      obtain ⟨found', hfound, rfl⟩ := Option.map_eq_some_iff.1 h
      cases i with
      | zero =>
        cases hw
        rfl
      | succ i => exact ih hfound hw

theorem mem_of_align? {names : List String} {items : List Json} {found : List (Option Json)}
    (h : align? names items = some found) {w : Json} (hw : some w ∈ found) : w ∈ items := by
  obtain ⟨i, hi⟩ := List.getElem?_of_mem hw
  exact List.mem_of_getElem? (getElem?_of_align? h hi)

/-- What is found for a field is a part of the record. -/
theorem hasPart_of_mem_fields? {names : List String} {v w : Json} {found : List (Option Json)}
    (h : fields? names v = some found) (hw : some w ∈ found) : v.HasPart w := by
  cases v with
  | obj members =>
    cases h
    obtain ⟨name, -, hlookup⟩ := List.mem_map.1 hw
    exact HasPart.whole.member hlookup
  | arr items => exact HasPart.whole.item (mem_of_align? h hw)
  | null | bool | num | str => cases h

/-! ## What decoders accept -/

theorem isFinite_of_float? {v : Json} {x : Float} (hv : v.Spellable) (h : float? v = some x) :
    x.isFinite = true := by
  cases v with
  | num n =>
    cases h
    exact hv.num.isFinite
  | null | bool | str | arr | obj => cases h

theorem lt_of_nat32? {v : Json} {n : Nat} (h : nat32? v = some n) : n < 2 ^ 32 := by
  obtain ⟨k, hk, rfl⟩ := Option.map_eq_some_iff.1 h
  cases v with
  | num m =>
    cases m with
    | int j =>
      rw [intBetween?] at hk
      split at hk
      · next hbounds =>
        cases hk
        omega
      · cases hk
    | float x => cases hk
  | null | bool | str | arr | obj => cases hk

end Json
end Atlas
