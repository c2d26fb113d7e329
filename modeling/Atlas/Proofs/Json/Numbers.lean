import Atlas.Proofs.Double.Finite

/-!
# The numbers and the parts of a JSON value

The numbers of a message are those that a JSON text can spell: whole numbers of at most 64 bits and
finite doubles. A value with such numbers only is called spellable. All its parts are spellable,
and each of its numbers is finite as a double.

## Main statements

* `Number.Spellable.isFinite` — a spellable number is finite as a double
* `Json.Spellable.part` — the parts of a spellable value are spellable
-/

namespace Atlas

/-- A JSON text can spell a number: it is a whole number of 64 bits, with or without a sign, or a
finite double. -/
def Number.Spellable : Number → Prop
  | .int n => -2 ^ 63 ≤ n ∧ n < 2 ^ 64
  | .float x => x.isFinite = true

theorem Number.Spellable.isFinite {n : Number} (h : n.Spellable) : n.toFloat.isFinite = true := by
  cases n with
  | int n =>
    obtain ⟨hlow, hhigh⟩ := h
    have hbits : n.natAbs < 2 ^ 64 := by omega
    exact Double.isFinite_ofInt hbits
  | float x => exact h

/-- A row that is found stands in the table. -/
theorem Keyed.mem_of_lookup {β : Type} {k : String} {v : β} {t : Keyed β}
    (h : Keyed.lookup k t = some v) : (k, v) ∈ t := by
  induction t with
  | nil => cases h
  | cons row t ih =>
    obtain ⟨k', v'⟩ := row
    rw [Keyed.lookup_cons] at h
    split at h
    · next hk =>
      cases h
      rw [hk]
      exact List.mem_cons_self
    · exact List.mem_cons_of_mem _ (ih h)

namespace Json

mutual
/-- All numbers in a value. -/
def numbers : Json → List Number
  | .num n => [n]
  | .arr items => itemNumbers items
  | .obj members => memberNumbers members
  | _ => []

/-- All numbers in the elements of an array. -/
def itemNumbers : List Json → List Number
  | [] => []
  | x :: xs => numbers x ++ itemNumbers xs

/-- All numbers in the members of an object. -/
def memberNumbers : List (String × Json) → List Number
  | [] => []
  | (_, x) :: xs => numbers x ++ memberNumbers xs
end

theorem itemNumbers_eq_flatMap (items : List Json) : itemNumbers items = items.flatMap numbers := by
  induction items with
  | nil => rw [itemNumbers, List.flatMap_nil]
  | cons x xs ih => rw [itemNumbers, List.flatMap_cons, ih]

theorem memberNumbers_eq_flatMap (members : List (String × Json)) :
    memberNumbers members = members.flatMap (fun row => row.2.numbers) := by
  induction members with
  | nil => rw [memberNumbers, List.flatMap_nil]
  | cons row rows ih => rw [memberNumbers, List.flatMap_cons, ih]

/-- A JSON text can spell all numbers of a value. -/
def Spellable (v : Json) : Prop := ∀ n ∈ v.numbers, n.Spellable

theorem Spellable.num {n : Number} (h : (Json.num n).Spellable) : n.Spellable := by
  refine h n ?_
  rw [numbers]
  exact List.mem_singleton_self n

theorem spellable_arr {items : List Json} (h : ∀ x ∈ items, x.Spellable) :
    (Json.arr items).Spellable := by
  intro n hn
  rw [numbers, itemNumbers_eq_flatMap] at hn
  obtain ⟨x, hx, hn⟩ := List.mem_flatMap.1 hn
  exact h x hx n hn

theorem spellable_obj {members : List (String × Json)} (h : ∀ row ∈ members, row.2.Spellable) :
    (Json.obj members).Spellable := by
  intro n hn
  rw [numbers, memberNumbers_eq_flatMap] at hn
  obtain ⟨row, hrow, hn⟩ := List.mem_flatMap.1 hn
  exact h row hrow n hn

theorem Spellable.item {items : List Json} {x : Json} (h : (Json.arr items).Spellable)
    (hx : x ∈ items) : x.Spellable := by
  intro n hn
  refine h n ?_
  rw [numbers, itemNumbers_eq_flatMap]
  exact List.mem_flatMap.2 ⟨x, hx, hn⟩

theorem Spellable.member {members : List (String × Json)} {row : String × Json}
    (h : (Json.obj members).Spellable) (hrow : row ∈ members) : row.2.Spellable := by
  intro n hn
  refine h n ?_
  rw [numbers, memberNumbers_eq_flatMap]
  exact List.mem_flatMap.2 ⟨row, hrow, hn⟩

theorem Spellable.lookup {members : List (String × Json)} {k : String} {v : Json}
    (h : (Json.obj members).Spellable) (hv : Keyed.lookup k members = some v) : v.Spellable :=
  h.member (Keyed.mem_of_lookup hv)

/-! ## Parts -/

/-- A value has another one as a part, at any depth. -/
inductive HasPart (v : Json) : Json → Prop where
  | whole : HasPart v v
  | item {items : List Json} {x : Json} (h : HasPart v (.arr items)) (hx : x ∈ items) : HasPart v x
  | member {members : List (String × Json)} {k : String} {x : Json} (h : HasPart v (.obj members))
      (hx : Keyed.lookup k members = some x) : HasPart v x

/-- **The parts of a spellable value are spellable.** -/
theorem Spellable.part {v w : Json} (hv : v.Spellable) (h : v.HasPart w) : w.Spellable := by
  induction h with
  | whole => exact hv
  | item _ hx ih => exact ih.item hx
  | member _ hx ih => exact ih.lookup hx

end Json
end Atlas
