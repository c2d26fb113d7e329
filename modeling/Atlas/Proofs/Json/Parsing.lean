import Atlas.Json.Parser
import Atlas.Proofs.Json.Lexing

/-!
# Values are written and read again

A value whose objects are sorted and whose numbers can be spelled is read again from its text, if
it is not nested too deeply. A deeper one is refused as a whole.

## Main statements

* `Json.foldlM_tokens` — where the tokens of a value are read as the value
* `Json.parse?_render` — which values are read again from their text
-/

namespace Atlas

/-- A member with the greatest key so far goes to the end. -/
theorem Keyed.insert_eq_append {β : Type} {k : String} {v : β} {t : Keyed β}
    (h : ∀ row ∈ t, row.1 < k) : Keyed.insert k v t = t ++ [(k, v)] := by
  induction t with
  | nil => rfl
  | cons row t ih =>
    obtain ⟨k', v'⟩ := row
    obtain ⟨hk, ht⟩ := List.forall_mem_cons.1 h
    have hnot : ¬ k < k' := Std.not_lt.2 (Std.le_of_lt hk)
    have hne : ¬ k = k' := fun e => Std.lt_irrefl (e ▸ hk)
    rw [Keyed.insert, if_neg hnot, if_neg hne, ih ht]
    rfl

/-- A table of rows whose keys increase is the list of these rows. -/
theorem Keyed.ofRows_of_sorted {β : Type} {rows : Keyed β} (h : Sorted rows) :
    ofRows rows = rows := by
  suffices hupdate : ∀ t : Keyed β, Sorted (t ++ rows) → update t rows = t ++ rows from
    hupdate [] h
  clear h
  induction rows with
  | nil => exact fun t _ => (List.append_nil t).symm
  | cons row rows ih =>
    intro t ht
    have hlast : ∀ r ∈ t, r.1 < row.1 := fun r hr =>
      (List.pairwise_append.1 ht).2.2 r hr row List.mem_cons_self
    rw [List.append_cons] at ht ⊢
    rw [update_cons, insert_eq_append hlast, ih _ ht]

namespace Json

/-! ## Depth and order -/

mutual
/-- How many arrays and objects are open at once in the text of a value. -/
def depth : Json → Nat
  | .arr items => itemDepth items + 1
  | .obj members => memberDepth members + 1
  | _ => 0

/-- The depth of the deepest element. -/
def itemDepth : List Json → Nat
  | [] => 0
  | x :: xs => max (depth x) (itemDepth xs)

/-- The depth of the deepest member. -/
def memberDepth : List (String × Json) → Nat
  | [] => 0
  | (_, x) :: xs => max (depth x) (memberDepth xs)
end

theorem itemDepth_le_iff {items : List Json} {d : Nat} :
    itemDepth items ≤ d ↔ ∀ x ∈ items, x.depth ≤ d := by
  induction items with
  | nil => simp [itemDepth]
  | cons x xs ih => rw [itemDepth, Nat.max_le, ih, List.forall_mem_cons]

theorem memberDepth_le_iff {members : List (String × Json)} {d : Nat} :
    memberDepth members ≤ d ↔ ∀ row ∈ members, row.2.depth ≤ d := by
  induction members with
  | nil => simp [memberDepth]
  | cons row rows ih => rw [memberDepth, Nat.max_le, ih, List.forall_mem_cons]

/-- The objects in a value are sorted, so writing their members one after the other gives them
back. -/
inductive Ordered : Json → Prop where
  | null : Ordered .null
  | bool (b : Bool) : Ordered (.bool b)
  | num (n : Number) : Ordered (.num n)
  | str (s : String) : Ordered (.str s)
  | arr {items : List Json} (h : ∀ x ∈ items, Ordered x) : Ordered (.arr items)
  | obj {members : List (String × Json)} (hsorted : Keyed.Sorted members)
      (h : ∀ row ∈ members, Ordered row.2) : Ordered (.obj members)

theorem Ordered.item {items : List Json} {x : Json} (h : Ordered (.arr items)) (hx : x ∈ items) :
    Ordered x := by
  cases h with
  | arr h => exact h x hx

theorem Ordered.member {members : List (String × Json)} {row : String × Json}
    (h : Ordered (.obj members)) (hrow : row ∈ members) : Ordered row.2 := by
  cases h with
  | obj _ h => exact h row hrow

theorem Ordered.sorted {members : List (String × Json)} (h : Ordered (.obj members)) :
    Keyed.Sorted members := by
  cases h with
  | obj hsorted _ => exact hsorted

/-! ## Reading the tokens of a value -/

/-- What is read behind tokens that are read on a condition. -/
theorem foldlM_append_of_eq_ite {α σ : Type} {f : σ → α → Option σ} {s s' : σ} {as : List α}
    {P : Prop} [Decidable P] (h : as.foldlM f s = if P then some s' else none) (bs : List α) :
    (as ++ bs).foldlM f s = if P then bs.foldlM f s' else none := by
  rw [List.foldlM_append, h]
  split <;> rfl

/-- Two bounds in a row are a bound of the greater depth. -/
theorem ite_ite_le_max {α : Type} {n a b m : Nat} {r : Option α} :
    (if n + a ≤ m then (if n + b ≤ m then r else none) else none) =
      if n + max a b ≤ m then r else none := by
  by_cases ha : n + a ≤ m
  · rw [if_pos ha]
    by_cases hb : n + b ≤ m
    · rw [if_pos hb, if_pos (by omega)]
    · rw [if_neg hb, if_neg (by omega)]
  · rw [if_neg ha, if_neg (by omega)]

/-- An opened array or object adds one to the depth of what stands in it. -/
theorem foldlM_open {stack : List Frame} {t : Token} {ts : List Token} {p : Parser} {d : Nat}
    {r : Option Parser}
    (ht : Parser.readValue stack t = if stack.length < maxDepth then some p else none)
    (h : stack.length < maxDepth → ts.foldlM Parser.read p =
      if stack.length + 1 + d ≤ maxDepth then r else none) :
    (t :: ts).foldlM Parser.read (.value stack) =
      if stack.length + (d + 1) ≤ maxDepth then r else none := by
  have hsum : stack.length + 1 + d = stack.length + (d + 1) := by omega
  rw [hsum] at h
  have hread : Parser.read (.value stack) t = if stack.length < maxDepth then some p else none := ht
  rw [List.foldlM_cons, hread]
  by_cases hdeep : stack.length < maxDepth
  · rw [if_pos hdeep]
    exact h hdeep
  · rw [if_neg hdeep, if_neg (by omega)]
    rfl

/-- Behind an opened array, the tokens of a value are those of the first element. -/
theorem foldlM_tokens_firstItem (x : Json) (ts : List Token) (stack : List Frame) :
    (tokens x ++ ts).foldlM Parser.read (.firstItem stack) =
      (tokens x ++ ts).foldlM Parser.read (.value (.item [] :: stack)) := by
  cases x with
  | null | bool | num | str => rfl
  | arr items => cases items <;> rfl
  | obj members => cases members <;> rfl

/-- The first of some elements and the others. -/
theorem foldlM_items {x : Json} {xs items : List Json} {stack : List Frame}
    (hx : (tokens x).foldlM Parser.read (.value (.item items :: stack)) =
      if stack.length + 1 + x.depth ≤ maxDepth then some (.afterItem (x :: items) stack) else none)
    (hxs : (itemTokens xs).foldlM Parser.read (.afterItem (x :: items) stack) =
      if stack.length + 1 + itemDepth xs ≤ maxDepth then
        some (Parser.deliver (.arr ((x :: items).reverse ++ xs)) stack)
      else none) :
    (tokens x ++ itemTokens xs).foldlM Parser.read (.value (.item items :: stack)) =
      if stack.length + 1 + itemDepth (x :: xs) ≤ maxDepth then
        some (Parser.deliver (.arr (items.reverse ++ x :: xs)) stack)
      else none := by
  rw [foldlM_append_of_eq_ite hx, hxs, ite_ite_le_max, List.reverse_cons, List.append_assoc]
  rfl

/-- The value of the first of some members and the other members. -/
theorem foldlM_members {k : String} {x : Json} {rows members : List (String × Json)}
    {stack : List Frame} (hsorted : Keyed.Sorted (members ++ (k, x) :: rows))
    (hx : (tokens x).foldlM Parser.read (.value (.member members k :: stack)) =
      if stack.length + 1 + x.depth ≤ maxDepth then
        some (.afterMember (Keyed.insert k x members) stack)
      else none)
    (hrows : Keyed.Sorted ((members ++ [(k, x)]) ++ rows) →
      (memberTokens rows).foldlM Parser.read (.afterMember (members ++ [(k, x)]) stack) =
        if stack.length + 1 + memberDepth rows ≤ maxDepth then
          some (Parser.deliver (.obj ((members ++ [(k, x)]) ++ rows)) stack)
        else none) :
    (tokens x ++ memberTokens rows).foldlM Parser.read (.value (.member members k :: stack)) =
      if stack.length + 1 + memberDepth ((k, x) :: rows) ≤ maxDepth then
        some (Parser.deliver (.obj (members ++ (k, x) :: rows)) stack)
      else none := by
  have hinsert : Keyed.insert k x members = members ++ [(k, x)] :=
    Keyed.insert_eq_append fun row hrow =>
      (List.pairwise_append.1 hsorted).2.2 row hrow (k, x) List.mem_cons_self
  have happend : members ++ [(k, x)] ++ rows = members ++ (k, x) :: rows := by
    rw [List.append_assoc, List.singleton_append]
  rw [happend] at hrows
  rw [foldlM_append_of_eq_ite hx, hinsert, hrows hsorted, ite_ite_le_max]
  rfl

mutual
/-- **The tokens of a value are read as the value,** unless it is nested too deeply where it
stands. -/
theorem foldlM_tokens : (v : Json) → v.Ordered → {stack : List Frame} →
    stack.length ≤ maxDepth → (tokens v).foldlM Parser.read (.value stack) =
      if stack.length + v.depth ≤ maxDepth then some (Parser.deliver v stack) else none
  | .null, _, _, h => (if_pos h).symm
  | .bool _, _, _, h => (if_pos h).symm
  | .num _, _, _, h => (if_pos h).symm
  | .str _, _, _, h => (if_pos h).symm
  | .arr [], _, _, _ => foldlM_open rfl fun hdeep => (if_pos hdeep).symm
  | .obj [], _, _, _ => foldlM_open rfl fun hdeep => (if_pos hdeep).symm
  | .arr (x :: xs), hv, stack, _ => by
    refine foldlM_open (d := itemDepth (x :: xs)) rfl fun hdeep => ?_
    have hx : x.Ordered := hv.item List.mem_cons_self
    have hxs : ∀ y ∈ xs, y.Ordered := fun y hy => hv.item (List.mem_cons_of_mem _ hy)
    rw [foldlM_tokens_firstItem]
    exact foldlM_items (foldlM_tokens x hx hdeep) (foldlM_itemTokens xs hxs hdeep [x])
  | .obj ((k, x) :: rows), hv, stack, _ => by
    refine foldlM_open (d := memberDepth ((k, x) :: rows)) rfl fun hdeep => ?_
    have hx : x.Ordered := hv.member List.mem_cons_self
    have hrows : ∀ row ∈ rows, row.2.Ordered :=
      fun row hrow => hv.member (List.mem_cons_of_mem _ hrow)
    have hsorted : Keyed.Sorted ([] ++ (k, x) :: rows) := hv.sorted
    exact foldlM_members hsorted (foldlM_tokens x hx hdeep)
      (foldlM_memberTokens rows hrows hdeep _)

/-- The tokens behind an element are read as the rest of its array. -/
theorem foldlM_itemTokens : (xs : List Json) → (∀ x ∈ xs, x.Ordered) → {stack : List Frame} →
    stack.length < maxDepth → (items : List Json) →
    (itemTokens xs).foldlM Parser.read (.afterItem items stack) =
      if stack.length + 1 + itemDepth xs ≤ maxDepth then
        some (Parser.deliver (.arr (items.reverse ++ xs)) stack)
      else none
  | [], _, stack, h, items => by
    rw [List.append_nil]
    exact (if_pos h).symm
  | x :: xs, hall, stack, h, items => by
    obtain ⟨hx, hxs⟩ := List.forall_mem_cons.1 hall
    exact foldlM_items (foldlM_tokens x hx h) (foldlM_itemTokens xs hxs h (x :: items))

/-- The tokens behind a member are read as the rest of its object. -/
theorem foldlM_memberTokens : (rows : List (String × Json)) → (∀ row ∈ rows, row.2.Ordered) →
    {stack : List Frame} → stack.length < maxDepth → (members : List (String × Json)) →
    Keyed.Sorted (members ++ rows) →
    (memberTokens rows).foldlM Parser.read (.afterMember members stack) =
      if stack.length + 1 + memberDepth rows ≤ maxDepth then
        some (Parser.deliver (.obj (members ++ rows)) stack)
      else none
  | [], _, stack, h, members, _ => by
    rw [List.append_nil]
    exact (if_pos h).symm
  | (k, x) :: rows, hall, stack, h, members, hsorted => by
    obtain ⟨hx, hrows⟩ := List.forall_mem_cons.1 hall
    exact foldlM_members hsorted (foldlM_tokens x hx h) (foldlM_memberTokens rows hrows h _)
end

/-- **Which values are read again from their text.** -/
theorem parse?_render {v : Json} (hspellable : v.Spellable) (hordered : v.Ordered) :
    parse? v.render = if v.depth ≤ maxDepth then some v else none := by
  have hempty : ([] : List Frame).length ≤ maxDepth := Nat.zero_le maxDepth
  have hread := foldlM_tokens v hordered hempty
  rw [List.length_nil, Nat.zero_add] at hread
  rw [parse?, scan?_render hspellable, Option.bind_some, ofTokens?, hread]
  split <;> rfl

/-- A text that is a strict numeral is read as the number of the numeral, if it has one. -/
theorem parse?_spell {m : Numeral} (h : m.WellSpelled) (hstrict : m.isStrict = true) :
    parse? (String.ofList m.spell) = (numberOf? m).map Json.num := by
  rw [parse?, String.toList_ofList, scan?, foldlM_spell_numeral h hstrict, Option.bind_some,
    Lexer.finish]
  simp only [List.reverse_reverse]
  rw [numeralToken?, Numeral.ofChars?_spell h]
  simp only
  rw [if_pos hstrict]
  cases numberOf? m with
  | none | some n => rfl

end Json
end Atlas
