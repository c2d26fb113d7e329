/-!
# Sorted tables

A table with text keys is kept as the list of its rows, keys strictly increasing. Two tables with
the same rows are then the same list, whatever the order in which the rows were written, and a
later row for a key takes the place of the earlier one.

## Main statements

* `Keyed.lookup_insert` — a written row is found, every other key keeps its row
* `Keyed.Sorted.insert` — writing keeps the keys strictly increasing
-/

namespace Atlas

/-- Rows by key, in the order of the keys. -/
abbrev Keyed (β : Type) := List (String × β)

namespace Keyed

variable {β : Type}

/-- The keys increase strictly, so no key has two rows. -/
def Sorted (t : Keyed β) : Prop := t.Pairwise (fun a b => a.1 < b.1)

/-- Writes a row, in place of the row that the key had. -/
def insert (k : String) (v : β) : Keyed β → Keyed β
  | [] => [(k, v)]
  | (k', v') :: t =>
    if k < k' then (k, v) :: (k', v') :: t
    else if k = k' then (k, v) :: t
    else (k', v') :: insert k v t

/-- The row of a key. -/
def lookup (k : String) : Keyed β → Option β
  | [] => none
  | (k', v) :: t => if k = k' then some v else lookup k t

/-- Writes all rows one after the other; of two rows for one key the later one stays. -/
def update (t : Keyed β) (rows : List (String × β)) : Keyed β :=
  rows.foldl (fun t row => insert row.1 row.2 t) t

/-- The table of some rows in any order. -/
def ofRows (rows : List (String × β)) : Keyed β := update [] rows

/-! ## Small lemmas -/

theorem lookup_cons (k k' : String) (v : β) (t : Keyed β) :
    lookup k ((k', v) :: t) = if k = k' then some v else lookup k t := rfl

/-- **A written row is found, and every other key keeps its row.** -/
theorem lookup_insert (k j : String) (v : β) (t : Keyed β) :
    lookup j (insert k v t) = if j = k then some v else lookup j t := by
  induction t with
  | nil => rfl
  | cons row t ih =>
    obtain ⟨k', v'⟩ := row
    rw [insert]
    split
    · rw [lookup_cons]
    · split
      · next h => subst h; simp only [lookup_cons]; split <;> rfl
      · next h =>
        simp only [lookup_cons, ih]
        split
        · next hj => subst hj; rw [if_neg (fun e => h e.symm)]
        · rfl

@[simp] theorem update_nil (t : Keyed β) : update t [] = t := rfl

@[simp] theorem update_cons (t : Keyed β) (k : String) (v : β) (rows : List (String × β)) :
    update t ((k, v) :: rows) = update (insert k v t) rows := rfl

/-- The keys after a write are the keys before it and the written one. -/
theorem mem_keys_insert {k : String} {v : β} {t : Keyed β} {row : String × β}
    (h : row ∈ insert k v t) : row = (k, v) ∨ row ∈ t := by
  induction t with
  | nil => simpa [insert] using h
  | cons r t ih =>
    obtain ⟨k', v'⟩ := r
    rw [insert] at h
    split at h
    · simpa using h
    · split at h
      · rcases List.mem_cons.1 h with h | h
        · exact .inl h
        · exact .inr (List.mem_cons_of_mem _ h)
      · rcases List.mem_cons.1 h with h | h
        · exact .inr (by rw [h]; exact List.mem_cons_self)
        · exact (ih h).imp id (List.mem_cons_of_mem _)

/-- **Writing keeps the keys strictly increasing.** -/
theorem Sorted.insert {t : Keyed β} (h : Sorted t) (k : String) (v : β) :
    Sorted (Keyed.insert k v t) := by
  induction t with
  | nil => exact List.pairwise_singleton _ _
  | cons r t ih =>
    obtain ⟨k', v'⟩ := r
    have hr := (List.pairwise_cons.1 h).1
    have ht := (List.pairwise_cons.1 h).2
    rw [Keyed.insert]
    split
    · next hlt =>
      refine List.pairwise_cons.2 ⟨fun row hrow => ?_, h⟩
      rcases List.mem_cons.1 hrow with e | hm
      · rw [e]; exact hlt
      · exact String.lt_trans hlt (hr row hm)
    · split
      · next heq => subst heq; exact List.pairwise_cons.2 ⟨hr, ht⟩
      · next hlt hne =>
        refine List.pairwise_cons.2 ⟨fun row hrow => ?_, ih ht⟩
        rcases mem_keys_insert hrow with e | hm
        · rw [e]
          exact Std.lt_of_le_of_ne (Std.not_lt.1 hlt) (fun e => hne e.symm)
        · exact hr row hm

/-- A table made of rows in any order is sorted. -/
theorem sorted_ofRows (rows : List (String × β)) : Sorted (ofRows rows) := by
  suffices h : ∀ t : Keyed β, Sorted t → Sorted (update t rows) from h [] List.Pairwise.nil
  induction rows with
  | nil => exact fun t ht => ht
  | cons row rows ih => exact fun t ht => ih _ (ht.insert row.1 row.2)

end Keyed
end Atlas
