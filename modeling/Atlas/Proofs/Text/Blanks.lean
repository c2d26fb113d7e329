import Atlas.Decimal.Basic
import Atlas.Text.Blank
import Mathlib.Data.List.Basic

/-!
# Blanks around a text

A text is read without the blanks in front of it or on both sides. What begins with a character
that is not blank, such as a digit, is not touched.
-/

namespace Atlas.Text

/-- Digits are not blank. -/
theorem isBlank_of_isDigit {c : Char} (h : isDigit c = true) : isBlank c = false := by
  rw [isDigit, Bool.and_eq_true, decide_eq_true_eq, decide_eq_true_eq] at h
  have hlow : 48 ≤ c.toNat := h.1
  have hhigh : c.toNat ≤ 57 := h.2
  simp [isBlank]
  omega

theorem trimLeft_cons {c : Char} (h : isBlank c = false) (cs : List Char) :
    trimLeft (c :: cs) = c :: cs := by
  rw [trimLeft, List.dropWhile_cons, h, if_neg Bool.false_ne_true]

theorem trimLeft_append {blanks cs : List Char} (hblanks : ∀ c ∈ blanks, isBlank c = true)
    (hcs : ∀ c ∈ cs.head?, isBlank c = false) : trimLeft (blanks ++ cs) = cs := by
  rw [trimLeft, List.dropWhile_append_of_pos hblanks]
  cases cs with
  | nil => rfl
  | cons c cs => exact trimLeft_cons (hcs c rfl) cs

/-- Blanks on both sides are dropped. -/
theorem trim_append {before cs after : List Char} (hbefore : ∀ c ∈ before, isBlank c = true)
    (hafter : ∀ c ∈ after, isBlank c = true) (hne : cs ≠ [])
    (hcs : ∀ c ∈ cs, isBlank c = false) : trim (before ++ cs ++ after) = cs := by
  have hfront : ∀ c ∈ (cs ++ after).head?, isBlank c = false := by
    intro c hc
    rw [List.head?_append_of_ne_nil _ hne] at hc
    exact hcs c (List.mem_of_mem_head? hc)
  have hback : ∀ c ∈ cs.reverse.head?, isBlank c = false := by
    intro c hc
    exact hcs c (List.mem_reverse.1 (List.mem_of_mem_head? hc))
  rw [trim, List.append_assoc, trimLeft_append hbefore hfront, List.reverse_append,
    trimLeft_append (fun c hc => hafter c (List.mem_reverse.1 hc)) hback, List.reverse_reverse]

end Atlas.Text
