/-!
# Decimal numbers

A decimal number is a coefficient and a power of ten. Digit texts are read into the form without
trailing zeros, so `1.50`, `1.5` and `15e-1` give the same coefficient and power.

## Main statements

* `Decimal.ofDigits_append_zeros` — zeros at the end of the digits only move the power of ten
-/

namespace Atlas

/-- The number `coeff · 10 ^ exp`. -/
structure Decimal where
  coeff : Nat
  exp : Int
  deriving DecidableEq, Repr

/-! ## Digits -/

/-- The ten digits. -/
def isDigit (c : Char) : Bool := '0' ≤ c && c ≤ '9'

/-- The value of a digit. -/
def digitValue (c : Char) : Nat := c.toNat - '0'.toNat

/-- The number that a list of digits spells, most significant digit first. -/
def digitsValue (ds : List Char) : Nat := ds.foldl (fun n d => 10 * n + digitValue d) 0

/-- The digits of a number. -/
def digits (n : Nat) : List Char := Nat.toDigits 10 n

/-- The digits of a number, filled up with zeros in front to at least `width` of them. -/
def paddedDigits (width n : Nat) : List Char :=
  let ds := digits n
  List.replicate (width - ds.length) '0' ++ ds

namespace Decimal

/-- Reads digits, `exp` places from the right of the point. Zeros at the end go into the power of
ten, and the number zero has the power 0. -/
def ofDigits (ds : List Char) (exp : Int) : Decimal :=
  let rev := ds.reverse
  let kept := rev.dropWhile (· == '0')
  if kept.isEmpty then ⟨0, 0⟩
  else ⟨digitsValue kept.reverse, exp + (rev.takeWhile (· == '0')).length⟩

/-- The same number without zeros at the end of its coefficient. -/
def trimZeros (d : Decimal) : Decimal := ofDigits (digits d.coeff) d.exp

/-- The double nearest to the number, the even one of two that are equally near, and infinity
above the range of doubles. -/
def toFloat (d : Decimal) : Float :=
  Float.ofScientific d.coeff (decide (d.exp < 0)) d.exp.natAbs

/-- A zero at the end of the digits only moves the power of ten. -/
theorem ofDigits_append_zero (ds : List Char) (exp : Int) :
    ofDigits (ds ++ ['0']) exp = ofDigits ds (exp + 1) := by
  unfold ofDigits
  simp only [List.reverse_append, List.reverse_cons, List.reverse_nil, List.nil_append,
    List.cons_append, List.dropWhile_cons, List.takeWhile_cons, beq_self_eq_true, if_true,
    List.length_cons]
  split
  · rfl
  · simp only [Decimal.mk.injEq, true_and]; omega

/-- **Zeros at the end of the digits only move the power of ten.** -/
theorem ofDigits_append_zeros (ds : List Char) (exp : Int) (n : Nat) :
    ofDigits (ds ++ List.replicate n '0') exp = ofDigits ds (exp + n) := by
  induction n generalizing exp with
  | zero => simp
  | succ n ih =>
    rw [List.replicate_succ', ← List.append_assoc, ofDigits_append_zero, ih]
    congr 1
    omega

end Decimal
end Atlas
