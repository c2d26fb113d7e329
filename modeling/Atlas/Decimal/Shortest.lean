import Atlas.Decimal.Basic
import Atlas.Decimal.Binary64

/-!
# The shortest decimal of a double

Of all decimal numbers that read back as a given double, the shortest one has the fewest digits,
and among those it is the nearest to the double. If a grid of decimals with `n` digits holds any
number that reads back, then it holds one next to the exact value, below it or above it. So only
these two neighbours are tried, on the grids with 1, 2, … 17 digits, and the first grid with a hit
wins. Every double has a hit with at most 17 digits; the exact expansion, which always reads back,
ends the search in any case.
-/

namespace Atlas.Decimal

/-- What to take when two shortest decimals are equally near. -/
inductive Tie where
  /-- The one whose last digit is even. -/
  | toEven
  /-- The greater one. -/
  | up
  deriving DecidableEq, Repr

/-- The number of digits of a number; zero has one. -/
def digitCount (n : Nat) : Nat := (digits n).length

/-- The power of ten of the leading digit of the positive fraction `num / den`. -/
def leadingPower (num den : Nat) : Int :=
  if den ≤ num then (digitCount (num / den) : Int) - 1
  else
    -- the inverse has `t` digits before its point, so the power is `-t` or `1 - t`
    let t := digitCount (den / num)
    if den ≤ num * Nat.pow 10 (t - 1) then 1 - (t : Int) else -(t : Int)

/-- The neighbour of `num / den` below it on the grid of multiples of `10 ^ power`, as a
coefficient, with the remainder and the divisor that tell how far away it is. -/
def gridBelow (num den : Nat) (power : Int) : Nat × Nat × Nat :=
  let n := num * Nat.pow 10 (-power).toNat
  let d := den * Nat.pow 10 power.toNat
  (n / d, n % d, d)

/-- Whether a decimal reads back as the double `x`. -/
def readsBack (x : Float) (d : Decimal) : Bool := d.toFloat.toBits == x.toBits

/-- Of the two neighbours of the exact value on one grid, the nearer one that reads back. -/
def gridHit (x : Float) (tie : Tie) (num den : Nat) (power : Int) : Option Decimal :=
  let (coeff, rest, unit) := gridBelow num den power
  let below : Decimal := trimZeros ⟨coeff, power⟩
  let above : Decimal := trimZeros ⟨coeff + 1, power⟩
  let preferAbove :=
    if 2 * rest = unit then tie = .up || coeff % 2 = 1 else decide (unit < 2 * rest)
  (if preferAbove then [above, below] else [below, above]).find? (readsBack x)

/-- The decimal number `m · 2 ^ e` without rounding. -/
def exact (mantissa : Nat) (exponent : Int) : Decimal :=
  trimZeros (if 0 ≤ exponent then ⟨mantissa * Nat.pow 2 exponent.toNat, 0⟩
    else ⟨mantissa * Nat.pow 5 (-exponent).toNat, exponent⟩)

/-- The shortest decimal that reads back as the positive double `x = m · 2 ^ e`. -/
def shortest (x : Float) (tie : Tie) (mantissa : Nat) (exponent : Int) : Decimal :=
  let num := Binary64.numerator mantissa exponent
  let den := Binary64.denominator exponent
  let lead := leadingPower num den
  if mantissa = 0 then ⟨0, 0⟩
  else
    ((List.range 17).findSome? (fun (n : Nat) => gridHit x tie num den (lead - (n : Int)))).getD
      (exact mantissa exponent)

/-- A grid only ever answers with a decimal that reads back. -/
theorem readsBack_gridHit {x : Float} {tie : Tie} {num den : Nat} {power : Int} {d : Decimal}
    (h : gridHit x tie num den power = some d) : readsBack x d = true :=
  List.find?_some h

end Atlas.Decimal
