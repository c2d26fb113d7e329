import Atlas.Decimal.Binary64

/-!
# Coordinates as numbers

Boxes and views compute with coordinates, and only a few operations are needed: the four
arithmetical ones, comparisons, powers of two and the whole part of a binary logarithm. They are
collected in a class with two instances. The doubles are what a running map uses. The rational
numbers are exact, so a law that fails for doubles only because of rounding can be stated and
checked for them.

## Order

Doubles are not linearly ordered, since what is no number compares with nothing. `Scalar.min` and
`Scalar.max` therefore say which operand wins: one that is no number loses, and of two equal ones
the first is taken.
-/

namespace Atlas

/-- Numbers that boxes and views can compute with. -/
class Scalar (α : Type) extends Add α, Sub α, Mul α, Div α, LE α, LT α where
  /-- A whole number. -/
  ofInt : Int → α
  /-- Whether a number is neither infinite nor undefined. -/
  isFinite : α → Bool
  /-- A power of two. -/
  twoPow : Int → α
  /-- The whole part, downwards, of the binary logarithm of a positive number. -/
  floorLog2 : α → Int
  decLe : DecidableLE α
  decLt : DecidableLT α

attribute [reducible, instance] Scalar.decLe Scalar.decLt

namespace Scalar

variable {α : Type} [Scalar α]

/-- The smaller of two numbers. -/
def min (a b : α) : α := if b < a then b else if a ≤ a then a else b

/-- The greater of two numbers. -/
def max (a b : α) : α := if a < b then b else if a ≤ a then a else b

end Scalar

/-! ## Doubles -/

/-- The power of two as a double: zero and infinity outside the range of doubles. Below that range
the power is the inverse of an infinite one, so the small doubles between `2 ^ -1074` and
`2 ^ -1024` are not among the values. -/
def floatTwoPow (z : Int) : Float :=
  let power (n : Nat) : Float :=
    if n < 1024 then Float.ofBits ((n + 1023) * 0x10000000000000).toUInt64 else 1.0 / 0.0
  if 0 ≤ z then power z.toNat else 1.0 / power (-z).toNat

/-- How many doubles just below `2 ^ k` have a logarithm that rounds to `k`. Between two powers of
two, `2 ^ e < k ≤ 2 ^ (e + 1)`, neighbouring logarithms are `2 ^ (e - 52)` apart, and the number
with `j` units less than `2 ^ k` has a logarithm that is smaller by `j / ln 2` units, hence the
factor `ln 2`. -/
def logSlack (k : Int) : Nat :=
  if k ≤ 2 then 0 else Nat.pow 2 (Nat.log2 (k - 1).toNat) * 693147 / 1000000

/-- The whole part of the binary logarithm after the logarithm has been rounded to a double. -/
def floatFloorLog2 (x : Float) : Int :=
  match Binary64.ofFloat x with
  | .nan => 0
  | .infinite _ => 0x80000000
  | .finite _ 0 _ => -0x80000000
  | .finite _ mantissa exponent =>
    let k := (Nat.log2 mantissa : Int) + exponent
    -- the mantissa of a number just below `2 ^ (k + 1)` has 53 bits, nearly all of them set
    if 0x20000000000000 - mantissa ≤ logSlack (k + 1) then k + 1 else k

instance : Scalar Float where
  ofInt := Float.ofInt
  isFinite := Float.isFinite
  twoPow := floatTwoPow
  floorLog2 := floatFloorLog2
  decLe := inferInstance
  decLt := inferInstance

/-! ## Rational numbers -/

/-- The whole part of the binary logarithm of a positive rational number. -/
def ratFloorLog2 (x : Rat) : Int :=
  let k := (Nat.log2 x.num.toNat : Int) - Nat.log2 x.den
  if x.den * Nat.pow 2 k.toNat ≤ x.num.toNat * Nat.pow 2 (-k).toNat then k else k - 1

/-- A power of two as a rational number. -/
def ratTwoPow (z : Int) : Rat :=
  if 0 ≤ z then (Nat.pow 2 z.toNat : Rat) else 1 / (Nat.pow 2 (-z).toNat : Rat)

instance : Scalar Rat where
  ofInt n := n
  isFinite _ := true
  twoPow := ratTwoPow
  floorLog2 := ratFloorLog2
  decLe := inferInstance
  decLt := inferInstance

example : floatTwoPow 10 = 1024 := by decide +kernel
example : floatFloorLog2 1023.9999999999999 = 10 := by decide +kernel
example : floatFloorLog2 1023.999999999999 = 9 := by decide +kernel
example : ratFloorLog2 (1023 : Rat) = 9 := by decide +kernel

end Atlas
