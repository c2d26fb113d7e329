/-!
# The parts of a double

A double is not a number, infinite, or the finite number `± m · 2 ^ e`. The parts are read off its
64 bits: one sign bit, eleven exponent bits and 52 fraction bits. All exact reasoning about the
printed digits of a double, about rounding it and about its binary logarithm goes through them.
-/

namespace Atlas

/-- What a double stands for. -/
inductive Binary64 where
  | nan
  | infinite (negative : Bool)
  /-- The number `± mantissa · 2 ^ exponent`. -/
  | finite (negative : Bool) (mantissa : Nat) (exponent : Int)
  deriving DecidableEq, Repr

namespace Binary64

/-- Reads the parts of a double off its bits. -/
def ofFloat (x : Float) : Binary64 :=
  let bits : Nat := x.toBits.toNat
  -- the sign is above 63 bits, and the exponent above the 52 bits of the fraction
  let negative := decide (0x8000000000000000 ≤ bits)
  let biased : Nat := bits / 0x10000000000000 % 2048
  let fraction : Nat := bits % 0x10000000000000
  if biased = 2047 then
    if fraction = 0 then infinite negative else nan
  else if biased = 0 then finite negative fraction (-1074)
  else finite negative (0x10000000000000 + fraction) ((biased : Int) - 1075)

/-- The numerator of `m · 2 ^ e` as a fraction of integers. -/
def numerator (mantissa : Nat) (exponent : Int) : Nat := mantissa * Nat.pow 2 exponent.toNat

/-- The denominator of `m · 2 ^ e` as a fraction of integers. -/
def denominator (exponent : Int) : Nat := Nat.pow 2 (-exponent).toNat

theorem denominator_pos (exponent : Int) : 0 < denominator exponent := Nat.two_pow_pos _

example : ofFloat 1.5 = finite false 0x18000000000000 (-52) := by decide +kernel
example : ofFloat (-0.0) = finite true 0 (-1074) := by decide +kernel
example : ofFloat (1.0 / 0.0) = infinite false := by decide +kernel
example : ofFloat (0.0 / 0.0) = nan := by decide +kernel

end Binary64
end Atlas
