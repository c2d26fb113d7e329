import Atlas.Decimal.Shortest

/-!
# How a double is written

A layout says how the shortest digits of a double are set: from which powers of ten on an exponent
is written, whether a whole number shows its point, and what happens to a tie. Two layouts are in
use: the one of JSON texts and the plain one of messages. A third way of writing has a fixed
number of places after the point, rounded from the exact value.
-/

namespace Atlas.Decimal

/-- How digits are set. -/
structure Layout where
  /-- Which of two equally near shortest decimals is taken. -/
  tie : Tie
  /-- The powers of ten of the leading digit, least and greatest, that are written without an
  exponent; nothing means that an exponent is never written. -/
  positional : Option (Int × Int)
  /-- Whether a whole number without an exponent ends in `.0`. -/
  showPoint : Bool

/-- JSON texts write an exponent below `0.00001` and from `10000000000000000.0` on. -/
def Layout.json : Layout := ⟨.toEven, some (-5, 15), true⟩

/-- Messages write every digit and no exponent. -/
def Layout.plain : Layout := ⟨.up, none, false⟩

/-- Digits with a point behind the first `whole` of them; missing digits are zeros. -/
def placePoint (ds : List Char) (whole : Int) (showPoint : Bool) : List Char :=
  if whole ≤ 0 then
    '0' :: '.' :: (List.replicate (-whole).toNat '0' ++ ds)
  else
    let front := ds.take whole.toNat ++ List.replicate (whole.toNat - ds.length) '0'
    let back := ds.drop whole.toNat
    if back.isEmpty then (if showPoint then front ++ ['.', '0'] else front)
    else front ++ '.' :: back

/-- Digits with an exponent: one digit, a point and the others if there are any, `e`, a sign and
the exponent. -/
def placeExponent (ds : List Char) (power : Int) : List Char :=
  let front := match ds with
    | d :: e :: rest => d :: '.' :: e :: rest
    | _ => ds
  front ++ 'e' :: (if power < 0 then '-' else '+') :: digits power.natAbs

/-- Sets a decimal number in a layout. -/
def Layout.place (layout : Layout) (d : Decimal) : List Char :=
  let ds := digits d.coeff
  let power := d.exp + (ds.length : Int) - 1
  let positional := match layout.positional with
    | none => true
    | some (least, greatest) => d.coeff = 0 || (least ≤ power && power ≤ greatest)
  if d.coeff = 0 then (if layout.showPoint then ['0', '.', '0'] else ['0'])
  else if positional then placePoint ds (power + 1) layout.showPoint
  else placeExponent ds power

/-- The text of the doubles that are no numbers, and the sign of the others before `body`. -/
def signed (negative : Bool) (body : List Char) : List Char :=
  if negative then '-' :: body else body

/-- Writes a double in a layout. -/
def Layout.write (layout : Layout) (x : Float) : String :=
  match Binary64.ofFloat x with
  | .nan => "NaN"
  | .infinite negative => String.ofList (signed negative "inf".toList)
  | .finite negative mantissa exponent =>
    String.ofList (signed negative
      (layout.place (shortest (if negative then -x else x) layout.tie mantissa exponent)))

/-! ## Fixed places -/

/-- The whole number nearest to `num / den`, the even one of two that are equally near. -/
def roundHalfEven (num den : Nat) : Nat :=
  let q := num / den
  let r := num % den
  if 2 * r < den then q else if den < 2 * r then q + 1 else q + q % 2

/-- **Rounding to a whole number moves a fraction by at most one half.** -/
theorem roundHalfEven_near {num den : Nat} (h : 0 < den) :
    2 * num ≤ 2 * (den * roundHalfEven num den) + den ∧
      2 * (den * roundHalfEven num den) ≤ 2 * num + den := by
  have hdm : den * (num / den) + num % den = num := Nat.div_add_mod num den
  have hr := Nat.mod_lt num h
  have cases : (roundHalfEven num den = num / den ∧ 2 * (num % den) ≤ den) ∨
      (roundHalfEven num den = num / den + 1 ∧ den ≤ 2 * (num % den)) := by
    unfold roundHalfEven
    simp only
    split
    · exact .inl ⟨rfl, by omega⟩
    · split
      · exact .inr ⟨rfl, by omega⟩
      · rcases Nat.mod_two_eq_zero_or_one (num / den) with e | e
        · exact .inl ⟨by rw [e]; rfl, by omega⟩
        · exact .inr ⟨by rw [e], by omega⟩
  rcases cases with ⟨e, he⟩ | ⟨e, he⟩
  · rw [e]; omega
  · rw [e, Nat.mul_add, Nat.mul_one]; omega

/-- Of two equally near whole numbers the even one is taken. -/
theorem roundHalfEven_tie {num den : Nat} (h : 2 * (num % den) = den) :
    roundHalfEven num den % 2 = 0 := by
  unfold roundHalfEven
  simp only
  rw [if_neg (by omega), if_neg (by omega)]
  omega

/-- The digits of a whole number with a point before the last `places` of them. -/
def placeFixed (places n : Nat) : List Char :=
  let ds := paddedDigits (places + 1) n
  let whole := ds.length - places
  if places = 0 then ds else ds.take whole ++ '.' :: ds.drop whole

/-- Writes a double with a fixed number of places, rounded from its exact value. A zero keeps the
sign of the double. -/
def writeFixed (places : Nat) (x : Float) : String :=
  match Binary64.ofFloat x with
  | .nan => "NaN"
  | .infinite negative => String.ofList (signed negative "inf".toList)
  | .finite negative mantissa exponent =>
    let num := Binary64.numerator mantissa exponent * Nat.pow 10 places
    String.ofList (signed negative
      (placeFixed places (roundHalfEven num (Binary64.denominator exponent))))

end Atlas.Decimal
