import Atlas.Decimal.Basic

/-!
# Numerals

A numeral is a number as it stands in a text: a sign, digits, a point with digits and an exponent.
It is taken apart once, and two grammars then say which numerals they admit. JSON texts are
strict. Texts typed by a person or sent by another component are lenient: they may have a plus
sign, zeros in front, and the digits on one side of the point may be missing.
-/

namespace Atlas

/-- The sign in front of a numeral. -/
inductive Sign where
  | absent
  | plus
  | minus
  deriving DecidableEq, Repr

/-- A number as it is spelled. -/
structure Numeral where
  sign : Sign
  /-- The digits before the point. -/
  whole : List Char
  /-- The digits after the point, if there is a point. -/
  fraction : Option (List Char)
  exponent : Option Int
  deriving DecidableEq, Repr

namespace Numeral

/-! ## Taking a text apart -/

/-- Splits off a sign. -/
def splitSign : List Char → Sign × List Char
  | '-' :: cs => (.minus, cs)
  | '+' :: cs => (.plus, cs)
  | cs => (.absent, cs)

/-- Splits off the digits in front. -/
def splitDigits (cs : List Char) : List Char × List Char :=
  (cs.takeWhile isDigit, cs.dropWhile isDigit)

/-- An optional sign and at least one digit. -/
def readInt? (cs : List Char) : Option Int :=
  let (sign, ds) := splitSign cs
  if ds.isEmpty || !ds.all isDigit then none
  else some (if sign = .minus then -(digitsValue ds : Int) else digitsValue ds)

/-- The exponent that is all of a text: nothing, or a mark and a whole number. -/
def readExponent? : List Char → Option (Option Int)
  | [] => some none
  | c :: cs => if c = 'e' ∨ c = 'E' then (readInt? cs).map some else none

/-- Takes a text apart; nothing if it has characters that no numeral has at their place. -/
def ofChars? (cs : List Char) : Option Numeral :=
  let (sign, cs) := splitSign cs
  let (whole, cs) := splitDigits cs
  match cs with
  | '.' :: cs =>
    let (fraction, cs) := splitDigits cs
    (readExponent? cs).map (⟨sign, whole, some fraction, ·⟩)
  | cs => (readExponent? cs).map (⟨sign, whole, none, ·⟩)

/-! ## The two grammars -/

/-- A JSON numeral has no plus sign, no needless zero in front, and digits on both sides of a
point. -/
def isStrict (n : Numeral) : Bool :=
  n.sign != .plus && n.fraction != some [] &&
    match n.whole with
    | [] => false
    | ['0'] => true
    | d :: _ => d != '0'

/-- A lenient numeral has a digit on at least one side of the point. -/
def isLenient (n : Numeral) : Bool :=
  !(n.whole.isEmpty && (n.fraction.getD []).isEmpty)

/-- Every strict numeral is a lenient one. -/
theorem isLenient_of_isStrict {n : Numeral} (h : n.isStrict = true) : n.isLenient = true := by
  obtain ⟨sign, whole, fraction, exponent⟩ := n
  cases whole with
  | nil => simp [isStrict] at h
  | cons d ds => rfl

/-! ## The number that is spelled -/

/-- The number without its sign. -/
def magnitude (n : Numeral) : Decimal :=
  let fraction := n.fraction.getD []
  Decimal.ofDigits (n.whole ++ fraction) (n.exponent.getD 0 - fraction.length)

/-- The double nearest to the number; a minus sign also shows in a zero. -/
def toFloat (n : Numeral) : Float :=
  if n.sign = .minus then -n.magnitude.toFloat else n.magnitude.toFloat

/-- Whether only a sign and digits are spelled. -/
def isWhole (n : Numeral) : Bool := n.fraction.isNone && n.exponent.isNone

/-- The whole number that the digits before the point spell. -/
def toInt (n : Numeral) : Int :=
  if n.sign = .minus then -(digitsValue n.whole : Int) else digitsValue n.whole

/-- Reads a whole text as a lenient numeral. -/
def readFloat? (cs : List Char) : Option Float :=
  (ofChars? cs).bind (fun n => if n.isLenient then some n.toFloat else none)

example : readFloat? "+.5e1".toList = some 5.0 := by decide +kernel
example : readFloat? "5.".toList = some 5.0 := by decide +kernel
example : readFloat? ".".toList = none := by decide +kernel
example : readFloat? "1e".toList = none := by decide +kernel
example : readInt? "-007".toList = some (-7) := by decide +kernel

end Numeral
end Atlas
