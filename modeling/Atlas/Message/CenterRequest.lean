import Atlas.Decimal.Numeral
import Atlas.Fault
import Atlas.Geometry.Basic
import Atlas.Json.Record
import Atlas.Text.Blank

/-!
# Requests to move the view

A request names a center and a zoom level. It often comes from an address bar, so each part may be
a number or the text of one, with blanks around it. Coordinates are finite numbers. A zoom level
is a whole number of 32 bits, or a finite number in their range whose fraction is dropped.

The parts are read in order, and the first bad one is reported.
-/

namespace Atlas

/-- A center and a zoom level as they were sent. -/
structure CenterRequest where
  x : Json
  y : Json
  zoom : Json

/-- The whole part of a double, toward zero. -/
def truncate (x : Float) : Int :=
  match Binary64.ofFloat x with
  | .finite negative mantissa exponent =>
    let n := Binary64.numerator mantissa exponent / Binary64.denominator exponent
    if negative then -(n : Int) else n
  | _ => 0

namespace CenterRequest

/-- The request for a center and a zoom level. -/
def create (center : Coord) (zoom : Int) : CenterRequest :=
  ⟨Json.ofFloat center.x, Json.ofFloat center.y, Json.ofInt zoom⟩

/-- The number of a value, or the number that its text spells. -/
def number? : Json → Option Float
  | .num n => some n.toFloat
  | .str s => Numeral.readFloat? (Text.trim s.toList)
  | _ => none

/-- Reads a finite number. -/
def finite (v : Json) : Except Fault Float :=
  match number? v with
  | some x => if x.isFinite then .ok x else .error (Fault.of (.notFinite v))
  | none => .error (Fault.of (.notFinite v))

/-- Whether a whole number fits 32 bits. -/
def fits32 (n : Int) : Bool := -0x80000000 ≤ n && n < 0x80000000

/-- The whole number of a value if it is written as one: as a number of at most 64 bits with a
sign. -/
def whole? : Json → Option Int
  | .num (.int n) => if n < 0x8000000000000000 then some n else none
  | _ => none

/-- The whole number of 32 bits that the text of a value spells. -/
def spelledWhole? : Json → Option Int
  | .str s =>
    match Numeral.readInt? (Text.trim s.toList) with
    | some n => if fits32 n then some n else none
    | none => none
  | _ => none

/-- Reads a zoom level. -/
def level (v : Json) : Except Fault Int :=
  match whole? v with
  | some n => if fits32 n then .ok n else .error (Fault.of (.wideZoom n))
  | none =>
    match spelledWhole? v with
    | some n => .ok n
    | none =>
      match finite v with
      | .error fault => .error fault
      | .ok x =>
        -- the least whole number of 32 bits is refused when it comes as a double
        if (2147483647.0 : Float) < x.abs then .error (Fault.of (.wideFractionalZoom x))
        else .ok (truncate x)

/-- Reads the center and the zoom level. -/
def parse (r : CenterRequest) : Except Fault (Coord × Int) := do
  let x ← during .readingCenterX (finite r.x)
  let y ← during .readingCenterY (finite r.y)
  let zoom ← during .readingZoom (level r.zoom)
  return (⟨x, y⟩, zoom)

/-- Any value, also null. -/
def any? (v : Json) : Option Json := some v

/-- Reads a record with the three parts, of whatever kind they are. -/
def ofJson? (v : Json) : Option CenterRequest := do
  match ← Json.fields? ["x", "y", "l"] v with
  | [x, y, zoom] =>
    return ⟨← Json.required any? x, ← Json.required any? y, ← Json.required any? zoom⟩
  | _ => none

/-- The record with the three parts. -/
def toJson (r : CenterRequest) : Json := Json.ofMembers [("x", r.x), ("y", r.y), ("l", r.zoom)]

end CenterRequest
end Atlas
