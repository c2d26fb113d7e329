import Atlas.Json.Basic

/-!
# Records in JSON

A record is written as an object whose members are its fields, or as an array with the values of
its fields in their order. An object may have further members, and it may leave out a field for
which there is a default. An array may leave out fields at its end only, and has no further
elements.

A field is decoded from the value found for it, if any: a required field needs one, an optional
field has a default, and only optional texts take null for nothing.
-/

namespace Atlas.Json

/-- Fills a list up with nothing to the length of another one, and refuses a longer one. -/
def align? : List String → List Json → Option (List (Option Json))
  | [], [] => some []
  | [], _ :: _ => none
  | _ :: names, [] => (align? names []).map (none :: ·)
  | _ :: names, x :: xs => (align? names xs).map (some x :: ·)

/-- The values found for the named fields, in the order of the names. -/
def fields? (names : List String) : Json → Option (List (Option Json))
  | .obj members => some (names.map (Keyed.lookup · members))
  | .arr items => align? names items
  | _ => none

/-! ## Decoders -/

/-- A truth value. -/
def bool? : Json → Option Bool
  | .bool b => some b
  | _ => none

/-- A double, from a number of either kind. -/
def float? : Json → Option Float
  | .num n => some n.toFloat
  | _ => none

/-- A whole number between two bounds, both included; a double is none. -/
def intBetween? (least greatest : Int) : Json → Option Int
  | .num (.int n) => if least ≤ n ∧ n ≤ greatest then some n else none
  | _ => none

/-- A whole number of 32 bits with a sign. -/
def int32? : Json → Option Int := intBetween? (-2147483648) 2147483647

/-- A whole number of 32 bits without a sign. -/
def nat32? (v : Json) : Option Nat := (intBetween? 0 4294967295 v).map Int.toNat

/-- An optional text: null stands for nothing. -/
def optional? : Json → Option (Option String)
  | .null => some none
  | .str s => some (some s)
  | _ => none

/-- A list, every element decoded in the same way. -/
def list? {α : Type} (decode : Json → Option α) : Json → Option (List α)
  | .arr items => items.mapM decode
  | _ => none

/-- One of several names: the name itself, or an object with the name as its only key and null as
the value. -/
def name? : Json → Option String
  | .str s => some s
  | .obj [(k, .null)] => some k
  | _ => none

/-- Decodes the value of a field that has to be there. -/
def required {α : Type} (decode : Json → Option α) : Option Json → Option α
  | some v => decode v
  | none => none

/-- Decodes the value of a field that has a default. -/
def withDefault {α : Type} (default : α) (decode : Json → Option α) : Option Json → Option α
  | some v => decode v
  | none => some default

end Atlas.Json
