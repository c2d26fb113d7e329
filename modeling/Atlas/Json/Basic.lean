import Atlas.Keyed

/-!
# JSON values

Numbers keep their kind: a whole number that was written as one stays whole, every other number is
a double. Objects are tables with sorted keys, so two objects with the same members are the same
value whatever the order of writing.
-/

namespace Atlas

/-- A JSON number. -/
inductive Number where
  | int (n : Int)
  | float (x : Float)
  deriving DecidableEq

/-- The number as a double, rounded if a whole number has more digits than a double holds. -/
def Number.toFloat : Number → Float
  | .int n => Float.ofInt n
  | .float x => x

/-- Numbers agree if they are of one kind and equal there; as doubles, zeros of both signs are
equal. -/
def Number.agrees : Number → Number → Bool
  | .int m, .int n => m == n
  | .float x, .float y => x == y
  | _, _ => false

/-- A JSON value. -/
inductive Json where
  | null
  | bool (b : Bool)
  | num (n : Number)
  | str (s : String)
  | arr (items : List Json)
  | obj (members : List (String × Json))

namespace Json

instance : Inhabited Json := ⟨.null⟩

/-- A whole number. -/
def ofInt (n : Int) : Json := .num (.int n)

/-- A double as a value. What is no number or infinite has no JSON numeral and becomes null. -/
def ofFloat (x : Float) : Json := if x.isFinite then .num (.float x) else .null

/-- A text, or null where there is none. -/
def ofString? : Option String → Json
  | some s => .str s
  | none => .null

/-- An object from its members in any order; a later member takes the place of an earlier one. -/
def ofMembers (members : List (String × Json)) : Json := .obj (Keyed.ofRows members)

/-- The member of an object under a key. -/
def member? (k : String) : Json → Option Json
  | .obj members => Keyed.lookup k members
  | _ => none

/-- The text of a string value. -/
def str? : Json → Option String
  | .str s => some s
  | _ => none

/-- The elements of an array. -/
def arr? : Json → Option (List Json)
  | .arr items => some items
  | _ => none

/-- The number of a numeric value. -/
def num? : Json → Option Number
  | .num n => some n
  | _ => none

mutual
/-- Two values agree if they have the same shape and their numbers agree. -/
def agrees : Json → Json → Bool
  | .null, .null => true
  | .bool a, .bool b => a == b
  | .num m, .num n => m.agrees n
  | .str s, .str t => s == t
  | .arr xs, .arr ys => agreesAll xs ys
  | .obj xs, .obj ys => agreesMembers xs ys
  | _, _ => false

/-- Lists of values agree element by element. -/
def agreesAll : List Json → List Json → Bool
  | [], [] => true
  | x :: xs, y :: ys => agrees x y && agreesAll xs ys
  | _, _ => false

/-- Sorted members agree row by row. -/
def agreesMembers : List (String × Json) → List (String × Json) → Bool
  | [], [] => true
  | (k, x) :: xs, (l, y) :: ys => k == l && agrees x y && agreesMembers xs ys
  | _, _ => false
end

end Json
end Atlas
