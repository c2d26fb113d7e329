import Atlas.Json.Lexer

/-!
# From tokens to a value

The tokens of one value are read from left to right. What has been opened and not yet closed waits
on a stack, so reading is a left fold over the tokens, and the length of the stack is the depth of
nesting. At most 127 arrays and objects may be open at once.
-/

namespace Atlas.Json

/-- How many arrays and objects may be open at once. -/
def maxDepth : Nat := 127

/-- An open array or object that waits for the value of an element or member. -/
inductive Frame where
  /-- The elements so far, latest first. -/
  | item (items : List Json)
  /-- The members so far and the key of the waiting member. -/
  | member (members : List (String × Json)) (key : String)

/-- What has to come next. -/
inductive Parser where
  | value (stack : List Frame)
  /-- The first element of an array, or its end. -/
  | firstItem (stack : List Frame)
  /-- A comma or the end of an array. -/
  | afterItem (items : List Json) (stack : List Frame)
  /-- The first key of an object, or its end. -/
  | firstKey (stack : List Frame)
  | nextKey (members : List (String × Json)) (stack : List Frame)
  /-- The colon behind a key. -/
  | colon (members : List (String × Json)) (key : String) (stack : List Frame)
  /-- A comma or the end of an object. -/
  | afterMember (members : List (String × Json)) (stack : List Frame)
  /-- Nothing: the value is complete. -/
  | complete (v : Json)

namespace Parser

/-- Hands a complete value to what waits for it. -/
def deliver (v : Json) : List Frame → Parser
  | [] => .complete v
  | .item items :: stack => .afterItem (v :: items) stack
  | .member members key :: stack => .afterMember (Keyed.insert key v members) stack

/-- Reads the first token of a value. -/
def readValue (stack : List Frame) : Token → Option Parser
  | .openArray => if stack.length < maxDepth then some (.firstItem stack) else none
  | .openObject => if stack.length < maxDepth then some (.firstKey stack) else none
  | .null => some (deliver .null stack)
  | .bool b => some (deliver (.bool b) stack)
  | .num n => some (deliver (.num n) stack)
  | .str s => some (deliver (.str s) stack)
  | _ => none

/-- Reads one token. -/
def read (p : Parser) (t : Token) : Option Parser :=
  match p with
  | .value stack => readValue stack t
  | .firstItem stack =>
    match t with
    | .closeArray => some (deliver (.arr []) stack)
    | t => readValue (.item [] :: stack) t
  | .afterItem items stack =>
    match t with
    | .comma => some (.value (.item items :: stack))
    | .closeArray => some (deliver (.arr items.reverse) stack)
    | _ => none
  | .firstKey stack =>
    match t with
    | .closeObject => some (deliver (.obj []) stack)
    | .str k => some (.colon [] k stack)
    | _ => none
  | .nextKey members stack =>
    match t with
    | .str k => some (.colon members k stack)
    | _ => none
  | .colon members key stack =>
    match t with
    | .colon => some (.value (.member members key :: stack))
    | _ => none
  | .afterMember members stack =>
    match t with
    | .comma => some (.nextKey members stack)
    | .closeObject => some (deliver (.obj members) stack)
    | _ => none
  | .complete _ => none

/-- The value, if it is complete. -/
def result? : Parser → Option Json
  | .complete v => some v
  | _ => none

end Parser

/-- The value whose tokens are given. -/
def ofTokens? (ts : List Token) : Option Json :=
  (ts.foldlM Parser.read (.value [])).bind Parser.result?

/-- The value of a JSON text; nothing if the text is not strict JSON or is nested too deeply. -/
def parse? (text : String) : Option Json := (scan? text.toList).bind ofTokens?

end Atlas.Json
