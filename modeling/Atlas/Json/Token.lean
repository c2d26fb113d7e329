import Atlas.Decimal.Layout
import Atlas.Json.Basic

/-!
# Tokens of a JSON text

A JSON text is a sequence of tokens: six marks, the three words, strings and numbers. Writing a
value first lists its tokens and then spells them, without blanks in between. Characters outside
ASCII are spelled as they are; a quote, a backslash and the controls below the space are escaped.
-/

namespace Atlas.Json

/-- The smallest part of a JSON text. -/
inductive Token where
  | openArray
  | closeArray
  | openObject
  | closeObject
  | colon
  | comma
  | null
  | bool (b : Bool)
  | num (n : Number)
  | str (s : String)

/-! ## The tokens of a value -/

mutual
/-- The tokens that write a value. -/
def tokens : Json → List Token
  | .null => [.null]
  | .bool b => [.bool b]
  | .num n => [.num n]
  | .str s => [.str s]
  | .arr [] => [.openArray, .closeArray]
  | .arr (x :: xs) => .openArray :: (tokens x ++ itemTokens xs)
  | .obj [] => [.openObject, .closeObject]
  | .obj ((k, x) :: xs) => .openObject :: .str k :: .colon :: (tokens x ++ memberTokens xs)

/-- The tokens from the end of one element to the end of its array. -/
def itemTokens : List Json → List Token
  | [] => [.closeArray]
  | x :: xs => .comma :: (tokens x ++ itemTokens xs)

/-- The tokens from the end of one member to the end of its object. -/
def memberTokens : List (String × Json) → List Token
  | [] => [.closeObject]
  | (k, x) :: xs => .comma :: .str k :: .colon :: (tokens x ++ memberTokens xs)
end

/-! ## Spelling -/

/-- A hexadecimal digit in lower case. -/
def hexDigit (n : Nat) : Char := if n < 10 then Char.ofNat (48 + n) else Char.ofNat (87 + n)

/-- The spelling of a character between quotes. -/
def spellChar (c : Char) : List Char :=
  match c with
  | '"' => ['\\', '"']
  | '\\' => ['\\', '\\']
  | '\n' => ['\\', 'n']
  | '\r' => ['\\', 'r']
  | '\t' => ['\\', 't']
  | c =>
    if c.toNat = 8 then ['\\', 'b']
    else if c.toNat = 12 then ['\\', 'f']
    else if c.toNat < 32 then
      ['\\', 'u', '0', '0', hexDigit (c.toNat / 16), hexDigit (c.toNat % 16)]
    else [c]

/-- The spelling of a string with its quotes. -/
def spellString (s : String) : List Char := '"' :: (s.toList.flatMap spellChar ++ ['"'])

/-- The spelling of a number. -/
def spellNumber : Number → List Char
  | .int n => if n < 0 then '-' :: digits n.natAbs else digits n.natAbs
  | .float x => (Decimal.Layout.json.write x).toList

/-- The spelling of a token. -/
def Token.spell : Token → List Char
  | .openArray => ['[']
  | .closeArray => [']']
  | .openObject => ['{']
  | .closeObject => ['}']
  | .colon => [':']
  | .comma => [',']
  | .null => ['n', 'u', 'l', 'l']
  | .bool true => ['t', 'r', 'u', 'e']
  | .bool false => ['f', 'a', 'l', 's', 'e']
  | .num n => spellNumber n
  | .str s => spellString s

/-- The text of a value, without blanks and with sorted keys. -/
def render (v : Json) : String := String.ofList ((tokens v).flatMap Token.spell)

end Atlas.Json
