import Atlas.Decimal.Numeral
import Atlas.Json.Token

/-!
# From text to tokens

A text is read character by character. Between the characters the reader is in a gap, inside a
word, inside a numeral or inside a string; a word or a numeral ends where a character comes that
belongs to neither. There is no backtracking and no measure: the reader is a left fold over the
characters.

Strings follow the strict rules: a raw control character is refused, and of the escapes for
UTF-16 units only pairs of surrogates in the right order stand for a character.
-/

namespace Atlas.Json

/-- The character with a code point; nothing for a surrogate and beyond the last code point. -/
def charOfCode? (n : Nat) : Option Char :=
  if h : n.isValidChar then some (Char.ofNatAux n h) else none

/-- The value of a hexadecimal digit in either case. -/
def hexValue? (c : Char) : Option Nat :=
  let n := c.toNat
  if 48 ≤ n && n ≤ 57 then some (n - 48)
  else if 97 ≤ n && n ≤ 102 then some (n - 87)
  else if 65 ≤ n && n ≤ 70 then some (n - 55)
  else none

/-- A whole numeral is kept as one if it fits 64 bits, signed or unsigned, and is not a negative
zero; every other numeral stands for the nearest double, which has to be finite. -/
def numberOf? (n : Numeral) : Option Number :=
  let i := n.toInt
  if n.isWhole && !(n.sign == .minus && i == 0) && -0x8000000000000000 ≤ i &&
      i < 0x10000000000000000 then
    some (.int i)
  else if n.toFloat.isFinite then some (.float n.toFloat)
  else none

/-- The token of a finished numeral. -/
def numeralToken? (cs : List Char) : Option Token :=
  match Numeral.ofChars? cs with
  | none => none
  | some n => if n.isStrict then (numberOf? n).map .num else none

/-- The token of a finished word. -/
def wordToken? (cs : List Char) : Option Token :=
  if cs = ['n', 'u', 'l', 'l'] then some .null
  else if cs = ['t', 'r', 'u', 'e'] then some (.bool true)
  else if cs = ['f', 'a', 'l', 's', 'e'] then some (.bool false)
  else none

/-- Where the reader is; characters read so far stand in reverse. -/
inductive Place where
  | gap
  | numeral (rev : List Char)
  | word (rev : List Char)
  | string (rev : List Char)
  /-- Behind a backslash in a string. -/
  | escape (rev : List Char)
  /-- Among the four digits of a unit: how many are missing, the value so far, and the high
  surrogate that the unit has to complete, if there is one. -/
  | unit (rev : List Char) (high : Option Nat) (missing value : Nat)
  /-- Behind a high surrogate, where a backslash has to come. -/
  | pairBackslash (rev : List Char) (high : Nat)
  /-- Behind a high surrogate and a backslash, where the mark of a unit has to come. -/
  | pairMark (rev : List Char) (high : Nat)

/-- The reader: its place and the tokens so far, latest first. -/
structure Lexer where
  place : Place
  tokens : List Token

namespace Lexer

/-- Reads a character in a gap. -/
def readGap (tokens : List Token) (c : Char) : Option Lexer :=
  match c with
  | '[' => some ⟨.gap, .openArray :: tokens⟩
  | ']' => some ⟨.gap, .closeArray :: tokens⟩
  | '{' => some ⟨.gap, .openObject :: tokens⟩
  | '}' => some ⟨.gap, .closeObject :: tokens⟩
  | ':' => some ⟨.gap, .colon :: tokens⟩
  | ',' => some ⟨.gap, .comma :: tokens⟩
  | '"' => some ⟨.string [], tokens⟩
  | ' ' => some ⟨.gap, tokens⟩
  | '\n' => some ⟨.gap, tokens⟩
  | '\r' => some ⟨.gap, tokens⟩
  | '\t' => some ⟨.gap, tokens⟩
  | c =>
    if c = '-' ∨ isDigit c then some ⟨.numeral [c], tokens⟩
    else if c.isLower then some ⟨.word [c], tokens⟩
    else none

/-- Whether a character continues a numeral. -/
def inNumeral (c : Char) : Bool :=
  isDigit c || c == '.' || c == 'e' || c == 'E' || c == '+' || c == '-'

/-- The character of an escape of one letter. -/
def simpleEscape? : Char → Option Char
  | '"' => some '"'
  | '\\' => some '\\'
  | '/' => some '/'
  | 'b' => some '\x08'
  | 'f' => some '\x0c'
  | 'n' => some '\n'
  | 'r' => some '\r'
  | 't' => some '\t'
  | _ => none

/-- Goes on after a unit with value `value`: a high surrogate waits for its partner, which has to
be a low one. -/
def endUnit (rev : List Char) (high : Option Nat) (value : Nat) : Option Place :=
  match high with
  | none =>
    -- a low surrogate on its own is no character, and `charOfCode?` refuses it
    if 0xD800 ≤ value && value < 0xDC00 then some (.pairBackslash rev value)
    else (charOfCode? value).map (fun c => .string (c :: rev))
  | some high =>
    if 0xDC00 ≤ value && value < 0xE000 then
      (charOfCode? (0x10000 + (high - 0xD800) * 0x400 + (value - 0xDC00))).map
        (fun c => .string (c :: rev))
    else none

/-- Reads one character. -/
def read (l : Lexer) (c : Char) : Option Lexer :=
  match l.place with
  | .gap => readGap l.tokens c
  | .numeral rev =>
    if inNumeral c then some ⟨.numeral (c :: rev), l.tokens⟩
    else (numeralToken? rev.reverse).bind (fun t => readGap (t :: l.tokens) c)
  | .word rev =>
    if c.isLower then some ⟨.word (c :: rev), l.tokens⟩
    else (wordToken? rev.reverse).bind (fun t => readGap (t :: l.tokens) c)
  | .string rev =>
    if c = '"' then some ⟨.gap, .str (String.ofList rev.reverse) :: l.tokens⟩
    else if c = '\\' then some ⟨.escape rev, l.tokens⟩
    else if c.toNat < 32 then none
    else some ⟨.string (c :: rev), l.tokens⟩
  | .escape rev =>
    if c = 'u' then some ⟨.unit rev none 4 0, l.tokens⟩
    else (simpleEscape? c).map (fun e => ⟨.string (e :: rev), l.tokens⟩)
  | .unit rev high missing value =>
    match hexValue? c with
    | none => none
    | some d =>
      if missing ≤ 1 then (endUnit rev high (16 * value + d)).map (⟨·, l.tokens⟩)
      else some ⟨.unit rev high (missing - 1) (16 * value + d), l.tokens⟩
  | .pairBackslash rev high =>
    if c = '\\' then some ⟨.pairMark rev high, l.tokens⟩ else none
  | .pairMark rev high =>
    if c = 'u' then some ⟨.unit rev (some high) 4 0, l.tokens⟩ else none

/-- Ends the text: a word or a numeral may end with it, a string may not. -/
def finish (l : Lexer) : Option (List Token) :=
  match l.place with
  | .gap => some l.tokens.reverse
  | .numeral rev => (numeralToken? rev.reverse).map (fun t => (t :: l.tokens).reverse)
  | .word rev => (wordToken? rev.reverse).map (fun t => (t :: l.tokens).reverse)
  | _ => none

end Lexer

/-- The tokens of a text; nothing if it is not made of tokens. -/
def scan? (cs : List Char) : Option (List Token) :=
  (cs.foldlM Lexer.read ⟨.gap, []⟩).bind Lexer.finish

end Atlas.Json
