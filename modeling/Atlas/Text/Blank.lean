/-!
# Blank characters

A text that comes from a form field or a bus message is read without the blank characters around
it. Blank is every character with the Unicode property White_Space, which has 25 members.
-/

namespace Atlas.Text

/-- The characters with the property White_Space. -/
def isBlank (c : Char) : Bool :=
  let n := c.toNat
  (0x09 ≤ n && n ≤ 0x0D) || n == 0x20 || n == 0x85 || n == 0xA0 || n == 0x1680 ||
    (0x2000 ≤ n && n ≤ 0x200A) || n == 0x2028 || n == 0x2029 || n == 0x202F || n == 0x205F ||
    n == 0x3000

/-- Drops the blanks in front. -/
def trimLeft (cs : List Char) : List Char := cs.dropWhile isBlank

/-- Drops the blanks on both sides. -/
def trim (cs : List Char) : List Char := (trimLeft (trimLeft cs).reverse).reverse

end Atlas.Text
