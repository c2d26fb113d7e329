import Atlas.Text.WidthTable

/-!
# The width of a text

How many columns of a terminal a text takes. Most characters take one, wide ones two, and marks
that combine with the character before them none; control characters count as one.

Some sequences count together. A character that can be an emoji takes two columns with the emoji
selector behind it, and one with the text selector. A skin tone behind a character that takes one
adds nothing, and emoji with joiners between them take the columns of one. The text is read from
its end, so what follows a character is known when its columns are counted.
-/

namespace Atlas.Text

/-- What follows in a text, as far as it matters for the character before it. -/
structure Following where
  /-- The columns that are taken. -/
  columns : Nat
  /-- An emoji starts here. -/
  emoji : Bool
  /-- A skin tone stands here. -/
  tone : Bool
  /-- The emoji selector stands here. -/
  emojiSelector : Bool
  /-- The text selector stands here. -/
  textSelector : Bool
  /-- Behind selectors, a joiner with an emoji stands here. -/
  joins : Bool

namespace Following

/-- Nothing follows. -/
def nothing : Following := ⟨0, false, false, false, false, false⟩

/-- A character that takes columns of its own, whatever comes next. -/
def plain (f : Following) (columns : Nat) : Following :=
  { nothing with columns := f.columns + columns }

/-- An emoji: it takes two columns unless what follows belongs to it. -/
def asEmoji (f : Following) (n : Nat) : Following :=
  let merged := f.joins || (f.tone && inRanges modifierBaseRanges n)
  { nothing with
    columns := f.columns + (if merged then 0 else 2)
    emoji := true
    tone := decide (0x1F3FB ≤ n ∧ n ≤ 0x1F3FF) }

/-- The columns of a character on its own. -/
def charColumns (n : Nat) : Nat :=
  if n < 0x20 then 1
  else if inRanges zeroRanges n then 0
  else if inRanges wideRanges n then 2
  else 1

/-- Puts a character in front. -/
def push (c : Char) (f : Following) : Following :=
  let n := c.toNat
  if 0x20 ≤ n && n < 0x7F && !f.emojiSelector then f.plain 1
  else if n = 0xFE0F then
    { nothing with columns := f.columns, emojiSelector := true, joins := f.joins }
  else if n = 0xFE0E then { nothing with columns := f.columns, textSelector := true }
  else if n = 0x200D then { nothing with columns := f.columns, joins := f.emoji }
  else if inRanges emojiRanges n then
    if f.textSelector && !(0x1F200 ≤ n && n ≤ 0x1F2FF) then f.plain 1 else f.asEmoji n
  else if inRanges textEmojiRanges n &&
      (f.emojiSelector || (f.tone && inRanges modifierBaseRanges n)) then f.asEmoji n
  else f.plain (charColumns n)

end Following

/-- The columns that a text takes. -/
def width (s : String) : Nat := (s.toList.foldr Following.push Following.nothing).columns

example : width "layer" = 5 := by decide +kernel
example : width "日本語" = 6 := by decide +kernel
example : width "✅" = 2 := by decide +kernel
example : width "⚠️" = 2 := by decide +kernel
example : width "⚠" = 1 := by decide +kernel
example : width "👩🏽‍🚀" = 2 := by decide +kernel

end Atlas.Text
