import Atlas.Calendar.Instant
import Atlas.Decimal.Numeral
import Atlas.Text.Blank

/-!
# Reading timestamps

The texts that are read as instants follow RFC 3339 loosely: numbers need not be filled up with
zeros, blanks may stand before numbers and separators, the letters may be small, a blank may stand
for the letter T, and `UTC` for the letter Z. A year of more than four digits needs a sign.

Every reader takes the characters in front and gives back the others; a text is read if nothing is
left in the end. The parts are checked afterwards: the date has to exist, and so has the date in
universal time.
-/

namespace Atlas.Timestamp

open Text

/-- Reads a number of one to `most` digits. -/
def number? (most : Nat) (cs : List Char) : Option (Nat × List Char) :=
  let ds := (cs.take most).takeWhile isDigit
  if ds.isEmpty then none else some (digitsValue ds, cs.drop ds.length)

/-- Reads a number of one or two digits behind blanks. -/
def field? (cs : List Char) : Option (Nat × List Char) := number? 2 (trimLeft cs)

/-- Reads a year behind blanks: up to four digits, or a sign and any number of digits. -/
def year? (cs : List Char) : Option (Int × List Char) :=
  match trimLeft cs with
  | '-' :: cs => (number? cs.length cs).map (fun r => (-(r.1 : Int), r.2))
  | '+' :: cs => (number? cs.length cs).map (fun r => ((r.1 : Int), r.2))
  | cs => (number? 4 cs).map (fun r => ((r.1 : Int), r.2))

/-- Reads a separator behind blanks. -/
def separator? (c : Char) (cs : List Char) : Option (List Char) :=
  match trimLeft cs with
  | d :: cs => if d = c then some cs else none
  | [] => none

/-- Reads a fraction of a second, in nanoseconds. The first nine digits count. -/
def fraction? (cs : List Char) : Option (Nat × List Char) :=
  match cs with
  | '.' :: cs =>
    let ds := cs.takeWhile isDigit
    if ds.isEmpty then none
    else
      let nine := ds.take 9
      some (digitsValue (nine ++ List.replicate (9 - nine.length) '0'), cs.drop ds.length)
  | cs => some (0, cs)

/-- Reads the mark between date and time. -/
def mark? : List Char → Option (List Char)
  | c :: cs => if c = 'T' ∨ c = 't' ∨ c = ' ' then some cs else none
  | [] => none

/-- Reads an offset from universal time, in minutes: two digits of hours, colons and blanks, two
digits of minutes. -/
def offset? (cs : List Char) : Option (Int × List Char) :=
  match cs with
  | [] => none
  | sign :: cs =>
    if sign = '+' ∨ sign = '-' ∨ sign = '−' then
      match cs with
      | h1 :: h2 :: cs =>
        match cs.dropWhile (fun c => c == ':' || isBlank c) with
        | m1 :: m2 :: cs =>
          if isDigit h1 && isDigit h2 && isDigit m1 && isDigit m2 && digitValue m1 < 6 then
            let minutes : Int := digitsValue [h1, h2] * 60 + digitsValue [m1, m2]
            some (if sign = '+' then minutes else -minutes, cs)
          else none
        | _ => none
      | _ => none
    else none

/-- Reads a time zone behind blanks: the letter Z, the word UTC or an offset, less than a day. -/
def zone? (cs : List Char) : Option (Int × List Char) :=
  let cs := trimLeft cs
  if (cs.take 3).map Char.toUpper = ['U', 'T', 'C'] then some (0, cs.drop 3)
  else
    match cs with
    | 'Z' :: cs => some (0, cs)
    | 'z' :: cs => some (0, cs)
    | cs =>
      match offset? cs with
      | some (minutes, rest) => if minutes.natAbs < 1440 then some (minutes, rest) else none
      | none => none

/-- Reads date, time of day and time zone, and what is left. The first is the local time. -/
def parts? (cs : List Char) : Option (Instant × Int × List Char) := do
  let (year, cs) ← year? cs
  let (month, cs) ← field? (← separator? '-' cs)
  let (day, cs) ← field? (← separator? '-' cs)
  let (hour, cs) ← field? (← mark? cs)
  let (minute, cs) ← field? (← separator? ':' cs)
  let (second, cs) ← field? (← separator? ':' cs)
  let (nano, cs) ← fraction? cs
  let (minutes, cs) ← zone? cs
  return (⟨⟨year, month, day⟩, hour, minute, second, nano⟩, minutes, cs)

/-- Reads a text as an instant. -/
def read? (cs : List Char) : Option Instant :=
  match parts? cs with
  | none => none
  | some (t, minutes, rest) =>
    -- a date at the edge of the calendar may leave it on the way to universal time
    let u := t.minusMinutes minutes
    if (trimLeft rest).isEmpty ∧ t.Valid ∧ u.date.InRange then some u else none

end Atlas.Timestamp
