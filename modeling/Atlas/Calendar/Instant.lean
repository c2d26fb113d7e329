import Atlas.Calendar.Date
import Atlas.Decimal.Basic

/-!
# Instants

An instant is a date and a time of day in universal time, to the nanosecond. A minute may have a
leap second with the number 60, in any minute, since the tables of leap seconds are not known
here.

An instant is written in the form of RFC 3339 with the letter Z. Years before 0 and after 9999 are
written with a sign. The interval form drops the fraction of a second. The record form keeps it,
with three, six or nine places, whatever is the least that loses nothing.
-/

namespace Atlas

/-- A date and a time of day in universal time. -/
structure Instant where
  date : Date
  hour : Nat
  minute : Nat
  second : Nat
  nano : Nat
  deriving DecidableEq, Repr

namespace Instant

/-- Whether date and time exist; the second 60 is a leap second. -/
def Valid (t : Instant) : Prop :=
  t.date.Valid ∧ t.date.InRange ∧ t.hour < 24 ∧ t.minute < 60 ∧ t.second ≤ 60 ∧
    t.nano < 1000000000

instance (t : Instant) : Decidable t.Valid := by unfold Valid; infer_instance

/-- Takes a number of minutes, less than a day, off an instant. Seconds are not touched, so a leap
second stays one. -/
def minusMinutes (t : Instant) (minutes : Int) : Instant :=
  -- less than a day before or after the local date
  let total := (t.hour : Int) * 60 + t.minute - minutes
  let date := if total < 0 then t.date.previous else if 1440 ≤ total then t.date.next else t.date
  let inDay := (total % 1440).toNat
  ⟨date, inDay / 60, inDay % 60, t.second, t.nano⟩

/-- The same instant without the fraction of its second. -/
def dropFraction (t : Instant) : Instant := { t with nano := 0 }

theorem Valid.dropFraction {t : Instant} (h : t.Valid) : t.dropFraction.Valid := by
  obtain ⟨h1, h2, h3, h4, h5, _⟩ := h
  exact ⟨h1, h2, h3, h4, h5, by simp [Instant.dropFraction]⟩

/-! ## Writing -/

/-- A year: four digits, or a sign and at least four digits outside of 0 to 9999. -/
def yearDigits (year : Int) : List Char :=
  if 0 ≤ year ∧ year ≤ 9999 then paddedDigits 4 year.toNat
  else (if year < 0 then '-' else '+') :: paddedDigits 4 year.natAbs

/-- Date and time of day to the second. -/
def secondsText (t : Instant) : List Char :=
  yearDigits t.date.year ++ '-' :: paddedDigits 2 t.date.month ++ '-' :: paddedDigits 2 t.date.day
    ++ 'T' :: paddedDigits 2 t.hour ++ ':' :: paddedDigits 2 t.minute
    ++ ':' :: paddedDigits 2 t.second

/-- The fraction of the second, with the least number of places out of 0, 3, 6 and 9. -/
def fractionText (nano : Nat) : List Char :=
  if nano = 0 then []
  else if nano % 1000000 = 0 then '.' :: paddedDigits 3 (nano / 1000000)
  else if nano % 1000 = 0 then '.' :: paddedDigits 6 (nano / 1000)
  else '.' :: paddedDigits 9 nano

/-- The interval form: to the second. -/
def toSeconds (t : Instant) : List Char := t.secondsText ++ ['Z']

/-- The record form: with the fraction of the second. -/
def toFull (t : Instant) : List Char := t.secondsText ++ fractionText t.nano ++ ['Z']

end Instant
end Atlas
