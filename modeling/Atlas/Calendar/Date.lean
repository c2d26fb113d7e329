/-!
# Calendar dates

Days of the Gregorian calendar, continued backwards and forwards. Years reach from -262143 to
262142; a date outside of them is not a date of this calendar.

## Main statements

* `Date.next_previous` — stepping back from a valid date and forth again leads to it
* `Date.Valid.next`, `Date.Valid.previous` — both steps lead to valid dates
-/

namespace Atlas

/-- A day. -/
structure Date where
  year : Int
  month : Nat
  day : Nat
  deriving DecidableEq, Repr

namespace Date

/-- The first and the last year. -/
def minYear : Int := -262143

/-- The last year. -/
def maxYear : Int := 262142

/-- A year has a leap day every four years, but every hundred years only if also every four
hundred. -/
def isLeapYear (year : Int) : Bool :=
  year % 4 == 0 && (year % 100 != 0 || year % 400 == 0)

/-- The length of a month. -/
def daysInMonth (year : Int) (month : Nat) : Nat :=
  if month = 2 then (if isLeapYear year then 29 else 28)
  else if month = 4 ∨ month = 6 ∨ month = 9 ∨ month = 11 then 30
  else 31

/-- Whether month and day exist in the year. The year may be any. -/
def Valid (d : Date) : Prop :=
  1 ≤ d.month ∧ d.month ≤ 12 ∧ 1 ≤ d.day ∧ d.day ≤ daysInMonth d.year d.month

instance (d : Date) : Decidable d.Valid := by unfold Valid; infer_instance

/-- Whether the year is in the range of the calendar. -/
def InRange (d : Date) : Prop := minYear ≤ d.year ∧ d.year ≤ maxYear

instance (d : Date) : Decidable d.InRange := by unfold InRange; infer_instance

/-- The day after. -/
def next (d : Date) : Date :=
  if d.day < daysInMonth d.year d.month then { d with day := d.day + 1 }
  else if d.month < 12 then ⟨d.year, d.month + 1, 1⟩
  else ⟨d.year + 1, 1, 1⟩

/-- The day before. -/
def previous (d : Date) : Date :=
  if 1 < d.day then { d with day := d.day - 1 }
  else if 1 < d.month then ⟨d.year, d.month - 1, daysInMonth d.year (d.month - 1)⟩
  else ⟨d.year - 1, 12, 31⟩

/-! ## The two steps -/

theorem one_le_daysInMonth (year : Int) (month : Nat) : 1 ≤ daysInMonth year month := by
  unfold daysInMonth
  split
  · split <;> omega
  · split <;> omega

theorem daysInMonth_december (year : Int) : daysInMonth year 12 = 31 := rfl

/-- The day after a valid date is valid. -/
theorem Valid.next {d : Date} (h : d.Valid) : d.next.Valid := by
  obtain ⟨h1, h2, h3, h4⟩ := h
  unfold Date.next
  split
  · exact ⟨h1, h2, by simp, by assumption⟩
  · split
    · exact ⟨by simp, by assumption, Nat.le_refl 1, one_le_daysInMonth _ _⟩
    · exact ⟨Nat.le_refl 1, by simp, Nat.le_refl 1, one_le_daysInMonth _ _⟩

/-- The day before a valid date is valid. -/
theorem Valid.previous {d : Date} (h : d.Valid) : d.previous.Valid := by
  obtain ⟨h1, h2, h3, h4⟩ := h
  unfold Date.previous
  split
  · exact ⟨h1, h2, by simp only; omega, by simp only; omega⟩
  · split
    · exact ⟨by simp only; omega, by simp only; omega, one_le_daysInMonth _ _, Nat.le_refl _⟩
    · exact ⟨by simp, by simp, by simp, by simp [daysInMonth_december]⟩

/-- **The day after the day before is the day itself.** -/
theorem next_previous {d : Date} (h : d.Valid) : d.previous.next = d := by
  obtain ⟨h1, h2, h3, h4⟩ := h
  obtain ⟨year, month, day⟩ := d
  simp only at h1 h2 h3 h4
  unfold Date.previous
  split
  · next hd =>
    simp only at hd
    unfold Date.next
    rw [if_pos (by simp only; omega)]
    simp only [Date.mk.injEq, true_and]
    omega
  · next hd =>
    simp only at hd
    have : day = 1 := by omega
    subst this
    split
    · next hm =>
      simp only at hm
      unfold Date.next
      rw [if_neg (by simp), if_pos (by simp only; omega)]
      simp only [Date.mk.injEq, true_and, and_true]
      omega
    · next hm =>
      simp only at hm
      have : month = 1 := by omega
      subst this
      unfold Date.next
      rw [if_neg (by simp [daysInMonth_december]), if_neg (by simp)]
      simp

end Date
end Atlas
