import Atlas.Calendar.Timestamp
import Atlas.Proofs.Decimal.ReadBack
import Atlas.Proofs.Text.Blanks

/-!
# Timestamps are read back

An instant is written in one form and read from many. What is written has its numbers filled up
with zeros, so each reader takes exactly the digits that were written for it: those of two digits
stop after two, and a year stops after four or before the separator, since the years that may have
more digits are written with a sign.

Only instants that exist are read. The date in universal time is the local one or a neighbour of it,
and whether it is in the range of the calendar is checked again.

## Main statements

* `Timestamp.read?_toSeconds` — an instant that was written to the second is read again, without
  the fraction of its second
* `Timestamp.valid_of_read?` — what is read exists
-/

namespace Atlas

/-! ## Digits filled up with zeros -/

theorem isDigit_of_mem_paddedDigits {width n : Nat} {c : Char} (h : c ∈ paddedDigits width n) :
    isDigit c = true := by
  rcases List.mem_append.1 h with h | h
  · rw [List.eq_of_mem_replicate h]
    rfl
  · exact isDigit_of_mem_digits h

theorem exists_paddedDigits_eq_cons (width n : Nat) :
    ∃ c ds, paddedDigits width n = c :: ds ∧ isDigit c = true := by
  have hne : paddedDigits width n ≠ [] :=
    List.append_ne_nil_of_right_ne_nil _ Nat.toDigits_ne_nil
  obtain ⟨c, ds, hcons⟩ := List.exists_cons_of_ne_nil hne
  exact ⟨c, ds, hcons, isDigit_of_mem_paddedDigits (hcons ▸ List.mem_cons_self)⟩

/-- Zeros in front do not change the number that is spelled. -/
@[simp] theorem digitsValue_paddedDigits (width n : Nat) :
    digitsValue (paddedDigits width n) = n := by
  have hzeros : ∀ k ds, digitsValue (List.replicate k '0' ++ ds) = digitsValue ds := by
    intro k ds
    induction k with
    | zero => rfl
    | succ k ih => exact ih
  exact (hzeros _ _).trans (digitsValue_digits n)

theorem length_paddedDigits {width n : Nat} (hwidth : 0 < width) (h : n < 10 ^ width) :
    (paddedDigits width n).length = width := by
  have hle : (digits n).length ≤ width := (Nat.length_toDigits_le_iff (by decide) hwidth).2 h
  show (List.replicate (width - (digits n).length) '0' ++ digits n).length = width
  rw [List.length_append, List.length_replicate, Nat.sub_add_cancel hle]

/-- No character that is written for an instant is a slash. -/
theorem Instant.slash_notMem_toSeconds (t : Instant) : '/' ∉ t.toSeconds := by
  have hdigits : ∀ width n, '/' ∉ paddedDigits width n := fun width n h =>
    Bool.noConfusion (isDigit_of_mem_paddedDigits h)
  have hyear : '/' ∉ yearDigits t.date.year := by
    rw [yearDigits]
    split
    · exact hdigits _ _
    · split
      · simp [hdigits]
      · simp [hdigits]
  simp [toSeconds, secondsText, hdigits, hyear]

/-! ## Dates and offsets -/

namespace Date

theorem daysInMonth_le (year : Int) (month : Nat) : daysInMonth year month ≤ 31 := by
  unfold daysInMonth
  split
  · split <;> decide
  · split <;> decide

end Date

namespace Instant

theorem minusMinutes_zero {t : Instant} (hhour : t.hour < 24) (hminute : t.minute < 60) :
    t.minusMinutes 0 = t := by
  have hsmall : ¬ (t.hour : Int) * 60 + t.minute - 0 < 0 := by omega
  have hlarge : ¬ 1440 ≤ (t.hour : Int) * 60 + t.minute - 0 := by omega
  have hinDay : (((t.hour : Int) * 60 + t.minute - 0) % 1440).toNat = t.hour * 60 + t.minute := by
    omega
  simp only [minusMinutes, if_neg hsmall, if_neg hlarge, hinDay]
  obtain ⟨date, hour, minute, second, nano⟩ := t
  simp only at hhour hminute
  simp only [Instant.mk.injEq, true_and, and_true]
  omega

/-- The date is the one before or a neighbour of it, so only the range of the calendar can be
left. -/
theorem Valid.minusMinutes {t : Instant} (h : t.Valid) {minutes : Int}
    (hrange : (t.minusMinutes minutes).date.InRange) : (t.minusMinutes minutes).Valid := by
  obtain ⟨hdate, -, hhour, hminute, hsecond, hnano⟩ := h
  have hvalid : (t.minusMinutes minutes).date.Valid := by
    show (if _ then _ else if _ then _ else _ : Date).Valid
    split
    · exact hdate.previous
    · split
      · exact hdate.next
      · exact hdate
  refine ⟨hvalid, hrange, ?_, Nat.mod_lt _ (by decide), hsecond, hnano⟩
  show _ / 60 < 24
  omega

end Instant

/-! ## The readers at what was written -/

namespace Timestamp

open Text

/-- The digits in front are read as a number, if they are as many as can be read, or if no digit
follows. -/
theorem number?_append {most : Nat} {ds rest : List Char} (hds : ∀ c ∈ ds, isDigit c = true)
    (hne : ds ≠ []) (hle : ds.length ≤ most)
    (hrest : ds.length = most ∨ ∀ c ∈ rest.head?, isDigit c = false) :
    number? most (ds ++ rest) = some (digitsValue ds, rest) := by
  have hbehind : ∀ c ∈ (rest.take (most - ds.length)).head?, isDigit c = false := by
    intro c hc
    rcases hrest with hfull | hstop
    · rw [hfull, Nat.sub_self] at hc
      cases hc
    · rw [List.head?_take] at hc
      split at hc
      · cases hc
      · exact hstop c hc
  have htaken : ((ds ++ rest).take most).takeWhile isDigit = ds := by
    rw [List.take_append, List.take_of_length_le hle, List.takeWhile_append_of_pos hds]
    generalize rest.take (most - ds.length) = cs at hbehind
    cases cs with
    | nil => exact List.append_nil ds
    | cons c cs => rw [List.takeWhile_cons, hbehind c rfl, if_neg Bool.false_ne_true,
        List.append_nil]
  rw [number?]
  simp only [htaken, List.isEmpty_eq_false_iff.2 hne, Bool.false_eq_true, if_false,
    List.drop_left]

theorem number?_paddedDigits {most n : Nat} (hmost : 0 < most) (h : n < 10 ^ most)
    (rest : List Char) : number? most (paddedDigits most n ++ rest) = some (n, rest) := by
  have hlength := length_paddedDigits hmost h
  obtain ⟨c, ds, hcons, -⟩ := exists_paddedDigits_eq_cons most n
  have hne : paddedDigits most n ≠ [] := hcons ▸ List.cons_ne_nil c ds
  rw [number?_append (fun c => isDigit_of_mem_paddedDigits) hne hlength.le (.inl hlength),
    digitsValue_paddedDigits]

/-- Two digits are read as they were written. -/
theorem field?_paddedDigits {n : Nat} (h : n < 100) (rest : List Char) :
    field? (paddedDigits 2 n ++ rest) = some (n, rest) := by
  obtain ⟨c, ds, hcons, hc⟩ := exists_paddedDigits_eq_cons 2 n
  have htrim : trimLeft (paddedDigits 2 n ++ rest) = paddedDigits 2 n ++ rest := by
    rw [hcons]
    exact trimLeft_cons (isBlank_of_isDigit hc) _
  rw [field?, htrim, number?_paddedDigits (by decide) h]

/-- A year that begins with a digit has at most four of them. -/
theorem year?_of_isDigit {c : Char} (hc : isDigit c = true) (cs : List Char) :
    year? (c :: cs) = (number? 4 (c :: cs)).map (fun r => ((r.1 : Int), r.2)) := by
  rw [year?, trimLeft_cons (isBlank_of_isDigit hc)]
  split
  · next heq =>
    cases heq
    cases hc
  · next heq =>
    cases heq
    cases hc
  · rfl

/-- A number behind the sign of a year may have any number of digits, up to a separator. -/
theorem number?_year (n : Nat) (rest : List Char) :
    number? (paddedDigits 4 n ++ '-' :: rest).length (paddedDigits 4 n ++ '-' :: rest) =
      some (n, '-' :: rest) := by
  obtain ⟨c, ds, hcons, -⟩ := exists_paddedDigits_eq_cons 4 n
  have hne : paddedDigits 4 n ≠ [] := hcons ▸ List.cons_ne_nil c ds
  have hstop : ∀ c ∈ ('-' :: rest).head?, isDigit c = false := by
    rintro c ⟨⟩
    decide
  rw [number?_append (fun c => isDigit_of_mem_paddedDigits) hne (by simp) (.inr hstop),
    digitsValue_paddedDigits]

theorem year?_minus (cs : List Char) :
    year? ('-' :: cs) = (number? cs.length cs).map (fun r => (-(r.1 : Int), r.2)) := rfl

theorem year?_plus (cs : List Char) :
    year? ('+' :: cs) = (number? cs.length cs).map (fun r => ((r.1 : Int), r.2)) := rfl

/-- **A year is read as it was written,** with a sign and without one. -/
theorem year?_yearDigits (year : Int) (rest : List Char) :
    year? (Instant.yearDigits year ++ '-' :: rest) = some (year, '-' :: rest) := by
  rw [Instant.yearDigits]
  split
  · next hshort =>
    obtain ⟨c, ds, hcons, hc⟩ := exists_paddedDigits_eq_cons 4 year.toNat
    have hyear : ((year.toNat : Nat) : Int) = year := Int.toNat_of_nonneg hshort.1
    have hread : number? 4 (paddedDigits 4 year.toNat ++ '-' :: rest) =
        some (year.toNat, '-' :: rest) := number?_paddedDigits (by decide) (by omega) _
    rw [hcons] at hread ⊢
    rw [List.cons_append, year?_of_isDigit hc, ← List.cons_append, hread, Option.map_some, hyear]
  · next hlong =>
    split
    · next hnegative =>
      have hyear : -((year.natAbs : Nat) : Int) = year := by omega
      rw [List.cons_append, year?_minus, number?_year, Option.map_some, hyear]
    · next hpositive =>
      have hyear : ((year.natAbs : Nat) : Int) = year := by omega
      rw [List.cons_append, year?_plus, number?_year, Option.map_some, hyear]

/-! ## The whole text -/

/-- The parts of an instant are read as they were written, at no offset. -/
theorem parts?_toSeconds {t : Instant} (h : t.Valid) :
    parts? t.toSeconds = some (t.dropFraction, 0, []) := by
  obtain ⟨⟨-, hmonth, -, hday⟩, -, hhour, hminute, hsecond, -⟩ := h
  have hlength := Date.daysInMonth_le t.date.year t.date.month
  have hdash : ∀ cs, separator? '-' ('-' :: cs) = some cs := fun _ => rfl
  have hcolon : ∀ cs, separator? ':' (':' :: cs) = some cs := fun _ => rfl
  have hmark : ∀ cs, mark? ('T' :: cs) = some cs := fun _ => rfl
  have hmonth := field?_paddedDigits (n := t.date.month) (by omega)
  have hday := field?_paddedDigits (n := t.date.day) (by omega)
  have hhour := field?_paddedDigits (n := t.hour) (by omega)
  have hminute := field?_paddedDigits (n := t.minute) (by omega)
  have hsecond := field?_paddedDigits (n := t.second) (by omega)
  have hfraction : fraction? ['Z'] = some (0, ['Z']) := rfl
  have hzone : zone? ['Z'] = some (0, []) := by decide
  rw [Instant.toSeconds, Instant.secondsText]
  simp only [List.append_assoc, List.cons_append]
  simp only [parts?, Option.bind_eq_bind, Option.bind_some, year?_yearDigits, hdash, hcolon, hmark,
    hmonth, hday, hhour, hminute, hsecond, hfraction, hzone]
  rfl

/-- **An instant that was written to the second is read again,** without the fraction of its
second. -/
theorem read?_toSeconds {t : Instant} (h : t.Valid) :
    read? t.toSeconds = some t.dropFraction := by
  have hvalid := h.dropFraction
  have hsame : t.dropFraction.minusMinutes 0 = t.dropFraction :=
    Instant.minusMinutes_zero hvalid.2.2.1 hvalid.2.2.2.1
  have hrange : t.dropFraction.date.InRange := hvalid.2.1
  rw [read?, parts?_toSeconds h]
  show (if (trimLeft []).isEmpty ∧ t.dropFraction.Valid ∧
    (t.dropFraction.minusMinutes 0).date.InRange then _ else _) = _
  rw [hsame, if_pos ⟨rfl, hvalid, hrange⟩]

/-! ## What is read exists -/

/-- **What is read exists,** in universal time. -/
theorem valid_of_read? {cs : List Char} {u : Instant} (h : read? cs = some u) : u.Valid := by
  rw [read?] at h
  split at h
  · cases h
  · next t minutes rest _ =>
    obtain ⟨⟨-, hvalid, hrange⟩, hu⟩ := Option.ite_none_right_eq_some.1 h
    cases hu
    exact hvalid.minusMinutes hrange

end Timestamp
end Atlas
