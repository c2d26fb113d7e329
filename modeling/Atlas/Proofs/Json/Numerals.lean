import Atlas.Json.Lexer
import Atlas.Proofs.Decimal.ReadBack
import Atlas.Proofs.Json.Numbers

/-!
# Numbers are spelled and read again

A numeral is spelled part by part, and taken apart into the same parts again. The layout of JSON
texts spells a double as such a numeral: its digits are those of the shortest decimal with zeros
around them, its point and its exponent say where they stand, and there is always one or the other,
so it is not taken for a whole number. A whole number is spelled with digits only.

## Main statements

* `Numeral.ofChars?_spell` — a numeral that is spelled is taken apart again
* `Decimal.spelledBy_place` — the JSON layout spells a decimal strictly, with a point or an exponent
* `Json.exists_readAs` — the numbers that a JSON text can spell are read again
-/

namespace Atlas

namespace Numeral

/-! ## Spelling -/

/-- The spelling of a sign. -/
def spellSign : Sign → List Char
  | .absent => []
  | .plus => ['+']
  | .minus => ['-']

/-- The spelling of an exponent: a mark, a sign and digits. -/
def spellExponent : Option Int → List Char
  | none => []
  | some n => 'e' :: (if n < 0 then '-' else '+') :: digits n.natAbs

/-- The spelling of a numeral. -/
def spell (n : Numeral) : List Char :=
  spellSign n.sign ++ (n.whole ++ (n.fraction.elim [] ('.' :: ·) ++ spellExponent n.exponent))

/-- The digits of a numeral are digits. -/
structure WellSpelled (n : Numeral) : Prop where
  whole : ∀ c ∈ n.whole, isDigit c = true
  fraction : ∀ ds, n.fraction = some ds → ∀ c ∈ ds, isDigit c = true

theorem splitDigits_append {ds cs : List Char} (hds : ∀ c ∈ ds, isDigit c = true)
    (hcs : ∀ c ∈ cs.head?, isDigit c = false) : splitDigits (ds ++ cs) = (ds, cs) := by
  have htail : cs.takeWhile isDigit = [] ∧ cs.dropWhile isDigit = cs := by
    cases cs with
    | nil => exact ⟨rfl, rfl⟩
    | cons c cs =>
      have hc := hcs c rfl
      rw [List.takeWhile_cons, List.dropWhile_cons, hc]
      exact ⟨rfl, rfl⟩
  rw [splitDigits, List.takeWhile_append_of_pos hds, List.dropWhile_append_of_pos hds,
    htail.1, htail.2, List.append_nil]

/-- An exponent begins with a mark that is no digit. -/
theorem isDigit_of_head?_spellExponent {exponent : Option Int} {c : Char}
    (h : c ∈ (spellExponent exponent).head?) : isDigit c = false := by
  cases exponent with
  | none => cases h
  | some n =>
    cases h
    decide

theorem readInt?_spell (n : Int) :
    readInt? ((if n < 0 then '-' else '+') :: digits n.natAbs) = some n := by
  have hread : ∀ ds : List Char, ds.isEmpty = false → ds.all isDigit = true →
      readInt? ('-' :: ds) = some (-(digitsValue ds : Int)) ∧
        readInt? ('+' :: ds) = some (digitsValue ds : Int) := by
    intro ds hempty hall
    constructor
    · rw [readInt?, splitSign]
      simp [hempty, hall]
    · rw [readInt?, splitSign]
      simp [hempty, hall]
  obtain ⟨hminus, hplus⟩ := hread (digits n.natAbs)
    (List.isEmpty_eq_false_iff.2 Nat.toDigits_ne_nil)
    (List.all_eq_true.2 fun _ => isDigit_of_mem_digits)
  rw [digitsValue_digits] at hminus hplus
  split
  · next hn => rw [hminus, Int.ofNat_natAbs_of_nonpos (Int.le_of_lt hn), Int.neg_neg]
  · next hn => rw [hplus, Int.natAbs_of_nonneg (Int.not_lt.1 hn)]

theorem readExponent?_spellExponent (exponent : Option Int) :
    readExponent? (spellExponent exponent) = some exponent := by
  cases exponent with
  | none => rfl
  | some n => rw [spellExponent, readExponent?, if_pos (.inl rfl), readInt?_spell, Option.map_some]

theorem splitSign_spellSign (sign : Sign) {cs : List Char}
    (h : ∀ c ∈ cs.head?, c ≠ '-' ∧ c ≠ '+') : splitSign (spellSign sign ++ cs) = (sign, cs) := by
  cases sign with
  | plus | minus => rfl
  | absent =>
    rw [spellSign, List.nil_append, splitSign.eq_def]
    split
    · exact absurd rfl (h _ rfl).1
    · exact absurd rfl (h _ rfl).2
    · rfl

/-- What follows the sign of a numeral does not begin with a sign. -/
theorem ne_sign_of_head? {whole : List Char} (hwhole : ∀ c ∈ whole, isDigit c = true)
    (fraction : Option (List Char)) (exponent : Option Int) {c : Char}
    (hc : c ∈ (whole ++ (fraction.elim [] ('.' :: ·) ++ spellExponent exponent)).head?) :
    c ≠ '-' ∧ c ≠ '+' := by
  cases whole with
  | cons d ds =>
    cases hc
    have hdigit := hwhole c List.mem_cons_self
    constructor
    · rintro rfl
      cases hdigit
    · rintro rfl
      cases hdigit
  | nil =>
    cases fraction with
    | some ds =>
      cases hc
      decide
    | none =>
      cases exponent with
      | none => cases hc
      | some n =>
        cases hc
        decide

/-- **A numeral that is spelled is taken apart again.** -/
theorem ofChars?_spell {n : Numeral} (h : n.WellSpelled) : ofChars? n.spell = some n := by
  obtain ⟨sign, whole, fraction, exponent⟩ := n
  obtain ⟨hwhole, hfraction⟩ := h
  have hexponent := @isDigit_of_head?_spellExponent exponent
  have hsign : splitSign (spell ⟨sign, whole, fraction, exponent⟩) =
      (sign, whole ++ (fraction.elim [] ('.' :: ·) ++ spellExponent exponent)) :=
    splitSign_spellSign sign fun c => ne_sign_of_head? hwhole fraction exponent
  rw [ofChars?, hsign]
  cases fraction with
  | none =>
    simp only [Option.elim_none, List.nil_append]
    rw [splitDigits_append hwhole (fun c hc => hexponent hc)]
    cases exponent with
    | none => rfl
    | some n =>
      show (readExponent? (spellExponent (some n))).map _ = _
      rw [readExponent?_spellExponent]
      rfl
  | some ds =>
    simp only [Option.elim_some, List.cons_append]
    rw [splitDigits_append hwhole (by rintro c ⟨⟩; decide)]
    simp only
    rw [splitDigits_append (hfraction ds rfl) (fun c hc => hexponent hc)]
    simp only
    rw [readExponent?_spellExponent]
    rfl

/-- A first digit that is no zero makes a numeral strict. -/
theorem isStrict_of_ne {c : Char} (hc : c ≠ '0') (ds : List Char) {fraction : Option (List Char)}
    (hfraction : fraction ≠ some []) (exponent : Option Int) :
    isStrict ⟨.absent, c :: ds, fraction, exponent⟩ = true := by
  have hpoint : (fraction != some []) = true := bne_iff_ne.2 hfraction
  rw [isStrict]
  simp only [hpoint]
  split
  · next h => cases h
  · rfl
  · next h =>
    cases h
    exact bne_iff_ne.2 hc

end Numeral

namespace Decimal

/-! ## Decimals -/

/-- A numeral without a sign that is no whole number spells a decimal strictly. -/
structure SpelledBy (d : Decimal) (n : Numeral) : Prop where
  wellSpelled : n.WellSpelled
  sign : n.sign = .absent
  isStrict : n.isStrict = true
  isWhole : n.isWhole = false
  magnitude : n.magnitude = d

theorem isDigit_of_mem_replicate {k : Nat} {c : Char} (h : c ∈ List.replicate k '0') :
    isDigit c = true := by
  rw [List.eq_of_mem_replicate h]
  decide

section

variable {c : Char} {ds : List Char}

/-- Digits behind the point. -/
theorem spelledBy_placePoint_of_nonpos (hdigits : ∀ x ∈ c :: ds, isDigit x = true) {whole : Int}
    (hwhole : whole ≤ 0) : ∃ n : Numeral, placePoint (c :: ds) whole true = n.spell ∧
      (ofDigits (c :: ds) (whole - (c :: ds).length)).SpelledBy n := by
  rw [placePoint, if_pos hwhole]
  refine ⟨⟨.absent, ['0'], some (List.replicate (-whole).toNat '0' ++ c :: ds), none⟩, ?_,
    ⟨by simp [isDigit], ?_⟩, rfl, by simp [Numeral.isStrict], rfl, ?_⟩
  · simp [Numeral.spell, Numeral.spellSign, Numeral.spellExponent]
  · rintro _ ⟨⟩ x hx
    rcases List.mem_append.1 hx with hx | hx
    · exact isDigit_of_mem_replicate hx
    · exact hdigits x hx
  · rw [Numeral.magnitude]
    simp only [Option.getD_some, Option.getD_none, List.singleton_append]
    rw [ofDigits_zero_cons, ofDigits_replicate_zero_append, List.length_append,
      List.length_replicate]
    congr 1
    push_cast
    omega

/-- Digits in front of the point, filled up with zeros. -/
theorem spelledBy_placePoint_of_length_le (hc : c ≠ '0')
    (hdigits : ∀ x ∈ c :: ds, isDigit x = true) {whole : Nat} (hwhole : (c :: ds).length ≤ whole) :
    ∃ n : Numeral, placePoint (c :: ds) whole true = n.spell ∧
      (ofDigits (c :: ds) (whole - (c :: ds).length)).SpelledBy n := by
  have hpositive : ¬ (whole : Int) ≤ 0 := by
    rw [List.length_cons] at hwhole
    omega
  rw [placePoint, if_neg hpositive, Int.toNat_natCast, List.drop_of_length_le hwhole,
    List.take_of_length_le hwhole]
  refine ⟨⟨.absent, c :: (ds ++ List.replicate (whole - (c :: ds).length) '0'), some ['0'], none⟩,
    ?_, ⟨?_, ?_⟩, rfl, Numeral.isStrict_of_ne hc _ (by decide) none, rfl, ?_⟩
  · simp [Numeral.spell, Numeral.spellSign, Numeral.spellExponent]
  · intro x hx
    rcases List.mem_append.1 (List.cons_append ▸ hx) with hx | hx
    · exact hdigits x hx
    · exact isDigit_of_mem_replicate hx
  · rintro _ ⟨⟩
    simp [isDigit]
  · rw [Numeral.magnitude]
    simp only [Option.getD_some, Option.getD_none, List.length_singleton]
    rw [ofDigits_append_zero, ← List.cons_append, ofDigits_append_zeros]
    congr 1
    omega

/-- Digits with the point between them. -/
theorem spelledBy_placePoint_of_lt_length (hc : c ≠ '0')
    (hdigits : ∀ x ∈ c :: ds, isDigit x = true) {whole : Nat} (hwhole : whole < ds.length) :
    ∃ n : Numeral, placePoint (c :: ds) (whole + 1 : Nat) true = n.spell ∧
      (ofDigits (c :: ds) ((whole + 1 : Nat) - (c :: ds).length)).SpelledBy n := by
  have hpositive : ¬ ((whole + 1 : Nat) : Int) ≤ 0 := by omega
  have hback : ds.drop whole ≠ [] := by
    rw [ne_eq, List.drop_eq_nil_iff]
    omega
  have hfront : whole + 1 - (c :: ds).length = 0 := by
    rw [List.length_cons]
    omega
  rw [placePoint, if_neg hpositive, Int.toNat_natCast, hfront, List.drop_succ_cons,
    List.take_succ_cons]
  refine ⟨⟨.absent, c :: ds.take whole, some (ds.drop whole), none⟩, ?_, ⟨?_, ?_⟩, rfl,
    Numeral.isStrict_of_ne hc _ (by simpa using hback) none, rfl, ?_⟩
  · simp [Numeral.spell, Numeral.spellSign, Numeral.spellExponent, hback]
  · intro x hx
    rcases List.mem_cons.1 hx with rfl | hx
    · exact hdigits x List.mem_cons_self
    · exact hdigits x (List.mem_cons_of_mem _ (List.mem_of_mem_take hx))
  · rintro _ ⟨⟩ x hx
    exact hdigits x (List.mem_cons_of_mem _ (List.mem_of_mem_drop hx))
  · rw [Numeral.magnitude]
    simp only [Option.getD_some, Option.getD_none, List.cons_append, List.take_append_drop]
    rw [List.length_drop, List.length_cons]
    congr 1
    omega

/-- Digits with a point and without an exponent. -/
theorem spelledBy_placePoint (hc : c ≠ '0') (hdigits : ∀ x ∈ c :: ds, isDigit x = true)
    (whole : Int) : ∃ n : Numeral, placePoint (c :: ds) whole true = n.spell ∧
      (ofDigits (c :: ds) (whole - (c :: ds).length)).SpelledBy n := by
  by_cases hlow : whole ≤ 0
  · exact spelledBy_placePoint_of_nonpos hdigits hlow
  · by_cases hlong : (c :: ds).length ≤ whole.toNat
    · have hwhole : (whole.toNat : Int) = whole := by omega
      rw [← hwhole]
      exact spelledBy_placePoint_of_length_le hc hdigits hlong
    · rw [List.length_cons] at hlong
      have hwhole : ((whole.toNat - 1 + 1 : Nat) : Int) = whole := by omega
      rw [← hwhole]
      exact spelledBy_placePoint_of_lt_length hc hdigits (by omega)

/-- Digits with a point or without, and an exponent. -/
theorem spelledBy_placeExponent (hc : c ≠ '0') (hdigits : ∀ x ∈ c :: ds, isDigit x = true)
    (power : Int) : ∃ n : Numeral, placeExponent (c :: ds) power = n.spell ∧
      (ofDigits (c :: ds) (power + 1 - (c :: ds).length)).SpelledBy n := by
  cases ds with
  | nil =>
    refine ⟨⟨.absent, [c], none, some power⟩, rfl, ⟨hdigits, by rintro _ ⟨⟩⟩, rfl,
      Numeral.isStrict_of_ne hc _ (by decide) _, rfl, ?_⟩
    rw [Numeral.magnitude]
    simp
  | cons d ds =>
    refine ⟨⟨.absent, [c], some (d :: ds), some power⟩, rfl, ⟨?_, ?_⟩, rfl,
      Numeral.isStrict_of_ne hc _ (by simp) _, rfl, ?_⟩
    · intro x hx
      exact hdigits x (List.mem_singleton.1 hx ▸ List.mem_cons_self)
    · rintro _ ⟨⟩ x hx
      exact hdigits x (List.mem_cons_of_mem _ hx)
    · rw [Numeral.magnitude]
      simp only [Option.getD_some, List.singleton_append, List.length_cons]
      congr 1
      omega

end

/-- **The layout of JSON texts spells a decimal strictly,** with a point or an exponent. -/
theorem spelledBy_place {d : Decimal} (h : d.IsTrimmed) :
    ∃ n : Numeral, Layout.json.place d = n.spell ∧ d.SpelledBy n := by
  by_cases hzero : d.coeff = 0
  · obtain rfl : d = ⟨0, 0⟩ := h.resolve_left (by rw [hzero]; decide)
    exact ⟨⟨.absent, ['0'], some ['0'], none⟩, rfl, ⟨by simp [isDigit], by simp [isDigit]⟩, rfl,
      rfl, rfl, rfl⟩
  · obtain ⟨c, ds, hds, hc⟩ := exists_digits_eq_cons hzero
    have hdigits : ∀ x ∈ c :: ds, isDigit x = true := by
      rw [← hds]
      exact fun _ => isDigit_of_mem_digits
    have hread : ofDigits (c :: ds) d.exp = d := by
      rw [← hds]
      exact ofDigits_digits h
    have hpoint := spelledBy_placePoint hc hdigits (d.exp + (c :: ds).length - 1 + 1)
    have hexponent := spelledBy_placeExponent hc hdigits (d.exp + (c :: ds).length - 1)
    rw [Int.sub_add_cancel, Int.add_sub_cancel, hread] at hpoint hexponent
    have hplace : ∀ positional : Bool, ∃ n : Numeral,
        (if positional then placePoint (c :: ds) (d.exp + (c :: ds).length) true
          else placeExponent (c :: ds) (d.exp + (c :: ds).length - 1)) = n.spell ∧
        d.SpelledBy n := by
      intro positional
      cases positional with
      | true => exact hpoint
      | false => exact hexponent
    rw [Layout.place, hds, if_neg hzero, Int.sub_add_cancel]
    exact hplace _

end Decimal

/-! ## Numbers -/

namespace Numeral

/-- A numeral with a minus sign, or as it is. -/
def signed (negative : Bool) (n : Numeral) : Numeral :=
  if negative then { n with sign := .minus } else n

theorem spell_signed {n : Numeral} (hsign : n.sign = .absent) (negative : Bool) :
    (n.signed negative).spell = Decimal.signed negative n.spell := by
  obtain ⟨sign, whole, fraction, exponent⟩ := n
  obtain rfl : sign = .absent := hsign
  cases negative with
  | true | false => rfl

theorem isStrict_signed {n : Numeral} (hsign : n.sign = .absent) (negative : Bool) :
    (n.signed negative).isStrict = n.isStrict := by
  obtain ⟨sign, whole, fraction, exponent⟩ := n
  obtain rfl : sign = .absent := hsign
  cases negative with
  | true | false => rfl

theorem toFloat_signed {n : Numeral} (hsign : n.sign = .absent) (negative : Bool) :
    (n.signed negative).toFloat =
    if negative then -n.magnitude.toFloat else n.magnitude.toFloat := by
  obtain ⟨sign, whole, fraction, exponent⟩ := n
  obtain rfl : sign = .absent := hsign
  cases negative with
  | true | false => rfl

theorem toInt_signed {n : Numeral} (hsign : n.sign = .absent) (negative : Bool) :
    (n.signed negative).toInt =
    if negative then -(digitsValue n.whole : Int) else digitsValue n.whole := by
  obtain ⟨sign, whole, fraction, exponent⟩ := n
  obtain rfl : sign = .absent := hsign
  cases negative with
  | true | false => rfl

theorem isWhole_signed (negative : Bool) (n : Numeral) :
    (n.signed negative).isWhole = n.isWhole := by
  cases negative with
  | true | false => rfl

theorem WellSpelled.signed {n : Numeral} (h : n.WellSpelled) (negative : Bool) :
    (n.signed negative).WellSpelled := by
  cases negative with
  | true => exact ⟨h.whole, h.fraction⟩
  | false => exact h

/-- The digits of a whole number with its sign stand for the number. -/
theorem toInt_signed_digits (n : Int) (fraction : Option (List Char)) (exponent : Option Int) :
    (Numeral.signed (decide (n < 0)) ⟨.absent, digits n.natAbs, fraction, exponent⟩).toInt = n := by
  rw [toInt_signed rfl, digitsValue_digits]
  simp only [decide_eq_true_eq]
  split
  · omega
  · omega

/-- The sign of a whole number is there only below zero, so no negative zero is spelled. -/
theorem sign_signed_and_eq_zero (n : Int) {m : Numeral} (hsign : m.sign = .absent) :
    ((m.signed (decide (n < 0))).sign == .minus && n == 0) = false := by
  by_cases hn : n = 0
  · subst hn
    show (m.sign == .minus && true) = false
    rw [hsign]
    rfl
  · rw [beq_eq_false_iff_ne.2 hn, Bool.and_false]

end Numeral

namespace Json

/-- A strict numeral is read as a number. -/
structure ReadAs (m : Numeral) (n : Number) : Prop where
  wellSpelled : m.WellSpelled
  isStrict : m.isStrict = true
  number : numberOf? m = some n

/-- A decimal that is spelled strictly is read as the double next to it. -/
theorem readAs_signed {d : Decimal} {m : Numeral} (h : d.SpelledBy m) {negative : Bool}
    {x : Float} (hx : (if negative then -d.toFloat else d.toFloat) = x)
    (hfinite : x.isFinite = true) : ReadAs (m.signed negative) (.float x) where
  wellSpelled := h.wellSpelled.signed negative
  isStrict := by rw [Numeral.isStrict_signed h.sign, h.isStrict]
  number := by
    rw [numberOf?, Numeral.isWhole_signed, h.isWhole, Numeral.toFloat_signed h.sign, h.magnitude,
      hx, hfinite]
    rfl

/-- A zero is a zero with one of the two signs. -/
theorem eq_zero_of_ofFloat {x : Float} {negative : Bool} {e : Int}
    (h : Binary64.ofFloat x = .finite negative 0 e) :
    (if negative then -(0.0 : Float) else 0.0) = x := by
  refine Double.eq_of_unpack_eq ?_
  rw [Double.unpack_of_ofFloat h]
  cases negative with
  | true | false => rfl

/-- The double without its sign, and with it again. -/
theorem neg_neg_of_ofFloat {x : Float} {negative : Bool} {m : Nat} {e : Int} (hm : m ≠ 0)
    (h : Binary64.ofFloat x = .finite negative m e) :
    Double.Is (if negative then -x else x) (m * 2 ^ e) ∧
      (if negative then -(if negative then -x else x) else x) = x := by
  have his := Double.is_of_ofFloat h
  have hpos : (m : ℚ) * 2 ^ e ≠ 0 :=
    mul_ne_zero (by exact_mod_cast hm) (Double.two_zpow_pos e).ne'
  cases negative with
  | false => exact ⟨his, rfl⟩
  | true =>
    have hvalue : (((Double.signOf true).apply (m : ℤ) : ℤ) : ℚ) * 2 ^ e = -(m * 2 ^ e) := by
      show ((-(m : ℤ) : ℤ) : ℚ) * 2 ^ e = _
      push_cast
      ring
    rw [hvalue] at his
    have hneg := his.neg
    rw [neg_neg] at hneg
    exact ⟨hneg, hneg.neg.eq his (neg_ne_zero.2 hpos)⟩

/-- **A finite double is spelled by a numeral that is read as it.** -/
theorem exists_readAs_float {x : Float} (h : x.isFinite = true) :
    ∃ m : Numeral, spellNumber (.float x) = m.spell ∧ ReadAs m (.float x) := by
  obtain ⟨negative, mantissa, e, hparts⟩ := Double.exists_ofFloat h
  obtain ⟨m, hplace, hm⟩ := Decimal.spelledBy_place
    (Decimal.isTrimmed_shortest (if negative then -x else x) Decimal.Layout.json.tie mantissa e)
  refine ⟨m.signed negative, ?_, readAs_signed hm ?_ h⟩
  · rw [spellNumber, Decimal.Layout.write, hparts]
    simp only
    rw [String.toList_ofList, hplace, Numeral.spell_signed hm.sign]
  · by_cases hzero : mantissa = 0
    · subst hzero
      rw [Decimal.shortest, if_pos rfl]
      exact eq_zero_of_ofFloat hparts
    · obtain ⟨his, hsign⟩ := neg_neg_of_ofFloat hzero hparts
      rw [Decimal.toFloat_shortest _ hzero his]
      cases negative with
      | true | false => exact hsign

/-- The digits of a number are strict. -/
theorem isStrict_digits (n : Nat) : Numeral.isStrict ⟨.absent, digits n, none, none⟩ = true := by
  by_cases hn : n = 0
  · subst hn
    rfl
  · obtain ⟨c, ds, hds, hc⟩ := exists_digits_eq_cons hn
    rw [hds]
    exact Numeral.isStrict_of_ne hc ds (by decide) none

/-- The spelling of a whole number is a numeral without point and exponent. -/
theorem spellNumber_int (n : Int) : spellNumber (.int n) =
    (Numeral.signed (decide (n < 0)) ⟨.absent, digits n.natAbs, none, none⟩).spell := by
  rw [Numeral.spell_signed rfl, spellNumber, Decimal.signed]
  simp [Numeral.spell, Numeral.spellSign, Numeral.spellExponent]

/-- **A whole number of 64 bits is spelled by a numeral that is read as it.** -/
theorem readAs_int {n : Int} (h : (Number.int n).Spellable) :
    ReadAs (Numeral.signed (decide (n < 0)) ⟨.absent, digits n.natAbs, none, none⟩) (.int n) := by
  obtain ⟨hlow, hhigh⟩ := h
  refine ⟨Numeral.WellSpelled.signed ⟨fun _ => isDigit_of_mem_digits, by rintro _ ⟨⟩⟩ _, ?_, ?_⟩
  · rw [Numeral.isStrict_signed rfl]
    exact isStrict_digits n.natAbs
  · have hint := Numeral.toInt_signed_digits n none none
    have hzero := Numeral.sign_signed_and_eq_zero n
      (rfl : (⟨.absent, digits n.natAbs, none, none⟩ : Numeral).sign = .absent)
    have hrange : (true && !false && decide (-0x8000000000000000 ≤ n) &&
        decide (n < 0x10000000000000000)) = true := by
      rw [decide_eq_true (by omega), decide_eq_true (by omega)]
      rfl
    rw [numberOf?, Numeral.isWhole_signed]
    simp only [hint, hzero]
    exact if_pos hrange

/-- **The numbers that a JSON text can spell are spelled by numerals that are read as them.** -/
theorem exists_readAs {n : Number} (h : n.Spellable) :
    ∃ m : Numeral, spellNumber n = m.spell ∧ ReadAs m n := by
  cases n with
  | int n => exact ⟨_, spellNumber_int n, readAs_int h⟩
  | float x => exact exists_readAs_float h

theorem numeralToken?_spell {m : Numeral} {n : Number} (h : ReadAs m n) :
    numeralToken? m.spell = some (.num n) := by
  rw [numeralToken?, Numeral.ofChars?_spell h.wellSpelled]
  simp only
  rw [if_pos h.isStrict, h.number]
  rfl

end Json
end Atlas
