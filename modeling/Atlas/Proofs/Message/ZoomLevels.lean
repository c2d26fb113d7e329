import Atlas.Proofs.Double.Comparing
import Atlas.Proofs.Json.Parsing
import Atlas.Proofs.Message.Payloads
import Atlas.Proofs.Text.Blanks

/-!
# How a zoom level is spelled

A whole number can be sent as a JSON number or as a string with blanks around it, and in either of
them with a point and a zero behind it or without. Three readers share these spellings: one for
whole numbers, one for strings of digits and one for doubles. Doubles are exact in the range of
32 bits, and what is beyond the range is not rounded into it. So the readers agree on all numbers
but one: the least number of 32 bits is too great for the reader of doubles, which compares sizes
only.

## Main statements

* `truncate_eq` — the whole part of a double that is a whole number
* `CenterRequest.ofDouble?_signed` — how a decimal is read that is a whole number
* `CenterRequest.toOption_level_of_spells` — how each spelling of a whole number is read
* `CenterRequest.spellings_agree` — the spellings agree unless the number is the least one of
  32 bits
-/

namespace Atlas

open Double

/-! ## Whole parts -/

/-- The fraction that a double is made of is a whole number if the double is one. -/
theorem Binary64.numerator_div_denominator {m k : Nat} {e : Int} (h : (m : ℚ) * 2 ^ e = k) :
    numerator m e / denominator e = k := by
  refine Nat.div_eq_of_eq_mul_left (denominator_pos e) ?_
  rw [numerator, denominator, Nat.pow_eq, Nat.pow_eq]
  rcases Int.le_total 0 e with he | he
  · obtain ⟨j, rfl⟩ := Int.eq_ofNat_of_zero_le he
    rw [zpow_natCast] at h
    have hnone : (-(j : Int)).toNat = 0 := by omega
    rw [Int.toNat_natCast, hnone, Nat.pow_zero, Nat.mul_one]
    exact_mod_cast h
  · obtain ⟨j, rfl⟩ : ∃ j : Nat, e = -j := ⟨(-e).toNat, by omega⟩
    rw [zpow_neg, zpow_natCast, mul_inv_eq_iff_eq_mul₀ (by positivity)] at h
    have hnone : (-(j : Int)).toNat = 0 := by omega
    rw [neg_neg, Int.toNat_natCast, hnone, Nat.pow_zero, Nat.mul_one]
    exact_mod_cast h

/-- **The whole part of a double that is a whole number is the number.** -/
theorem truncate_eq {x : Float} {n : Int} (h : Is x n) : truncate x = n := by
  obtain ⟨negative, m, e, hparts⟩ := exists_ofFloat h.isFinite
  have hvalue := (is_of_ofFloat hparts).toRat_eq.symm.trans h.toRat_eq
  have habs : (m : ℚ) * 2 ^ e = n.natAbs := by
    rw [Nat.cast_natAbs, Int.cast_abs, ← hvalue, abs_mul, ← Int.cast_abs, abs_apply, Nat.abs_cast,
      Int.cast_natCast, abs_of_pos (two_zpow_pos e)]
  rw [truncate, hparts]
  simp only
  rw [Binary64.numerator_div_denominator habs]
  rw [← Int.cast_natCast n.natAbs] at habs
  cases negative with
  | false =>
    have hsign : (m : ℚ) * 2 ^ e = n := hvalue
    exact Int.cast_injective (habs.symm.trans hsign)
  | true =>
    have hsign : -((m : ℚ) * 2 ^ e) = n := by
      rw [← hvalue, ← neg_mul]
      norm_cast
    rw [habs, ← Int.cast_neg] at hsign
    exact Int.cast_injective hsign

/-- No character of a numeral is blank. -/
theorem Text.isBlank_of_inNumeral {c : Char} (h : Json.Lexer.inNumeral c = true) :
    isBlank c = false := by
  simp only [Json.Lexer.inNumeral, Bool.or_eq_true, beq_iff_eq] at h
  rcases h with ((((h | rfl) | rfl) | rfl) | rfl) | rfl
  · exact isBlank_of_isDigit h
  all_goals decide

/-! ## Strings of digits -/

namespace Numeral

/-- A text of digits with a sign is read as a whole number, and no other numeral is. -/
theorem readInt?_of_wellSpelled {m : Numeral} (h : m.WellSpelled) (hne : m.whole ≠ []) :
    readInt? m.spell = if m.isWhole then some m.toInt else none := by
  obtain ⟨sign, whole, fraction, exponent⟩ := m
  have hsign : splitSign (spell ⟨sign, whole, fraction, exponent⟩) =
      (sign, whole ++ (fraction.elim [] ('.' :: ·) ++ spellExponent exponent)) :=
    splitSign_spellSign sign fun c => ne_sign_of_head? h.whole fraction exponent
  have hall : whole.all isDigit = true := List.all_eq_true.2 h.whole
  have hsome : whole.isEmpty = false := List.isEmpty_eq_false_iff.2 hne
  rw [readInt?, hsign]
  cases fraction with
  | some ds => simp [isWhole, isDigit]
  | none =>
    cases exponent with
    | some n => simp [isWhole, spellExponent, isDigit]
    | none => simp [isWhole, spellExponent, hall, hsome, toInt]

theorem readFloat?_spell {m : Numeral} (h : m.WellSpelled) (hlenient : m.isLenient = true) :
    readFloat? m.spell = some m.toFloat := by
  rw [readFloat?, ofChars?_spell h, Option.bind_some, if_pos hlenient]

theorem magnitude_signed (negative : Bool) (m : Numeral) :
    (m.signed negative).magnitude = m.magnitude := by
  cases negative with
  | true | false => rfl

end Numeral

namespace CenterRequest

/-! ## Levels from doubles -/

/-- The level that a double is read as. -/
def ofDouble? (x : Float) : Option Int :=
  if x.isFinite then if (2147483647.0 : Float) < x.abs then none else some (truncate x) else none

/-- What is neither a whole number nor the text of one is read as a double. -/
theorem toOption_level {v : Json} {x : Float} (hwhole : whole? v = none)
    (hspelled : spelledWhole? v = none) (hx : number? v = some x) :
    (level v).toOption = ofDouble? x := by
  rw [level, hwhole, hspelled]
  simp only [finite, hx]
  rw [ofDouble?]
  by_cases hfinite : x.isFinite = true
  · rw [if_pos hfinite, if_pos hfinite]
    simp only
    split
    · rfl
    · rfl
  · rw [if_neg hfinite, if_neg hfinite]
    rfl

/-- The bound that the reader of doubles compares sizes with. -/
theorem is_greatest : Is (2147483647.0 : Float) 2147483647 := by
  have hparts : Binary64.ofFloat 2147483647.0 = .finite false (2147483647 * 2 ^ 22) (-22) := by
    decide +kernel
  have his := is_of_ofFloat hparts
  have hvalue : (((signOf false).apply ((2147483647 * 2 ^ 22 : Nat) : ℤ) : ℤ) : ℚ) * 2 ^ (-22 : ℤ) =
      2147483647 := by
    norm_num [signOf, Float.Model.UnpackedFloat.Sign.apply]
  rwa [hvalue] at his

theorem greatest_lt_abs_iff {x : Float} {q : ℚ} (h : Is x q) :
    (2147483647.0 : Float) < x.abs ↔ 2147483647 < |q| := by
  rw [lt_iff is_greatest.isFinite h.abs.isFinite, is_greatest.toRat_eq, h.abs.toRat_eq]

/-- A whole number whose size has at most 31 bits is the level that its double is read as. -/
theorem ofDouble?_of_is {x : Float} {n : Int} (h : Is x n) (hn : n.natAbs < 2 ^ 31) :
    ofDouble? x = some n := by
  have hle : ¬ (2147483647 : ℚ) < |(n : ℚ)| := by
    rw [not_lt, ← Int.cast_abs, ← Nat.cast_natAbs]
    exact_mod_cast Nat.le_of_lt_succ hn
  rw [ofDouble?, if_pos h.isFinite, if_neg (mt (greatest_lt_abs_iff h).1 hle), truncate_eq h]

/-- A double that is infinite or whose size has more than 31 bits is refused. -/
theorem ofDouble?_of_beyond {x : Float} (h : x.isFinite = true → (2 ^ 31 : ℚ) ≤ |toRat x|) :
    ofDouble? x = none := by
  rw [ofDouble?]
  split
  · next hfinite =>
    refine if_pos ((greatest_lt_abs_iff (is_toRat hfinite)).2 ?_)
    exact lt_of_lt_of_le (by norm_num) (h hfinite)
  · rfl

/-- A decimal that is far from zero is read as a double that is far from zero: rounding does not
pass the power of two, which fits the format. -/
theorem le_toRat_toFloat {d : Decimal} (h : (2 ^ 31 : ℚ) ≤ d.value)
    (hfinite : d.toFloat.isFinite = true) : (2 ^ 31 : ℚ) ≤ toRat d.toFloat := by
  have hpower : Representable ((2 ^ 31 : Nat) : ℚ) := (short_natCast (by norm_num)).representable
  rw [Nat.cast_pow, Nat.cast_ofNat] at hpower
  exact (Decimal.isNear_toFloat_of_isFinite hfinite).rounds.le_value hpower (by positivity) h

/-- The size of a whole number in front of its sign. -/
theorem ite_neg_natAbs (n : Int) : (if n < 0 then -(n.natAbs : ℚ) else n.natAbs) = n := by
  rw [← Int.cast_natCast]
  split
  · rw [← Int.cast_neg, Int.cast_inj]
    omega
  · rw [Int.cast_inj]
    omega

/-- **A decimal that is a whole number is read as this number if its size has at most 31 bits,**
and is refused otherwise. -/
theorem ofDouble?_signed {d : Decimal} {n : Int} (hd : d.value = n.natAbs) :
    ofDouble? (if n < 0 then -d.toFloat else d.toFloat) =
      if n.natAbs < 2 ^ 31 then some n else none := by
  by_cases hsmall : n.natAbs < 2 ^ 31
  · have hshort : Short (n.natAbs : ℚ) := short_natCast (by omega)
    have hlimit : |d.value| < limit := by
      rw [hd]
      exact hshort.lt_limit
    have hnear := Decimal.isNear_toFloat hlimit
    rw [hd] at hnear
    have his : Is d.toFloat n.natAbs := hnear.is hshort.representable
    rw [if_pos hsmall]
    refine ofDouble?_of_is ?_ hsmall
    rw [← ite_neg_natAbs]
    split
    · exact his.neg
    · exact his
  · have hbeyond : (2 ^ 31 : ℚ) ≤ d.value := by
      rw [hd]
      exact_mod_cast Nat.le_of_not_lt hsmall
    rw [if_neg hsmall]
    refine ofDouble?_of_beyond ?_
    split
    · intro hfinite
      have hpositive := isFinite_of_neg hfinite
      rw [(is_toRat hpositive).neg.toRat_eq, abs_neg]
      exact (le_toRat_toFloat hbeyond hpositive).trans (le_abs_self _)
    · intro hfinite
      exact (le_toRat_toFloat hbeyond hfinite).trans (le_abs_self _)

/-! ## Spellings -/

/-- The text of a whole number: a sign if it is below zero and its digits, with a point and a zero
behind them or without. -/
def spelling (point : Bool) (n : Int) : List Char :=
  (if n < 0 then ['-'] else []) ++ digits n.natAbs ++ (if point then ['.', '0'] else [])

/-- A value spells a whole number: it is the number that is read from a JSON text, or a string with
blanks around the number. -/
inductive Spells (n : Int) (point : Bool) : Json → Prop where
  | number {v : Json} (h : Json.parse? (String.ofList (spelling point n)) = some v) :
      Spells n point v
  | text {before after : List Char} (hbefore : ∀ c ∈ before, Text.isBlank c = true)
      (hafter : ∀ c ∈ after, Text.isBlank c = true) :
      Spells n point (.str (String.ofList (before ++ spelling point n ++ after)))

/-- The numeral of a whole number. -/
def numeral (point : Bool) (n : Int) : Numeral :=
  Numeral.signed (decide (n < 0))
    ⟨.absent, digits n.natAbs, if point then some ['0'] else none, none⟩

section
variable (point : Bool) (n : Int)

theorem spell_numeral : (numeral point n).spell = spelling point n := by
  rw [numeral, Numeral.spell_signed rfl, spelling]
  cases point <;> by_cases hn : n < 0 <;>
    simp [Decimal.signed, Numeral.spell, Numeral.spellSign, Numeral.spellExponent, hn]

theorem wellSpelled_numeral : (numeral point n).WellSpelled := by
  refine Numeral.WellSpelled.signed ⟨fun _ => isDigit_of_mem_digits, ?_⟩ _
  intro ds hds
  cases point with
  | false => cases hds
  | true =>
    cases hds
    simp [isDigit]

theorem isWhole_numeral : (numeral point n).isWhole = !point := by
  rw [numeral, Numeral.isWhole_signed]
  cases point <;> rfl

theorem isStrict_numeral : (numeral point n).isStrict = true := by
  rw [numeral, Numeral.isStrict_signed rfl]
  have hdigits := Json.isStrict_digits n.natAbs
  cases point with
  | false => exact hdigits
  | true =>
    rw [Numeral.isStrict] at hdigits ⊢
    simpa using hdigits

theorem whole_numeral : (numeral point n).whole = digits n.natAbs := by
  rw [numeral, Numeral.signed]
  split
  · rfl
  · rfl

theorem toInt_numeral : (numeral point n).toInt = n := Numeral.toInt_signed_digits n _ _

theorem value_magnitude : (numeral point n).magnitude.value = n.natAbs := by
  have hdigits : (numeral point n).magnitude = Decimal.ofDigits (digits n.natAbs) 0 := by
    rw [numeral, Numeral.magnitude_signed, Numeral.magnitude]
    cases point with
    | false => simp
    | true =>
      simp only [if_true, Option.getD_some, Option.getD_none, List.length_singleton]
      rw [Decimal.ofDigits_append_zero]
      rfl
  rw [hdigits, Decimal.value_ofDigits, digitsValue_digits, zpow_zero, mul_one]

theorem ofDouble?_numeral :
    ofDouble? (numeral point n).toFloat = if n.natAbs < 2 ^ 31 then some n else none := by
  have hvalue := value_magnitude point n
  rw [numeral, Numeral.magnitude_signed] at hvalue
  rw [numeral, Numeral.toFloat_signed rfl]
  simp only [decide_eq_true_eq]
  exact ofDouble?_signed hvalue

end

/-! ## What the spellings are read as -/

/-- The level that the spellings of a whole number are read as: a number of 32 bits is read from
each of them, except that the least one is refused with a point and a zero. -/
def levelOf? (point : Bool) (n : Int) : Option Int :=
  if fits32 n ∧ (point = true → n ≠ -0x80000000) then some n else none

theorem fits32_iff {n : Int} : fits32 n = true ↔ -0x80000000 ≤ n ∧ n < 0x80000000 := by
  rw [fits32, Bool.and_eq_true, decide_eq_true_eq, decide_eq_true_eq]

/-- Doubles are read for the spellings with a point, and for numbers that do not fit 32 bits. -/
theorem levelOf?_of_double {point : Bool} {n : Int} (h : point = true ∨ ¬ fits32 n = true) :
    levelOf? point n = if n.natAbs < 2 ^ 31 then some n else none := by
  rw [levelOf?]
  refine if_congr ?_ rfl rfl
  rw [fits32_iff] at h ⊢
  constructor
  · rintro ⟨⟨hlow, hhigh⟩, hleast⟩
    have hne := hleast (h.resolve_right (not_not_intro ⟨hlow, hhigh⟩))
    omega
  · intro hsmall
    exact ⟨by omega, fun _ => by omega⟩

/-- A whole JSON number is read as the spellings without a point are. -/
theorem toOption_level_int (n : Int) : (level (.num (.int n))).toOption = levelOf? false n := by
  by_cases hn : n < 0x8000000000000000
  · have hwhole : whole? (.num (.int n)) = some n := if_pos hn
    rw [level, hwhole, levelOf?]
    by_cases hfits : fits32 n = true
    · simp [hfits, Except.toOption]
    · simp [hfits, Except.toOption]
  · have hwhole : whole? (.num (.int n)) = none := if_neg hn
    have hbeyond : ¬ fits32 n = true := by
      rw [fits32_iff]
      omega
    -- a number of 64 bits without a sign comes as a double
    obtain ⟨k, rfl⟩ := Int.eq_ofNat_of_zero_le (by omega : 0 ≤ n)
    have hvalue : (⟨k, 0⟩ : Decimal).value = ((k : Int).natAbs : ℚ) := by
      rw [Decimal.value, zpow_zero, mul_one, Int.natAbs_natCast]
    have hdouble := ofDouble?_signed hvalue
    rw [if_neg (not_lt.2 (Int.natCast_nonneg k))] at hdouble
    rw [toOption_level hwhole rfl rfl, levelOf?_of_double (.inr hbeyond)]
    exact hdouble

theorem toOption_level_number {point : Bool} {n : Int} {m : Number}
    (h : Json.numberOf? (numeral point n) = some m) :
    (level (.num m)).toOption = levelOf? point n := by
  have hsign : ((numeral point n).sign == .minus && n == 0) = false :=
    Numeral.sign_signed_and_eq_zero n rfl
  rw [Json.numberOf?, toInt_numeral, isWhole_numeral] at h
  simp only [hsign] at h
  split at h
  · next hwhole =>
    cases h
    simp only [Bool.and_eq_true, Bool.not_eq_true'] at hwhole
    rw [hwhole.1.1.1]
    exact toOption_level_int n
  · next hother =>
    split at h
    · cases h
      rw [toOption_level rfl rfl rfl, levelOf?_of_double]
      · exact ofDouble?_numeral point n
      · by_contra hneither
        obtain ⟨hpoint, hfits⟩ := not_or.1 hneither
        rw [not_not, fits32_iff] at hfits
        refine hother ?_
        simp [Bool.not_eq_true _ ▸ hpoint]
        omega
    · cases h

theorem toOption_level_text {point : Bool} {n : Int} {before after : List Char}
    (hbefore : ∀ c ∈ before, Text.isBlank c = true) (hafter : ∀ c ∈ after, Text.isBlank c = true) :
    (level (.str (String.ofList (before ++ spelling point n ++ after)))).toOption =
      levelOf? point n := by
  have hwell := wellSpelled_numeral point n
  have hstrict := isStrict_numeral point n
  have htrim : Text.trim (String.ofList (before ++ spelling point n ++ after)).toList =
      (numeral point n).spell := by
    obtain ⟨c, cs, hcons, -⟩ := Json.exists_spell_eq_cons hwell hstrict
    rw [String.toList_ofList, ← spell_numeral]
    refine Text.trim_append hbefore hafter (by rw [hcons]; exact List.cons_ne_nil c cs) ?_
    exact fun c hc => Text.isBlank_of_inNumeral (Json.inNumeral_of_mem_spell hwell hc)
  have hnumber : number? (.str (String.ofList (before ++ spelling point n ++ after))) =
      some (numeral point n).toFloat := by
    rw [number?, htrim]
    exact Numeral.readFloat?_spell hwell (Numeral.isLenient_of_isStrict hstrict)
  have hdigits : (numeral point n).whole ≠ [] := by
    rw [whole_numeral]
    exact Nat.toDigits_ne_nil
  have hspelled : spelledWhole? (.str (String.ofList (before ++ spelling point n ++ after))) =
      if point = false ∧ fits32 n = true then some n else none := by
    rw [spelledWhole?, htrim, Numeral.readInt?_of_wellSpelled hwell hdigits, isWhole_numeral,
      toInt_numeral]
    cases point <;> simp
  by_cases h : point = false ∧ fits32 n = true
  · rw [if_pos h] at hspelled
    rw [level, hspelled, levelOf?, if_pos ⟨h.2, fun hpoint => by simp [h.1] at hpoint⟩]
    rfl
  · rw [if_neg h] at hspelled
    rw [toOption_level rfl hspelled hnumber, levelOf?_of_double]
    · exact ofDouble?_numeral point n
    · simpa [imp_iff_not_or] using h

/-- **What each spelling of a whole number is read as.** -/
theorem toOption_level_of_spells {point : Bool} {n : Int} {v : Json} (h : Spells n point v) :
    (level v).toOption = levelOf? point n := by
  cases h with
  | number h =>
    rw [← spell_numeral, Json.parse?_spell (wellSpelled_numeral point n)
      (isStrict_numeral point n)] at h
    obtain ⟨m, hm, rfl⟩ := Option.map_eq_some_iff.1 h
    exact toOption_level_number hm
  | text hbefore hafter => exact toOption_level_text hbefore hafter

/-- The spellings of a whole number agree: all of them are read as the number, or all are
refused. -/
def Agree (n : Int) : Prop :=
  (∀ point v, Spells n point v → level v = .ok n) ∨
    ∀ point v, Spells n point v → ∃ fault, level v = .error fault

theorem eq_ok_of_toOption {ε α : Type} {r : Except ε α} {a : α} (h : r.toOption = some a) :
    r = .ok a := by
  cases r with
  | error e => cases h
  | ok b =>
    cases h
    rfl

theorem exists_error_of_toOption {ε α : Type} {r : Except ε α} (h : r.toOption = none) :
    ∃ e, r = .error e := by
  cases r with
  | error e => exact ⟨e, rfl⟩
  | ok b => cases h

theorem spells_plain (point : Bool) (n : Int) :
    Spells n point (.str (String.ofList ([] ++ spelling point n ++ []))) :=
  .text (List.forall_mem_nil _) (List.forall_mem_nil _)

/-- The least number of 32 bits is read from its digits, and refused with a point and a zero. -/
theorem not_agree_least : ¬ Agree (-0x80000000) := by
  have hdigits := toOption_level_of_spells (spells_plain false (-0x80000000))
  have hpoint := toOption_level_of_spells (spells_plain true (-0x80000000))
  rintro (hread | hrefused)
  · rw [hread _ _ (spells_plain true _)] at hpoint
    cases hpoint
  · obtain ⟨fault, hfault⟩ := hrefused _ _ (spells_plain false _)
    rw [hfault] at hdigits
    cases hdigits

/-- **The spellings of a whole number agree, unless it is the least one of 32 bits.** Each of them
is read as the number if it fits 32 bits, and the least one only without a point. -/
theorem spellings_agree (n : Int) :
    (Agree n ↔ n ≠ -0x80000000) ∧
      ∀ point v, Spells n point v → (level v).toOption = levelOf? point n := by
  refine ⟨⟨?_, ?_⟩, fun point v => toOption_level_of_spells⟩
  · rintro hagree rfl
    exact not_agree_least hagree
  · intro hne
    have hlevel : ∀ point, levelOf? point n = if fits32 n then some n else none := by
      intro point
      simp [levelOf?, hne]
    by_cases hfits : fits32 n = true
    · refine .inl fun point v hv => eq_ok_of_toOption ?_
      rw [toOption_level_of_spells hv, hlevel, if_pos hfits]
    · refine .inr fun point v hv => exists_error_of_toOption ?_
      rw [toOption_level_of_spells hv, hlevel, if_neg hfits]

/-- Next to the least number the spellings agree, also a string with a point and with blanks of
two kinds around it. -/
theorem spellings_agree_next_to_least :
    Spells (-0x7fffffff) true (.str " -2147483647.0\t") ∧
      level (.str " -2147483647.0\t") = .ok (-0x7fffffff) ∧ Agree (-0x7fffffff) := by
  have hspells : Spells (-0x7fffffff) true
      (.str (String.ofList ([' '] ++ spelling true (-0x7fffffff) ++ ['\t']))) :=
    .text (List.forall_mem_singleton.2 rfl) (List.forall_mem_singleton.2 rfl)
  have htext : String.ofList ([' '] ++ spelling true (-0x7fffffff) ++ ['\t']) =
      " -2147483647.0\t" := by
    decide +kernel
  rw [htext] at hspells
  obtain ⟨hiff, hread⟩ := spellings_agree (-0x7fffffff)
  exact ⟨hspells, eq_ok_of_toOption (hread _ _ hspells), hiff.2 (by decide)⟩

/-- The least number of 32 bits as a whole number, and as a double with the same text but for a
point and a zero: the one is read, and the other is refused. -/
theorem least_level_refused_as_double :
    let request := fun zoom => (⟨.num (.float 1.0), .num (.float 2.0), zoom⟩ : CenterRequest)
    let whole := Json.num (.int (-0x80000000))
    let double := Json.num (.float (-2147483648.0))
    Spells (-0x80000000) false whole ∧ Spells (-0x80000000) true double ∧
      (request whole).parse = .ok (⟨1.0, 2.0⟩, -0x80000000) ∧
      (request double).parse =
        .error ((Fault.of (.wideFractionalZoom (-2147483648.0))).within .readingZoom) ∧
      ¬ Agree (-0x80000000) := by
  refine ⟨.number ?_, .number ?_, ?_, ?_, not_agree_least⟩
  · rfl
  · rfl
  · rfl
  · rfl

end CenterRequest
end Atlas
