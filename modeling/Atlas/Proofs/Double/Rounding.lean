import Atlas.Proofs.Double.Positive

/-!
# Rounding

What rounding does to the number that an unpacked double stands for. A mantissa that is cut keeps
two bits about what was cut off, whether it was half a unit or more, and whether there was anything
besides. They are enough to take the nearer of two neighbours, so a rounded number is off by at
most half a unit in its last place. The last place is that of `2 ^ -1074`, or it is 52 places
behind the first bit of the number. A number that has no more bits than that is not changed.

## Main statements

* `Double.rounds_roundWithAccuracy` — rounding is off by at most half a unit in the last place
* `Double.Rounds.value_eq` — a number that fits the format is not changed
* `Double.rounds_normalize` — a whole number times a power of two is rounded
-/

namespace Atlas.Double

open Float.Model
open Float.Model.UnpackedFloat

/-! ## Values -/

/-- The number that an unpacked double stands for, zero if it is none. -/
def value : UnpackedFloat → ℚ
  | .finite sign m e _ => sign.apply m * 2 ^ e
  | _ => 0

/-- An unpacked double is as the format has it: zero, or with a mantissa of 53 bits, or with a
shorter one and the least exponent. -/
inductive Proper : UnpackedFloat → Prop where
  | zero (sign : UnpackedFloat.Sign) : Proper (.zero sign)
  | finite (sign : UnpackedFloat.Sign) (m : Nat) (e : Int) (hm : 0 < m) (hlt : m < 2 ^ 53)
      (he : -1074 ≤ e) (hfull : 2 ^ 52 ≤ m ∨ e = -1074) : Proper (.finite sign m e hm)

/-- A number fits the format, apart from its size. -/
def Representable (q : ℚ) : Prop := ∃ n e : ℤ, |n| < 2 ^ 53 ∧ -1074 ≤ e ∧ q = n * 2 ^ e

/-- A number is rounded: it becomes the nearest multiple of a power of two. The power is the least
one of the format, or the number has at least 53 bits in front of it. -/
def Rounds (q : ℚ) (u : UnpackedFloat) : Prop :=
  ∃ n e : ℤ, -1074 ≤ e ∧ (e = -1074 ∨ (2 : ℚ) ^ (e + 52) ≤ |q|) ∧ value u = n * 2 ^ e ∧
    |q - n * 2 ^ e| ≤ 2 ^ e / 2

theorem two_zpow_pos (e : ℤ) : (0 : ℚ) < 2 ^ e := zpow_pos two_pos e

theorem apply_neg (sign : UnpackedFloat.Sign) (n : ℤ) : (-sign).apply n = -sign.apply n := by
  cases sign with
  | negative => exact (neg_neg n).symm
  | positive => rfl

theorem apply_eq_mul (sign : UnpackedFloat.Sign) (n : ℤ) :
    (sign.apply n : ℚ) = sign.apply 1 * n := by
  cases sign with
  | negative => simp [Sign.apply]
  | positive => simp [Sign.apply]

theorem abs_apply (sign : UnpackedFloat.Sign) (n : ℤ) : |sign.apply n| = |n| := by
  cases sign with
  | negative => exact abs_neg n
  | positive => rfl

theorem abs_value_finite (sign : UnpackedFloat.Sign) (m : Nat) (e : Int) (hm : 0 < m) :
    |value (.finite sign m e hm)| = m * 2 ^ e := by
  rw [value, abs_mul, ← Int.cast_abs, abs_apply, abs_of_pos (two_zpow_pos e), Nat.abs_cast,
    Int.cast_natCast]

theorem value_neg (u : UnpackedFloat) : value u.neg = -value u := by
  cases u with
  | infinity | notANumber | zero => exact neg_zero.symm
  | finite sign m e hm =>
    rw [UnpackedFloat.neg, value, value, apply_neg, Int.cast_neg, neg_mul]

theorem Proper.neg {u : UnpackedFloat} (h : Proper u) : Proper u.neg := by
  cases h with
  | zero sign => exact .zero _
  | finite sign m e hm hlt he hfull => exact .finite _ m e hm hlt he hfull

theorem value_abs (u : UnpackedFloat) : value u.abs = |value u| := by
  cases u with
  | infinity | notANumber | zero => exact abs_zero.symm
  | finite sign m e hm =>
    rw [abs_value_finite]
    rfl

theorem Proper.abs {u : UnpackedFloat} (h : Proper u) : Proper u.abs := by
  cases h with
  | zero sign => exact .zero _
  | finite sign m e hm hlt he hfull => exact .finite _ m e hm hlt he hfull

/-- What is as the format has it, fits the format. -/
theorem Proper.representable {u : UnpackedFloat} (h : Proper u) : Representable (value u) := by
  cases h with
  | zero sign => exact ⟨0, 0, by norm_num, by norm_num, by simp [value]⟩
  | finite sign m e hm hlt he hfull =>
    refine ⟨sign.apply m, e, ?_, he, rfl⟩
    rw [abs_apply, Nat.abs_cast]
    exact_mod_cast hlt

/-- What is as the format has it, is its own value rounded. -/
theorem Proper.rounds {u : UnpackedFloat} (h : Proper u) : Rounds (value u) u := by
  cases h with
  | zero sign =>
    have hvalue : value (.zero sign) = ((0 : ℤ) : ℚ) * 2 ^ (-1074 : ℤ) := by simp [value]
    refine ⟨0, -1074, le_rfl, .inl rfl, hvalue, ?_⟩
    rw [hvalue, sub_self, abs_zero]
    exact (half_pos (two_zpow_pos _)).le
  | finite sign m e hm hlt he hfull =>
    refine ⟨sign.apply m, e, he, ?_, rfl, ?_⟩
    · rw [abs_value_finite]
      rcases hfull with hfull | hleast
      · right
        rw [add_comm, zpow_add₀ two_ne_zero]
        refine mul_le_mul_of_nonneg_right ?_ (two_zpow_pos e).le
        exact_mod_cast hfull
      · exact .inl hleast
    · rw [value, sub_self, abs_zero]
      exact (half_pos (two_zpow_pos e)).le

/-! ## What is cut off -/

/-- A mantissa with its two bits stands for a number: the fraction is less than one, and the bits
tell whether it is at least one half, and whether it is anything besides zero and one half. -/
structure Represents (em : ExtendedMantissa) (x : ℚ) : Prop where
  le : (em.mantissa : ℚ) ≤ x
  lt : x < em.mantissa + 1
  roundBit : em.roundBit = true ↔ em.mantissa + 1 / 2 ≤ x
  stickyBit : em.stickyBit = true ↔ x ≠ em.mantissa ∧ x ≠ em.mantissa + 1 / 2

theorem represents_of_fraction {m : Nat} {roundBit stickyBit : Bool} {f : ℚ} (hle : 0 ≤ f)
    (hlt : f < 1) (hround : roundBit = true ↔ 1 / 2 ≤ f)
    (hsticky : stickyBit = true ↔ f ≠ 0 ∧ f ≠ 1 / 2) :
    Represents ⟨m, roundBit, stickyBit⟩ (m + f) where
  le := le_add_of_nonneg_right hle
  lt := (add_lt_add_iff_left _).2 hlt
  roundBit := hround.trans (add_le_add_iff_left _).symm
  stickyBit := by
    rw [hsticky]
    exact and_congr (not_congr add_eq_left.symm) (not_congr (add_right_inj _).symm)

/-- The two bits tell whether anything was cut off. -/
theorem Represents.roundBit_or_stickyBit {em : ExtendedMantissa} {x : ℚ} (h : Represents em x) :
    (em.roundBit || em.stickyBit) = true ↔ x ≠ em.mantissa := by
  rw [Bool.or_eq_true, h.roundBit, h.stickyBit]
  constructor
  · rintro (hhalf | ⟨hne, -⟩)
    · intro heq
      linarith
    · exact hne
  · intro hne
    by_cases hhalf : (em.mantissa : ℚ) + 1 / 2 ≤ x
    · exact .inl hhalf
    · exact .inr ⟨hne, fun heq => hhalf heq.ge⟩

/-- One bit less halves the number. -/
theorem Represents.shiftRightOne {em : ExtendedMantissa} {x : ℚ} (h : Represents em x) :
    Represents em.shiftRightOne (x / 2) := by
  have hany := h.roundBit_or_stickyBit
  obtain ⟨m, roundBit, stickyBit⟩ := em
  obtain ⟨hle, hlt, -, -⟩ := h
  simp only at hle hlt hany
  show Represents ⟨m / 2, m % 2 != 0, roundBit || stickyBit⟩ (x / 2)
  rcases Nat.mod_two_eq_zero_or_one m with heven | hodd
  · have hm : (m : ℚ) = 2 * (m / 2 : Nat) := by exact_mod_cast (by omega : m = 2 * (m / 2))
    have hx : x / 2 = (m / 2 : Nat) + (x - m) / 2 := by linarith
    have hbit : (m % 2 != 0) = false := by rw [heven]; rfl
    rw [hx, hbit]
    refine represents_of_fraction (by linarith) (by linarith) ?_ ?_
    · exact ⟨fun h => Bool.noConfusion h, fun h => by linarith⟩
    · rw [hany]
      refine ⟨fun hne => ⟨fun h => hne (by linarith), fun h => by linarith⟩, ?_⟩
      rintro ⟨hne, -⟩ heq
      exact hne (by linarith)
  · have hm : (m : ℚ) = 2 * (m / 2 : Nat) + 1 := by
      exact_mod_cast (by omega : m = 2 * (m / 2) + 1)
    have hx : x / 2 = (m / 2 : Nat) + (1 + (x - m)) / 2 := by linarith
    have hbit : (m % 2 != 0) = true := by rw [hodd]; rfl
    rw [hx, hbit]
    refine represents_of_fraction (by linarith) (by linarith) ?_ ?_
    · exact ⟨fun _ => by linarith, fun _ => rfl⟩
    · rw [hany]
      refine ⟨fun hne => ⟨fun h => by linarith, fun h => hne (by linarith)⟩, ?_⟩
      rintro ⟨-, hne⟩ heq
      exact hne (by linarith)

theorem Represents.shiftRight {em : ExtendedMantissa} {x : ℚ} (h : Represents em x) (k : Nat) :
    Represents (em >>> k) (x / 2 ^ k) := by
  show Represents (k.repeat ExtendedMantissa.shiftRightOne em) (x / 2 ^ k)
  induction k with
  | zero =>
    rw [pow_zero, div_one]
    exact h
  | succ k ih =>
    rw [pow_succ, ← div_div]
    exact ih.shiftRightOne

/-- The nearer one of two neighbours is taken. -/
theorem Represents.abs_sub_le {em : ExtendedMantissa} {x : ℚ} (h : Represents em x) :
    |x - em.roundedMantissa| ≤ 1 / 2 := by
  obtain ⟨m, roundBit, stickyBit⟩ := em
  obtain ⟨hle, hlt, hround, hsticky⟩ := h
  simp only at hle hlt hround hsticky
  rw [abs_le]
  cases roundBit with
  | false =>
    have hbelow : ¬ (m : ℚ) + 1 / 2 ≤ x := fun h => Bool.noConfusion (hround.2 h)
    have hdown : ExtendedMantissa.roundedMantissa ⟨m, false, stickyBit⟩ = m := by
      cases stickyBit <;> rfl
    rw [hdown]
    constructor <;> linarith
  | true =>
    have habove : (m : ℚ) + 1 / 2 ≤ x := hround.1 rfl
    cases stickyBit with
    | false =>
      have hhalf : x = m + 1 / 2 := by
        by_contra hne
        exact Bool.noConfusion (hsticky.2 ⟨by intro h; linarith, hne⟩)
      -- of two neighbours that are equally near, either one will do
      have hup : ExtendedMantissa.roundedMantissa ⟨m, true, false⟩ = m + m % 2 := rfl
      rw [hup]
      rcases Nat.mod_two_eq_zero_or_one m with h | h
      · rw [h, hhalf]
        norm_num
      · rw [h, hhalf]
        norm_num
    | true =>
      have hup : ExtendedMantissa.roundedMantissa ⟨m, true, true⟩ = m + 1 := rfl
      rw [hup, Nat.cast_succ]
      constructor <;> linarith

theorem represents_exact (m : Nat) :
    Represents (ExtendedMantissa.ofMantissaAndAccuracy m .exact) m := by
  have h : Represents ⟨m, false, false⟩ ((m : ℚ) + 0) :=
    represents_of_fraction le_rfl one_pos (by norm_num) (by norm_num)
  rw [add_zero] at h
  exact h

/-- What a division leaves is told by comparing its double with the divisor. -/
theorem represents_fraction (m : Nat) {num den : Nat} (h : num < den) :
    Represents (ExtendedMantissa.ofMantissaAndAccuracy m (accuracyOfFraction num den))
      (m + num / den) := by
  have hden : (0 : ℚ) < den := by exact_mod_cast Nat.zero_lt_of_lt h
  have hlt : (num : ℚ) / den < 1 := (div_lt_one hden).2 (by exact_mod_cast h)
  by_cases hzero : num = 0
  · subst hzero
    have hexact := represents_exact m
    rwa [Nat.cast_zero, zero_div, add_zero]
  have hpos : (0 : ℚ) < num / den := div_pos (by exact_mod_cast Nat.pos_of_ne_zero hzero) hden
  rw [accuracyOfFraction, if_neg hzero]
  rcases lt_trichotomy (2 * num) den with hhalf | hhalf | hhalf
  · have hbelow : (num : ℚ) / den < 1 / 2 := by
      rw [div_lt_div_iff₀ hden two_pos]
      exact_mod_cast (by omega : num * 2 < 1 * den)
    rw [Nat.compare_eq_lt.2 hhalf]
    refine represents_of_fraction hpos.le hlt ?_ ?_
    · exact ⟨fun h => Bool.noConfusion h, fun h => absurd h hbelow.not_ge⟩
    · exact ⟨fun _ => ⟨hpos.ne', hbelow.ne⟩, fun _ => rfl⟩
  · have hequal : (num : ℚ) / den = 1 / 2 := by
      rw [div_eq_div_iff hden.ne' two_ne_zero]
      exact_mod_cast (by omega : num * 2 = 1 * den)
    rw [Nat.compare_eq_eq.2 hhalf]
    exact represents_of_fraction hpos.le hlt (by simp [hequal]) (by simp [hequal])
  · have habove : 1 / 2 < (num : ℚ) / den := by
      rw [div_lt_div_iff₀ two_pos hden]
      exact_mod_cast (by omega : 1 * den < num * 2)
    rw [Nat.compare_eq_gt.2 hhalf]
    refine represents_of_fraction hpos.le hlt ?_ ?_
    · exact ⟨fun _ => habove.le, fun _ => rfl⟩
    · exact ⟨fun _ => ⟨hpos.ne', habove.ne'⟩, fun _ => rfl⟩

/-! ## Rounding a mantissa -/

/-- A sign, a mantissa and an exponent as an unpacked double. -/
def ofParts (sign : UnpackedFloat.Sign) (m : Nat) (e : Int) : UnpackedFloat :=
  if h : m = 0 then .zero sign else .finite sign m e (Nat.pos_of_ne_zero h)

theorem value_ofParts (sign : UnpackedFloat.Sign) (m : Nat) (e : Int) :
    value (ofParts sign m e) = sign.apply m * 2 ^ e := by
  rw [ofParts]
  split
  · next hzero =>
    subst hzero
    cases sign <;> simp [value, Sign.apply]
  · rfl

theorem proper_ofParts (sign : UnpackedFloat.Sign) {m : Nat} {e : Int} (hlt : m < 2 ^ 53)
    (he : -1074 ≤ e) (hfull : 2 ^ 52 ≤ m ∨ e = -1074) : Proper (ofParts sign m e) := by
  rw [ofParts]
  split
  · exact .zero sign
  · exact .finite sign m e _ hlt he hfull

theorem targetExponent_eq (m : Nat) (e : Int) :
    Format.binary64.targetExponent (totalExponent m e) = max ((m.log2 : Int) + e - 52) (-1074) := by
  show max ((m.log2 : Int) + 1 + e - 53) (-1074) = _
  congr 1
  ring

theorem shiftToTargetExponent_eq {m : Nat} {e : Int} {k : Nat}
    (hk : (max ((m.log2 : Int) + e - 52) (-1074) - e).toNat = k) (accuracy : Accuracy) :
    shiftToTargetExponent Format.binary64 m e accuracy =
      (ExtendedMantissa.ofMantissaAndAccuracy m accuracy >>> k, e + k) := by
  rw [shiftToTargetExponent, shiftToExponent, targetExponent_eq, hk]

/-- A mantissa of at most 53 bits is kept when the exponent is not too low. -/
theorem shiftToTargetExponent_of_lt {m : Nat} (hm : m < 2 ^ 53) {e : Int} (he : -1074 ≤ e) :
    shiftToTargetExponent Format.binary64 m e .exact =
      (ExtendedMantissa.ofMantissaAndAccuracy m .exact, e) := by
  have hlog : m.log2 ≤ 52 := by
    by_cases hzero : m = 0
    · subst hzero
      exact Nat.zero_le _
    · exact Nat.le_of_lt_succ ((Nat.log2_lt hzero).2 hm)
  rw [shiftToTargetExponent_eq (k := 0) (by omega), Nat.cast_zero, add_zero]
  rfl

/-- The least mantissa with one bit more loses a zero. -/
theorem shiftToTargetExponent_two_pow {e : Int} (he : -1074 ≤ e) :
    shiftToTargetExponent Format.binary64 (2 ^ 53) e .exact =
      (ExtendedMantissa.ofMantissaAndAccuracy (2 ^ 52) .exact, e + 1) := by
  have hlog : (2 ^ 53).log2 = 53 := Nat.log2_two_pow
  rw [shiftToTargetExponent_eq (k := 1) (by omega)]
  rfl

/-- Once a mantissa has been rounded to 53 bits, rounding is over. A mantissa that has got one bit
more is a power of two. -/
theorem exists_ofParts {m : Nat} (hm : m ≤ 2 ^ 53) {e : Int} (he : -1074 ≤ e)
    (hfull : 2 ^ 52 ≤ m ∨ e = -1074) (sign : UnpackedFloat.Sign) :
    let last := shiftToTargetExponent Format.binary64 m e .exact
    Proper (ofParts sign last.1.mantissa last.2) ∧
      value (ofParts sign last.1.mantissa last.2) = sign.apply m * 2 ^ e := by
  rcases Nat.lt_or_eq_of_le hm with hlt | rfl
  · rw [shiftToTargetExponent_of_lt hlt he]
    exact ⟨proper_ofParts sign hlt he hfull, value_ofParts sign m e⟩
  · rw [shiftToTargetExponent_two_pow he]
    refine ⟨proper_ofParts sign (by norm_num : 2 ^ 52 < 2 ^ 53) (by omega) (.inl le_rfl), ?_⟩
    refine (value_ofParts sign (2 ^ 52) (e + 1)).trans ?_
    have hdouble : sign.apply ((2 ^ 53 : Nat) : ℤ) = sign.apply ((2 ^ 52 : Nat) : ℤ) * 2 := by
      cases sign <;> rfl
    rw [hdouble, zpow_add_one₀ two_ne_zero]
    push_cast
    ring

/-- A mantissa is cut down to 53 bits. -/
theorem cut_lt {m k : Nat} (h : m.log2 ≤ 52 + k) : m / 2 ^ k < 2 ^ 53 := by
  rw [Nat.div_lt_iff_lt_mul (Nat.two_pow_pos k), ← Nat.pow_add]
  exact Nat.lt_of_lt_of_le Nat.lt_log2_self (Nat.pow_le_pow_right two_pos (by omega))

/-- The first bit is not cut off. -/
theorem le_cut {m k : Nat} (h : 52 + k = m.log2) : 2 ^ 52 ≤ m / 2 ^ k := by
  have hm : m ≠ 0 := by
    rintro rfl
    rw [Nat.log2_zero] at h
    omega
  rw [Nat.le_div_iff_mul_le (Nat.two_pow_pos k), ← Nat.pow_add, h]
  exact Nat.log2_self_le hm

theorem abs_apply_one_mul (sign : UnpackedFloat.Sign) (x : ℚ) :
    |((sign.apply 1 : ℤ) : ℚ) * x| = |x| := by
  rw [abs_mul, ← Int.cast_abs, abs_apply, abs_one, Int.cast_one, one_mul]

/-- A mantissa that is off by at most one half is off by at most half a unit in the last place. -/
theorem abs_sub_cut_le (sign : UnpackedFloat.Sign) {x : ℚ} {n k : Nat} (e : Int)
    (h : |x / 2 ^ k - n| ≤ 1 / 2) :
    |(sign.apply 1 : ℚ) * (x * 2 ^ e) - sign.apply n * 2 ^ (e + k)| ≤ 2 ^ (e + k) / 2 := by
  have hscale : x * 2 ^ e = x / 2 ^ k * 2 ^ (e + k) := by
    rw [zpow_add₀ two_ne_zero, zpow_natCast, mul_comm ((2 : ℚ) ^ e), ← mul_assoc,
      div_mul_cancel₀ _ (pow_ne_zero k two_ne_zero)]
  calc |(sign.apply 1 : ℚ) * (x * 2 ^ e) - sign.apply n * 2 ^ (e + k)|
      = |(sign.apply 1 : ℚ) * ((x / 2 ^ k - n) * 2 ^ (e + k))| := by
        rw [apply_eq_mul sign n, hscale, Int.cast_natCast]
        congr 1
        ring
    _ = |x / 2 ^ k - n| * 2 ^ (e + k) := by
        rw [abs_apply_one_mul, abs_mul, abs_of_pos (two_zpow_pos _)]
    _ ≤ 1 / 2 * 2 ^ (e + k) := mul_le_mul_of_nonneg_right h (two_zpow_pos _).le
    _ = 2 ^ (e + k) / 2 := by ring

/-- **Rounding is off by at most half a unit in the last place,** and gives what the format has. -/
theorem rounds_roundWithAccuracy {m : Nat} {e : Int} {accuracy : Accuracy} {x : ℚ}
    (hx : Represents (ExtendedMantissa.ofMantissaAndAccuracy m accuracy) x)
    (hlow : 52 ≤ m.log2 ∨ e ≤ -1074) (sign : UnpackedFloat.Sign) :
    Proper (roundWithAccuracy Format.binary64 sign m e accuracy) ∧
      Rounds (sign.apply 1 * (x * 2 ^ e))
        (roundWithAccuracy Format.binary64 sign m e accuracy) := by
  obtain ⟨k, hk⟩ : ∃ k, (max ((m.log2 : Int) + e - 52) (-1074) - e).toNat = k := ⟨_, rfl⟩
  have hleast : -1074 ≤ e + k := by omega
  have hfirst := shiftToTargetExponent_eq hk accuracy
  have hcut : (ExtendedMantissa.ofMantissaAndAccuracy m accuracy >>> k).mantissa = m / 2 ^ k := by
    rw [mantissa_shiftRight, mantissa_ofMantissaAndAccuracy]
  have hshift := hx.shiftRight k
  generalize ExtendedMantissa.ofMantissaAndAccuracy m accuracy >>> k = em at hfirst hcut hshift
  have hrounded : em.roundedMantissa ≤ 2 ^ 53 := by
    refine Nat.le_trans (roundedMantissa_le em) ?_
    rw [hcut]
    exact cut_lt (by omega)
  -- the cut mantissa has 53 bits, or the exponent is the least one
  have hbits : e + k = -1074 ∨ e + k + 52 = m.log2 + e ∧ 52 ≤ m.log2 := by omega
  have hfull : 2 ^ 52 ≤ em.roundedMantissa ∨ e + k = -1074 := by
    rcases hbits with hleast | ⟨hlog, -⟩
    · exact .inr hleast
    · refine .inl (Nat.le_trans ?_ (le_roundedMantissa em))
      rw [hcut]
      exact le_cut (by omega)
  have hparts : roundWithAccuracy Format.binary64 sign m e accuracy =
      ofParts sign
        (shiftToTargetExponent Format.binary64 em.roundedMantissa (e + k) .exact).1.mantissa
        (shiftToTargetExponent Format.binary64 em.roundedMantissa (e + k) .exact).2 := by
    rw [roundWithAccuracy, hfirst]
    rfl
  obtain ⟨hproper, hvalue⟩ := exists_ofParts hrounded hleast hfull sign
  rw [hparts]
  refine ⟨hproper, sign.apply em.roundedMantissa, e + k, hleast, ?_, hvalue,
    abs_sub_cut_le sign e hshift.abs_sub_le⟩
  -- the number is not less than its first bit
  refine hbits.imp id ?_
  rintro ⟨hlog, h52⟩
  have hle : (m : ℚ) ≤ x := by
    have h := hx.le
    rwa [mantissa_ofMantissaAndAccuracy] at h
  have hpow : (2 : ℚ) ^ m.log2 ≤ m := by
    exact_mod_cast Nat.log2_self_le (by rintro rfl; cases h52)
  rw [abs_apply_one_mul, hlog, zpow_add₀ two_ne_zero, zpow_natCast]
  refine le_trans ?_ (le_abs_self _)
  exact mul_le_mul_of_nonneg_right (hpow.trans hle) (two_zpow_pos e).le

/-- Zeros at the end of the mantissa are taken back by the exponent. -/
theorem shiftLeft_mul_zpow (m k : Nat) (e : Int) :
    ((m <<< k : Nat) : ℚ) * 2 ^ (e - k) = m * 2 ^ e := by
  rw [Nat.shiftLeft_eq, zpow_sub₀ two_ne_zero, zpow_natCast, Nat.cast_mul, Nat.cast_pow,
    Nat.cast_ofNat, mul_assoc, mul_div_cancel₀ _ (pow_ne_zero k two_ne_zero)]

/-- A whole number times a power of two is rounded. Its mantissa is filled up with zeros before. -/
theorem rounds_round {m : Nat} (hm : m ≠ 0) (e : Int) (sign : UnpackedFloat.Sign) :
    Proper (round Format.binary64 sign m e) ∧
      Rounds (sign.apply m * 2 ^ e) (round Format.binary64 sign m e) := by
  rw [UnpackedFloat.round, decreaseExponent, targetExponent_eq]
  generalize hk : (e - max ((m.log2 : Int) + e - 52) (-1074)).toNat = k
  have hlog : (m <<< k).log2 = m.log2 + k := by rw [Nat.shiftLeft_eq, log2_mul_two_pow hm]
  rw [apply_eq_mul, Int.cast_natCast, mul_assoc, ← shiftLeft_mul_zpow m k e]
  exact rounds_roundWithAccuracy (represents_exact _) (by omega) sign

/-- **A whole number times a power of two is rounded,** whatever its sign. -/
theorem rounds_normalize (n : ℤ) (e : Int) :
    Proper (normalize Format.binary64 n e .positive) ∧
      Rounds (n * 2 ^ e) (normalize Format.binary64 n e .positive) := by
  rw [UnpackedFloat.normalize]
  rcases lt_trichotomy n 0 with hneg | rfl | hpos
  · have hcompare : compare n 0 = .lt := Int.compare_eq_lt.2 hneg
    have hcast : n = Sign.negative.apply ((-n).toNat : ℤ) := by
      show n = -((-n).toNat : ℤ)
      omega
    rw [hcompare]
    have h := rounds_round (m := (-n).toNat) (by omega) e .negative
    rwa [← hcast] at h
  · have h : Proper (.zero .positive) := .zero .positive
    refine ⟨h, ?_⟩
    rw [Int.cast_zero, zero_mul]
    exact h.rounds
  · have hcompare : compare n 0 = .gt := Int.compare_eq_gt.2 hpos
    have hcast : n = Sign.positive.apply (n.toNat : ℤ) := by
      show n = (n.toNat : ℤ)
      omega
    rw [hcompare]
    have h := rounds_round (m := n.toNat) (by omega) e .positive
    rwa [← hcast] at h

/-! ## Numbers that are not changed -/

/-- A number that fits the format is a multiple of the unit in its last place. -/
theorem Representable.exists_mul {q : ℚ} (h : Representable q) {e : ℤ}
    (he : e = -1074 ∨ (2 : ℚ) ^ (e + 52) ≤ |q|) : ∃ n : ℤ, q = n * 2 ^ e := by
  obtain ⟨k, j, hk, hj, rfl⟩ := h
  have hej : e ≤ j := by
    rcases he with rfl | hfirst
    · exact hj
    · have hlt : (2 : ℚ) ^ (e + 52) < 2 ^ (53 + j) := by
        refine lt_of_le_of_lt hfirst ?_
        rw [abs_mul, abs_of_pos (two_zpow_pos j), zpow_add₀ two_ne_zero]
        refine mul_lt_mul_of_pos_right ?_ (two_zpow_pos j)
        exact_mod_cast hk
      have := (zpow_lt_zpow_iff_right₀ one_lt_two).1 hlt
      omega
  obtain ⟨d, rfl⟩ := Int.le.dest hej
  refine ⟨k * 2 ^ d, ?_⟩
  rw [zpow_add₀ two_ne_zero, zpow_natCast]
  push_cast
  ring

/-- **A number that fits the format is not changed by rounding.** It is a multiple of the unit in
the last place, so it is off by a whole number of units, and by half a unit at most. -/
theorem Rounds.value_eq {q : ℚ} {u : UnpackedFloat} (h : Rounds q u) (hq : Representable q) :
    value u = q := by
  obtain ⟨n, e, he, hfirst, hvalue, hoff⟩ := h
  obtain ⟨k, rfl⟩ := hq.exists_mul hfirst
  rw [← sub_mul, abs_mul, abs_of_pos (two_zpow_pos e)] at hoff
  have hhalf : |((k - n : ℤ) : ℚ)| ≤ 1 / 2 := by
    refine le_of_mul_le_mul_right ?_ (two_zpow_pos e)
    push_cast
    linarith
  have hwhole : |k - n| < 1 := by
    have : |((k - n : ℤ) : ℚ)| < 1 := by linarith
    exact_mod_cast this
  rw [hvalue, sub_eq_zero.1 (Int.abs_lt_one_iff.1 hwhole)]

/-- Numbers from here on are rounded to infinity: half a unit above the greatest double. -/
def limit : ℚ := 2 ^ (1024 : ℤ) - 2 ^ (970 : ℤ)

/-- A number below the limit is not rounded up to `2 ^ 1024`. -/
theorem Rounds.abs_value_lt {q : ℚ} {u : UnpackedFloat} (h : Rounds q u) (hq : |q| < limit) :
    |value u| < 2 ^ (1024 : ℤ) := by
  obtain ⟨n, e, he, hfirst, hvalue, hoff⟩ := h
  have hexp : e ≤ 971 := by
    rcases hfirst with rfl | hfirst
    · norm_num
    · have hlt : (2 : ℚ) ^ (e + 52) < 2 ^ (1024 : ℤ) := by
        refine lt_of_le_of_lt hfirst (hq.trans_le ?_)
        exact sub_le_self _ (two_zpow_pos 970).le
      have := (zpow_lt_zpow_iff_right₀ one_lt_two).1 hlt
      omega
  have hunit : (2 : ℚ) ^ e / 2 ≤ 2 ^ (970 : ℤ) := by
    rw [div_le_iff₀ two_pos, ← zpow_add_one₀ two_ne_zero]
    exact zpow_le_zpow_right₀ one_le_two hexp
  rw [hvalue]
  calc |(n : ℚ) * 2 ^ e| = |q - (q - n * 2 ^ e)| := by rw [sub_sub_cancel]
    _ ≤ |q| + |q - n * 2 ^ e| := abs_sub _ _
    _ < limit + 2 ^ (970 : ℤ) := add_lt_add_of_lt_of_le hq (hoff.trans hunit)
    _ = 2 ^ (1024 : ℤ) := sub_add_cancel _ _

/-- What is below `2 ^ 1024` has no exponent above the greatest one. -/
theorem Proper.exponent_le {sign : UnpackedFloat.Sign} {m : Nat} {e : Int} {hm : 0 < m}
    (h : Proper (.finite sign m e hm)) (hlt : |value (.finite sign m e hm)| < 2 ^ (1024 : ℤ)) :
    e ≤ 971 := by
  cases h with
  | finite _ _ _ _ hbits he hfull =>
    rcases hfull with hfull | rfl
    · have hpow : (2 : ℚ) ^ (52 + e) < 2 ^ (1024 : ℤ) := by
        refine lt_of_le_of_lt ?_ hlt
        rw [abs_value_finite, zpow_add₀ two_ne_zero]
        refine mul_le_mul_of_nonneg_right ?_ (two_zpow_pos e).le
        exact_mod_cast hfull
      have := (zpow_lt_zpow_iff_right₀ one_lt_two).1 hpow
      omega
    · norm_num

end Atlas.Double
