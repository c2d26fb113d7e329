import Atlas.Proofs.Double.Numbers
import Mathlib.Order.Compare

/-!
# Comparing doubles

Finite doubles are in order as the numbers that they stand for. Rounding keeps the order of a
number and one that fits the format, so the difference of two doubles in order is never below
zero, even where it is rounded or too great for a double.

## Main statements

* `Double.lt_iff`, `Double.le_iff` — finite doubles are in order as their numbers are
* `Double.Rounds.le_value` — rounding does not lead below a number that fits the format
* `Double.sub_not_lt_zero` — the difference of doubles in order is not below zero
-/

namespace Atlas.Double

open Float.Model
open Float.Model.UnpackedFloat

/-! ## Doubles in order -/

/-- Of two mantissas as the format has them, that with the greater exponent makes the greater
number. -/
theorem lt_of_exponent_lt {m m' : Nat} {e e' : Int} (hlt : m < 2 ^ 53) (he : -1074 ≤ e)
    (hfull' : 2 ^ 52 ≤ m' ∨ e' = -1074) (h : e < e') : (m : ℚ) * 2 ^ e < m' * 2 ^ e' := by
  have hm' : 2 ^ 52 ≤ m' := hfull'.resolve_right (by omega)
  calc (m : ℚ) * 2 ^ e < 2 ^ 53 * 2 ^ e :=
        mul_lt_mul_of_pos_right (by exact_mod_cast hlt) (two_zpow_pos e)
    _ = 2 ^ 52 * 2 ^ (e + 1) := by rw [zpow_add_one₀ two_ne_zero]; ring
    _ ≤ 2 ^ 52 * 2 ^ e' :=
        mul_le_mul_of_nonneg_left (zpow_le_zpow_right₀ one_le_two h) (by positivity)
    _ ≤ m' * 2 ^ e' := mul_le_mul_of_nonneg_right (by exact_mod_cast hm') (two_zpow_pos e').le

/-- Mantissas as the format has them are compared by their exponents first. -/
theorem compare_then_eq_cmp {m m' : Nat} {e e' : Int} (hlt : m < 2 ^ 53) (hlt' : m' < 2 ^ 53)
    (he : -1074 ≤ e) (he' : -1074 ≤ e') (hfull : 2 ^ 52 ≤ m ∨ e = -1074)
    (hfull' : 2 ^ 52 ≤ m' ∨ e' = -1074) :
    (compare e e').then (compare m m') = cmp ((m : ℚ) * 2 ^ e) (m' * 2 ^ e') := by
  rcases lt_trichotomy e e' with h | rfl | h
  · rw [compare_lt_iff_lt.2 h, (cmp_eq_lt_iff _ _).2 (lt_of_exponent_lt hlt he hfull' h)]
    rfl
  · have hmono : StrictMono (fun n : Nat => (n : ℚ) * 2 ^ e) := fun a b hab =>
      mul_lt_mul_of_pos_right (by exact_mod_cast hab) (two_zpow_pos e)
    rw [compare_eq_iff_eq.2 rfl, Ordering.eq_then, ← cmp_eq_compare]
    exact (hmono.cmp_map_eq m m').symm
  · rw [compare_gt_iff_gt.2 h, (cmp_eq_gt_iff _ _).2 (lt_of_exponent_lt hlt' he' hfull h)]
    rfl

theorem value_positive_pos {m : Nat} (e : Int) (hm : 0 < m) :
    0 < value (.finite .positive m e hm) := by
  have hm' : (0 : ℚ) < ((m : ℤ) : ℚ) := by exact_mod_cast hm
  exact mul_pos hm' (two_zpow_pos e)

theorem value_negative (m : Nat) (e : Int) (hm : 0 < m) :
    value (.finite .negative m e hm) = -value (.finite .positive m e hm) := by
  rw [← value_neg]
  rfl

theorem value_negative_neg {m : Nat} (e : Int) (hm : 0 < m) :
    value (.finite .negative m e hm) < 0 := by
  rw [value_negative]
  exact neg_neg_of_pos (value_positive_pos e hm)

/-- What is as the format has it is compared as the numbers are. -/
theorem compare_eq_cmp {u v : UnpackedFloat} (hu : Proper u) (hv : Proper v) :
    u.compare v = some (cmp (value u) (value v)) := by
  cases hu with
  | zero s =>
    cases hv with
    | zero s' => exact congrArg some (cmp_self_eq_eq 0).symm
    | finite s' m' e' hm' =>
      cases s' with
      | positive => exact congrArg some ((cmp_eq_lt_iff _ _).2 (value_positive_pos e' hm')).symm
      | negative => exact congrArg some ((cmp_eq_gt_iff _ _).2 (value_negative_neg e' hm')).symm
  | finite s m e hm hlt he hfull =>
    cases hv with
    | zero s' =>
      cases s with
      | positive => exact congrArg some ((cmp_eq_gt_iff _ _).2 (value_positive_pos e hm)).symm
      | negative => exact congrArg some ((cmp_eq_lt_iff _ _).2 (value_negative_neg e hm)).symm
    | finite s' m' e' hm' hlt' he' hfull' =>
      have hparts := compare_then_eq_cmp hlt hlt' he he' hfull hfull'
      have hneg := value_negative_neg e hm
      have hneg' := value_negative_neg e' hm'
      have hpos := value_positive_pos e hm
      have hpos' := value_positive_pos e' hm'
      cases s with
      | positive =>
        cases s' with
        | positive => exact congrArg some hparts
        | negative => exact congrArg some ((cmp_eq_gt_iff _ _).2 (hneg'.trans hpos)).symm
      | negative =>
        cases s' with
        | positive => exact congrArg some ((cmp_eq_lt_iff _ _).2 (hneg.trans hpos')).symm
        | negative =>
          have hanti : StrictAnti (fun q : ℚ => -q) := fun _ _ => neg_lt_neg
          rw [value_negative, value_negative, hanti.cmp_map_eq, ← cmp_swap]
          exact congrArg (fun o : Ordering => some o.swap) hparts

section
variable {x y : Float}

/-- **Finite doubles are in order as their numbers are.** -/
theorem lt_iff (hx : x.isFinite = true) (hy : y.isFinite = true) : x < y ↔ toRat x < toRat y := by
  show decide (x.toModel < y.toModel) = true ↔ _
  rw [decide_eq_true_eq]
  show UnpackedFloat.lt x.toModel.unpack y.toModel.unpack = true ↔ _
  rw [UnpackedFloat.lt, compare_eq_cmp (proper_unpack hx) (proper_unpack hy), beq_iff_eq,
    Option.some_inj, cmp_eq_lt_iff]
  rfl

theorem le_iff (hx : x.isFinite = true) (hy : y.isFinite = true) : x ≤ y ↔ toRat x ≤ toRat y := by
  show decide (x.toModel ≤ y.toModel) = true ↔ _
  rw [decide_eq_true_eq]
  show UnpackedFloat.le x.toModel.unpack y.toModel.unpack = true ↔ _
  rw [UnpackedFloat.le, compare_eq_cmp (proper_unpack hx) (proper_unpack hy)]
  show (cmp (toRat x) (toRat y)).isLE = true ↔ _
  rcases lt_trichotomy (toRat x) (toRat y) with h | h | h
  · rw [(cmp_eq_lt_iff _ _).2 h]
    exact iff_of_true rfl h.le
  · rw [(cmp_eq_eq_iff _ _).2 h]
    exact iff_of_true rfl h.le
  · rw [(cmp_eq_gt_iff _ _).2 h]
    exact iff_of_false Bool.noConfusion h.not_ge

theorem not_lt_iff (hx : x.isFinite = true) (hy : y.isFinite = true) : ¬ x < y ↔ y ≤ x := by
  rw [lt_iff hx hy, le_iff hy hx, not_lt]

end

/-! ## Rounding keeps the order -/

/-- A number that is a multiple of the unit is not passed by rounding. -/
theorem le_of_abs_sub_le {q : ℚ} {k n e : ℤ} (hle : k * 2 ^ e ≤ q)
    (h : |q - n * 2 ^ e| ≤ 2 ^ e / 2) : (k : ℚ) * 2 ^ e ≤ n * 2 ^ e := by
  have hunit := two_zpow_pos e
  have hnear : q - n * 2 ^ e ≤ 2 ^ e / 2 := (abs_le.1 h).2
  have hlt : (k : ℚ) < n + 1 := by
    refine lt_of_mul_lt_mul_right ?_ hunit.le
    rw [add_mul]
    linarith
  refine mul_le_mul_of_nonneg_right ?_ hunit.le
  exact_mod_cast Int.lt_add_one_iff.1 (by exact_mod_cast hlt)

/-- **Rounding does not lead below a number that fits the format.** -/
theorem Rounds.le_value {q r : ℚ} {u : UnpackedFloat} (h : Rounds q u) (hr : Representable r)
    (hpos : 0 ≤ r) (hle : r ≤ q) : r ≤ value u := by
  obtain ⟨n, e, -, hplace, hvalue, hnear⟩ := h
  rw [hvalue]
  by_cases hunit : e = -1074 ∨ (2 : ℚ) ^ (e + 52) ≤ |r|
  · obtain ⟨k, rfl⟩ := hr.exists_mul hunit
    exact le_of_abs_sub_le hle hnear
  · -- the number is below the least one with so great a unit, and that is not passed either
    obtain ⟨hne, hlt⟩ := not_or.1 hunit
    have hfirst : ((2 ^ 52 : ℤ) : ℚ) * 2 ^ e = 2 ^ (e + 52) := by
      rw [add_comm, zpow_add₀ two_ne_zero]
      norm_cast
    have hq : (2 : ℚ) ^ (e + 52) ≤ q := by
      have := hplace.resolve_left hne
      rwa [abs_of_nonneg (hpos.trans hle)] at this
    have hfloor := le_of_abs_sub_le (hfirst.le.trans hq) hnear
    rw [abs_of_nonneg hpos, not_le] at hlt
    exact hlt.le.trans (hfirst ▸ hfloor)

theorem representable_zero : Representable 0 := ⟨0, 0, by norm_num, by norm_num, by norm_num⟩

/-! ## Differences -/

/-- An unpacked double that is not below zero, be it a number or not. -/
def NotBelowZero (u : UnpackedFloat) : Prop := u.lt (.zero .positive) = false

/-- Bits with a positive sign are not below zero. -/
theorem notBelowZero_unpack_packComponents (field : BitVec 11) (m : BitVec 52) :
    NotBelowZero (UnpackedFloat.unpack Format.binary64
      (packComponents Format.binary64 .positive field m)) := by
  rw [UnpackedFloat.unpack]
  simp only [unpackSign_packComponents, Sign.ofBitVec_toBitVec]
  split
  · split <;> rfl
  · split
    · split <;> rfl
    · rfl

/-- Packing may make a double infinite, but does not bring it below zero. -/
theorem NotBelowZero.pack {u : UnpackedFloat} (h : NotBelowZero u) :
    NotBelowZero (Float.Model.pack u).unpack := by
  cases u with
  | notANumber => rfl
  | zero s => cases s <;> rfl
  | infinity s =>
    cases s with
    | positive => rfl
    | negative => cases h
  | finite s m e hm =>
    cases s with
    | negative => cases h
    | positive =>
      show NotBelowZero (UnpackedFloat.unpack _ (UnpackedFloat.pack Format.binary64 _))
      rw [UnpackedFloat.pack]
      split
      · rfl
      · split
        · exact notBelowZero_unpack_packComponents _ _
        · exact notBelowZero_unpack_packComponents _ _

theorem Proper.notBelowZero {u : UnpackedFloat} (h : Proper u) (hvalue : 0 ≤ value u) :
    NotBelowZero u := by
  cases h with
  | zero s => rfl
  | finite s m e hm =>
    cases s with
    | positive => rfl
    | negative => exact absurd hvalue (value_negative_neg e hm).not_ge

/-- **The difference of doubles in order is not below zero,** also if it is infinite. -/
theorem sub_not_lt_zero {x y : Float} (hx : x.isFinite = true) (hy : y.isFinite = true)
    (h : y ≤ x) : ¬ x - y < Float.ofInt 0 := by
  have hle : toRat y ≤ toRat x := (le_iff hy hx).1 h
  obtain ⟨hproper, hrounds⟩ := rounds_sub (proper_unpack hx) (proper_unpack hy)
  have hvalue := hrounds.le_value representable_zero le_rfl (sub_nonneg.2 hle)
  have hnot : NotBelowZero (x - y).toModel.unpack := (hproper.notBelowZero hvalue).pack
  show ¬ decide ((x - y).toModel < (Float.ofInt 0).toModel) = true
  rw [decide_eq_true_eq]
  exact Bool.eq_false_iff.1 hnot

end Atlas.Double
