import Atlas.Proofs.Double.Operations

/-!
# Doubles as numbers

A finite double stands for a number. The operations compute with these numbers and round the
result. If the exact result is below `limit`, the rounded one is finite, and if it fits the format,
it is the exact one. A finite double is known by its number, up to the sign of a zero.

## Main statements

* `Double.IsNear.is` — a result that fits the format is exact
* `Double.Is.add`, `Double.Is.sub`, `Double.Is.mul`, `Double.Is.div` — the operations round
* `Double.Is.eq` — a double that is not zero is known by its number
* `Double.is_ofInt` — whole numbers of at most 53 bits are exact
-/

namespace Atlas.Double

open Float.Model
open Float.Model.UnpackedFloat

/-! ## Doubles and their numbers -/

/-- The number that a double stands for, zero if it is none. -/
def toRat (x : Float) : ℚ := value x.toModel.unpack

/-- A finite double is a number. -/
structure Is (x : Float) (q : ℚ) : Prop where
  isFinite : x.isFinite = true
  toRat_eq : toRat x = q

/-- A finite double is a number that has been rounded. -/
structure IsNear (x : Float) (q : ℚ) : Prop where
  isFinite : x.isFinite = true
  rounds : Rounds q x.toModel.unpack

/-- **A result that fits the format is exact.** -/
theorem IsNear.is {x : Float} {q : ℚ} (h : IsNear x q) (hq : Representable q) : Is x q :=
  ⟨h.isFinite, h.rounds.value_eq hq⟩

theorem is_toRat {x : Float} (h : x.isFinite = true) : Is x (toRat x) := ⟨h, rfl⟩

theorem proper_unpack {x : Float} (h : x.isFinite = true) : Proper x.toModel.unpack := by
  obtain ⟨sign, m, e, hunpack, hlt, hleast, -, hfull⟩ := exists_parts h
  have hparts : x.toModel.unpack = ofParts sign m e := hunpack
  rw [hparts]
  exact proper_ofParts sign hlt hleast hfull

theorem Is.representable {x : Float} {q : ℚ} (h : Is x q) : Representable q :=
  h.toRat_eq ▸ (proper_unpack h.isFinite).representable

/-- The greatest double is one unit below `2 ^ 1024`. -/
theorem Is.abs_le {x : Float} {q : ℚ} (h : Is x q) : |q| ≤ 2 ^ (1024 : ℤ) - 2 ^ (971 : ℤ) := by
  obtain ⟨sign, m, e, hunpack, hlt, -, hle, -⟩ := exists_parts h.isFinite
  have hvalue : q = sign.apply m * 2 ^ e := by
    rw [← h.toRat_eq, ← value_ofParts, ← hunpack]
    rfl
  have hm : (m : ℚ) ≤ 2 ^ 53 - 1 := by
    rw [le_sub_iff_add_le]
    exact_mod_cast hlt
  calc |q| = m * 2 ^ e := by
        rw [hvalue, abs_mul, ← Int.cast_abs, abs_apply, Nat.abs_cast, Int.cast_natCast,
          abs_of_pos (two_zpow_pos e)]
    _ ≤ (2 ^ 53 - 1) * 2 ^ (971 : ℤ) :=
        mul_le_mul hm (zpow_le_zpow_right₀ one_le_two hle) (two_zpow_pos e).le (by norm_num)
    _ = 2 ^ (1024 : ℤ) - 2 ^ (971 : ℤ) := by
        have hsplit : (2 : ℚ) ^ (1024 : ℤ) = 2 ^ 53 * 2 ^ (971 : ℤ) := by
          rw [← zpow_natCast, ← zpow_add₀ two_ne_zero]
          rfl
        rw [sub_mul, one_mul, hsplit]

theorem Is.abs_lt_limit {x : Float} {q : ℚ} (h : Is x q) : |q| < limit := by
  refine h.abs_le.trans_lt ?_
  exact (sub_lt_sub_iff_left _).2 (zpow_lt_zpow_right₀ one_lt_two (by norm_num))

theorem isNear_pack {x : Float} {u : UnpackedFloat} {q : ℚ} (hx : x.toModel = Float.Model.pack u)
    (hu : Proper u ∧ Rounds q u) (hq : |q| < limit) : IsNear x q := by
  have hunpack : x.toModel.unpack = u := by
    rw [hx]
    exact unpack_pack hu.1 (hu.2.abs_value_lt hq)
  refine ⟨?_, hunpack ▸ hu.2⟩
  show x.toModel.unpack.isFinite = true
  rw [hunpack]
  cases hu.1 <;> rfl

/-- A result that is finite has been rounded only. -/
theorem isNear_pack_of_isFinite {x : Float} {u : UnpackedFloat} {q : ℚ}
    (hx : x.toModel = Float.Model.pack u) (hu : Proper u ∧ Rounds q u)
    (hfinite : x.isFinite = true) : IsNear x q := by
  have hpack : (Float.Model.pack u).unpack.isFinite = true := by
    rw [← hx]
    exact hfinite
  have hunpack : x.toModel.unpack = u := by
    rw [hx]
    exact unpack_pack_of_isFinite hu.1 hpack
  exact ⟨hfinite, hunpack ▸ hu.2⟩

section

variable {x y : Float} {p q : ℚ}

theorem Is.add (hx : Is x p) (hy : Is y q) (h : |p + q| < limit) : IsNear (x + y) (p + q) := by
  obtain ⟨hx, rfl⟩ := hx
  obtain ⟨hy, rfl⟩ := hy
  exact isNear_pack rfl (rounds_add (proper_unpack hx) (proper_unpack hy)) h

theorem Is.sub (hx : Is x p) (hy : Is y q) (h : |p - q| < limit) : IsNear (x - y) (p - q) := by
  obtain ⟨hx, rfl⟩ := hx
  obtain ⟨hy, rfl⟩ := hy
  exact isNear_pack rfl (rounds_sub (proper_unpack hx) (proper_unpack hy)) h

theorem Is.mul (hx : Is x p) (hy : Is y q) (h : |p * q| < limit) : IsNear (x * y) (p * q) := by
  obtain ⟨hx, rfl⟩ := hx
  obtain ⟨hy, rfl⟩ := hy
  exact isNear_pack rfl (rounds_mul (proper_unpack hx) (proper_unpack hy)) h

theorem Is.div (hx : Is x p) (hy : Is y q) (hne : q ≠ 0) (h : |p / q| < limit) :
    IsNear (x / y) (p / q) := by
  obtain ⟨hx, rfl⟩ := hx
  obtain ⟨hy, rfl⟩ := hy
  exact isNear_pack rfl (rounds_div (proper_unpack hx) (proper_unpack hy) hne) h

end

/-- What is as the format has it is packed as its own number. -/
theorem is_pack {x : Float} {u : UnpackedFloat} (hx : x.toModel = Float.Model.pack u)
    (hu : Proper u) (hlt : |value u| < limit) : Is x (value u) :=
  (isNear_pack hx ⟨hu, hu.rounds⟩ hlt).is hu.representable

theorem Is.neg {x : Float} {q : ℚ} (hx : Is x q) : Is (-x) (-q) := by
  have hlimit := hx.abs_lt_limit
  obtain ⟨hfinite, rfl⟩ := hx
  rw [toRat, ← abs_neg, ← value_neg] at hlimit
  rw [toRat, ← value_neg]
  exact is_pack rfl (proper_unpack hfinite).neg hlimit

theorem Is.abs {x : Float} {q : ℚ} (hx : Is x q) : Is x.abs |q| := by
  have hlimit := hx.abs_lt_limit
  obtain ⟨hfinite, rfl⟩ := hx
  rw [toRat, ← abs_abs, ← value_abs] at hlimit
  rw [toRat, ← value_abs]
  exact is_pack rfl (proper_unpack hfinite).abs hlimit

/-- A small step from a double does not lead to infinity. -/
theorem Is.step {x d : Float} {p q : ℚ} (hx : Is x p) (hd : Is d q) (hsmall : |q| < 2 ^ (970 : ℤ)) :
    (x - d).isFinite = true ∧ (x + d).isFinite = true := by
  have hhalf : (2 : ℚ) ^ (971 : ℤ) = 2 ^ (970 : ℤ) * 2 := zpow_add_one₀ two_ne_zero 970
  have hroom : |p| + |q| < limit := by
    calc |p| + |q| < 2 ^ (1024 : ℤ) - 2 ^ (971 : ℤ) + 2 ^ (970 : ℤ) :=
          add_lt_add_of_le_of_lt hx.abs_le hsmall
      _ = limit := by
          rw [hhalf, limit]
          ring
  exact ⟨(hx.sub hd ((abs_sub _ _).trans_lt hroom)).isFinite,
    (hx.add hd ((abs_add_le _ _).trans_lt hroom)).isFinite⟩

/-! ## Doubles are known by their numbers -/

/-- A mantissa of 53 bits and one that is as long or has the least exponent: if the numbers are
equal, the former one does not have the greater exponent. -/
theorem exponent_le_of_eq {m m' : Nat} {e e' : Int} (hlt : m < 2 ^ 53) (he : -1074 ≤ e)
    (hfull' : 2 ^ 52 ≤ m' ∨ e' = -1074) (h : (m : ℚ) * 2 ^ e = m' * 2 ^ e') : e' ≤ e := by
  rcases hfull' with hfull' | rfl
  · have hpow : (2 : ℚ) ^ (52 + e') < 2 ^ (53 + e) := by
      calc (2 : ℚ) ^ (52 + e') = 2 ^ 52 * 2 ^ e' := zpow_add₀ two_ne_zero 52 e'
        _ ≤ m' * 2 ^ e' :=
            mul_le_mul_of_nonneg_right (by exact_mod_cast hfull') (two_zpow_pos e').le
        _ = m * 2 ^ e := h.symm
        _ < 2 ^ 53 * 2 ^ e := mul_lt_mul_of_pos_right (by exact_mod_cast hlt) (two_zpow_pos e)
        _ = 2 ^ (53 + e) := (zpow_add₀ two_ne_zero 53 e).symm
    have := (zpow_lt_zpow_iff_right₀ one_lt_two).1 hpow
    omega
  · exact he

/-- What is as the format has it is known by its number, up to the sign of a zero. -/
theorem Proper.eq_of_value {u v : UnpackedFloat} (hu : Proper u) (hv : Proper v)
    (h : value u = value v) (hne : value u ≠ 0) : u = v := by
  cases hu with
  | zero sign => exact absurd rfl hne
  | finite sign m e hm hlt he hfull =>
    cases hv with
    | zero sign' => exact absurd h hne
    | finite sign' m' e' hm' hlt' he' hfull' =>
      have habs : (m : ℚ) * 2 ^ e = m' * 2 ^ e' := by
        rw [← abs_value_finite sign m e hm, ← abs_value_finite sign' m' e' hm', h]
      obtain rfl : e = e' := le_antisymm (exponent_le_of_eq hlt' he' hfull habs.symm)
        (exponent_le_of_eq hlt he hfull' habs)
      obtain rfl : m = m' := by
        exact_mod_cast mul_right_cancel₀ (two_zpow_pos e).ne' habs
      have hpos : (0 : ℚ) < m * 2 ^ e := mul_pos (by exact_mod_cast hm) (two_zpow_pos e)
      cases sign with
      | negative =>
        cases sign' with
        | negative => rfl
        | positive =>
          simp only [value, Sign.apply] at h
          push_cast at h
          linarith
      | positive =>
        cases sign' with
        | negative =>
          simp only [value, Sign.apply] at h
          push_cast at h
          linarith
        | positive => rfl

/-- A double is known by its unpacked form. -/
theorem eq_of_unpack_eq {x y : Float} (h : x.toModel.unpack = y.toModel.unpack) : x = y := by
  have hbits := (UnpackedFloat.unpack_inj_of_valid x.toModel.valid y.toModel.valid).1 h
  exact Float.toBits_inj.1 (UInt64.toBitVec_inj.1 hbits)

/-- **A double that is not zero is known by its number.** -/
theorem Is.eq {x y : Float} {q : ℚ} (hx : Is x q) (hy : Is y q) (hq : q ≠ 0) : x = y := by
  obtain ⟨hx, rfl⟩ := hx
  obtain ⟨hy, hvalue⟩ := hy
  exact eq_of_unpack_eq ((proper_unpack hx).eq_of_value (proper_unpack hy) hvalue.symm hq)

theorem Proper.eq_zero {u : UnpackedFloat} (h : Proper u) (hvalue : value u = 0) :
    ∃ sign, u = .zero sign := by
  cases h with
  | zero sign => exact ⟨sign, rfl⟩
  | finite sign m e hm hlt he hfull =>
    have hpos : (0 : ℚ) < m * 2 ^ e := mul_pos (by exact_mod_cast hm) (two_zpow_pos e)
    rw [← abs_value_finite sign m e hm, hvalue, abs_zero] at hpos
    exact absurd hpos (lt_irrefl 0)

/-- Doubles with the same number are equal as doubles are. -/
theorem Is.beq {x y : Float} {q : ℚ} (hx : Is x q) (hy : Is y q) : (x == y) = true := by
  by_cases hq : q = 0
  · subst hq
    obtain ⟨sign, hu⟩ := (proper_unpack hx.isFinite).eq_zero hx.toRat_eq
    obtain ⟨sign', hv⟩ := (proper_unpack hy.isFinite).eq_zero hy.toRat_eq
    show UnpackedFloat.beq x.toModel.unpack y.toModel.unpack = true
    rw [hu, hv]
    rfl
  · rw [hx.eq hy hq]
    exact beq_self_of_isFinite hy.isFinite

/-- A number that is not below zero is not below zero as a double. -/
theorem Is.not_lt_zero {x : Float} {q : ℚ} (hx : Is x q) (hq : 0 ≤ q) : ¬ x < Float.ofInt 0 := by
  have hzero : (Float.ofInt 0).toModel.unpack = .zero .positive := rfl
  show ¬ decide (x.toModel < (Float.ofInt 0).toModel) = true
  rw [decide_eq_true_eq]
  show ¬ UnpackedFloat.lt x.toModel.unpack (Float.ofInt 0).toModel.unpack = true
  rw [hzero]
  have hvalue : 0 ≤ value x.toModel.unpack := by
    rw [← hx.toRat_eq] at hq
    exact hq
  have hproper := proper_unpack hx.isFinite
  generalize x.toModel.unpack = u at hproper hvalue
  cases hproper with
  | zero sign => exact Bool.noConfusion
  | finite sign m e hm hlt he hfull =>
    cases sign with
    | positive => exact Bool.noConfusion
    | negative =>
      have hpos : (0 : ℚ) < m * 2 ^ e := mul_pos (by exact_mod_cast hm) (two_zpow_pos e)
      simp only [value, Sign.apply] at hvalue
      push_cast at hvalue
      linarith

theorem isFinite_pack_of_not {u : UnpackedFloat} (h : u.isFinite = false) :
    (Float.Model.pack u).unpack.isFinite = false := by
  cases u with
  | zero | finite => cases h
  | notANumber => rfl
  | infinity sign => cases sign <;> rfl

theorem isFinite_sub_of_not {u v : UnpackedFloat} (hu : u.isFinite = false)
    (hv : v.isFinite = true) : (UnpackedFloat.sub Format.binary64 u v).isFinite = false := by
  cases u with
  | zero | finite => cases hu
  | notANumber | infinity sign =>
    cases v with
    | notANumber | infinity => cases hv
    | zero | finite => rfl

/-- A difference is finite only if the minuend is. -/
theorem isFinite_of_sub {x y : Float} (hy : y.isFinite = true) (h : (x - y).isFinite = true) :
    x.isFinite = true := by
  by_contra hx
  have hlost : (x - y).isFinite = false :=
    isFinite_pack_of_not (isFinite_sub_of_not (Bool.eq_false_iff.2 hx) hy)
  rw [h] at hlost
  cases hlost

theorem isFinite_neg_of_not {u : UnpackedFloat} (h : u.isFinite = false) :
    u.neg.isFinite = false := by
  cases u with
  | zero | finite => cases h
  | notANumber | infinity => rfl

/-- A double is finite if its negative is. -/
theorem isFinite_of_neg {x : Float} (h : (-x).isFinite = true) : x.isFinite = true := by
  by_contra hx
  have hlost : (-x).isFinite = false :=
    isFinite_pack_of_not (isFinite_neg_of_not (Bool.eq_false_iff.2 hx))
  rw [h] at hlost
  cases hlost

theorem isFinite_div_of_not {u v : UnpackedFloat} (hu : u.isFinite = false)
    (hv : v.isFinite = true) : (UnpackedFloat.div Format.binary64 u v).isFinite = false := by
  cases u with
  | zero | finite => cases hu
  | notANumber | infinity sign =>
    cases v with
    | notANumber | infinity => cases hv
    | zero | finite => rfl

/-- A quotient is finite only if the dividend is. -/
theorem isFinite_of_div {x y : Float} (hy : y.isFinite = true) (h : (x / y).isFinite = true) :
    x.isFinite = true := by
  by_contra hx
  have hlost : (x / y).isFinite = false :=
    isFinite_pack_of_not (isFinite_div_of_not (Bool.eq_false_iff.2 hx) hy)
  rw [h] at hlost
  cases hlost

/-! ## Numbers of few bits -/

theorem lt_limit {q : ℚ} (h : |q| ≤ 2 ^ (1000 : ℤ)) : |q| < limit := by
  refine h.trans_lt (lt_sub_iff_add_lt.2 ?_)
  have h970 : (2 : ℚ) ^ (970 : ℤ) ≤ 2 ^ (1000 : ℤ) := zpow_le_zpow_right₀ one_le_two (by norm_num)
  calc (2 : ℚ) ^ (1000 : ℤ) + 2 ^ (970 : ℤ) ≤ 2 ^ (1000 : ℤ) + 2 ^ (1000 : ℤ) :=
        add_le_add_right h970 _
    _ = 2 ^ (1001 : ℤ) := by rw [← mul_two, ← zpow_add_one₀ two_ne_zero]; rfl
    _ < 2 ^ (1024 : ℤ) := zpow_lt_zpow_right₀ one_lt_two (by norm_num)

/-- A number has at most 53 bits and is neither tiny nor huge. -/
def Short (q : ℚ) : Prop := ∃ n e : ℤ, |n| < 2 ^ 53 ∧ -1074 ≤ e ∧ e ≤ 900 ∧ q = n * 2 ^ e

theorem Short.representable {q : ℚ} : Short q → Representable q := by
  rintro ⟨n, e, hn, hleast, -, rfl⟩
  exact ⟨n, e, hn, hleast, rfl⟩

theorem Short.lt_limit {q : ℚ} : Short q → |q| < limit := by
  rintro ⟨n, e, hn, -, he, rfl⟩
  refine Double.lt_limit ?_
  have hn' : |(n : ℚ)| ≤ 2 ^ (53 : ℤ) := by exact_mod_cast hn.le
  calc |(n : ℚ) * 2 ^ e| = |(n : ℚ)| * 2 ^ e := by rw [abs_mul, abs_of_pos (two_zpow_pos e)]
    _ ≤ 2 ^ (53 : ℤ) * 2 ^ e := mul_le_mul_of_nonneg_right hn' (two_zpow_pos e).le
    _ = 2 ^ (53 + e) := (zpow_add₀ two_ne_zero 53 e).symm
    _ ≤ 2 ^ (1000 : ℤ) := zpow_le_zpow_right₀ one_le_two (by omega)

theorem short_natCast {n : Nat} (h : n < 2 ^ 53) : Short n :=
  ⟨n, 0, by exact_mod_cast h, by norm_num, by norm_num,
    by rw [zpow_zero, mul_one, Int.cast_natCast]⟩

/-! ## Whole numbers -/

theorem is_toFloat_toUInt64 {n : Nat} (h : n < 2 ^ 53) : Is n.toUInt64.toFloat n := by
  have hn := short_natCast h
  have hword : n.toUInt64.toNat = n := Nat.mod_eq_of_lt (Nat.lt_trans h (by norm_num))
  have hrounds := rounds_normalize n 0
  rw [zpow_zero, mul_one, Int.cast_natCast] at hrounds
  have hpack : n.toUInt64.toFloat.toModel =
      Float.Model.pack (normalize Format.binary64 (n.toUInt64.toNat : ℤ) 0 .positive) := rfl
  rw [hword] at hpack
  exact (isNear_pack hpack hrounds hn.lt_limit).is hn.representable

/-- **A whole number of at most 53 bits is exact as a double.** -/
theorem is_ofInt {n : Nat} (h : n < 2 ^ 53) : Is (Float.ofInt n) n := by
  show Is (Float.ofScientific n false 0) n
  rw [Float.ofScientific, dif_pos ⟨h, by decide⟩]
  have hn := short_natCast h
  -- a number of at most 53 bits is multiplied by one
  have hone : Is (Float.ofBits 0x3FF0000000000000) 1 := by
    refine ⟨by decide +kernel, ?_⟩
    have hunpack : (Float.ofBits 0x3FF0000000000000).toModel.unpack =
        .finite .positive (2 ^ 52) (-52) (by decide) := rfl
    rw [toRat, hunpack, value, Sign.apply]
    norm_num
  have hproduct := (is_toFloat_toUInt64 h).mul hone (by rw [mul_one]; exact hn.lt_limit)
  rw [mul_one] at hproduct
  exact hproduct.is hn.representable

/-- A double is finite if and only if half of it is. -/
theorem isFinite_half_iff {x : Float} :
    (x / Float.ofInt (2 : Nat)).isFinite = true ↔ x.isFinite = true := by
  have htwo : Is (Float.ofInt (2 : Nat)) (2 : Nat) := is_ofInt (by norm_num)
  constructor
  · exact isFinite_of_div htwo.isFinite
  · intro hx
    have hhalf : |toRat x / (2 : Nat)| < limit := by
      rw [abs_div, Nat.abs_cast]
      refine lt_of_le_of_lt ?_ (is_toRat hx).abs_lt_limit
      exact div_le_self (abs_nonneg _) (by norm_num)
    exact ((is_toRat hx).div htwo (by norm_num) hhalf).isFinite

end Atlas.Double
