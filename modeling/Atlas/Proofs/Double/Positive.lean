import Atlas.Proofs.Double.Finite

/-!
# Doubles that are not zero

A whole number above zero is not zero as a double, however large it is. A result can only be lost
by rounding if its exponent is low, and the exponents of numbers from one on are not: such a number
is rounded to a mantissa of exactly 53 bits, and then packed and unpacked without a loss, or it is
infinite.

## Main statements

* `Double.ofInt_ne_zero` — whole numbers above zero are not zero as doubles
* `Double.le_of_beq` — equal doubles are in order
-/

namespace Atlas.Double

open Float.Model
open Float.Model.UnpackedFloat

/-- **Equal doubles are in order.** -/
theorem le_of_beq {x y : Float} (h : (x == y) = true) : x ≤ y := by
  have hcompare : x.toModel.unpack.compare y.toModel.unpack = some .eq := beq_iff_eq.1 h
  have hle : x.toModel.unpack.le y.toModel.unpack = true := by
    rw [UnpackedFloat.le, hcompare]
    rfl
  show decide (x.toModel ≤ y.toModel) = true
  exact decide_eq_true hle

/-! ## Bits -/

theorem log2_div_two_pow (m k : Nat) : (m / 2 ^ k).log2 = m.log2 - k := by
  rw [Nat.log2_eq_log_two, Nat.log2_eq_log_two, Nat.log_div_base_pow]

theorem log2_mul_two_pow {m : Nat} (hm : m ≠ 0) (k : Nat) : (m * 2 ^ k).log2 = m.log2 + k := by
  obtain ⟨hle, hlt⟩ := (Nat.log2_eq_iff hm).1 rfl
  refine (Nat.log2_eq_iff (Nat.mul_ne_zero hm (Nat.two_pow_pos k).ne')).2 ⟨?_, ?_⟩
  · rw [Nat.pow_add]
    exact Nat.mul_le_mul_right _ hle
  · rw [Nat.add_right_comm, Nat.pow_add]
    exact Nat.mul_lt_mul_of_pos_right hlt (Nat.two_pow_pos k)

theorem log2_one_append (v : BitVec 52) : (1#1 ++ v : BitVec 53).toNat.log2 = 52 := by
  have hv := v.isLt
  have hsum : (1#1 ++ v : BitVec 53).toNat = 2 ^ 52 + v.toNat := by
    rw [BitVec.toNat_append, ← Nat.shiftLeft_add_eq_or_of_lt hv, Nat.shiftLeft_eq]
    rfl
  rw [hsum]
  exact (Nat.log2_eq_iff (by omega)).2 ⟨Nat.le_add_right _ _, by omega⟩

/-! ## Doubles from one on -/

/-- An unpacked double is infinite, or it has a mantissa of 53 bits and is not below one. -/
inductive Sizable : UnpackedFloat → Prop where
  | infinity (sign : UnpackedFloat.Sign) : Sizable (.infinity sign)
  | finite (sign : UnpackedFloat.Sign) (m : Nat) (e : Int) (hm : 0 < m) (hbits : m.log2 = 52)
      (he : -52 ≤ e) : Sizable (.finite sign m e hm)

theorem le_roundedMantissa (em : ExtendedMantissa) : em.mantissa ≤ em.roundedMantissa := by
  rw [ExtendedMantissa.roundedMantissa]
  cases em.accuracy with
  | exact => exact Nat.le_refl _
  | inexact o =>
    cases o with
    | lt => exact Nat.le_refl _
    | eq => exact Nat.le_add_right _ _
    | gt => exact Nat.le_succ _

/-- The mantissa of a number from one on is cut to 53 bits. -/
theorem shiftToTargetExponent_of_one_le {m : Nat} {e : Int} (hbits : 52 ≤ m.log2)
    (he : 0 ≤ e + m.log2) (accuracy : Accuracy) :
    (shiftToTargetExponent Format.binary64 m e accuracy).1.mantissa.log2 = 52 ∧
      (shiftToTargetExponent Format.binary64 m e accuracy).2 = e + m.log2 - 52 := by
  have htarget : Format.binary64.targetExponent (totalExponent m e) =
      max ((m.log2 : Int) + 1 + e - 53) (-1074) := rfl
  have hshift : (Format.binary64.targetExponent (totalExponent m e) - e).toNat = m.log2 - 52 := by
    rw [htarget]
    omega
  constructor
  · show (ExtendedMantissa.ofMantissaAndAccuracy m accuracy >>>
      (Format.binary64.targetExponent (totalExponent m e) - e).toNat).mantissa.log2 = 52
    rw [hshift, mantissa_shiftRight, mantissa_ofMantissaAndAccuracy, log2_div_two_pow]
    omega
  · show e + ((Format.binary64.targetExponent (totalExponent m e) - e).toNat : Int) = _
    rw [hshift]
    omega

/-- A number from one on stays one when it is rounded. -/
theorem sizable_roundWithAccuracy {m : Nat} {e : Int} (hbits : 52 ≤ m.log2)
    (he : 0 ≤ e + m.log2) (sign : UnpackedFloat.Sign) (accuracy : Accuracy) :
    Sizable (roundWithAccuracy Format.binary64 sign m e accuracy) := by
  obtain ⟨hm₁, he₁⟩ := shiftToTargetExponent_of_one_le hbits he accuracy
  rw [roundWithAccuracy]
  generalize shiftToTargetExponent Format.binary64 m e accuracy = first at hm₁ he₁
  obtain ⟨em₁, e₁⟩ := first
  have hrounded : 52 ≤ em₁.roundedMantissa.log2 := by
    have hle := le_roundedMantissa em₁
    have hpos : em₁.mantissa ≠ 0 := by
      intro h
      rw [h] at hm₁
      cases hm₁
    have hpow : 2 ^ 52 ≤ em₁.mantissa := ((Nat.log2_eq_iff hpos).1 hm₁).1
    exact (Nat.le_log2 (by omega)).2 (Nat.le_trans hpow hle)
  obtain ⟨hm₂, he₂⟩ := shiftToTargetExponent_of_one_le hrounded (by omega : 0 ≤ e₁ + _) .exact
  show Sizable (if h : _ then _ else _)
  split
  · next hzero =>
    have hmantissa : (shiftToTargetExponent Format.binary64 em₁.roundedMantissa e₁
      .exact).1.mantissa = 0 := hzero
    rw [hmantissa] at hm₂
    cases hm₂
  · refine .finite _ _ _ _ hm₂ ?_
    omega

theorem Sizable.mul {u v : UnpackedFloat} (hu : Sizable u) (hv : Sizable v) :
    Sizable (UnpackedFloat.mul Format.binary64 u v) := by
  cases hu with
  | infinity sign =>
    cases hv with
    | infinity sign' | finite sign' m' e' hm' hbits' he' => exact .infinity _
  | finite sign m e hm hbits he =>
    cases hv with
    | infinity sign' => exact .infinity _
    | finite sign' m' e' hm' hbits' he' =>
      have hle : 2 ^ 52 ≤ m := ((Nat.log2_eq_iff hm.ne').1 hbits).1
      have hle' : 2 ^ 52 ≤ m' := ((Nat.log2_eq_iff hm'.ne').1 hbits').1
      have hpow : 2 ^ 104 ≤ m * m' :=
        calc 2 ^ 104 = 2 ^ 52 * 2 ^ 52 := by decide
          _ ≤ m * m' := Nat.mul_le_mul hle hle'
      have hprod : 104 ≤ (m * m').log2 := (Nat.le_log2 (Nat.mul_pos hm hm').ne').2 hpow
      exact sizable_roundWithAccuracy (by omega) (by omega) _ .exact

/-- Numbers from one on are packed and unpacked without a loss. -/
theorem Sizable.unpack_pack {u : UnpackedFloat} (h : Sizable u) :
    Sizable (Float.Model.pack u).unpack := by
  have hinfinity : ∀ sign, Sizable
      (UnpackedFloat.unpack Format.binary64 (packedInfinity Format.binary64 sign)) := by
    intro sign
    cases sign with
    | negative => exact .infinity .negative
    | positive => exact .infinity .positive
  show Sizable (UnpackedFloat.unpack Format.binary64 (UnpackedFloat.pack Format.binary64 u))
  cases h with
  | infinity sign => exact hinfinity sign
  | finite sign m e hm hbits he =>
    have hbias : ((Format.binary64.exponentBias : Nat) : Int) = 1023 := rfl
    have hwidth : ((Format.binary64.mantissaBitsWithoutImplicit : Nat) : Int) = 52 := rfl
    have hexponents : 2 ^ Format.binary64.exponentBits = 2048 := rfl
    rw [UnpackedFloat.pack]
    simp only [hbias, hwidth, hexponents]
    split
    · exact hinfinity sign
    · next hsmall =>
      have hfield : (BitVec.ofNat 11 (e + 1023 + 52).toNat).toNat = (e + 1023 + 52).toNat :=
        Nat.mod_eq_of_lt (by omega)
      have hfull : m.log2 + 1 = Format.binary64.mantissaBits := congrArg (· + 1) hbits
      rw [if_pos hfull, UnpackedFloat.unpack]
      simp only [unpackExponent_packComponents, unpackMantissa_packComponents, hbias, hwidth]
      rw [if_neg, if_neg]
      · refine .finite _ _ _ _ (log2_one_append _) ?_
        show -52 ≤ ((BitVec.ofNat 11 (e + 1023 + 52).toNat).toNat : Int) - (1023 + 52)
        rw [hfield]
        omega
      · intro hzero
        have hnat := hfield.symm.trans (congrArg BitVec.toNat hzero)
        have h0 : (0#11).toNat = 0 := rfl
        exact absurd (hnat.trans h0) (by omega)
      · intro hgreatest
        have hnat := hfield.symm.trans (congrArg BitVec.toNat hgreatest)
        have h1 : (-1#11).toNat = 2047 := rfl
        exact absurd (hnat.trans h1) (by omega)

/-- A double from one on is not zero. -/
theorem Sizable.ne_zero {x : Float} (h : Sizable x.toModel.unpack) : (x == 0) = false := by
  have hzero : (0 : Float).toModel.unpack = .zero .positive := rfl
  show UnpackedFloat.beq x.toModel.unpack (0 : Float).toModel.unpack = false
  rw [hzero]
  generalize x.toModel.unpack = u at h
  cases h with
  | infinity sign | finite sign => cases sign <;> rfl

/-! ## Whole numbers -/

theorem sizable_ofNat {n : Nat} (hn : n ≠ 0) (h : n < 2 ^ 53) :
    Sizable (UnpackedFloat.ofNat Format.binary64 n) := by
  rw [UnpackedFloat.ofNat, UnpackedFloat.ofInt, UnpackedFloat.normalize]
  cases n with
  | zero => exact absurd rfl hn
  | succ n =>
    have hgt : compare ((n + 1 : Nat) : Int) 0 = .gt := rfl
    rw [hgt]
    show Sizable (UnpackedFloat.round Format.binary64 .positive (n + 1) 0)
    have htarget : Format.binary64.targetExponent (totalExponent (n + 1) 0) =
        max (((n + 1).log2 : Int) + 1 + 0 - 53) (-1074) := rfl
    have hlog : (n + 1).log2 < 53 := (Nat.log2_lt hn).2 h
    rw [UnpackedFloat.round, decreaseExponent, htarget]
    generalize hshift : (0 - max (((n + 1).log2 : Int) + 1 + 0 - 53) (-1074)).toNat = shift
    have hbits : ((n + 1) <<< shift).log2 = (n + 1).log2 + shift := by
      rw [Nat.shiftLeft_eq, log2_mul_two_pow hn]
    exact sizable_roundWithAccuracy (by omega) (by omega) .positive .exact

/-- A whole number above zero has a mantissa of 53 bits as a double. -/
theorem sizable_natToFloat {n : Nat} (hn : n ≠ 0) : Sizable (Float.ofNat n).toModel.unpack := by
  show Sizable (Float.ofScientific n false 0).toModel.unpack
  rw [Float.ofScientific]
  by_cases hsmall : n < 2 ^ 53
  · rw [dif_pos ⟨hsmall, by decide⟩]
    -- a number of at most 53 bits is multiplied by one
    have hword : n.toUInt64.toNat = n := Nat.mod_eq_of_lt (Nat.lt_trans hsmall (by decide))
    have hx : Sizable n.toUInt64.toFloat.toModel.unpack := by
      refine Sizable.unpack_pack (sizable_ofNat ?_ ?_)
      · rw [hword]
        exact hn
      · rw [hword]
        exact hsmall
    have hunpack : (Float.ofBits 0x3FF0000000000000).toModel.unpack =
        .finite .positive (2 ^ 52) (-52) (by decide) := rfl
    have hone : Sizable (Float.ofBits 0x3FF0000000000000).toModel.unpack := by
      rw [hunpack]
      exact .finite .positive (2 ^ 52) (-52) (by decide) (by decide) (by decide)
    exact (hx.mul hone).unpack_pack
  · rw [dif_neg (fun hs => hsmall hs.1)]
    -- a greater one is read as a decimal number
    show Sizable (Float.Model.pack (UnpackedFloat.ofScientific Format.binary64 n 0)).unpack
    have hpow : (2 ^ Format.binary64.exponentBits : Int) = 2048 := rfl
    have hlog : ¬ (0 : Int) < -((2 ^ Format.binary64.exponentBits : Int) + n.log2) := by
      rw [hpow]
      omega
    rw [UnpackedFloat.ofScientific, dif_neg hn, if_neg (by decide), if_neg hlog,
      if_pos (Int.le_refl 0)]
    have hbits : (n <<< 53 * 1).log2 = n.log2 + 53 := by
      rw [Nat.mul_one, Nat.shiftLeft_eq, log2_mul_two_pow hn]
    have hrounded : Sizable
        (roundWithAccuracy Format.binary64 .positive (n <<< 53 * 1) (-53 + 0) .exact) :=
      sizable_roundWithAccuracy (by omega) (by omega) .positive .exact
    exact hrounded.unpack_pack

/-- **Whole numbers above zero are not zero as doubles.** -/
theorem ofInt_ne_zero {n : Nat} (hn : 1 ≤ n) : (Float.ofInt n == 0) = false :=
  (sizable_natToFloat (Nat.one_le_iff_ne_zero.1 hn)).ne_zero

end Atlas.Double
