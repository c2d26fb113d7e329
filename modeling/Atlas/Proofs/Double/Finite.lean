import Atlas.Json.Basic
import Mathlib

/-!
# Finite doubles

A finite double is equal to itself, and the whole numbers of at most 64 bits are finite as doubles.

A double is packed into bits and unpacked into a sign, a mantissa and a power of two. Every
operation unpacks its operands, rounds the exact result to a mantissa of 53 bits, and packs it
again, where an exponent that is too great makes the result infinite. So a result is finite if its
exponent is bounded, and the bounds can be rough: the exponents of whole numbers are far below the
greatest one.

## Main statements

* `Double.beq_self_of_isFinite` — a finite double is equal to itself
* `Double.isFinite_ofInt` — whole numbers of at most 64 bits are finite as doubles
-/

namespace Atlas.Double

open Float.Model
open Float.Model.UnpackedFloat

/-- **A finite double is equal to itself.** -/
theorem beq_self_of_isFinite {x : Float} (h : x.isFinite = true) : (x == x) = true := by
  have hu : x.toModel.unpack.isFinite = true := h
  show x.toModel.unpack.beq x.toModel.unpack = true
  generalize x.toModel.unpack = u at hu
  cases u with
  | infinity | notANumber => cases hu
  | zero => rfl
  | finite sign m e hm =>
    have he : compare e e = .eq := Std.ReflCmp.compare_self
    have hmm : compare m m = .eq := Std.ReflCmp.compare_self
    cases sign with
    | negative | positive =>
      rw [UnpackedFloat.beq, UnpackedFloat.compare, he, hmm]
      rfl

/-! ## Bounded doubles -/

/-- An unpacked double is zero, or its mantissa has at most so many bits and its exponent is
bounded. -/
inductive Within (bits : Nat) (bound : Int) : UnpackedFloat → Prop where
  | zero (sign : UnpackedFloat.Sign) : Within bits bound (.zero sign)
  | finite (sign : UnpackedFloat.Sign) (m : Nat) (e : Int) (hm : 0 < m) (hbits : m < 2 ^ bits)
      (he : e ≤ bound) : Within bits bound (.finite sign m e hm)

theorem Within.isFinite {bits : Nat} {bound : Int} {u : UnpackedFloat} (h : Within bits bound u) :
    u.isFinite = true := by
  cases h with
  | zero | finite => rfl

theorem Within.mono {bits : Nat} {bound bound' : Int} {u : UnpackedFloat}
    (h : Within bits bound u) (hle : bound ≤ bound') : Within bits bound' u := by
  cases h with
  | zero sign => exact .zero sign
  | finite sign m e hm hbits he => exact .finite sign m e hm hbits (Int.le_trans he hle)

theorem Within.neg {bits : Nat} {bound : Int} {u : UnpackedFloat} (h : Within bits bound u) :
    Within bits bound u.neg := by
  cases h with
  | zero sign => exact .zero _
  | finite sign m e hm hbits he => exact .finite _ m e hm hbits he

/-! ## Rounding -/

theorem mantissa_shiftRight (em : ExtendedMantissa) (n : Nat) :
    (em >>> n).mantissa = em.mantissa / 2 ^ n := by
  show (n.repeat ExtendedMantissa.shiftRightOne em).mantissa = em.mantissa / 2 ^ n
  induction n with
  | zero => exact (Nat.div_one _).symm
  | succ n ih =>
    show (n.repeat ExtendedMantissa.shiftRightOne em).mantissa / 2 = _
    rw [ih, Nat.div_div_eq_div_mul, Nat.pow_succ]

theorem mantissa_shiftRight_le (em : ExtendedMantissa) (n : Nat) :
    (em >>> n).mantissa ≤ em.mantissa := by
  rw [mantissa_shiftRight]
  exact Nat.div_le_self _ _

theorem mantissa_ofMantissaAndAccuracy (m : Nat) (accuracy : Accuracy) :
    (ExtendedMantissa.ofMantissaAndAccuracy m accuracy).mantissa = m := by
  cases accuracy with
  | exact => rfl
  | inexact o => cases o <;> rfl

/-- Rounding adds at most one. -/
theorem roundedMantissa_le (em : ExtendedMantissa) : em.roundedMantissa ≤ em.mantissa + 1 := by
  rw [ExtendedMantissa.roundedMantissa]
  cases em.accuracy with
  | exact => exact Nat.le_succ _
  | inexact o =>
    cases o with
    | lt => exact Nat.le_succ _
    | eq =>
      have : em.mantissa % 2 ≤ 1 := by omega
      exact Nat.add_le_add_left this _
    | gt => exact Nat.le_refl _

/-- The mantissa loses bits, and the exponent becomes at most that of the leading bit. -/
theorem shiftToTargetExponent_le (m : Nat) (e : Int) (accuracy : Accuracy) :
    (shiftToTargetExponent Format.binary64 m e accuracy).1.mantissa ≤ m ∧
      (shiftToTargetExponent Format.binary64 m e accuracy).2 ≤ max (e + m.log2) (-1074) := by
  constructor
  · refine Nat.le_trans (mantissa_shiftRight_le _ _) ?_
    exact Nat.le_of_eq (mantissa_ofMantissaAndAccuracy m accuracy)
  · have htarget : Format.binary64.targetExponent (totalExponent m e) =
        max ((m.log2 : Int) + 1 + e - 53) (-1074) := rfl
    show e + ((Format.binary64.targetExponent (totalExponent m e) - e).toNat : Int) ≤ _
    rw [htarget]
    omega

theorem log2_le_of_lt {m bits : Nat} (h : m < 2 ^ bits) : m.log2 ≤ bits := by
  by_cases hm : m = 0
  · subst hm
    exact Nat.zero_le _
  · exact Nat.le_of_lt ((Nat.log2_lt hm).2 h)

/-- A rounded number is bounded by the number of bits and the exponent that it had. -/
theorem within_roundWithAccuracy {m bits : Nat} {e bound : Int} (hbits : m < 2 ^ bits)
    (he : e ≤ bound) (hbound : 0 ≤ bound) (sign : UnpackedFloat.Sign) (accuracy : Accuracy) :
    Within (bits + 1) (bound + (2 * bits + 1))
      (roundWithAccuracy Format.binary64 sign m e accuracy) := by
  obtain ⟨hm₁, he₁⟩ := shiftToTargetExponent_le m e accuracy
  rw [roundWithAccuracy]
  generalize shiftToTargetExponent Format.binary64 m e accuracy = first at hm₁ he₁
  obtain ⟨em₁, e₁⟩ := first
  -- the mantissa may have got a further bit by rounding, so it is shifted once more
  have hrounded : em₁.roundedMantissa < 2 ^ (bits + 1) := by
    have h₁ : em₁.roundedMantissa ≤ em₁.mantissa + 1 := roundedMantissa_le em₁
    have h₂ : em₁.mantissa ≤ m := hm₁
    have h₃ : 2 ^ (bits + 1) = 2 ^ bits * 2 := by rw [Nat.pow_succ]
    omega
  obtain ⟨hm₂, he₂⟩ := shiftToTargetExponent_le em₁.roundedMantissa e₁ .exact
  show Within _ _ (if h : _ then _ else _)
  split
  · exact .zero sign
  · refine .finite _ _ _ _ (Nat.lt_of_le_of_lt hm₂ hrounded) ?_
    have hlog₁ : m.log2 ≤ bits := log2_le_of_lt hbits
    have hlog₂ : em₁.roundedMantissa.log2 ≤ bits + 1 := log2_le_of_lt hrounded
    have he₁' : e₁ ≤ max (e + m.log2) (-1074) := he₁
    refine Int.le_trans he₂ ?_
    omega

theorem within_mul {bits bits' : Nat} {bound bound' : Int} {u v : UnpackedFloat}
    (hu : Within bits bound u) (hv : Within bits' bound' v) (hbound : 0 ≤ bound + bound') :
    Within (bits + bits' + 1) (bound + bound' + (2 * (bits + bits') + 1 : Nat))
      (UnpackedFloat.mul Format.binary64 u v) := by
  cases hu with
  | zero sign =>
    cases hv with
    | zero sign' => exact .zero _
    | finite sign' m' e' hm' hbits' he' => exact .zero _
  | finite sign m e hm hbits he =>
    cases hv with
    | zero sign' => exact .zero _
    | finite sign' m' e' hm' hbits' he' =>
      have hprod : m * m' < 2 ^ (bits + bits') := by
        rw [Nat.pow_add]
        exact Nat.mul_lt_mul'' hbits hbits'
      exact within_roundWithAccuracy hprod (Int.add_le_add he he') hbound _ _

/-! ## Packing -/

/-- Bits with an exponent field that is not the greatest one are finite. -/
theorem within_unpack_packComponents (sign : UnpackedFloat.Sign) (field : BitVec 11)
    (m : BitVec 52) {bound : Int} (hfield : (field.toNat : Int) ≤ bound + 1075) (hbound : 0 ≤ bound)
    (hgreatest : bound ≤ 900) :
    Within 53 bound
      (UnpackedFloat.unpack Format.binary64 (packComponents Format.binary64 sign field m)) := by
  have hne : field ≠ -1#_ := by
    intro h
    have hnat : field.toNat = 2047 := by rw [h]; rfl
    omega
  have hbias : ((Format.binary64.exponentBias : Nat) : Int) = 1023 := rfl
  rw [UnpackedFloat.unpack]
  simp only [unpackExponent_packComponents, unpackMantissa_packComponents, hbias]
  rw [if_neg hne]
  split
  · next hzero =>
    split
    · exact .zero _
    · have hnat : field.toNat = 0 := by rw [hzero]; rfl
      refine .finite _ _ _ _ (Nat.lt_trans m.isLt (by decide)) ?_
      omega
  · refine .finite _ _ _ _ (1#1 ++ m).isLt ?_
    omega

/-- What is packed with a bounded exponent is finite when it is unpacked. -/
theorem within_unpack_pack {bits : Nat} {bound : Int} {u : UnpackedFloat} (h : Within bits bound u)
    (hbound : 0 ≤ bound) (hgreatest : bound ≤ 900) :
    Within 53 bound (Float.Model.pack u).unpack := by
  show Within 53 bound (UnpackedFloat.unpack Format.binary64 (UnpackedFloat.pack Format.binary64 u))
  cases h with
  | zero sign => exact within_unpack_packComponents sign 0 0 (by simp; omega) hbound hgreatest
  | finite sign m e hm hbits he =>
    have hbias : ((Format.binary64.exponentBias : Nat) : Int) = 1023 := rfl
    rw [UnpackedFloat.pack]
    simp only [hbias]
    split
    · next hinfinite => exfalso; omega
    · split
      · refine within_unpack_packComponents sign _ _ ?_ hbound hgreatest
        refine Int.le_trans (Int.ofNat_le.2 (Nat.mod_le _ _)) ?_
        omega
      · exact within_unpack_packComponents sign 0 _ (by simp; omega) hbound hgreatest

/-! ## Whole numbers -/

theorem within_ofNat {n bits : Nat} (h : n < 2 ^ bits) :
    Within (bits + 53) (2 * (bits + 52) + 1 : Nat) (UnpackedFloat.ofNat Format.binary64 n) := by
  rw [UnpackedFloat.ofNat, UnpackedFloat.ofInt, UnpackedFloat.normalize]
  cases n with
  | zero => exact .zero _
  | succ n =>
    have hgt : compare ((n + 1 : Nat) : Int) 0 = .gt := rfl
    rw [hgt]
    show Within _ _ (UnpackedFloat.round Format.binary64 .positive (n + 1) 0)
    have htarget : Format.binary64.targetExponent (totalExponent (n + 1) 0) =
        max (((n + 1).log2 : Int) + 1 + 0 - 53) (-1074) := rfl
    rw [UnpackedFloat.round, decreaseExponent, htarget]
    generalize hshift : (0 - max (((n + 1).log2 : Int) + 1 + 0 - 53) (-1074)).toNat = shift
    have hle : shift ≤ 52 := by omega
    have hbits : (n + 1) <<< shift < 2 ^ (bits + 52) := by
      rw [Nat.shiftLeft_eq, Nat.pow_add]
      exact Nat.mul_lt_mul_of_lt_of_le h (Nat.pow_le_pow_right (by decide) hle) (by decide)
    have hround : Within (bits + 52 + 1) (0 + (2 * (bits + 52 : Nat) + 1))
        (roundWithAccuracy Format.binary64 .positive ((n + 1) <<< shift) (0 - (shift : Int))
          .exact) :=
      within_roundWithAccuracy hbits (by omega) (Int.le_refl 0) .positive .exact
    rwa [Int.zero_add] at hround

/-- A whole number as a decimal number with the exponent zero. -/
theorem within_ofScientific {n : Nat} (hzero : n ≠ 0) (h : n < 2 ^ 64) :
    Within 119 424 (UnpackedFloat.ofScientific Format.binary64 n 0) := by
  have hpow : (2 ^ Format.binary64.exponentBits : Int) = 2048 := rfl
  have hlog : ¬ (0 : Int) < -((2 ^ Format.binary64.exponentBits : Int) + n.log2) := by
    rw [hpow]
    omega
  rw [UnpackedFloat.ofScientific, dif_neg hzero, if_neg (by decide), if_neg hlog,
    if_pos (Int.le_refl 0)]
  have hbits : n <<< Format.binary64.mantissaBits < 2 ^ 117 := by
    have hsum : (2 : Nat) ^ 117 = 2 ^ 64 * 2 ^ 53 := by decide
    rw [Nat.shiftLeft_eq, hsum]
    exact Nat.mul_lt_mul_of_pos_right h (by decide)
  have hn : ∀ hp, Within 117 0
      (.finite .positive (n <<< Format.binary64.mantissaBits) (-Format.binary64.mantissaBits) hp) :=
    fun hp => .finite _ _ _ hp hbits (by decide)
  have hten : ∀ hp, Within 1 0 (.finite .positive (10 ^ (0 : Int).toNat) 0 hp) :=
    fun hp => .finite _ _ _ hp (by decide) (Int.le_refl 0)
  exact (within_mul (hn _) (hten _) (by decide)).mono (by decide)

/-- Whole numbers of at most 64 bits are far below the greatest doubles. -/
theorem within_natToFloat {n : Nat} (h : n < 2 ^ 64) :
    Within 53 424 (Float.ofNat n).toModel.unpack := by
  show Within 53 424 (Float.ofScientific n false 0).toModel.unpack
  rw [Float.ofScientific]
  by_cases hsmall : n < 2 ^ 53
  · rw [dif_pos ⟨hsmall, by decide⟩]
    -- a number of at most 53 bits is multiplied by one
    have hn : Within 53 211 n.toUInt64.toFloat.toModel.unpack := by
      have hbits : n.toUInt64.toNat < 2 ^ 53 := Nat.lt_of_le_of_lt (Nat.mod_le _ _) hsmall
      exact within_unpack_pack (within_ofNat hbits) (by decide) (by decide)
    have hone : Within 53 0 (Float.ofBits 0x3FF0000000000000).toModel.unpack :=
      .finite .positive (2 ^ 52) (-52) (by decide) (by decide) (by decide)
    exact within_unpack_pack (within_mul hn hone (by decide)) (by decide) (by decide)
  · rw [dif_neg (fun hs => hsmall hs.1)]
    -- a greater one is read as a decimal number
    have hzero : n ≠ 0 := by omega
    exact within_unpack_pack (within_ofScientific hzero h) (by decide) (by decide)

/-- **Whole numbers of at most 64 bits are finite as doubles.** -/
theorem isFinite_ofInt {n : Int} (h : n.natAbs < 2 ^ 64) : (Float.ofInt n).isFinite = true := by
  cases n with
  | ofNat n => exact (within_natToFloat h).isFinite
  | negSucc n =>
    have hpos := within_natToFloat (n := n + 1) h
    exact (within_unpack_pack hpos.neg (by decide) (by decide)).isFinite

end Atlas.Double
