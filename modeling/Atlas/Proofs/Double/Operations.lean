import Atlas.Proofs.Double.Rounding

/-!
# Operations on unpacked doubles

Sums, differences, products and quotients are computed with mantissas and exponents, and then
rounded. What is as the format has it and not too great is packed into bits without a loss.

## Main statements

* `Double.rounds_add`, `Double.rounds_sub`, `Double.rounds_mul`, `Double.rounds_div` — the
  operations round the exact results
* `Double.unpack_pack`, `Double.unpack_pack_of_isFinite` — packing loses nothing below `2 ^ 1024`,
  nor where the result is finite
-/

namespace Atlas.Double

open Float.Model
open Float.Model.UnpackedFloat

/-! ## Unpacked operations -/

section

variable {u v : UnpackedFloat}

theorem apply_mul (sign sign' : UnpackedFloat.Sign) :
    (sign * sign').apply 1 = sign.apply 1 * sign'.apply 1 := by
  cases sign <;> cases sign' <;> rfl

theorem apply_div_mul (sign sign' : UnpackedFloat.Sign) :
    (sign / sign').apply 1 * sign'.apply 1 = sign.apply 1 := by
  cases sign <;> cases sign' <;> rfl

/-- A zero is proper, and zero is rounded to it. -/
theorem rounds_zero (sign : UnpackedFloat.Sign) {q : ℚ} (hq : q = 0) :
    Proper (.zero sign) ∧ Rounds q (.zero sign) := by
  subst hq
  exact ⟨.zero sign, (Proper.zero sign).rounds⟩

theorem rounds_mul (hu : Proper u) (hv : Proper v) :
    Proper (UnpackedFloat.mul Format.binary64 u v) ∧
      Rounds (value u * value v) (UnpackedFloat.mul Format.binary64 u v) := by
  cases hu with
  | zero sign =>
    cases hv with
    | zero sign' | finite sign' m' e' hm' hlt' he' hfull' => exact rounds_zero _ (zero_mul _)
  | finite sign m e hm hlt he hfull =>
    cases hv with
    | zero sign' => exact rounds_zero _ (mul_zero _)
    | finite sign' m' e' hm' hlt' he' hfull' =>
      have hsame : value (.finite sign m e hm) * value (.finite sign' m' e' hm') =
          (sign * sign').apply 1 * (((m * m' : Nat) : ℚ) * 2 ^ (e + e')) := by
        rw [value, value, apply_eq_mul, apply_eq_mul sign', apply_mul, zpow_add₀ two_ne_zero]
        push_cast
        ring
      rw [hsame]
      refine rounds_roundWithAccuracy (represents_exact _) ?_ _
      -- one of the mantissas has 53 bits, or both exponents are the least one
      have hne : m * m' ≠ 0 := (Nat.mul_pos hm hm').ne'
      rcases hfull with hfull | rfl
      · exact .inl ((Nat.le_log2 hne).2 (Nat.le_trans hfull (Nat.le_mul_of_pos_right m hm')))
      · rcases hfull' with hfull' | rfl
        · exact .inl ((Nat.le_log2 hne).2 (Nat.le_trans hfull' (Nat.le_mul_of_pos_left m' hm)))
        · exact .inr (by norm_num)

/-- The quotient of two mantissas has 53 bits, or its exponent is low. -/
theorem log2_divCore {m m' : Nat} (hm : m ≠ 0) (hm' : m' ≠ 0) (e e' : Int) :
    52 ≤ (divCore Format.binary64 m e m' e').1.log2 ∨
      (divCore Format.binary64 m e m' e').2.1 ≤ -1074 := by
  have htarget : Format.binary64.targetExponent (totalExponent m e - totalExponent m' e') =
      max (((m.log2 : Int) + 1 + e) - (m'.log2 + 1 + e') - 53) (-1074) := rfl
  rw [divCore, htarget]
  generalize ht : min (e - e')
    (max (((m.log2 : Int) + 1 + e) - (m'.log2 + 1 + e') - 53) (-1074)) = t
  generalize hk : (e - e' - t).toNat = k
  by_cases hlow : t ≤ -1074
  · exact .inr hlow
  · left
    show 52 ≤ (m <<< k / m').log2
    -- the dividend has got at least 53 bits more than the divisor
    have hbits : 52 + (m'.log2 + 1) ≤ m.log2 + k := by omega
    have hpow : 2 ^ 52 * m' ≤ m <<< k := by
      calc 2 ^ 52 * m' ≤ 2 ^ 52 * 2 ^ (m'.log2 + 1) :=
            Nat.mul_le_mul_left _ (Nat.le_of_lt Nat.lt_log2_self)
        _ = 2 ^ (52 + (m'.log2 + 1)) := (Nat.pow_add ..).symm
        _ ≤ 2 ^ (m.log2 + k) := Nat.pow_le_pow_right two_pos hbits
        _ = 2 ^ m.log2 * 2 ^ k := Nat.pow_add ..
        _ ≤ m * 2 ^ k := Nat.mul_le_mul_right _ (Nat.log2_self_le hm)
        _ = m <<< k := (Nat.shiftLeft_eq m k).symm
    have hquotient : 2 ^ 52 ≤ m <<< k / m' :=
      (Nat.le_div_iff_mul_le (Nat.pos_of_ne_zero hm')).2 hpow
    exact (Nat.le_log2 (by omega)).2 hquotient

/-- The quotient of two mantissas stands for the exact one: its accuracy tells what is left. -/
theorem represents_divCore (m : Nat) {m' : Nat} (hm' : 0 < m') (e e' : Int) :
    let quotient := divCore Format.binary64 m e m' e'
    ∃ x : ℚ, Represents (ExtendedMantissa.ofMantissaAndAccuracy quotient.1 quotient.2.2) x ∧
      x * 2 ^ quotient.2.1 * (m' * 2 ^ e') = m * 2 ^ e := by
  rw [divCore]
  generalize ht : min (e - e') (Format.binary64.targetExponent
    (totalExponent m e - totalExponent m' e')) = t
  obtain ⟨k, hk⟩ := Int.le.dest (ht ▸ Int.min_le_left _ _ : t ≤ e - e')
  have hcount : (e - e' - t).toNat = k := by omega
  rw [hcount]
  have hne : (m' : ℚ) ≠ 0 := by exact_mod_cast hm'.ne'
  refine ⟨_, represents_fraction (m <<< k / m') (Nat.mod_lt (m <<< k) hm'), ?_⟩
  have hquotient : ((m <<< k / m' : Nat) : ℚ) + ((m <<< k % m' : Nat) : ℚ) / m' =
      ((m <<< k : Nat) : ℚ) / m' := by
    rw [eq_div_iff hne, add_mul, div_mul_cancel₀ _ hne]
    exact_mod_cast Nat.div_add_mod' (m <<< k) m'
  have hexp : t + e' = e - k := by omega
  calc ((m <<< k / m' : Nat) + ((m <<< k % m' : Nat) : ℚ) / m') * 2 ^ t * (m' * 2 ^ e')
      = ((m <<< k : Nat) : ℚ) / m' * m' * (2 ^ t * 2 ^ e') := by
        rw [hquotient]
        ring
    _ = ((m <<< k : Nat) : ℚ) * 2 ^ (e - k) := by
        rw [div_mul_cancel₀ _ hne, ← zpow_add₀ two_ne_zero, hexp]
    _ = m * 2 ^ e := shiftLeft_mul_zpow m k e

theorem rounds_div (hu : Proper u) (hv : Proper v) (hne : value v ≠ 0) :
    Proper (UnpackedFloat.div Format.binary64 u v) ∧
      Rounds (value u / value v) (UnpackedFloat.div Format.binary64 u v) := by
  cases hv with
  | zero sign' => exact absurd rfl hne
  | finite sign' m' e' hm' hlt' he' hfull' =>
    cases hu with
    | zero sign => exact rounds_zero _ (zero_div _)
    | finite sign m e hm hlt he hfull =>
      obtain ⟨x, hx, hquotient⟩ := represents_divCore m hm' e e'
      have hsign : ((sign / sign').apply 1 : ℚ) * sign'.apply 1 = sign.apply 1 := by
        exact_mod_cast apply_div_mul sign sign'
      have hsame : value (.finite sign m e hm) / value (.finite sign' m' e' hm') =
          (sign / sign').apply 1 * (x * 2 ^ (divCore Format.binary64 m e m' e').2.1) := by
        rw [div_eq_iff hne, value, value, apply_eq_mul, apply_eq_mul sign' m', mul_assoc,
          Int.cast_natCast, Int.cast_natCast, ← hquotient, ← hsign]
        ring
      rw [hsame]
      exact rounds_roundWithAccuracy hx (log2_divCore hm.ne' hm'.ne' e e') _

theorem apply_shiftLeft (sign : UnpackedFloat.Sign) (m : Nat) {e t : Int} (h : t ≤ e) :
    ((sign.apply ((m <<< (e - t).toNat : Nat) : ℤ) : ℤ) : ℚ) * 2 ^ t = sign.apply m * 2 ^ e := by
  obtain ⟨k, rfl⟩ := Int.le.dest h
  have hk : (t + k - t).toNat = k := by omega
  have ht : t = t + k - k := by omega
  rw [apply_eq_mul, apply_eq_mul sign m, mul_assoc, mul_assoc, Int.cast_natCast, Int.cast_natCast,
    hk, ← shiftLeft_mul_zpow m k (t + k), ← ht]

/-- Both mantissas are brought to the lower exponent and added. -/
theorem rounds_add (hu : Proper u) (hv : Proper v) :
    Proper (UnpackedFloat.add Format.binary64 u v) ∧
      Rounds (value u + value v) (UnpackedFloat.add Format.binary64 u v) := by
  cases hu with
  | zero sign =>
    cases hv with
    | zero sign' =>
      rw [UnpackedFloat.add]
      split
      · exact rounds_zero _ (add_zero 0)
      · exact rounds_zero _ (add_zero 0)
    | finite sign' m' e' hm' hlt' he' hfull' =>
      have h := Proper.finite sign' m' e' hm' hlt' he' hfull'
      refine ⟨h, ?_⟩
      have hsum : value (.zero sign) + value (.finite sign' m' e' hm') = _ := zero_add _
      rw [hsum]
      exact h.rounds
  | finite sign m e hm hlt he hfull =>
    cases hv with
    | zero sign' =>
      have h := Proper.finite sign m e hm hlt he hfull
      refine ⟨h, ?_⟩
      have hsum : value (.finite sign m e hm) + value (.zero sign') = _ := add_zero _
      rw [hsum]
      exact h.rounds
    | finite sign' m' e' hm' hlt' he' hfull' =>
      have hsum : value (.finite sign m e hm) + value (.finite sign' m' e' hm') =
          ((sign.apply ((m <<< (e - min e e').toNat : Nat) : ℤ) +
            sign'.apply ((m' <<< (e' - min e e').toNat : Nat) : ℤ) : ℤ) : ℚ) * 2 ^ min e e' := by
        rw [Int.cast_add, add_mul, apply_shiftLeft sign m (min_le_left e e'),
          apply_shiftLeft sign' m' (min_le_right e e')]
        rfl
      rw [hsum]
      exact rounds_normalize _ _

theorem sub_eq_add (u v : UnpackedFloat) :
    UnpackedFloat.sub Format.binary64 u v = UnpackedFloat.add Format.binary64 u v.neg := by
  cases u with
  | notANumber => rfl
  | infinity sign | zero sign =>
    cases v with
    | notANumber | infinity sign' | zero sign' | finite sign' m' e' hm' => rfl
  | finite sign m e hm =>
    cases v with
    | notANumber | infinity sign' | zero sign' => rfl
    | finite sign' m' e' hm' =>
      simp only [UnpackedFloat.sub, UnpackedFloat.neg, UnpackedFloat.add, apply_neg]
      rfl

theorem rounds_sub (hu : Proper u) (hv : Proper v) :
    Proper (UnpackedFloat.sub Format.binary64 u v) ∧
      Rounds (value u - value v) (UnpackedFloat.sub Format.binary64 u v) := by
  rw [sub_eq_add, sub_eq_add_neg, ← value_neg]
  exact rounds_add hu hv.neg

end

/-! ## Packing -/

theorem ofParts_of_pos (sign : UnpackedFloat.Sign) {m : Nat} (e : Int) (hm : 0 < m) :
    ofParts sign m e = .finite sign m e hm := dif_neg hm.ne'

/-- The leading one in front of the 52 bits of the fraction. -/
theorem toNat_one_append (v : BitVec 52) : (1#1 ++ v : BitVec 53).toNat = 2 ^ 52 + v.toNat := by
  rw [BitVec.toNat_append, ← Nat.shiftLeft_add_eq_or_of_lt v.isLt, Nat.shiftLeft_eq]
  rfl

/-- Bits whose exponent field is not the greatest one are finite. -/
theorem unpack_of_ne {b : BitVec Format.binary64.numBits} (hb : unpackExponent b ≠ -1#11) :
    UnpackedFloat.unpack Format.binary64 b =
      if unpackExponent b = 0#11 then
        ofParts (Sign.ofBitVec (unpackSign b)) (unpackMantissa b).toNat (-1074)
      else ofParts (Sign.ofBitVec (unpackSign b)) (2 ^ 52 + (unpackMantissa b).toNat)
        ((unpackExponent b).toNat - 1075) := by
  rw [UnpackedFloat.unpack]
  simp only
  rw [if_neg hb]
  split
  · next hzero =>
    split
    · next hmantissa =>
      rw [hmantissa]
      rfl
    · next hmantissa =>
      have hpos : 0 < (unpackMantissa b).toNat := by
        simpa [BitVec.toNat_pos, BitVec.pos_iff_ne_zero] using hmantissa
      rw [ofParts_of_pos _ _ hpos, hzero]
      rfl
  · have hpos : 0 < 2 ^ 52 + (unpackMantissa b).toNat := by positivity
    rw [ofParts_of_pos _ _ hpos]
    congr 1
    exact toNat_one_append _

/-- Finite bits do not have the greatest exponent field. -/
theorem unpackExponent_ne {b : BitVec Format.binary64.numBits}
    (h : (UnpackedFloat.unpack Format.binary64 b).isFinite = true) : unpackExponent b ≠ -1#11 := by
  intro hgreatest
  rw [UnpackedFloat.unpack] at h
  simp only at h
  rw [if_pos hgreatest] at h
  split at h <;> cases h

/-- Finite bits have a mantissa of 53 bits or the least exponent, and no exponent above 971. -/
theorem exists_parts {b : BitVec Format.binary64.numBits}
    (h : (UnpackedFloat.unpack Format.binary64 b).isFinite = true) :
    ∃ sign m e, UnpackedFloat.unpack Format.binary64 b = ofParts sign m e ∧ m < 2 ^ 53 ∧
      -1074 ≤ e ∧ e ≤ 971 ∧ (2 ^ 52 ≤ m ∨ e = -1074) := by
  have hne := unpackExponent_ne h
  have hmantissa : (unpackMantissa b).toNat < 2 ^ 52 := (unpackMantissa b).isLt
  have hfield : (unpackExponent b).toNat < 2 ^ 11 := (unpackExponent b).isLt
  have hbelow : (unpackExponent b).toNat ≠ 2047 := fun h => hne (BitVec.eq_of_toNat_eq h)
  rw [unpack_of_ne hne]
  split
  · exact ⟨_, _, _, rfl, by omega, le_rfl, by norm_num, .inr rfl⟩
  · next hpos =>
    have hzero : (unpackExponent b).toNat ≠ 0 := fun h => hpos (BitVec.eq_of_toNat_eq h)
    exact ⟨_, _, _, rfl, by omega, by omega, by omega, .inl (Nat.le_add_right _ _)⟩

/-- A mantissa of 53 bits is packed without its leading one. -/
theorem unpack_packComponents_of_le (sign : UnpackedFloat.Sign) {m : Nat} {e : Int}
    (h52 : 2 ^ 52 ≤ m) (hbits : m < 2 ^ 53) (he : -1074 ≤ e) (hle : e ≤ 971) :
    UnpackedFloat.unpack Format.binary64 (packComponents Format.binary64 sign
      (BitVec.ofNat 11 (e + 1023 + 52).toNat) (BitVec.ofNat 52 m)) = ofParts sign m e := by
  have hfield : (BitVec.ofNat 11 (e + 1023 + 52).toNat).toNat = (e + 1023 + 52).toNat :=
    Nat.mod_eq_of_lt (by omega)
  have hzero : BitVec.ofNat 11 (e + 1023 + 52).toNat ≠ 0#11 := by
    intro h
    have := hfield.symm.trans (congrArg BitVec.toNat h)
    rw [BitVec.toNat_zero] at this
    omega
  have hgreatest : BitVec.ofNat 11 (e + 1023 + 52).toNat ≠ -1#11 := by
    intro h
    have hnat := hfield.symm.trans (congrArg BitVec.toNat h)
    have hall : (-1#11).toNat = 2047 := rfl
    omega
  have hfraction : 2 ^ 52 + m % 2 ^ 52 = m := by omega
  have hexponent : (((e + 1023 + 52).toNat : Nat) : Int) - 1075 = e := by omega
  rw [unpack_of_ne]
  · rw [unpackExponent_packComponents, unpackMantissa_packComponents,
      unpackSign_packComponents, Sign.ofBitVec_toBitVec, if_neg hzero, hfield,
      BitVec.toNat_ofNat, hfraction, hexponent]
  · rwa [unpackExponent_packComponents]

/-- A mantissa of fewer bits is packed with an exponent field of zero. -/
theorem unpack_packComponents_of_lt (sign : UnpackedFloat.Sign) {m : Nat} (h52 : m < 2 ^ 52) :
    UnpackedFloat.unpack Format.binary64
        (packComponents Format.binary64 sign 0#11 (BitVec.ofNat 52 m)) =
      ofParts sign m (-1074) := by
  have hgreatest : (0#11 : BitVec 11) ≠ -1#11 := by decide
  rw [unpack_of_ne]
  · rw [unpackExponent_packComponents, unpackMantissa_packComponents,
      unpackSign_packComponents, Sign.ofBitVec_toBitVec, if_pos rfl, BitVec.toNat_ofNat,
      Nat.mod_eq_of_lt h52]
  · rwa [unpackExponent_packComponents]

/-- A mantissa as the format has it and an exponent that is not too great are packed without a
loss. -/
theorem unpack_pack_finite {sign : UnpackedFloat.Sign} {m : Nat} {e : Int} {hm : 0 < m}
    (h : Proper (.finite sign m e hm)) (hle : e ≤ 971) :
    (Float.Model.pack (.finite sign m e hm)).unpack = .finite sign m e hm := by
  have hbias : ((Format.binary64.exponentBias : Nat) : Int) = 1023 := rfl
  have hwidth : ((Format.binary64.mantissaBitsWithoutImplicit : Nat) : Int) = 52 := rfl
  have hexponents : 2 ^ Format.binary64.exponentBits = 2048 := rfl
  show UnpackedFloat.unpack Format.binary64
    (UnpackedFloat.pack Format.binary64 (.finite sign m e hm)) = .finite sign m e hm
  cases h with
  | finite _ _ _ _ hbits he hfull =>
    have hsmall : ¬ 2048 ≤ (e + 1023 + 52).toNat + 1 := by omega
    rw [UnpackedFloat.pack]
    simp only [hbias, hwidth, hexponents]
    rw [if_neg hsmall, ← ofParts_of_pos sign e hm]
    by_cases h52 : 2 ^ 52 ≤ m
    · have hlog : m.log2 + 1 = Format.binary64.mantissaBits :=
        congrArg (· + 1) ((Nat.log2_eq_iff hm.ne').2 ⟨h52, hbits⟩)
      rw [if_pos hlog]
      exact unpack_packComponents_of_le sign h52 hbits he hle
    · have hlog : m.log2 + 1 ≠ Format.binary64.mantissaBits := by
        intro h
        exact h52 ((Nat.log2_eq_iff hm.ne').1 (Nat.succ_injective h)).1
      rw [if_neg hlog, hfull.resolve_left h52]
      exact unpack_packComponents_of_lt sign (Nat.lt_of_not_le h52)

/-- What is as the format has it and below `2 ^ 1024` is packed without a loss. -/
theorem unpack_pack {u : UnpackedFloat} (h : Proper u) (hlt : |value u| < 2 ^ (1024 : ℤ)) :
    (Float.Model.pack u).unpack = u := by
  cases u with
  | infinity | notANumber => cases h
  | zero sign => cases sign <;> rfl
  | finite sign m e hm => exact unpack_pack_finite h (h.exponent_le hlt)

/-- An exponent that is too great is packed as infinity. -/
theorem isFinite_pack_of_lt {sign : UnpackedFloat.Sign} {m : Nat} {e : Int} {hm : 0 < m}
    (h : 971 < e) : (Float.Model.pack (.finite sign m e hm)).unpack.isFinite = false := by
  have hlarge : 2 ^ Format.binary64.exponentBits ≤
      (e + (Format.binary64.exponentBias : Nat) +
        (Format.binary64.mantissaBitsWithoutImplicit : Nat)).toNat + 1 := by
    show 2048 ≤ (e + 1023 + 52).toNat + 1
    omega
  show (UnpackedFloat.unpack Format.binary64
    (UnpackedFloat.pack Format.binary64 (.finite sign m e hm))).isFinite = false
  rw [UnpackedFloat.pack]
  simp only
  rw [if_pos hlarge]
  cases sign <;> rfl

/-- What is as the format has it is packed without a loss, unless it becomes infinite. -/
theorem unpack_pack_of_isFinite {u : UnpackedFloat} (h : Proper u)
    (hfinite : (Float.Model.pack u).unpack.isFinite = true) : (Float.Model.pack u).unpack = u := by
  cases u with
  | infinity | notANumber => cases h
  | zero sign => cases sign <;> rfl
  | finite sign m e hm =>
    refine unpack_pack_finite h (not_lt.1 fun hlarge => ?_)
    rw [isFinite_pack_of_lt hlarge] at hfinite
    cases hfinite

end Atlas.Double
