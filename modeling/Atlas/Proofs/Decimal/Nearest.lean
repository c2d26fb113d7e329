import Atlas.Decimal.Basic
import Atlas.Decimal.Binary64
import Atlas.Proofs.Double.Numbers

/-!
# Reading decimal numbers as doubles

A decimal number that is read as a double is rounded to the nearest one. Small coefficients with
small powers of ten are multiplied or divided as doubles; both operands are exact there, so the
result is rounded only once. All others are multiplied or divided with as many bits as it takes,
and rounded afterwards. Numbers that are too near to zero for this become zero.

## Main statements

* `Double.unpack_of_ofFloat` — the parts that are read off the bits of a double are its parts
* `Decimal.isNear_toFloat` — a decimal number is rounded when it is read
* `Decimal.isNear_toFloat_of_isFinite` — it is also rounded where no limit is known, if the double
  is finite
-/

namespace Atlas

namespace Double

open Float.Model
open Float.Model.UnpackedFloat

/-! ## The parts of a double -/

theorem toNat_unpackMantissa (b : BitVec Format.binary64.numBits) :
    (unpackMantissa b).toNat = b.toNat % 2 ^ 52 := by
  rw [unpackMantissa, BitVec.toNat_cast, BitVec.extractLsb_toNat]
  rfl

theorem toNat_unpackExponent (b : BitVec Format.binary64.numBits) :
    (unpackExponent b).toNat = b.toNat / 2 ^ 52 % 2 ^ 11 := by
  rw [unpackExponent, BitVec.toNat_cast, BitVec.extractLsb_toNat, Nat.shiftRight_eq_div_pow]
  rfl

/-- The sign of a negative or another number. -/
def signOf (negative : Bool) : UnpackedFloat.Sign := if negative then .negative else .positive

theorem ofBitVec_unpackSign (b : BitVec Format.binary64.numBits) :
    Sign.ofBitVec (unpackSign b) = signOf (decide (2 ^ 63 ≤ b.toNat)) := by
  have hbit : (unpackSign b).toNat = b.toNat / 2 ^ 63 % 2 := by
    rw [unpackSign, BitVec.toNat_cast, BitVec.extractLsb_toNat, Nat.shiftRight_eq_div_pow]
    rfl
  have hlt : b.toNat < 2 ^ 64 := b.isLt
  rw [Sign.ofBitVec, signOf]
  by_cases hsign : 2 ^ 63 ≤ b.toNat
  · rw [if_neg, if_pos (decide_eq_true hsign)]
    intro hzero
    rw [hzero] at hbit
    have hone : b.toNat / 2 ^ 63 = 1 := by omega
    rw [hone] at hbit
    cases hbit
  · rw [if_pos, if_neg (by simpa using hsign)]
    refine BitVec.eq_of_toNat_eq ?_
    rw [hbit, Nat.div_eq_of_lt (by omega)]
    rfl

/-- Bits whose exponent field is not the greatest one, by the numbers in their fields. -/
theorem unpack_of_fields (b : BitVec Format.binary64.numBits)
    (h : b.toNat / 2 ^ 52 % 2 ^ 11 ≠ 2047) :
    UnpackedFloat.unpack Format.binary64 b =
      if b.toNat / 2 ^ 52 % 2 ^ 11 = 0 then
        ofParts (signOf (decide (2 ^ 63 ≤ b.toNat))) (b.toNat % 2 ^ 52) (-1074)
      else ofParts (signOf (decide (2 ^ 63 ≤ b.toNat))) (2 ^ 52 + b.toNat % 2 ^ 52)
        ((b.toNat / 2 ^ 52 % 2 ^ 11 : Nat) - 1075) := by
  have hexponent := toNat_unpackExponent b
  have hgreatest : unpackExponent b ≠ -1#11 := by
    intro hall
    rw [hall] at hexponent
    exact h hexponent.symm
  have hleast : unpackExponent b = 0#11 ↔ b.toNat / 2 ^ 52 % 2 ^ 11 = 0 := by
    rw [← hexponent]
    exact ⟨fun hzero => congrArg BitVec.toNat hzero, fun hzero => BitVec.eq_of_toNat_eq hzero⟩
  rw [unpack_of_ne hgreatest, ofBitVec_unpackSign, toNat_unpackMantissa, hexponent]
  simp only [hleast]

/-- **The parts that are read off the bits of a finite double are its parts.** -/
theorem unpack_of_ofFloat {x : Float} {negative : Bool} {m : Nat} {e : Int}
    (h : Binary64.ofFloat x = .finite negative m e) :
    x.toModel.unpack = ofParts (signOf negative) m e := by
  have hbits : x.toBits.toNat = x.toModel.toBits.toBitVec.toNat := rfl
  have hunpack := unpack_of_fields x.toModel.toBits.toBitVec
  rw [Binary64.ofFloat, hbits] at h
  split at h
  · split at h <;> cases h
  · next hfinite =>
    refine (hunpack hfinite).trans ?_
    split at h
    · next hzero =>
      cases h
      exact if_pos hzero
    · next hzero =>
      cases h
      exact if_neg hzero

/-- A finite double has parts. -/
theorem exists_ofFloat {x : Float} (h : x.isFinite = true) :
    ∃ negative m e, Binary64.ofFloat x = .finite negative m e := by
  have hfinite : ¬ x.toBits.toNat / 0x10000000000000 % 2048 = 2047 := by
    intro hgreatest
    have hexponent := toNat_unpackExponent x.toModel.toBits.toBitVec
    exact unpackExponent_ne h (BitVec.eq_of_toNat_eq (hexponent.trans hgreatest))
  rw [Binary64.ofFloat, if_neg hfinite]
  split
  · exact ⟨_, _, _, rfl⟩
  · exact ⟨_, _, _, rfl⟩

/-- The parts of a finite double are those of the number that it is. -/
theorem is_of_ofFloat {x : Float} {negative : Bool} {m : Nat} {e : Int}
    (h : Binary64.ofFloat x = .finite negative m e) :
    Is x ((signOf negative).apply m * 2 ^ e) := by
  have hunpack := unpack_of_ofFloat h
  refine ⟨?_, ?_⟩
  · show x.toModel.unpack.isFinite = true
    rw [hunpack, ofParts]
    split <;> rfl
  · rw [toRat, hunpack, value_ofParts]

/-! ## Exact operands -/

/-- The table of powers of ten holds the mantissas and exponents of these. -/
theorem ofFloat_powersOfTen : ∀ k : Fin Float.exactlyRepresentablePowersOfTen.size,
    Binary64.ofFloat Float.exactlyRepresentablePowersOfTen[k] =
      .finite false (5 ^ k.val * 2 ^ (52 - (5 ^ k.val).log2))
        ((k.val : Int) - (52 - (5 ^ k.val).log2 : Nat)) := by
  decide +kernel

theorem is_powersOfTen {k : Nat} (hk : k < Float.exactlyRepresentablePowersOfTen.size) :
    Is Float.exactlyRepresentablePowersOfTen[k] (10 ^ k) := by
  have his := is_of_ofFloat (ofFloat_powersOfTen ⟨k, hk⟩)
  generalize 52 - (5 ^ k).log2 = shift at his
  have hvalue : ((signOf false).apply ((5 ^ k * 2 ^ shift : Nat) : ℤ) : ℚ) *
      2 ^ ((k : ℤ) - shift) = 10 ^ k := by
    have hten : (10 : ℚ) ^ k = 5 ^ k * 2 ^ k := by rw [← mul_pow]; norm_num
    have hsign : ∀ n : ℤ, (signOf false).apply n = n := fun n => rfl
    rw [hsign, zpow_sub₀ two_ne_zero, zpow_natCast, zpow_natCast, hten]
    push_cast
    field_simp
  exact hvalue ▸ his

/-! ## As many bits as it takes -/

/-- What is at most half of the least double is rounded to zero. -/
theorem rounds_of_tiny {q : ℚ} (h : |q| ≤ 2 ^ (-1075 : ℤ)) :
    Proper (.zero .positive) ∧ Rounds q (.zero .positive) := by
  refine ⟨.zero .positive, 0, -1074, le_rfl, .inl rfl, (zero_mul _).symm, ?_⟩
  rw [Int.cast_zero, zero_mul, sub_zero]
  calc |q| ≤ 2 ^ (-1075 : ℤ) := h
    _ = 2 ^ (-1074 : ℤ) / 2 := by
        rw [eq_div_iff two_ne_zero, ← zpow_add_one₀ two_ne_zero]
        norm_num

/-- A coefficient with a power of ten that is low enough is next to zero. -/
theorem abs_mul_ten_zpow_le {m : Nat} {e : Int} (h : e < -(2048 + (m.log2 : Int))) :
    |(m : ℚ) * 10 ^ e| ≤ 2 ^ (-1075 : ℤ) := by
  have hcoeff : (m : ℚ) ≤ 2 ^ ((m.log2 : ℤ) + 1) := by
    exact_mod_cast Nat.le_of_lt Nat.lt_log2_self
  have hpower : (10 : ℚ) ^ e ≤ 2 ^ e := by
    obtain ⟨k, rfl⟩ : ∃ k : Nat, e = -k := ⟨(-e).toNat, by omega⟩
    rw [zpow_neg, zpow_neg, zpow_natCast, zpow_natCast]
    exact inv_anti₀ (by positivity) (pow_le_pow_left₀ (by norm_num) (by norm_num) k)
  rw [abs_of_nonneg (by positivity)]
  calc (m : ℚ) * 10 ^ e ≤ 2 ^ ((m.log2 : ℤ) + 1) * 2 ^ e :=
        mul_le_mul hcoeff hpower (by positivity) (by positivity)
    _ = 2 ^ ((m.log2 : ℤ) + 1 + e) := (zpow_add₀ two_ne_zero _ _).symm
    _ ≤ 2 ^ (-1075 : ℤ) := zpow_le_zpow_right₀ one_le_two (by omega)

/-- A product of whole numbers is rounded once a unit is split into enough parts. -/
theorem rounds_mul_natCast {m n : Nat} (hm : m ≠ 0) (hn : n ≠ 0) :
    Proper (roundWithAccuracy Format.binary64 .positive (m <<< 53 * n) (-53) .exact) ∧
      Rounds (m * n) (roundWithAccuracy Format.binary64 .positive (m <<< 53 * n) (-53) .exact) := by
  have hone : 1 ≤ m * n := Nat.mul_pos (Nat.pos_of_ne_zero hm) (Nat.pos_of_ne_zero hn)
  have hparts : m <<< 53 * n = m * n * 2 ^ 53 := by
    rw [Nat.shiftLeft_eq, Nat.mul_right_comm]
  have hfull : 52 ≤ (m <<< 53 * n).log2 := by
    rw [hparts, log2_mul_two_pow (by omega)]
    omega
  have hrounds := rounds_roundWithAccuracy (represents_exact (m <<< 53 * n)) (.inl hfull)
    (e := -53) .positive
  have hvalue : (Sign.positive.apply 1 : ℚ) * (((m <<< 53 * n : Nat) : ℚ) * 2 ^ (-53 : ℤ)) =
      m * n := by
    rw [hparts]
    push_cast
    norm_num [Sign.apply]
    ring
  rwa [hvalue] at hrounds

/-- A quotient of whole numbers is rounded. -/
theorem rounds_div_natCast {m n : Nat} (hm : m ≠ 0) (hn : n ≠ 0) :
    Proper (roundWithAccuracy Format.binary64 .positive (divCore Format.binary64 m 0 n 0).1
        (divCore Format.binary64 m 0 n 0).2.1 (divCore Format.binary64 m 0 n 0).2.2) ∧
      Rounds (m / n) (roundWithAccuracy Format.binary64 .positive
        (divCore Format.binary64 m 0 n 0).1 (divCore Format.binary64 m 0 n 0).2.1
        (divCore Format.binary64 m 0 n 0).2.2) := by
  obtain ⟨x, hx, hquotient⟩ := represents_divCore m (Nat.pos_of_ne_zero hn) 0 0
  have hne : (n : ℚ) ≠ 0 := by exact_mod_cast hn
  have hvalue : (Sign.positive.apply 1 : ℚ) * (x * 2 ^ (divCore Format.binary64 m 0 n 0).2.1) =
      m / n := by
    rw [zpow_zero, mul_one, mul_one] at hquotient
    rw [eq_div_iff hne, ← hquotient]
    norm_num [Sign.apply]
  rw [← hvalue]
  exact rounds_roundWithAccuracy hx (log2_divCore hm hn 0 0) .positive

/-- A coefficient with a power of ten is rounded, if the power is not huge. -/
theorem rounds_ofScientific_of_le {m : Nat} {e : Int} (h : m = 0 ∨ e ≤ 2048) :
    Proper (UnpackedFloat.ofScientific Format.binary64 m e) ∧
      Rounds (m * 10 ^ e) (UnpackedFloat.ofScientific Format.binary64 m e) := by
  have hpow : (2 ^ Format.binary64.exponentBits : Int) = 2048 := rfl
  have hten : ∀ k : Nat, 10 ^ k ≠ 0 := fun k => pow_ne_zero k (by decide)
  rw [UnpackedFloat.ofScientific]
  split
  · next hm =>
    subst hm
    exact rounds_zero _ (by rw [Nat.cast_zero, zero_mul])
  · next hm =>
    rw [hpow, if_neg (not_lt.2 (h.resolve_left hm))]
    split
    · next hlow => exact rounds_of_tiny (abs_mul_ten_zpow_le hlow)
    · split
      · next hpositive =>
        obtain ⟨k, rfl⟩ := Int.eq_ofNat_of_zero_le hpositive
        have hrounds := rounds_mul_natCast hm (hten k)
        rw [Nat.cast_pow, Nat.cast_ofNat, ← zpow_natCast] at hrounds
        exact hrounds
      · next hnegative =>
        have hexp : -((-e).toNat : ℤ) = e := by omega
        have hrounds := rounds_div_natCast hm (hten (-e).toNat)
        rw [Nat.cast_pow, Nat.cast_ofNat, div_eq_mul_inv, ← zpow_natCast, ← zpow_neg,
          hexp] at hrounds
        exact hrounds

/-- A huge power of ten is infinite as a double, unless the coefficient is zero. -/
theorem ofScientific_of_lt {m : Nat} (hm : m ≠ 0) {e : Int} (h : 2048 < e) :
    UnpackedFloat.ofScientific Format.binary64 m e = .infinity .positive := by
  have hpow : (2 ^ Format.binary64.exponentBits : Int) = 2048 := rfl
  rw [UnpackedFloat.ofScientific, dif_neg hm, hpow, if_pos h]

/-- **A coefficient with a power of ten is rounded,** if it is below the limit. -/
theorem rounds_ofScientific {m : Nat} {e : Int} (h : |(m : ℚ) * 10 ^ e| < limit) :
    Proper (UnpackedFloat.ofScientific Format.binary64 m e) ∧
      Rounds (m * 10 ^ e) (UnpackedFloat.ofScientific Format.binary64 m e) := by
  refine rounds_ofScientific_of_le ?_
  by_contra hlarge
  obtain ⟨hm, hexp⟩ := not_or.1 hlarge
  have hone : (1 : ℚ) ≤ m := by exact_mod_cast Nat.one_le_iff_ne_zero.2 hm
  refine absurd h (not_lt.2 ?_)
  rw [abs_of_nonneg (by positivity)]
  calc limit ≤ 2 ^ (1024 : ℤ) := sub_le_self _ (two_zpow_pos 970).le
    _ ≤ 2 ^ e := zpow_le_zpow_right₀ one_le_two (by omega)
    _ ≤ 10 ^ e := zpow_le_zpow_left₀ (by omega) (by norm_num) (by norm_num)
    _ ≤ m * 10 ^ e := le_mul_of_one_le_left (by positivity) hone

end Double

namespace Decimal

open Double

/-- The number that a decimal number is. -/
def value (d : Decimal) : ℚ := d.coeff * 10 ^ d.exp

/-- The exponent with its sign apart, as it is read. -/
theorem ite_negOfNat_natAbs (e : Int) :
    (if decide (e < 0) = true then Int.negOfNat e.natAbs else Int.ofNat e.natAbs) = e := by
  by_cases hsign : e < 0
  · rw [if_pos (decide_eq_true hsign), Int.negOfNat_eq, Int.ofNat_eq_natCast]
    omega
  · rw [if_neg (by simpa using hsign), Int.ofNat_eq_natCast]
    omega

/-- A decimal that is not made of exact operands is multiplied or divided with as many bits as it
takes. -/
theorem toModel_toFloat {d : Decimal} (h : ¬ (d.coeff < 2 ^ 53 ∧ d.exp.natAbs ≤ 22)) :
    d.toFloat.toModel =
      Float.Model.pack (Float.Model.UnpackedFloat.ofScientific .binary64 d.coeff d.exp) := by
  rw [toFloat, Float.ofScientific, dif_neg h]
  show Float.Model.ofScientific d.coeff
    (if decide (d.exp < 0) = true then Int.negOfNat d.exp.natAbs else Int.ofNat d.exp.natAbs) = _
  rw [ite_negOfNat_natAbs, Float.Model.ofScientific]

/-- **A decimal number is rounded when it is read as a double,** if it is below the limit. -/
theorem isNear_toFloat {d : Decimal} (h : |d.value| < limit) :
    IsNear d.toFloat d.value := by
  by_cases hsmall : d.coeff < 2 ^ 53 ∧ d.exp.natAbs ≤ 22
  · -- both operands are exact
    obtain ⟨m, e⟩ := d
    obtain ⟨hcoeff, hpower⟩ := hsmall
    show IsNear (Float.ofScientific m (decide (e < 0)) e.natAbs) (m * 10 ^ e)
    change |(m : ℚ) * 10 ^ e| < limit at h
    rw [Float.ofScientific, dif_pos ⟨hcoeff, hpower⟩]
    have hm := is_toFloat_toUInt64 hcoeff
    have hten := is_powersOfTen (k := e.natAbs) (Nat.lt_succ_of_le hpower)
    by_cases hsign : e < 0
    · have hvalue : (m : ℚ) * 10 ^ e = m / 10 ^ e.natAbs := by
        rw [div_eq_mul_inv, ← zpow_natCast, ← zpow_neg]
        congr 2
        omega
      rw [hvalue] at h ⊢
      rw [decide_eq_true hsign]
      exact hm.div hten (by positivity) h
    · have hvalue : (m : ℚ) * 10 ^ e = m * 10 ^ e.natAbs := by
        rw [← zpow_natCast]
        congr 2
        omega
      rw [hvalue] at h ⊢
      rw [decide_eq_false hsign]
      exact hm.mul hten h
  · exact isNear_pack (toModel_toFloat hsmall) (rounds_ofScientific h) h

/-- A small coefficient with a small power of ten is far below the limit. -/
theorem abs_value_lt_limit {d : Decimal} (h : d.coeff < 2 ^ 53 ∧ d.exp.natAbs ≤ 22) :
    |d.value| < limit := by
  obtain ⟨hcoeff, hpower⟩ := h
  have hm : (d.coeff : ℚ) ≤ 2 ^ (53 : ℤ) := by exact_mod_cast hcoeff.le
  refine lt_limit ?_
  rw [value, abs_of_nonneg (by positivity)]
  calc (d.coeff : ℚ) * 10 ^ d.exp ≤ 2 ^ (53 : ℤ) * 10 ^ (22 : ℤ) :=
        mul_le_mul hm (zpow_le_zpow_right₀ (by norm_num) (by omega)) (by positivity) (by positivity)
    _ ≤ 2 ^ (200 : ℤ) := by norm_num
    _ ≤ 2 ^ (1000 : ℤ) := zpow_le_zpow_right₀ one_le_two (by norm_num)

/-- A decimal number is rounded when it is read as a double, unless it becomes infinite. -/
theorem isNear_toFloat_of_isFinite {d : Decimal} (h : d.toFloat.isFinite = true) :
    IsNear d.toFloat d.value := by
  by_cases hlimit : |d.value| < limit
  · exact isNear_toFloat hlimit
  · have hpack := toModel_toFloat fun hsmall => hlimit (abs_value_lt_limit hsmall)
    refine isNear_pack_of_isFinite hpack (rounds_ofScientific_of_le ?_) h
    by_contra hlarge
    obtain ⟨hcoeff, hexp⟩ := not_or.1 hlarge
    have hinfinite : d.toFloat.isFinite = false := by
      show d.toFloat.toModel.unpack.isFinite = false
      rw [hpack, ofScientific_of_lt hcoeff (not_le.1 hexp)]
      exact isFinite_pack_of_not rfl
    rw [h] at hinfinite
    cases hinfinite

end Decimal
end Atlas
