import Atlas.Proofs.View.Showing
import Mathlib.Data.Int.Log

/-!
# The deepest zoom level

With exact numbers, fitting a view to a box finds the deepest zoom level at which the box lies
inside of the view. A box lies inside if the pixels of the level are not smaller than those that
the box needs along either side. Pixels are halved from one level to the next, so these are the
levels up to a binary logarithm.

## Main statements

* `floorLog2_rat` — the whole part of the logarithm is the exact one
* `View.contains_around_iff` — how large pixels have to be for a box to lie inside of the view
* `View.fit_deepest` — fitting finds the deepest of them
-/

namespace Atlas

/-! ## Binary logarithms -/

/-- A power of two against a fraction, in whole numbers. -/
theorem two_zpow_le_div_iff (z : ℤ) (n : ℕ) {d : ℕ} (hd : 0 < d) :
    (2 : ℚ) ^ z ≤ n / d ↔ d * Nat.pow 2 z.toNat ≤ n * Nat.pow 2 (-z).toNat := by
  have hz : (2 : ℚ) ^ z = 2 ^ z.toNat / 2 ^ (-z).toNat := by
    rw [← zpow_natCast, ← zpow_natCast, ← zpow_sub₀ two_ne_zero, Int.toNat_sub_toNat_neg]
  have hpow : (0 : ℚ) < 2 ^ (-z).toNat := by positivity
  have hd' : (0 : ℚ) < d := by exact_mod_cast hd
  rw [hz, div_le_div_iff₀ hpow hd', mul_comm]
  exact_mod_cast Iff.rfl

/-- The logarithm of a fraction lies around the difference of two whole ones. -/
theorem log2_sub_log2_bounds {n d : ℕ} (hn : 0 < n) (hd : 0 < d) :
    (2 : ℚ) ^ ((n.log2 : ℤ) - d.log2 - 1) ≤ n / d ∧
      (n / d : ℚ) < 2 ^ ((n.log2 : ℤ) - d.log2 + 1) := by
  have hd' : (0 : ℚ) < d := by exact_mod_cast hd
  have hnle : (2 : ℚ) ^ n.log2 ≤ n := by exact_mod_cast Nat.log2_self_le hn.ne'
  have hnlt : (n : ℚ) < 2 ^ (n.log2 + 1) := by exact_mod_cast Nat.lt_log2_self
  have hdle : (2 : ℚ) ^ d.log2 ≤ d := by exact_mod_cast Nat.log2_self_le hd.ne'
  have hdlt : (d : ℚ) < 2 ^ (d.log2 + 1) := by exact_mod_cast Nat.lt_log2_self
  constructor
  · have hexp : (n.log2 : ℤ) - d.log2 - 1 = n.log2 - (d.log2 + 1 : ℕ) := by omega
    rw [hexp, zpow_sub₀ two_ne_zero, zpow_natCast, zpow_natCast]
    exact div_le_div₀ (by positivity) hnle hd' hdlt.le
  · have hexp : (n.log2 : ℤ) - d.log2 + 1 = (n.log2 + 1 : ℕ) - d.log2 := by omega
    rw [hexp, zpow_sub₀ two_ne_zero, zpow_natCast, zpow_natCast]
    exact div_lt_div₀ hnlt hdle (by positivity) (by positivity)

theorem two_zpow_le_iff_le_log {x : ℚ} (hx : 0 < x) (z : ℤ) : 2 ^ z ≤ x ↔ z ≤ Int.log 2 x := by
  rw [← Int.zpow_le_iff_le_log one_lt_two hx, Nat.cast_ofNat]

/-- **The whole part of the logarithm is the exact one.** -/
theorem floorLog2_rat {x : ℚ} (hx : 0 < x) : Scalar.floorLog2 x = Int.log 2 x := by
  have hnum : 0 < x.num := Rat.num_pos.2 hx
  have hfraction : (x.num.toNat / x.den : ℚ) = x := by
    have hcast : (x.num.toNat : ℚ) = x.num := by
      rw [← Int.cast_natCast, Int.toNat_of_nonneg hnum.le]
    rw [hcast, Rat.num_div_den]
  obtain ⟨hle, hlt⟩ := log2_sub_log2_bounds (Int.lt_toNat.2 hnum) x.den_pos
  have htest := two_zpow_le_div_iff ((Nat.log2 x.num.toNat : ℤ) - Nat.log2 x.den) x.num.toNat
    x.den_pos
  rw [hfraction] at hle hlt htest
  rw [two_zpow_le_iff_le_log hx] at hle htest
  rw [← not_le, two_zpow_le_iff_le_log hx] at hlt
  -- the logarithm is one of two numbers, and the test says which one
  show ratFloorLog2 x = _
  rw [ratFloorLog2]
  split
  · next h =>
    have hge := htest.2 h
    omega
  · next h =>
    have hnot := mt htest.1 h
    omega

theorem Scalar.max_rat (a b : ℚ) : Scalar.max a b = Max.max a b := by
  rw [Scalar.max, if_pos (le_refl a)]
  split
  · next h => exact (max_eq_right h.le).symm
  · next h => exact (max_eq_left (not_lt.1 h)).symm

/-- The nearest zoom level is the deepest one that is not deeper. -/
theorem isGreatest_clampZoom {level : ℤ} (h : 0 ≤ level) :
    IsGreatest {z : ℕ | z ≤ maxZoom ∧ z ≤ level} (clampZoom level) := by
  have hclamp : clampZoom level = min level.toNat maxZoom := rfl
  rw [hclamp]
  constructor
  · exact ⟨min_le_right _ _, by omega⟩
  · rintro z ⟨hmax, hlevel⟩
    exact le_min (by omega) hmax

namespace View

/-! ## Boxes inside of a view -/

/-- The view of the same size around a box, at a zoom level. -/
def around {α : Type} [Scalar α] (v : View α) (b : Bounds α) (zoom : Nat) : View α :=
  { v with center := b.center, zoom := zoom }

/-- A side of the box lies inside of a side of the view around it if its pixels are large enough. -/
theorem side_covered_iff (low high r : ℚ) {n : Nat} (hn : 1 ≤ n) :
    (low + high) / 2 - n * r / 2 ≤ low ∧ high ≤ (low + high) / 2 + n * r / 2 ↔
      (high - low) / n ≤ r := by
  have hn' : (0 : ℚ) < n := by exact_mod_cast hn
  rw [div_le_iff₀ hn']
  constructor
  · rintro ⟨hlow, -⟩
    linarith
  · intro h
    constructor <;> linarith

section

variable {v : View ℚ} (hwidth : 1 ≤ v.width) (hheight : 1 ≤ v.height) (b : Bounds ℚ)

include hwidth hheight

/-- A box lies inside of the view around it if the pixels are as large as it needs. -/
theorem contains_around_iff (z : Nat) : (v.around b z).bounds.contains b = true ↔
    v.neededResolution b ≤ resolutionAt z := by
  have hx := side_covered_iff b.left b.right (resolutionAt z) hwidth
  have hy := side_covered_iff b.bottom b.top (resolutionAt z) hheight
  have hneeded : v.neededResolution b =
      max ((b.right - b.left) / v.width) ((b.top - b.bottom) / v.height) := Scalar.max_rat _ _
  rw [hneeded, max_le_iff, ← hx, ← hy, Bounds.contains, Bool.and_eq_true, Bool.and_eq_true,
    Bool.and_eq_true, decide_eq_true_iff, decide_eq_true_iff, decide_eq_true_iff,
    decide_eq_true_iff]
  constructor
  · rintro ⟨⟨⟨hleft, hbottom⟩, hright⟩, htop⟩
    exact ⟨⟨hleft, hright⟩, hbottom, htop⟩
  · rintro ⟨⟨hleft, hright⟩, hbottom, htop⟩
    exact ⟨⟨⟨hleft, hbottom⟩, hright⟩, htop⟩

end

/-- Pixels are at least as large as a given size up to the level for that size. -/
theorem le_resolutionAt_iff {needed : ℚ} {z : Nat} (hz : z ≤ maxZoom) :
    needed ≤ resolutionAt z ↔ z ≤ levelFor needed := by
  have hpow : (Scalar.twoPow (z : ℤ) : ℚ) = 2 ^ (z : ℤ) := by
    show ratTwoPow z = _
    rw [ratTwoPow, if_pos (Int.natCast_nonneg z), Int.toNat_natCast, zpow_natCast]
    exact Nat.cast_pow 2 z
  have hresolution : (resolutionAt z : ℚ) = maxResolution / 2 ^ (z : ℤ) := by
    rw [← hpow]
    rfl
  have hmax : 0 < (maxResolution : ℚ) := by decide +kernel
  have hlevel : levelFor needed =
      if needed ≤ 0 then (maxZoom : ℤ) else Scalar.floorLog2 (maxResolution / needed) := rfl
  rw [hresolution, hlevel]
  split
  · next h =>
    exact iff_of_true (h.trans (div_pos hmax (Double.two_zpow_pos z)).le) (Int.ofNat_le.2 hz)
  · next h =>
    have hneeded : 0 < needed := not_le.1 h
    rw [floorLog2_rat (div_pos hmax hneeded), ← two_zpow_le_iff_le_log (div_pos hmax hneeded),
      le_div_iff₀ (Double.two_zpow_pos z), le_div_iff₀ hneeded, mul_comm]

/-! ## Fitting -/

/-- **Fitting finds the deepest zoom level at which the box lies inside of the view around it,** and
level 0 if there is none. A box whose sides are not in order is refused, and the view stays. -/
theorem fit_deepest {v : View ℚ} (hwidth : 1 ≤ v.width) (hheight : 1 ≤ v.height) (b : Bounds ℚ) :
    if b.width < 0 ∨ b.height < 0 then v.fit b = (v, false)
    else ∃ zoom, v.fit b = (v.around b zoom, true) ∧
      if (v.around b 0).bounds.contains b then
        IsGreatest {z | z ≤ maxZoom ∧ (v.around b z).bounds.contains b = true} zoom
      else zoom = 0 := by
  have hfits : fits b = true ↔ ¬ (b.width < 0 ∨ b.height < 0) := by
    show (true && !decide (b.width < ((0 : ℤ) : ℚ)) &&
      !decide (b.height < ((0 : ℤ) : ℚ))) = true ↔ _
    simp
  split
  · next hneg => rw [fit, if_neg (fun h => hfits.1 h hneg)]
  · next hpos =>
    refine ⟨clampZoom (levelFor (v.neededResolution b)), ?_, ?_⟩
    · rw [fit, if_pos (hfits.2 hpos)]
      rfl
    · have hcovered : ∀ z ≤ maxZoom, (v.around b z).bounds.contains b = true ↔
          z ≤ levelFor (v.neededResolution b) := fun z hz =>
        (contains_around_iff hwidth hheight b z).trans (le_resolutionAt_iff hz)
      split
      · next hzero =>
        have hsame : {z : Nat | z ≤ maxZoom ∧ (v.around b z).bounds.contains b = true} =
            {z : Nat | z ≤ maxZoom ∧ z ≤ levelFor (v.neededResolution b)} :=
          Set.ext fun z => and_congr_right (hcovered z)
        rw [hsame]
        exact isGreatest_clampZoom ((hcovered 0 (Nat.zero_le _)).1 hzero)
      · next hzero =>
        have hneg := mt (hcovered 0 (Nat.zero_le _)).2 hzero
        show min (levelFor (v.neededResolution b)).toNat maxZoom = 0
        rw [Int.toNat_eq_zero.2 (not_le.1 hneg).le, Nat.zero_min]

/-- The box is just as wide as the view is at level 2. -/
theorem fit_deepest_as_wide :
    let v : View ℚ := ⟨⟨9, 45⟩, 6, 256, 256⟩
    let b : Bounds ℚ := ⟨-40, 0, 50, 45⟩
    1 ≤ v.width ∧ 1 ≤ v.height ∧ v.fit b = (⟨⟨5, 45 / 2⟩, 2, 256, 256⟩, true) ∧
      IsGreatest {z | z ≤ maxZoom ∧ (v.around b z).bounds.contains b = true} 2 := by
  intro v b
  have hwidth : 1 ≤ v.width := by decide
  have hheight : 1 ≤ v.height := by decide
  have hfit : v.fit b = (⟨⟨5, 45 / 2⟩, 2, 256, 256⟩, true) := by decide +kernel
  have hdeepest := fit_deepest hwidth hheight b
  rw [if_neg (by decide +kernel)] at hdeepest
  obtain ⟨zoom, hzoom, hgreatest⟩ := hdeepest
  rw [if_pos (by decide +kernel)] at hgreatest
  obtain rfl : zoom = 2 := congrArg (fun p => p.1.zoom) (hzoom.symm.trans hfit)
  exact ⟨hwidth, hheight, hfit, hgreatest⟩

end View
end Atlas
