import Atlas.Proofs.Double.Numbers
import Atlas.View

/-!
# Fitting a view to its own box

The box that a view shows is computed from its center, its zoom level and its size, and fitting
computes a center and a zoom level from a box. With exact numbers the one undoes the other.

## Main statements

* `View.fit_bounds` — with exact numbers, fitting a view to its own box changes nothing
* `View.fit_bounds_of_exact` — the same with doubles, if the sides of the box need no rounding
* `View.isFinite_bounds` — the box of a view with a finite center is finite
-/

namespace Atlas

open Double

/-- A position with the exact numbers of its coordinates. -/
def Position.toRat (p : Coord) : Position ℚ := ⟨Double.toRat p.x, Double.toRat p.y⟩

/-- A box with the exact numbers of its sides. -/
def Bounds.toRat (b : Bounds Float) : Bounds ℚ :=
  ⟨Double.toRat b.left, Double.toRat b.bottom, Double.toRat b.right, Double.toRat b.top⟩

namespace View

/-- A view with the exact numbers of its center. -/
def toRat (v : View Float) : View ℚ := ⟨v.center.toRat, v.zoom, v.width, v.height⟩

section

variable {α : Type} [Scalar α]

/-- A view has a zoom level and a size that are allowed: it is not empty, and its sides have at most
32 bits. -/
structure Allowed (v : View α) : Prop where
  zoom : v.zoom ≤ maxZoom
  width : 1 ≤ v.width ∧ v.width < 2 ^ 32
  height : 1 ≤ v.height ∧ v.height < 2 ^ 32

/-- Half a side of the box that is shown, for a side of the view. -/
def halfSide (v : View α) (pixels : Nat) : α :=
  Scalar.ofInt pixels * v.resolution / Scalar.ofInt 2

/-- The greater one of a number and itself. -/
theorem max_self (a : α) : Scalar.max a a = a := by
  rw [Scalar.max, ite_self, ite_self]

/-- Fitting keeps the zoom level if the box needs pixels of the size that there are. -/
theorem fit_eq_of_needed {v : View α} {b : Bounds α} (hfits : fits b = true)
    (hwidth : b.width / Scalar.ofInt v.width = v.resolution)
    (hheight : b.height / Scalar.ofInt v.height = v.resolution)
    (hlevel : levelFor v.resolution = v.zoom) (hzoom : v.zoom ≤ maxZoom) :
    v.fit b = (v.withCenter b.center, true) := by
  rw [fit, if_pos hfits, neededResolution, hwidth, hheight, max_self, hlevel, withZoom,
    clampZoom_of_le hzoom]
  rfl

end

/-! ## Exact numbers -/

/-- The size of a pixel at a zoom level: 360 degrees in 256 pixels, halved at each level. -/
theorem resolutionAt_rat (z : Nat) : (resolutionAt z : ℚ) = 45 * 2 ^ (-5 - z : ℤ) := by
  have hmax : (maxResolution : ℚ) = 45 / 32 := by decide +kernel
  have hpow : (Scalar.twoPow (z : ℤ) : ℚ) = 2 ^ z := by
    show ratTwoPow z = 2 ^ z
    rw [ratTwoPow, if_pos (Int.natCast_nonneg z), Int.toNat_natCast]
    exact Nat.cast_pow 2 z
  show (maxResolution : ℚ) / Scalar.twoPow (z : ℤ) = _
  rw [hmax, hpow, zpow_sub₀ two_ne_zero, zpow_natCast, ← mul_div_assoc]
  norm_num

theorem halfSide_rat (v : View ℚ) (n : Nat) :
    v.halfSide n = (n * 45 : ℤ) * 2 ^ (-6 - v.zoom : ℤ) := by
  show (n : ℚ) * (resolutionAt (v.zoom : ℤ) : ℚ) / 2 = _
  have hexp : (-5 - v.zoom : ℤ) = -6 - v.zoom + 1 := by ring
  rw [resolutionAt_rat, hexp, zpow_add_one₀ two_ne_zero]
  push_cast
  ring

theorem halfSide_rat_pos (v : View ℚ) {n : Nat} (hn : 1 ≤ n) : 0 < v.halfSide n := by
  rw [halfSide_rat]
  exact mul_pos (by exact_mod_cast (by omega : 0 < n * 45)) (two_zpow_pos _)

theorem halfSide_rat_lt (v : View ℚ) {n : Nat} (hn : n < 2 ^ 32) :
    v.halfSide n < 2 ^ (48 : ℤ) := by
  have hone : (2 : ℚ) ^ (-6 - v.zoom : ℤ) ≤ 1 := zpow_le_one_of_nonpos₀ one_le_two (by omega)
  have hn' : ((n * 45 : ℤ) : ℚ) < 2 ^ (48 : ℤ) := by exact_mod_cast (by omega : n * 45 < 2 ^ 48)
  rw [halfSide_rat]
  calc ((n * 45 : ℤ) : ℚ) * 2 ^ (-6 - v.zoom : ℤ) ≤ (n * 45 : ℤ) * 1 :=
        mul_le_mul_of_nonneg_left hone (by positivity)
    _ < 2 ^ (48 : ℤ) := by rwa [mul_one]

theorem two_halfSide_div (v : View ℚ) {n : Nat} (hn : 1 ≤ n) :
    2 * v.halfSide n / n = v.resolution := by
  have hne : (n : ℚ) ≠ 0 := by exact_mod_cast (by omega : n ≠ 0)
  show 2 * ((n : ℚ) * v.resolution / 2) / n = v.resolution
  field_simp

/-- At every zoom level the size of a pixel leads to the level again. -/
theorem levelFor_resolution_rat {v : View ℚ} (hzoom : v.zoom ≤ maxZoom) :
    levelFor v.resolution = v.zoom := by
  have hall : ∀ z : Fin 29, levelFor (resolutionAt (z.val : ℤ) : ℚ) = (z.val : ℤ) := by
    decide +kernel
  exact hall ⟨v.zoom, Nat.lt_succ_of_le hzoom⟩

/-- **With exact numbers, fitting a view to its own box changes nothing.** -/
theorem fit_bounds {v : View ℚ} (h : v.Allowed) : v.fit v.bounds = (v, true) := by
  obtain ⟨hzoom, ⟨hwidth, -⟩, hheight, -⟩ := h
  have hw := halfSide_rat_pos v hwidth
  have hh := halfSide_rat_pos v hheight
  have hbw : v.bounds.width = 2 * v.halfSide v.width := by
    show v.center.x + v.halfSide v.width - (v.center.x - v.halfSide v.width) = _
    ring
  have hbh : v.bounds.height = 2 * v.halfSide v.height := by
    show v.center.y + v.halfSide v.height - (v.center.y - v.halfSide v.height) = _
    ring
  have hfits : fits v.bounds = true := by
    have hw' : ¬ v.bounds.width < 0 := by rw [hbw]; linarith
    have hh' : ¬ v.bounds.height < 0 := by rw [hbh]; linarith
    show (true && !decide (v.bounds.width < ((0 : ℤ) : ℚ)) &&
      !decide (v.bounds.height < ((0 : ℤ) : ℚ))) = true
    rw [Int.cast_zero, decide_eq_false hw', decide_eq_false hh']
    rfl
  have hcenter : v.bounds.center = v.center := by
    have hmiddle : ∀ c h : ℚ, (c - h + (c + h)) / 2 = c := fun c h => by ring
    exact congrArg₂ Position.mk (hmiddle v.center.x _) (hmiddle v.center.y _)
  rw [fit_eq_of_needed hfits, hcenter]
  · rfl
  · rw [hbw]
    exact two_halfSide_div v hwidth
  · rw [hbh]
    exact two_halfSide_div v hheight
  · exact levelFor_resolution_rat hzoom
  · exact hzoom

/-! ## Doubles -/

theorem is_resolution {v : View Float} (hzoom : v.zoom ≤ maxZoom) :
    Is v.resolution v.toRat.resolution := by
  have hz : v.zoom < 29 := Nat.lt_succ_of_le hzoom
  have hmax : Is (maxResolution : Float) (45 / 32) := by
    have hquotient : (maxResolution : Float) = Float.ofInt (45 : Nat) / Float.ofInt (32 : Nat) := by
      decide +kernel
    have hshort : Short ((45 : Nat) / (32 : Nat)) :=
      ⟨45, -5, by norm_num, by norm_num, by norm_num, by norm_num⟩
    rw [hquotient]
    exact ((is_ofInt (by norm_num)).div (is_ofInt (by norm_num)) (by norm_num) hshort.lt_limit).is
      hshort.representable
  have hpow : Is (floatTwoPow v.zoom) ((2 ^ v.zoom : Nat) : ℚ) := by
    have hall : ∀ z : Fin 29, floatTwoPow z.val = Float.ofInt ((2 ^ z.val : Nat) : ℤ) := by
      decide +kernel
    have hpower : floatTwoPow v.zoom = Float.ofInt ((2 ^ v.zoom : Nat) : ℤ) := hall ⟨v.zoom, hz⟩
    rw [hpower]
    exact is_ofInt (Nat.pow_lt_pow_right (by norm_num) (by omega))
  have hsame : (45 / 32 : ℚ) / ((2 ^ v.zoom : Nat) : ℚ) = 45 * 2 ^ (-5 - v.zoom : ℤ) := by
    rw [zpow_sub₀ two_ne_zero, zpow_natCast, ← mul_div_assoc, Nat.cast_pow]
    norm_num
  have hshort : Short ((45 / 32 : ℚ) / ((2 ^ v.zoom : Nat) : ℚ)) :=
    ⟨45, -5 - v.zoom, by norm_num, by omega, by omega, hsame⟩
  have hne : ((2 ^ v.zoom : Nat) : ℚ) ≠ 0 := by positivity
  show Is ((maxResolution : Float) / floatTwoPow v.zoom) (resolutionAt (v.zoom : ℤ) : ℚ)
  rw [resolutionAt_rat, ← hsame]
  exact (hmax.div hpow hne hshort.lt_limit).is hshort.representable

section

variable {v : View Float} {n : Nat}

theorem short_halfSide (hzoom : v.zoom ≤ maxZoom) (hn : n < 2 ^ 32) :
    Short (v.toRat.halfSide n) ∧ Short (2 * v.toRat.halfSide n) := by
  have hz : v.zoom < 29 := Nat.lt_succ_of_le hzoom
  have hbits : |(n * 45 : ℤ)| < 2 ^ 53 := by
    rw [abs_of_nonneg (by positivity)]
    omega
  have hexp : (-5 - v.zoom : ℤ) = -6 - v.zoom + 1 := by ring
  have hdouble : 2 * v.toRat.halfSide n = (n * 45 : ℤ) * 2 ^ (-5 - v.zoom : ℤ) := by
    rw [halfSide_rat, hexp, zpow_add_one₀ two_ne_zero]
    show 2 * (((n * 45 : ℤ) : ℚ) * 2 ^ (-6 - v.zoom : ℤ)) = _
    ring
  exact ⟨⟨n * 45, -6 - v.zoom, hbits, by omega, by omega, halfSide_rat v.toRat n⟩,
    ⟨n * 45, -5 - v.zoom, hbits, by omega, by omega, hdouble⟩⟩

/-- Half a side of the box is exact, for sides of at most 32 bits. -/
theorem is_halfSide (hzoom : v.zoom ≤ maxZoom) (hn : n < 2 ^ 32) :
    Is (v.halfSide n) (v.toRat.halfSide n) := by
  obtain ⟨hhalf, hdouble⟩ := short_halfSide hzoom hn
  have hside : 2 * v.toRat.halfSide n = n * v.toRat.resolution := by
    show 2 * ((n : ℚ) * v.toRat.resolution / 2) = _
    ring
  rw [hside] at hdouble
  have hn' : Is (Float.ofInt n) n := is_ofInt (by omega)
  have htwo : Is (Float.ofInt (2 : Nat)) (2 : Nat) := is_ofInt (by norm_num)
  have hproduct := (hn'.mul (is_resolution hzoom) hdouble.lt_limit).is hdouble.representable
  exact (hproduct.div htwo (by norm_num) hhalf.lt_limit).is hhalf.representable

end

/-- A center is not huge if a step in both directions needs no rounding. -/
theorem abs_lt_of_step {c d : ℚ} (hc : Representable c) (hpos : 0 < d) (hd : d < 2 ^ (48 : ℤ))
    (hlow : Representable (c - d)) : |c| < 2 ^ (101 : ℤ) := by
  by_contra hge
  rw [not_lt] at hge
  have hdouble : (2 : ℚ) ^ (101 : ℤ) = 2 ^ (100 : ℤ) * 2 := zpow_add_one₀ two_ne_zero 100
  have h48 : (2 : ℚ) ^ (48 : ℤ) ≤ 2 ^ (100 : ℤ) := zpow_le_zpow_right₀ one_le_two (by norm_num)
  have hstep : (2 : ℚ) ^ (100 : ℤ) ≤ |c - d| := by
    have htriangle : |c| - |d| ≤ |c - d| := abs_sub_abs_le_abs_sub c d
    rw [abs_of_pos hpos] at htriangle
    linarith
  have hcenter : (2 : ℚ) ^ (100 : ℤ) ≤ |c| := by linarith [two_zpow_pos 100]
  -- so the step would be a multiple of `2 ^ 48`
  obtain ⟨n, hn⟩ := hc.exists_mul (e := 48) (.inr hcenter)
  obtain ⟨k, hk⟩ := hlow.exists_mul (e := 48) (.inr hstep)
  have hwhole : d = ((n - k : ℤ) : ℚ) * 2 ^ (48 : ℤ) := by
    push_cast
    linarith
  rw [hwhole] at hpos hd
  have h1 : 0 < n - k := by
    exact_mod_cast (mul_pos_iff_of_pos_right (two_zpow_pos 48)).1 hpos
  have h2 : ((n - k : ℤ) : ℚ) < 1 := by
    refine lt_of_mul_lt_mul_right ?_ (two_zpow_pos 48).le
    rwa [one_mul]
  have h3 : n - k < 1 := by exact_mod_cast h2
  omega

/-- The sides of a box around a center, if they need no rounding: they are twice as far apart, and
the center is in the middle. -/
theorem is_middle {low high : Float} {c d : ℚ} (hc : Representable c) (hclimit : |c| < limit)
    (hpos : 0 < d) (hd : d < 2 ^ (48 : ℤ)) (hdouble : Short (2 * d)) (hlow : Is low (c - d))
    (hhigh : Is high (c + d)) :
    Is (high - low) (2 * d) ∧ Is ((low + high) / Float.ofInt (2 : Nat)) c := by
  have hbound := abs_lt_of_step hc hpos hd hlow.representable
  constructor
  · have hwidth : c + d - (c - d) = 2 * d := by ring
    have h := hhigh.sub hlow (by rw [hwidth]; exact hdouble.lt_limit)
    rw [hwidth] at h
    exact h.is hdouble.representable
  · have hsum : c - d + (c + d) = 2 * c := by ring
    have hhuge : |2 * c| < limit := by
      refine lt_limit ?_
      have h102 : (2 : ℚ) * 2 ^ (101 : ℤ) = 2 ^ (102 : ℤ) := (zpow_one_add₀ two_ne_zero 101).symm
      calc |2 * c| = 2 * |c| := by rw [abs_mul, abs_two]
        _ ≤ 2 ^ (102 : ℤ) := by linarith
        _ ≤ 2 ^ (1000 : ℤ) := zpow_le_zpow_right₀ one_le_two (by norm_num)
    have hfits : Representable (2 * c) := by
      obtain ⟨n, e, hn, he, hc⟩ := hc
      refine ⟨n, e + 1, hn, by omega, ?_⟩
      rw [hc, zpow_add_one₀ two_ne_zero]
      ring
    have h := hlow.add hhigh (by rw [hsum]; exact hhuge)
    rw [hsum] at h
    have hhalf : 2 * c / (2 : Nat) = c := by
      push_cast
      ring
    have htwo : Is (Float.ofInt (2 : Nat)) (2 : Nat) := is_ofInt (by norm_num)
    have hmiddle := (h.is hfits).div htwo (by norm_num) (by rw [hhalf]; exact hclimit)
    rw [hhalf] at hmiddle
    exact hmiddle.is hc

theorem levelFor_resolution {v : View Float} (hzoom : v.zoom ≤ maxZoom) :
    levelFor v.resolution = v.zoom := by
  have hall : ∀ z : Fin 29, levelFor (resolutionAt (z.val : ℤ) : Float) = (z.val : ℤ) := by
    decide +kernel
  exact hall ⟨v.zoom, Nat.lt_succ_of_le hzoom⟩

/-- A side that is exact needs pixels of the size that there are. -/
theorem needed_of_exact {v : View Float} (hzoom : v.zoom ≤ maxZoom) {n : Nat} (hn : 1 ≤ n)
    (hlt : n < 2 ^ 32) {side : Float} (hside : Is side (2 * v.toRat.halfSide n)) :
    side / Float.ofInt n = v.resolution := by
  have hne : (n : ℚ) ≠ 0 := by exact_mod_cast (by omega : n ≠ 0)
  have hres := is_resolution hzoom
  have hquotient := hside.div (is_ofInt (by omega)) hne
    (by rw [two_halfSide_div _ hn]; exact hres.abs_lt_limit)
  rw [two_halfSide_div _ hn] at hquotient
  refine (hquotient.is hres.representable).eq hres ?_
  show (resolutionAt (v.zoom : ℤ) : ℚ) ≠ 0
  rw [resolutionAt_rat]
  exact (mul_pos (by norm_num) (two_zpow_pos _)).ne'

/-- Two opposite sides of the box that need no rounding: their distance needs the pixels that there
are, and the center is in the middle. -/
theorem sides_of_exact {v : View Float} (hzoom : v.zoom ≤ maxZoom) {n : Nat}
    (hn : 1 ≤ n ∧ n < 2 ^ 32) {x low high : Float} (hx : x.isFinite = true)
    (hlow : Is low (Double.toRat x - v.toRat.halfSide n))
    (hhigh : Is high (Double.toRat x + v.toRat.halfSide n)) :
    ¬ high - low < Float.ofInt 0 ∧ (high - low) / Float.ofInt n = v.resolution ∧
      ((low + high) / Float.ofInt (2 : Nat) == x) = true := by
  have hpos := halfSide_rat_pos v.toRat hn.1
  have hx' := is_toRat hx
  obtain ⟨hside, hmiddle⟩ := is_middle hx'.representable hx'.abs_lt_limit hpos
    (halfSide_rat_lt v.toRat hn.2) (short_halfSide hzoom hn.2).2 hlow hhigh
  exact ⟨hside.not_lt_zero (by linarith), needed_of_exact hzoom hn.1 hn.2 hside, hmiddle.beq hx'⟩

/-- **Fitting a view to its own box keeps it,** if the sides of the box need no rounding. Only a
zero in the center may change its sign. -/
theorem fit_bounds_of_exact {v : View Float} (h : v.Allowed) (hfinite : v.bounds.isFinite = true)
    (hexact : v.bounds.toRat = v.toRat.bounds) :
    ∃ center, v.fit v.bounds = (v.withCenter center, true) ∧
      Coord.agrees center v.center = true := by
  obtain ⟨hzoom, hwidth, hheight⟩ := h
  obtain ⟨hleft, hbottom, hright, htop⟩ := Bounds.isFinite_iff.1 hfinite
  obtain ⟨hleft', hbottom', hright', htop'⟩ := Bounds.mk.inj hexact
  have hx : v.center.x.isFinite = true :=
    isFinite_of_sub (is_halfSide hzoom hwidth.2).isFinite hleft
  have hy : v.center.y.isFinite = true :=
    isFinite_of_sub (is_halfSide hzoom hheight.2).isFinite hbottom
  obtain ⟨hordered, hneeded, hx⟩ :=
    sides_of_exact hzoom hwidth hx ⟨hleft, hleft'⟩ ⟨hright, hright'⟩
  obtain ⟨hordered', hneeded', hy⟩ :=
    sides_of_exact hzoom hheight hy ⟨hbottom, hbottom'⟩ ⟨htop, htop'⟩
  have hfits : fits v.bounds = true := by
    rw [fits, hfinite, Bool.true_and, Bool.and_eq_true, Bool.not_eq_true', Bool.not_eq_true',
      decide_eq_false_iff_not, decide_eq_false_iff_not]
    exact ⟨hordered, hordered'⟩
  refine ⟨_, fit_eq_of_needed hfits hneeded hneeded' (levelFor_resolution hzoom) hzoom, ?_⟩
  rw [Coord.agrees, Bool.and_eq_true]
  exact ⟨hx, hy⟩

/-- **The box of a view is finite if its center is.** -/
theorem isFinite_bounds {v : View Float} (h : v.Allowed)
    (hcenter : Coord.isFinite v.center = true) : v.bounds.isFinite = true := by
  obtain ⟨hzoom, hwidth, hheight⟩ := h
  obtain ⟨hx, hy⟩ := Coord.isFinite_iff.1 hcenter
  have hsmall : ∀ {n : Nat}, 1 ≤ n → n < 2 ^ 32 → |v.toRat.halfSide n| < 2 ^ (970 : ℤ) := by
    intro n hn hlt
    rw [abs_of_pos (halfSide_rat_pos v.toRat hn)]
    exact (halfSide_rat_lt v.toRat hlt).trans (zpow_lt_zpow_right₀ one_lt_two (by norm_num))
  obtain ⟨hleft, hright⟩ :=
    (is_toRat hx).step (is_halfSide hzoom hwidth.2) (hsmall hwidth.1 hwidth.2)
  obtain ⟨hbottom, htop⟩ :=
    (is_toRat hy).step (is_halfSide hzoom hheight.2) (hsmall hheight.1 hheight.2)
  exact Bounds.isFinite_iff.2 ⟨hleft, hbottom, hright, htop⟩

end View
end Atlas
