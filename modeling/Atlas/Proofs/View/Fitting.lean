import Atlas.Proofs.Double.Positive
import Atlas.View

/-!
# Fitting a view

Fitting divides by the sides of the view, by the size of a pixel that the box needs, and by a few
constants. None of them is zero if the view has a size, so what a division by zero would give does
not matter: fitting is the same for any answers to such divisions.

## Main statements

* `View.fit_withZeroDivision` — no view with a size divides by zero when it is fitted
-/

namespace Atlas

/-- The doubles with other answers to divisions by zero. -/
@[reducible] def Scalar.withZeroDivision (answer : Float → Float) : Scalar Float :=
  { instScalarFloat with div := fun x y => if y == 0 then answer x else x / y }

variable (answer : Float → Float)

theorem Scalar.withZeroDivision_div (x : Float) {y : Float} (hy : (y == 0) = false) :
    (withZeroDivision answer).div x y = x / y := by
  show (if y == 0 then answer x else x / y) = x / y
  rw [hy]
  rfl

theorem Bounds.center_withZeroDivision (b : Bounds Float) :
    @Bounds.center Float (Scalar.withZeroDivision answer) b = b.center := by
  have htwo : (Float.ofInt (2 : Nat) == 0) = false := Double.ofInt_ne_zero (by decide)
  exact congrArg₂ Position.mk (Scalar.withZeroDivision_div answer _ htwo)
    (Scalar.withZeroDivision_div answer _ htwo)

namespace View

theorem maxResolution_withZeroDivision :
    @maxResolution Float (Scalar.withZeroDivision answer) = maxResolution :=
  Scalar.withZeroDivision_div answer _ (Double.ofInt_ne_zero (by decide))

/-- The size of a pixel that a box needs is computed by dividing by the sides of the view. -/
theorem neededResolution_withZeroDivision {v : View Float} (hwidth : 1 ≤ v.width)
    (hheight : 1 ≤ v.height) (b : Bounds Float) :
    @neededResolution Float (Scalar.withZeroDivision answer) v b = v.neededResolution b := by
  have hw := Scalar.withZeroDivision_div answer b.width (Double.ofInt_ne_zero hwidth)
  have hh := Scalar.withZeroDivision_div answer b.height (Double.ofInt_ne_zero hheight)
  show Scalar.max ((Scalar.withZeroDivision answer).div b.width (Float.ofInt v.width))
    ((Scalar.withZeroDivision answer).div b.height (Float.ofInt v.height)) = _
  rw [hw, hh]
  rfl

/-- The size of a pixel is a divisor only if it is not zero or less. -/
theorem levelFor_withZeroDivision (needed : Float) :
    @levelFor Float (Scalar.withZeroDivision answer) needed = levelFor needed := by
  show (if needed ≤ Float.ofInt 0 then (maxZoom : Int)
      else floatFloorLog2 ((Scalar.withZeroDivision answer).div
        (@maxResolution Float (Scalar.withZeroDivision answer)) needed)) =
    if needed ≤ Float.ofInt 0 then (maxZoom : Int) else floatFloorLog2 (maxResolution / needed)
  split
  · rfl
  · next hpositive =>
    have hne : (needed == 0) = false := by
      refine Bool.eq_false_iff.2 (fun hzero => hpositive ?_)
      exact Double.le_of_beq hzero
    rw [Scalar.withZeroDivision_div answer _ hne, maxResolution_withZeroDivision]

/-- **No view with a size divides by zero when it is fitted:** the answer is the same for any
answers to divisions by zero. -/
theorem fit_withZeroDivision {v : View Float} (hwidth : 1 ≤ v.width) (hheight : 1 ≤ v.height)
    (b : Bounds Float) : @fit Float (Scalar.withZeroDivision answer) v b = v.fit b := by
  show (if fits b then
      ((v.withCenter (@Bounds.center Float (Scalar.withZeroDivision answer) b)).withZoom
        (@levelFor Float (Scalar.withZeroDivision answer)
          (@neededResolution Float (Scalar.withZeroDivision answer) v b)), true)
      else (v, false)) = _
  rw [Bounds.center_withZeroDivision, neededResolution_withZeroDivision answer hwidth hheight,
    levelFor_withZeroDivision]
  rfl

end View
end Atlas
