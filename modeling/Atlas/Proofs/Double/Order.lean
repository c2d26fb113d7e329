import Atlas.Proofs.Double.Finite

/-!
# The order of doubles

Doubles that are numbers are in order one way or the other, infinite ones included. What is not a
number is in order with nothing.

## Main statements

* `Double.le_of_not_lt` — of two numbers, one that is not below the other is above it or equal
-/

namespace Atlas.Double

open Float.Model
open Float.Model.UnpackedFloat

/-- Comparing the other way round gives the opposite answer. -/
theorem compare_swap (u v : UnpackedFloat) : v.compare u = (u.compare v).map Ordering.swap := by
  have hfinite : ∀ (e e' : Int) (m m' : Nat), (compare e' e).then (compare m' m) =
      ((compare e e').then (compare m m')).swap := fun e e' m m' => by
    rw [Ordering.swap_then, Int.compare_swap, Nat.compare_swap]
  have hsign : ∀ s s' : UnpackedFloat.Sign, compare s' s = (compare s s').swap := by decide
  cases u with
  | notANumber => cases v <;> rfl
  | infinity s =>
    cases v with
    | infinity s' => exact congrArg some (hsign s s')
    | notANumber => cases s <;> rfl
    | zero s' | finite s' => cases s <;> rfl
  | zero s =>
    cases v with
    | infinity s' => cases s' <;> rfl
    | notANumber | zero => rfl
    | finite s' => cases s' <;> rfl
  | finite s m e =>
    cases v with
    | infinity s' => cases s <;> cases s' <;> rfl
    | notANumber => cases s <;> rfl
    | zero s' => cases s <;> rfl
    | finite s' m' e' =>
      cases s <;> cases s'
      · exact congrArg some (congrArg Ordering.swap (hfinite e e' m m'))
      · rfl
      · rfl
      · exact congrArg some (hfinite e e' m m')

/-- Numbers can be compared. -/
theorem compare_ne_none {u v : UnpackedFloat} (hu : u.isNaN = false) (hv : v.isNaN = false) :
    u.compare v ≠ none := by
  fun_cases UnpackedFloat.compare u v
  case case1 => cases hu
  case case2 => cases hv
  all_goals exact Option.some_ne_none _

/-- **Of two numbers, one that is not below the other is above it or equal.** -/
theorem le_of_not_lt {x y : Float} (hx : x.isNaN = false) (hy : y.isNaN = false) (h : ¬ x < y) :
    y ≤ x := by
  have hx' : x.toModel.unpack.isNaN = false := hx
  have hy' : y.toModel.unpack.isNaN = false := hy
  obtain ⟨o, ho⟩ := Option.ne_none_iff_exists'.1 (compare_ne_none hx' hy')
  have hne : o ≠ .lt := by
    rintro rfl
    have hlt : x.toModel.unpack.lt y.toModel.unpack = true := by
      rw [UnpackedFloat.lt, ho]
      rfl
    exact h (decide_eq_true hlt)
  have hle : y.toModel.unpack.le x.toModel.unpack = true := by
    rw [UnpackedFloat.le, compare_swap, ho]
    cases o with
    | lt => exact absurd rfl hne
    | eq | gt => rfl
  exact decide_eq_true hle

end Atlas.Double
