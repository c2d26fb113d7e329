import Atlas.Proofs.Double.Comparing
import Atlas.Proofs.Double.Order

/-!
# Doubles up to the sign of a zero

There are two zeros, and comparing does not tell them apart. Sums and differences do not do so
either, unless they are zeros themselves, and then they differ by their sign at most. A quotient
tells the zeros apart only if it divides by one. So what is computed from doubles that are the same
up to the sign of a zero is the same up to the sign of a zero.

## Main statements

* `Double.same_of_le_of_le` — finite doubles that are below each other are the same
* `Double.Same.lt_iff`, `Double.Same.le_iff` — comparing does not see the sign of a zero
* `Double.Same.add`, `Double.Same.sub`, `Double.Same.div` — the operations keep the sameness
-/

namespace Atlas.Double

open Float.Model
open Float.Model.UnpackedFloat

/-- The same double up to the sign of a zero. -/
inductive Same : Float → Float → Prop where
  | refl (x : Float) : Same x x
  | zeros {x y : Float} (hx : (x == 0) = true) (hy : (y == 0) = true) : Same x y

/-- The same unpacked double up to the sign of a zero. -/
inductive SameParts : UnpackedFloat → UnpackedFloat → Prop where
  | refl (u : UnpackedFloat) : SameParts u u
  | zeros (sign sign' : UnpackedFloat.Sign) : SameParts (.zero sign) (.zero sign')

theorem beq_zero_iff {x : Float} : (x == 0) = true ↔ ∃ sign, x.toModel.unpack = .zero sign := by
  have hzero : (0 : Float).toModel.unpack = .zero .positive := rfl
  show UnpackedFloat.beq x.toModel.unpack (0 : Float).toModel.unpack = true ↔ _
  rw [hzero]
  generalize x.toModel.unpack = u
  cases u with
  | zero sign => exact iff_of_true rfl ⟨sign, rfl⟩
  | notANumber => exact iff_of_false Bool.noConfusion (fun ⟨_, h⟩ => nomatch h)
  | infinity sign | finite sign =>
    refine iff_of_false ?_ (fun ⟨_, h⟩ => nomatch h)
    cases sign with
    | positive | negative => exact Bool.noConfusion

theorem same_iff {x y : Float} : Same x y ↔ SameParts x.toModel.unpack y.toModel.unpack := by
  constructor
  · intro h
    cases h with
    | refl => exact .refl _
    | zeros hx hy =>
      obtain ⟨sign, hx⟩ := beq_zero_iff.1 hx
      obtain ⟨sign', hy⟩ := beq_zero_iff.1 hy
      rw [hx, hy]
      exact .zeros sign sign'
  · intro h
    generalize hx : x.toModel.unpack = u at h
    generalize hy : y.toModel.unpack = v at h
    cases h with
    | refl =>
      rw [eq_of_unpack_eq (hx.trans hy.symm)]
      exact .refl y
    | zeros sign sign' => exact .zeros (beq_zero_iff.2 ⟨sign, hx⟩) (beq_zero_iff.2 ⟨sign', hy⟩)

/-! ## Operations on the parts -/

namespace SameParts

variable {u u' v v' : UnpackedFloat}

theorem pack (h : SameParts u v) :
    SameParts (Float.Model.pack u).unpack (Float.Model.pack v).unpack := by
  have hzero : ∀ sign, (Float.Model.pack (.zero sign)).unpack = .zero sign := by
    intro sign
    cases sign with
    | positive | negative => rfl
  cases h with
  | refl => exact .refl _
  | zeros sign sign' =>
    rw [hzero, hzero]
    exact .zeros sign sign'

theorem equivalence : Equivalence SameParts where
  refl := .refl
  symm := by
    intro u v h
    cases h with
    | refl => exact .refl u
    | zeros sign sign' => exact .zeros sign' sign
  trans := by
    intro u v w huv hvw
    cases huv with
    | refl => exact hvw
    | zeros sign =>
      cases hvw with
      | refl => exact .zeros sign _
      | zeros _ sign' => exact .zeros sign sign'

/-- A function of two doubles respects the sameness if it does so where one of them is zero. -/
theorem congr₂ {α : Type} {R : α → α → Prop} (hR : Equivalence R)
    {f : UnpackedFloat → UnpackedFloat → α}
    (hleft : ∀ sign sign' v, R (f (.zero sign) v) (f (.zero sign') v))
    (hright : ∀ sign sign' u, R (f u (.zero sign)) (f u (.zero sign')))
    (hu : SameParts u u') (hv : SameParts v v') : R (f u v) (f u' v') := by
  have hfirst : R (f u v) (f u' v) := by
    cases hu with
    | refl => exact hR.refl _
    | zeros sign sign' => exact hleft sign sign' v
  refine hR.trans hfirst ?_
  cases hv with
  | refl => exact hR.refl _
  | zeros sign sign' => exact hright sign sign' u'

theorem add_zeros (s s' t t' : UnpackedFloat.Sign) :
    SameParts (UnpackedFloat.add Format.binary64 (.zero s) (.zero t))
      (UnpackedFloat.add Format.binary64 (.zero s') (.zero t')) := by
  have hzero : ∀ s t : UnpackedFloat.Sign,
      ∃ r, UnpackedFloat.add Format.binary64 (.zero s) (.zero t) = .zero r := by
    intro s t
    rw [UnpackedFloat.add]
    split
    · exact ⟨_, rfl⟩
    · exact ⟨_, rfl⟩
  obtain ⟨r, hr⟩ := hzero s t
  obtain ⟨r', hr'⟩ := hzero s' t'
  rw [hr, hr']
  exact .zeros r r'

theorem add (hu : SameParts u u') (hv : SameParts v v') :
    SameParts (UnpackedFloat.add Format.binary64 u v)
      (UnpackedFloat.add Format.binary64 u' v') := by
  refine congr₂ equivalence (f := UnpackedFloat.add Format.binary64) (fun s s' v => ?_)
    (fun s s' u => ?_) hu hv
  · cases v with
    | zero t => exact add_zeros s s' t t
    | notANumber | infinity | finite => exact .refl _
  · cases u with
    | zero t => exact add_zeros t t s s'
    | notANumber | infinity | finite => exact .refl _

theorem neg (hu : SameParts u u') : SameParts u.neg u'.neg := by
  cases hu with
  | refl => exact .refl _
  | zeros sign sign' => exact .zeros (-sign) (-sign')

theorem sub (hu : SameParts u u') (hv : SameParts v v') :
    SameParts (UnpackedFloat.sub Format.binary64 u v)
      (UnpackedFloat.sub Format.binary64 u' v') := by
  rw [sub_eq_add, sub_eq_add]
  exact hu.add hv.neg

/-- Zeros as dividends lead to zeros, or to no number at all. -/
theorem div (hu : SameParts u u') (v : UnpackedFloat) :
    SameParts (UnpackedFloat.div Format.binary64 u v) (UnpackedFloat.div Format.binary64 u' v) := by
  cases hu with
  | refl => exact .refl _
  | zeros s s' =>
    cases v with
    | infinity | finite => exact .zeros _ _
    | notANumber | zero => exact .refl _

/-- Comparing does not see the sign of a zero. -/
theorem compare (hu : SameParts u u') (hv : SameParts v v') : u.compare v = u'.compare v' := by
  have hleft : ∀ sign sign' v, (UnpackedFloat.zero sign).compare v =
      (UnpackedFloat.zero sign').compare v := by
    intro sign sign' v
    cases v with
    | notANumber | zero => rfl
    | infinity s | finite s =>
      cases s with
      | positive | negative => rfl
  have hright : ∀ sign sign' (u : UnpackedFloat),
      u.compare (.zero sign) = u.compare (.zero sign') := by
    intro sign sign' u
    rw [compare_swap (.zero sign), hleft sign sign', ← compare_swap]
  exact congr₂ eq_equivalence hleft hright hu hv

end SameParts

/-! ## Operations -/

section
variable {x x' y y' : Float}

theorem Same.add (hx : Same x x') (hy : Same y y') : Same (x + y) (x' + y') :=
  same_iff.2 ((same_iff.1 hx).add (same_iff.1 hy)).pack

theorem Same.sub (hx : Same x x') (hy : Same y y') : Same (x - y) (x' - y') :=
  same_iff.2 ((same_iff.1 hx).sub (same_iff.1 hy)).pack

theorem Same.div (hx : Same x x') (y : Float) : Same (x / y) (x' / y) :=
  same_iff.2 ((same_iff.1 hx).div y.toModel.unpack).pack

theorem Same.lt_iff (hx : Same x x') (hy : Same y y') : x < y ↔ x' < y' := by
  show decide (x.toModel < y.toModel) = true ↔ decide (x'.toModel < y'.toModel) = true
  rw [decide_eq_true_eq, decide_eq_true_eq]
  show UnpackedFloat.lt _ _ = true ↔ UnpackedFloat.lt _ _ = true
  rw [UnpackedFloat.lt, UnpackedFloat.lt, (same_iff.1 hx).compare (same_iff.1 hy)]

theorem Same.le_iff (hx : Same x x') (hy : Same y y') : x ≤ y ↔ x' ≤ y' := by
  show decide (x.toModel ≤ y.toModel) = true ↔ decide (x'.toModel ≤ y'.toModel) = true
  rw [decide_eq_true_eq, decide_eq_true_eq]
  show UnpackedFloat.le _ _ = true ↔ UnpackedFloat.le _ _ = true
  rw [UnpackedFloat.le, UnpackedFloat.le, (same_iff.1 hx).compare (same_iff.1 hy)]

/-- **Finite doubles that are below each other are the same.** -/
theorem same_of_le_of_le (hx : x.isFinite = true) (hy : y.isFinite = true) (hxy : x ≤ y)
    (hyx : y ≤ x) : Same x y := by
  have hvalue : toRat x = toRat y := le_antisymm ((le_iff hx hy).1 hxy) ((le_iff hy hx).1 hyx)
  by_cases hzero : toRat x = 0
  · exact .zeros (beq_zero_iff.2 ((proper_unpack hx).eq_zero hzero))
      (beq_zero_iff.2 ((proper_unpack hy).eq_zero (hvalue.symm.trans hzero)))
  · rw [(is_toRat hx).eq ⟨hy, hvalue.symm⟩ hzero]
    exact .refl y

end
end Atlas.Double
