import Atlas.Proofs.Double.Zeros
import Atlas.Proofs.Geometry.Boxes

/-!
# Least boxes

A box that hugs some positions is the least one that contains them all. The order of the positions
does not matter for it, but for the sign of a zero: where a side goes through zeros of both signs,
the first one decides. A view that is fitted to either box is the same up to the sign of a zero.

## Main statements

* `Bounds.Hugs.isLeastAround` — a box that hugs positions is the least one around them
* `Bounds.Hugs.same` — positions in another order have the same box
* `View.same_fit` — a view is fitted to the same boxes in the same way
-/

namespace Atlas

open Double (same_of_le_of_le)

section
variable {a a' b b' : Float} {xs ys : List Float}

/-- The least ones of two lists with the same doubles are the same. -/
theorem IsLeastOf.same (hxs : AllFinite xs) (hmem : ∀ x, x ∈ xs ↔ x ∈ ys) (ha : IsLeastOf a xs)
    (hb : IsLeastOf b ys) : Double.Same a b := by
  have hbx := (hmem b).2 hb.1
  exact same_of_le_of_le (hxs a ha.1) (hxs b hbx) (ha.2 b hbx) (hb.2 a ((hmem a).1 ha.1))

theorem IsGreatestOf.same (hxs : AllFinite xs) (hmem : ∀ x, x ∈ xs ↔ x ∈ ys)
    (ha : IsGreatestOf a xs) (hb : IsGreatestOf b ys) : Double.Same a b := by
  have hbx := (hmem b).2 hb.1
  exact same_of_le_of_le (hxs a ha.1) (hxs b hbx) (hb.2 a ((hmem a).1 ha.1)) (ha.2 b hbx)

theorem Double.Same.scalar_max (ha : Double.Same a a') (hb : Double.Same b b') :
    Double.Same (Scalar.max a b) (Scalar.max a' b') := by
  rw [Scalar.max, Scalar.max]
  by_cases hlt : a < b
  · rw [if_pos hlt, if_pos ((ha.lt_iff hb).1 hlt)]
    exact hb
  · rw [if_neg hlt, if_neg (fun h => hlt ((ha.lt_iff hb).2 h))]
    by_cases hle : a ≤ a
    · rw [if_pos hle, if_pos ((ha.le_iff ha).1 hle)]
      exact ha
    · rw [if_neg hle, if_neg (fun h => hle ((ha.le_iff ha).2 h))]
      exact hb

end

namespace Bounds

/-- The same box up to the signs of zeros. -/
structure Same (b c : Bounds Float) : Prop where
  left : Double.Same b.left c.left
  bottom : Double.Same b.bottom c.bottom
  right : Double.Same b.right c.right
  top : Double.Same b.top c.top

theorem Same.center {b c : Bounds Float} (h : b.Same c) :
    Double.Same b.center.x c.center.x ∧ Double.Same b.center.y c.center.y := by
  rw [Bounds.center, Bounds.center]
  exact ⟨(h.left.add h.right).div _, (h.bottom.add h.top).div _⟩

/-- The least box that contains some positions: each of its sides goes through one of them, and
every box that contains them contains the box. -/
structure IsLeastAround (b : Bounds Float) (ps : List Coord) : Prop where
  contains : ∀ p ∈ ps, b.contains (ofPosition p) = true
  least : ∀ c : Bounds Float, (∀ p ∈ ps, c.contains (ofPosition p) = true) → c.contains b = true
  left : ∃ p ∈ ps, p.x = b.left
  bottom : ∃ p ∈ ps, p.y = b.bottom
  right : ∃ p ∈ ps, p.x = b.right
  top : ∃ p ∈ ps, p.y = b.top

theorem contains_iff {b c : Bounds Float} : b.contains c = true ↔
    b.left ≤ c.left ∧ b.bottom ≤ c.bottom ∧ c.right ≤ b.right ∧ c.top ≤ b.top := by
  simp only [contains, Bool.and_eq_true, decide_eq_true_eq, and_assoc]

section
variable {b c : Bounds Float} {ps qs : List Coord}

theorem BoxOf.eq_nil (h : BoxOf ps none) : ps = [] := by
  cases h with
  | empty => rfl

theorem BoxOf.eq_none {box : Option (Bounds Float)} (h : BoxOf [] box) : box = none := by
  cases h with
  | empty => rfl
  | box h => cases h.left.1

/-- **A box that hugs positions is the least one around them.** -/
theorem Hugs.isLeastAround (h : b.Hugs ps) : b.IsLeastAround ps := by
  obtain ⟨pl, hpl, hleft⟩ := List.mem_map.1 h.left.1
  obtain ⟨pb, hpb, hbottom⟩ := List.mem_map.1 h.bottom.1
  obtain ⟨pr, hpr, hright⟩ := List.mem_map.1 h.right.1
  obtain ⟨pt, hpt, htop⟩ := List.mem_map.1 h.top.1
  refine ⟨fun p hp => ?_, fun c hc => ?_, ⟨pl, hpl, hleft⟩, ⟨pb, hpb, hbottom⟩, ⟨pr, hpr, hright⟩,
    ⟨pt, hpt, htop⟩⟩
  · have hx := List.mem_map_of_mem (f := Position.x) hp
    have hy := List.mem_map_of_mem (f := Position.y) hp
    exact contains_iff.2 ⟨h.left.2 _ hx, h.bottom.2 _ hy, h.right.2 _ hx, h.top.2 _ hy⟩
  · rw [contains_iff, ← hleft, ← hbottom, ← hright, ← htop]
    exact ⟨(contains_iff.1 (hc pl hpl)).1, (contains_iff.1 (hc pb hpb)).2.1,
      (contains_iff.1 (hc pr hpr)).2.2.1, (contains_iff.1 (hc pt hpt)).2.2.2⟩

/-- **Positions in another order have the same box.** -/
theorem Hugs.same (hfinite : ∀ p ∈ ps, p.isFinite = true) (hperm : ps.Perm qs) (hb : b.Hugs ps)
    (hc : c.Hugs qs) : b.Same c where
  left := hb.left.same (allFinite_x hfinite) (fun _ => (hperm.map Position.x).mem_iff) hc.left
  bottom := hb.bottom.same (allFinite_y hfinite) (fun _ => (hperm.map Position.y).mem_iff) hc.bottom
  right := hb.right.same (allFinite_x hfinite) (fun _ => (hperm.map Position.x).mem_iff) hc.right
  top := hb.top.same (allFinite_y hfinite) (fun _ => (hperm.map Position.y).mem_iff) hc.top

end
end Bounds

namespace View

/-- The same view up to the signs of zeros. -/
structure Same (v w : View Float) : Prop where
  x : Double.Same v.center.x w.center.x
  y : Double.Same v.center.y w.center.y
  zoom : v.zoom = w.zoom
  width : v.width = w.width
  height : v.height = w.height

theorem Same.refl (v : View Float) : v.Same v := ⟨.refl _, .refl _, rfl, rfl, rfl⟩

theorem levelFor_same {needed needed' : Float} (h : Double.Same needed needed') :
    levelFor needed = levelFor needed' := by
  cases h with
  | refl => rfl
  | zeros hx hy =>
    -- a box without width and height fits at every level
    have hzero : (Float.ofInt 0 == 0) = true := by decide +kernel
    have hself : Float.ofInt 0 ≤ Float.ofInt 0 := by decide +kernel
    have hle : ∀ {x : Float}, (x == 0) = true → x ≤ Scalar.ofInt 0 := fun hx =>
      ((Double.Same.zeros hx hzero).le_iff (.refl (Float.ofInt 0))).2 hself
    rw [levelFor, levelFor, if_pos (hle hx), if_pos (hle hy)]

theorem neededResolution_same (v : View Float) {b c : Bounds Float} (h : b.Same c) :
    Double.Same (v.neededResolution b) (v.neededResolution c) := by
  rw [neededResolution, neededResolution, Bounds.width, Bounds.width, Bounds.height, Bounds.height]
  exact ((h.right.sub h.left).div _).scalar_max ((h.top.sub h.bottom).div _)

/-- The view that is fitted to a box, part by part. -/
theorem fit_parts (v : View Float) {b : Bounds Float} (hb : fits b = true) :
    (v.fit b).1.center = b.center ∧ (v.fit b).1.zoom = clampZoom (levelFor (v.neededResolution b)) ∧
      (v.fit b).1.width = v.width ∧ (v.fit b).1.height = v.height := by
  rw [fit, if_pos hb]
  exact ⟨rfl, rfl, rfl, rfl⟩

/-- **A view is fitted to the same boxes in the same way.** -/
theorem same_fit (v : View Float) {b c : Bounds Float} (hb : fits b = true) (hc : fits c = true)
    (h : b.Same c) : (v.fit b).1.Same (v.fit c).1 := by
  obtain ⟨hcenter, hzoom, hwidth, hheight⟩ := v.fit_parts hb
  obtain ⟨hcenter', hzoom', hwidth', hheight'⟩ := v.fit_parts hc
  obtain ⟨hx, hy⟩ := h.center
  refine ⟨?_, ?_, ?_, hwidth.trans hwidth'.symm, hheight.trans hheight'.symm⟩
  · rw [hcenter, hcenter']
    exact hx
  · rw [hcenter, hcenter']
    exact hy
  · rw [hzoom, hzoom', levelFor_same (neededResolution_same v h)]

end View
end Atlas
