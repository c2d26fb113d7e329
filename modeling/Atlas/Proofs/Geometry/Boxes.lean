import Atlas.Proofs.Double.Comparing
import Atlas.View

/-!
# Boxes around positions

The box around some positions is the least one that has them all inside: each side goes through
one of the positions, and none lies beyond it. A box around further positions, and the union of two
boxes, are of this kind again. Such a box has its sides in order, so a view can be fitted to it.

## Main statements

* `Bounds.boxOf_around?` — the box around positions touches them from outside
* `Bounds.Hugs.union` — the union of two boxes hugs the positions of both
* `Bounds.Hugs.fits` — a box that hugs finite positions can be shown
-/

namespace Atlas

open Double

/-! ## Least and greatest coordinates -/

/-- A double is one of a list, and none of the list is below it. -/
def IsLeastOf (x : Float) (xs : List Float) : Prop := x ∈ xs ∧ ∀ y ∈ xs, x ≤ y

/-- A double is one of a list, and none of the list is above it. -/
def IsGreatestOf (x : Float) (xs : List Float) : Prop := x ∈ xs ∧ ∀ y ∈ xs, y ≤ x

/-- All doubles of a list are finite. -/
def AllFinite (xs : List Float) : Prop := ∀ x ∈ xs, x.isFinite = true

section
variable {a b : Float} {xs ys : List Float}

theorem le_trans_of_isFinite {x y z : Float} (hx : x.isFinite = true) (hy : y.isFinite = true)
    (hz : z.isFinite = true) (hxy : x ≤ y) (hyz : y ≤ z) : x ≤ z :=
  (le_iff hx hz).2 (((le_iff hx hy).1 hxy).trans ((le_iff hy hz).1 hyz))

/-- Of two least coordinates the lesser one is the least of both lists. -/
theorem IsLeastOf.append (hxs : AllFinite xs) (hys : AllFinite ys) (ha : IsLeastOf a xs)
    (hb : IsLeastOf b ys) : IsLeastOf (if b < a then b else a) (xs ++ ys) := by
  have hfa := hxs a ha.1
  have hfb := hys b hb.1
  split
  · next hlt =>
    have hle : b ≤ a := (le_iff hfb hfa).2 ((lt_iff hfb hfa).1 hlt).le
    refine ⟨List.mem_append_right _ hb.1, fun z hz => ?_⟩
    rcases List.mem_append.1 hz with hz | hz
    · exact le_trans_of_isFinite hfb hfa (hxs z hz) hle (ha.2 z hz)
    · exact hb.2 z hz
  · next hnot =>
    have hle : a ≤ b := (not_lt_iff hfb hfa).1 hnot
    refine ⟨List.mem_append_left _ ha.1, fun z hz => ?_⟩
    rcases List.mem_append.1 hz with hz | hz
    · exact ha.2 z hz
    · exact le_trans_of_isFinite hfa hfb (hys z hz) hle (hb.2 z hz)

/-- Of two greatest coordinates the greater one is the greatest of both lists. -/
theorem IsGreatestOf.append (hxs : AllFinite xs) (hys : AllFinite ys) (ha : IsGreatestOf a xs)
    (hb : IsGreatestOf b ys) : IsGreatestOf (if a < b then b else a) (xs ++ ys) := by
  have hfa := hxs a ha.1
  have hfb := hys b hb.1
  split
  · next hlt =>
    have hle : a ≤ b := (le_iff hfa hfb).2 ((lt_iff hfa hfb).1 hlt).le
    refine ⟨List.mem_append_right _ hb.1, fun z hz => ?_⟩
    rcases List.mem_append.1 hz with hz | hz
    · exact le_trans_of_isFinite (hxs z hz) hfa hfb (ha.2 z hz) hle
    · exact hb.2 z hz
  · next hnot =>
    have hle : b ≤ a := (not_lt_iff hfa hfb).1 hnot
    refine ⟨List.mem_append_left _ ha.1, fun z hz => ?_⟩
    rcases List.mem_append.1 hz with hz | hz
    · exact ha.2 z hz
    · exact le_trans_of_isFinite (hys z hz) hfb hfa (hb.2 z hz) hle

/-- A finite double is in order with itself, so only the order of the two decides. -/
theorem scalar_min_of_isFinite (ha : a.isFinite = true) :
    Scalar.min a b = if b < a then b else a := by
  rw [Scalar.min, if_pos ((le_iff ha ha).2 le_rfl)]

theorem scalar_max_of_isFinite (ha : a.isFinite = true) :
    Scalar.max a b = if a < b then b else a := by
  rw [Scalar.max, if_pos ((le_iff ha ha).2 le_rfl)]

theorem isLeastOf_singleton (ha : a.isFinite = true) : IsLeastOf a [a] :=
  ⟨List.mem_cons_self, fun _ hy => List.mem_singleton.1 hy ▸ (le_iff ha ha).2 le_rfl⟩

theorem isGreatestOf_singleton (ha : a.isFinite = true) : IsGreatestOf a [a] :=
  ⟨List.mem_cons_self, fun _ hy => List.mem_singleton.1 hy ▸ (le_iff ha ha).2 le_rfl⟩

end

namespace Bounds

/-! ## Boxes that hug positions -/

/-- A box hugs some positions: each side goes through one of them, and none lies beyond it. -/
structure Hugs (b : Bounds Float) (ps : List Coord) : Prop where
  left : IsLeastOf b.left (ps.map Position.x)
  bottom : IsLeastOf b.bottom (ps.map Position.y)
  right : IsGreatestOf b.right (ps.map Position.x)
  top : IsGreatestOf b.top (ps.map Position.y)

/-- The box of some positions: none if there are no positions, and else one that hugs them. -/
inductive BoxOf : List Coord → Option (Bounds Float) → Prop where
  | empty : BoxOf [] none
  | box {ps : List Coord} {b : Bounds Float} (h : b.Hugs ps) : BoxOf ps (some b)

section
variable {b c : Bounds Float} {ps qs : List Coord} {p : Coord}

theorem BoxOf.hugs (h : BoxOf ps (some b)) : b.Hugs ps := by
  cases h with
  | box h => exact h

theorem allFinite_x (h : ∀ p ∈ ps, p.isFinite = true) : AllFinite (ps.map Position.x) := by
  intro x hx
  obtain ⟨p, hp, rfl⟩ := List.mem_map.1 hx
  exact (Coord.isFinite_iff.1 (h p hp)).1

theorem allFinite_y (h : ∀ p ∈ ps, p.isFinite = true) : AllFinite (ps.map Position.y) := by
  intro y hy
  obtain ⟨p, hp, rfl⟩ := List.mem_map.1 hy
  exact (Coord.isFinite_iff.1 (h p hp)).2

theorem hugs_ofPosition (hp : p.isFinite = true) : (ofPosition p).Hugs [p] where
  left := isLeastOf_singleton (Coord.isFinite_iff.1 hp).1
  bottom := isLeastOf_singleton (Coord.isFinite_iff.1 hp).2
  right := isGreatestOf_singleton (Coord.isFinite_iff.1 hp).1
  top := isGreatestOf_singleton (Coord.isFinite_iff.1 hp).2

/-- **The union of two boxes hugs the positions of both.** -/
theorem Hugs.union (hps : ∀ p ∈ ps, p.isFinite = true) (hqs : ∀ p ∈ qs, p.isFinite = true)
    (hb : b.Hugs ps) (hc : c.Hugs qs) : (b.union c).Hugs (ps ++ qs) := by
  have hx := allFinite_x hps
  have hy := allFinite_y hps
  have hx' := allFinite_x hqs
  have hy' := allFinite_y hqs
  have hsides : b.union c = ⟨if c.left < b.left then c.left else b.left,
      if c.bottom < b.bottom then c.bottom else b.bottom,
      if b.right < c.right then c.right else b.right,
      if b.top < c.top then c.top else b.top⟩ := by
    rw [Bounds.union, scalar_min_of_isFinite (hx _ hb.left.1),
      scalar_min_of_isFinite (hy _ hb.bottom.1), scalar_max_of_isFinite (hx _ hb.right.1),
      scalar_max_of_isFinite (hy _ hb.top.1)]
  rw [hsides]
  refine ⟨?_, ?_, ?_, ?_⟩
  · rw [List.map_append]
    exact hb.left.append hx hx' hc.left
  · rw [List.map_append]
    exact hb.bottom.append hy hy' hc.bottom
  · rw [List.map_append]
    exact hb.right.append hx hx' hc.right
  · rw [List.map_append]
    exact hb.top.append hy hy' hc.top

/-- A box that was moved out to a position hugs it, too. -/
theorem Hugs.extendTo (hps : ∀ p ∈ ps, p.isFinite = true) (hp : p.isFinite = true)
    (hb : b.Hugs ps) : (b.extendTo p).Hugs (ps ++ [p]) := by
  have hx := allFinite_x hps
  have hy := allFinite_y hps
  have hunion : b.extendTo p = b.union (ofPosition p) := by
    rw [Bounds.union, scalar_min_of_isFinite (hx _ hb.left.1),
      scalar_min_of_isFinite (hy _ hb.bottom.1), scalar_max_of_isFinite (hx _ hb.right.1),
      scalar_max_of_isFinite (hy _ hb.top.1)]
    rfl
  rw [hunion]
  refine hb.union hps (fun q hq => ?_) (hugs_ofPosition hp)
  exact List.mem_singleton.1 hq ▸ hp

end

/-! ## Boxes around lists -/

theorem around?_concat (ps : List Coord) (p : Coord) :
    around? (ps ++ [p]) = some (((around? ps).map (extendTo · p)).getD (ofPosition p)) := by
  cases ps with
  | nil => rfl
  | cons q qs =>
    show some ((qs ++ [p]).foldl extendTo (ofPosition q)) = _
    rw [List.foldl_append]
    rfl

theorem unions?_concat (bs : List (Bounds Float)) (b : Bounds Float) :
    unions? (bs ++ [b]) = some (((unions? bs).map (union · b)).getD b) := by
  cases bs with
  | nil => rfl
  | cons c cs =>
    show some ((cs ++ [b]).foldl union c) = _
    rw [List.foldl_append]
    rfl

/-- **The box around finite positions hugs them.** -/
theorem boxOf_around? {ps : List Coord} (h : ∀ p ∈ ps, p.isFinite = true) :
    BoxOf ps (around? ps) := by
  induction ps using List.reverseRecOn with
  | nil => exact .empty
  | append_singleton ps p ih =>
    have hps : ∀ q ∈ ps, q.isFinite = true := fun q hq => h q (List.mem_append_left _ hq)
    have hp : p.isFinite = true := h p (List.mem_append_right _ List.mem_cons_self)
    have hbox := ih hps
    rw [around?_concat]
    generalize around? ps = o at hbox
    cases hbox with
    | empty => exact .box (hugs_ofPosition hp)
    | box hb => exact .box (hb.extendTo hps hp)

/-- **The union of the boxes around some lists hugs all positions.** Lists without positions do not
count. -/
theorem boxOf_unions? {pss : List (List Coord)} (h : ∀ ps ∈ pss, ∀ p ∈ ps, p.isFinite = true) :
    BoxOf pss.flatten (unions? (pss.filterMap around?)) := by
  induction pss using List.reverseRecOn with
  | nil => exact .empty
  | append_singleton pss ps ih =>
    have hpss : ∀ ps' ∈ pss, ∀ p ∈ ps', p.isFinite = true :=
      fun ps' hps' => h ps' (List.mem_append_left _ hps')
    have hps : ∀ p ∈ ps, p.isFinite = true := h ps (List.mem_append_right _ List.mem_cons_self)
    have hflat : ∀ p ∈ pss.flatten, p.isFinite = true := fun p hp => by
      obtain ⟨ps', hps', hp⟩ := List.mem_flatten.1 hp
      exact hpss ps' hps' p hp
    have hsplit : (pss ++ [ps]).filterMap around? =
        pss.filterMap around? ++ (around? ps).toList := by
      rw [List.filterMap_append]
      cases hps' : around? ps with
      | none | some => simp [hps']
    have hbox := ih hpss
    have hlast := boxOf_around? hps
    rw [hsplit, List.flatten_append, List.flatten_singleton]
    generalize around? ps = last at hlast
    cases hlast with
    | empty =>
      rw [List.append_nil, Option.toList_none, List.append_nil]
      exact hbox
    | box hc =>
      rw [Option.toList_some, unions?_concat]
      generalize unions? (pss.filterMap around?) = first at hbox
      generalize pss.flatten = all at hbox hflat
      cases hbox with
      | empty => exact .box hc
      | box hb => exact .box (hb.union hflat hps hc)

/-- Where there is a box, its sides are finite and in order, so a view can be fitted to it. -/
theorem Hugs.fits {b : Bounds Float} {ps : List Coord} (h : b.Hugs ps)
    (hps : ∀ p ∈ ps, p.isFinite = true) : View.fits b = true := by
  have hx := allFinite_x hps
  have hy := allFinite_y hps
  have hwidth : ¬ b.width < Scalar.ofInt 0 :=
    sub_not_lt_zero (hx _ h.right.1) (hx _ h.left.1) (h.left.2 _ h.right.1)
  have hheight : ¬ b.height < Scalar.ofInt 0 :=
    sub_not_lt_zero (hy _ h.top.1) (hy _ h.bottom.1) (h.bottom.2 _ h.top.1)
  have hfinite : b.isFinite = true :=
    isFinite_iff.2 ⟨hx _ h.left.1, hy _ h.bottom.1, hx _ h.right.1, hy _ h.top.1⟩
  rw [View.fits, hfinite, decide_eq_false hwidth, decide_eq_false hheight]
  rfl

end Bounds
end Atlas
