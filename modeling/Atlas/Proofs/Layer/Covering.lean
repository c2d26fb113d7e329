import Atlas.Proofs.Layer.Mirroring

/-!
# Layers that stand behind others

A shelf does not keep ids distinct, and a layer is found as the first one with its id. The layers
behind another one with their id are covered: no operation finds them, and they stay as they were
built. The other layers lead, and no id stands twice among them.

On the base shelf only one specification is visible, but this does not reach the covered layers. A
covered layer that was built visible stays visible, and choosing a base map then shows a second
one, unless the last specification with the chosen id is not the first one.

## Main statements

* `Shelf.covered_sync` and `Shelf.covered_setTime` — covered layers never change
* `Shelf.countP_visible_leading_setVisible` — which layers lead visibly after a base map was chosen
* `Shelf.Exclusive.setVisible` — what keeps at most one base map visible
-/

namespace Atlas

/-! ## Choosing a base map -/

/-- The same specification, shown or hidden. -/
def LayerSpec.setVisible (visible : Bool) (spec : LayerSpec) : LayerSpec :=
  { spec with visible := visible }

theorem visible_of_mem_map_hide {specs : List LayerSpec} {spec : LayerSpec}
    (h : spec ∈ specs.map LayerSpec.hide) : spec.visible = false := by
  obtain ⟨spec, -, rfl⟩ := List.mem_map.1 h
  exact visible_hide spec

theorem hide_setSpecVisible (id : String) (visible : Bool) (spec : LayerSpec) :
    (Shelf.setSpecVisible .base id visible spec).hide = spec.hide := by
  unfold Shelf.setSpecVisible
  split
  · rfl
  · rfl

theorem map_hideSpec (id : String) (specs : List LayerSpec) :
    specs.map (Shelf.setSpecVisible .base id false) = specs.map LayerSpec.hide := by
  refine List.map_congr_left fun spec _ => ?_
  unfold Shelf.setSpecVisible
  split
  · rfl
  · rfl

theorem settle_hideSpec (id : String) (specs : List LayerSpec) :
    settle .base (specs.map (Shelf.setSpecVisible .base id false)) =
      specs.map LayerSpec.hide := by
  rw [map_hideSpec]
  refine settle_eq_self fun _ => ?_
  rw [countP_visible_map_hide]
  exact Nat.zero_le 1

/-- Showing a base map hides all but the first one with its id. -/
theorem settle_showSpec (id : String) (specs : List LayerSpec) :
    settle .base (specs.map (Shelf.setSpecVisible .base id true)) =
      updateFirst (fun spec => spec.id == id) (LayerSpec.setVisible true)
        (specs.map LayerSpec.hide) := by
  show keepFirstVisible _ = _
  induction specs with
  | nil => rfl
  | cons spec specs ih =>
    rw [List.map_cons, List.map_cons, keepFirstVisible, updateFirst]
    by_cases hid : spec.id = id
    · have hspec : Shelf.setSpecVisible .base id true spec = spec.hide.setVisible true :=
        if_pos hid
      have hvisible : (spec.hide.setVisible true).visible = true := rfl
      have hrest : (specs.map (Shelf.setSpecVisible .base id true)).map LayerSpec.hide =
          specs.map LayerSpec.hide := by
        rw [List.map_map]
        exact List.map_congr_left fun spec _ => hide_setSpecVisible id true spec
      rw [hspec, if_pos hvisible, if_pos (by simpa using hid), hrest]
    · have hspec : Shelf.setSpecVisible .base id true spec = spec.hide := by
        rw [Shelf.setSpecVisible, if_neg hid, if_pos rfl]
      rw [hspec, if_neg (by simp), if_neg (by simpa using hid), ih]

/-- Where ids are distinct, showing a specification leaves the specifications in order. -/
theorem settle_map_setSpecVisible_of_nodup {specs : List LayerSpec}
    (h : (specs.map LayerSpec.id).Nodup) (role : Role) (id : String) (visible : Bool) :
    settle role (specs.map (Shelf.setSpecVisible role id visible)) =
      specs.map (Shelf.setSpecVisible role id visible) := by
  by_cases hrole : role = .base
  · subst hrole
    cases visible with
    | false => rw [settle_hideSpec, map_hideSpec]
    | true =>
      have hids : ((specs.map LayerSpec.hide).map LayerSpec.id).Nodup := by
        rw [List.map_map]
        exact h
      rw [settle_showSpec, updateFirst_eq_map id _ hids, List.map_map]
      refine List.map_congr_left fun spec _ => ?_
      rw [Function.comp_apply, id_hide, Shelf.setSpecVisible]
      split
      · rfl
      · rfl
  · exact if_neg hrole

theorem filter_updateFirst {α : Type} (p : α → Bool) {f : α → α} (hf : ∀ x, p (f x) = p x)
    {xs ys : List α} {x : α} (h : xs.filter p = x :: ys) :
    (updateFirst p f xs).filter p = f x :: ys := by
  induction xs with
  | nil => cases h
  | cons z zs ih =>
    rw [updateFirst]
    by_cases hz : p z = true
    · rw [List.filter_cons_of_pos hz] at h
      obtain ⟨rfl, rfl⟩ := List.cons.inj h
      rw [if_pos hz, List.filter_cons_of_pos ((hf z).trans hz)]
    · rw [List.filter_cons_of_neg hz] at h
      rw [if_neg hz, List.filter_cons_of_neg hz, ih h]

theorem filter_updateFirst_of_ne {α : Type} {key : α → String} {f : α → α}
    (hf : ∀ x, key (f x) = key x) {k k' : String} (hk : k' ≠ k) (xs : List α) :
    (updateFirst (fun x => key x == k) f xs).filter (fun x => key x == k') =
      xs.filter (fun x => key x == k') := by
  induction xs with
  | nil => rfl
  | cons x xs ih =>
    rw [updateFirst]
    split
    · next hx =>
      have hne : key x ≠ k' := fun he => hk (he.symm.trans (beq_iff_eq.1 hx))
      simp [hf, hne]
    · rw [List.filter_cons, List.filter_cons, ih]

/-! ## Leading and covered layers -/

namespace Shelf

/-- The layers that stand behind no other one with their id, and have none of the given ids. -/
def leadingFrom (ids : List String) : List Layer → List Layer
  | [] => []
  | l :: ls => if l.id ∈ ids then leadingFrom ids ls else l :: leadingFrom (l.id :: ids) ls

/-- The layers that stand behind another one with their id, or have one of the given ids. -/
def coveredFrom (ids : List String) : List Layer → List Layer
  | [] => []
  | l :: ls => if l.id ∈ ids then l :: coveredFrom ids ls else coveredFrom (l.id :: ids) ls

/-- The layers that stand behind no other one with their id. -/
def leading (s : Shelf) : List Layer := leadingFrom [] s.layers

/-- The layers that stand behind another one with their id. -/
def covered (s : Shelf) : List Layer := coveredFrom [] s.layers

theorem countP_leadingFrom_add_countP_coveredFrom (p : Layer → Bool) (ids : List String)
    (layers : List Layer) :
    (leadingFrom ids layers).countP p + (coveredFrom ids layers).countP p = layers.countP p := by
  induction layers generalizing ids with
  | nil => rfl
  | cons l ls ih =>
    rw [leadingFrom, coveredFrom]
    split
    · rw [List.countP_cons, List.countP_cons, ← ih ids]
      omega
    · rw [List.countP_cons, List.countP_cons, ← ih (l.id :: ids)]
      omega

theorem countP_leading_add_countP_covered (p : Layer → Bool) (s : Shelf) :
    s.leading.countP p + s.covered.countP p = s.layers.countP p :=
  countP_leadingFrom_add_countP_coveredFrom p [] s.layers

theorem leadingFrom_sublist (ids : List String) (layers : List Layer) :
    (leadingFrom ids layers).Sublist layers := by
  induction layers generalizing ids with
  | nil => exact .slnil
  | cons l ls ih =>
    rw [leadingFrom]
    split
    · exact (ih ids).cons l
    · exact (ih (l.id :: ids)).cons_cons l

theorem mem_map_id_leadingFrom {ids : List String} {layers : List Layer} {id : String} :
    id ∈ (leadingFrom ids layers).map Layer.id ↔ id ∈ layers.map Layer.id ∧ id ∉ ids := by
  induction layers generalizing ids with
  | nil => simp [leadingFrom]
  | cons l ls ih =>
    rw [leadingFrom]
    split
    · next hl =>
      rw [ih, List.map_cons, List.mem_cons]
      constructor
      · exact fun h => ⟨.inr h.1, h.2⟩
      · rintro ⟨rfl | h, hid⟩
        · exact absurd hl hid
        · exact ⟨h, hid⟩
    · next hl =>
      rw [List.map_cons, List.map_cons, List.mem_cons, List.mem_cons, ih, List.mem_cons]
      by_cases hid : id = l.id
      · simp [hid, hl]
      · simp [hid]

theorem nodup_leadingFrom (ids : List String) (layers : List Layer) :
    ((leadingFrom ids layers).map Layer.id).Nodup := by
  induction layers generalizing ids with
  | nil => exact List.nodup_nil
  | cons l ls ih =>
    rw [leadingFrom]
    split
    · exact ih ids
    · refine List.nodup_cons.2 ⟨fun hl => ?_, ih (l.id :: ids)⟩
      exact (mem_map_id_leadingFrom.1 hl).2 List.mem_cons_self

section
variable {f : Layer → Layer}

theorem leadingFrom_updateFirst (hf : ∀ l, (f l).id = l.id) {k : String} {ids : List String}
    (hk : k ∉ ids) (layers : List Layer) :
    leadingFrom ids (updateFirst (fun l => l.id == k) f layers) =
      updateFirst (fun l => l.id == k) f (leadingFrom ids layers) := by
  induction layers generalizing ids with
  | nil => rfl
  | cons l ls ih =>
    rw [updateFirst]
    by_cases hl : l.id = k
    · -- the first layer with the id leads, since the id is not among those before it
      have hids : l.id ∉ ids := by rwa [hl]
      rw [if_pos (by simpa using hl), leadingFrom, leadingFrom, hf, if_neg hids, if_neg hids,
        updateFirst, if_pos (by simpa using hl)]
    · rw [if_neg (by simpa using hl), leadingFrom, leadingFrom]
      split
      · exact ih hk
      · rw [ih (by simp [Ne.symm hl, hk]), updateFirst, if_neg (by simpa using hl)]

theorem coveredFrom_updateFirst (hf : ∀ l, (f l).id = l.id) {k : String} {ids : List String}
    (hk : k ∉ ids) (layers : List Layer) :
    coveredFrom ids (updateFirst (fun l => l.id == k) f layers) = coveredFrom ids layers := by
  induction layers generalizing ids with
  | nil => rfl
  | cons l ls ih =>
    rw [updateFirst]
    by_cases hl : l.id = k
    · have hids : l.id ∉ ids := by rwa [hl]
      rw [if_pos (by simpa using hl), coveredFrom, coveredFrom, hf, if_neg hids, if_neg hids]
    · rw [if_neg (by simpa using hl), coveredFrom, coveredFrom]
      split
      · rw [ih hk]
      · exact ih (by simp [Ne.symm hl, hk])

end

section
variable {f : LayerSpec → Layer → Layer}

theorem leadingFrom_foldl_updateFirst (hf : ∀ spec l, (f spec l).id = l.id)
    (specs : List LayerSpec) (layers : List Layer) :
    leadingFrom [] (specs.foldl
        (fun layers spec => updateFirst (fun l => l.id == spec.id) (f spec) layers) layers) =
      specs.foldl (fun layers spec => updateFirst (fun l => l.id == spec.id) (f spec) layers)
        (leadingFrom [] layers) := by
  induction specs generalizing layers with
  | nil => rfl
  | cons spec specs ih =>
    rw [List.foldl_cons, List.foldl_cons, ih,
      leadingFrom_updateFirst (hf spec) List.not_mem_nil]

theorem coveredFrom_foldl_updateFirst (hf : ∀ spec l, (f spec l).id = l.id)
    (specs : List LayerSpec) (layers : List Layer) :
    coveredFrom [] (specs.foldl
        (fun layers spec => updateFirst (fun l => l.id == spec.id) (f spec) layers) layers) =
      coveredFrom [] layers := by
  induction specs generalizing layers with
  | nil => rfl
  | cons spec specs ih =>
    rw [List.foldl_cons, ih, coveredFrom_updateFirst (hf spec) List.not_mem_nil]

end

/-- **Mirroring reaches no covered layer.** -/
theorem covered_sync (role : Role) (s : Shelf) : (s.sync role).covered = s.covered :=
  coveredFrom_foldl_updateFirst Layer.id_mirror _ _

theorem covered_setVisible (role : Role) (id : String) (visible : Bool) (s : Shelf) :
    (s.setVisible role id visible).1.covered = s.covered := by
  unfold Shelf.setVisible
  split
  · exact covered_sync role _
  · rfl

/-- **The time reaches no covered layer.** -/
theorem covered_setTime (interval : String) (s : Shelf) :
    (s.setTime interval).1.covered = s.covered :=
  coveredFrom_foldl_updateFirst (fun _ => Layer.id_setTime interval) _ _

/-! ## What leads visibly -/

theorem hasSpec_iff {s : Shelf} {id : String} :
    s.hasSpec id = true ↔ id ∈ s.specs.map LayerSpec.id := by
  simp [hasSpec]

theorem leading_sync (role : Role) (s : Shelf) :
    (s.sync role).leading = s.leading.map (Layer.mirrorAll (settle role s.specs)) :=
  (leadingFrom_foldl_updateFirst Layer.id_mirror _ _).trans
    (foldl_mirrorInto_eq_map (nodup_leadingFrom [] s.layers) _)

theorem leading_setVisible {role : Role} {s : Shelf} {id : String} (hid : s.hasSpec id = true)
    (visible : Bool) : (s.setVisible role id visible).1.leading = s.leading.map
      (Layer.mirrorAll (settle role (s.specs.map (setSpecVisible role id visible)))) := by
  rw [setVisible, if_pos hid]
  exact leading_sync role _

/-- A layer that mirrors hidden specifications is hidden in the end. -/
theorem visible_foldl_mirror_of_hidden {specs : List LayerSpec} (hne : specs ≠ [])
    (hhidden : ∀ spec ∈ specs, spec.visible = false) (layer : Layer) :
    (specs.foldl (fun l spec => l.mirror spec) layer).visible = false := by
  rcases List.eq_nil_or_concat specs with rfl | ⟨init, last, rfl⟩
  · exact absurd rfl hne
  · rw [List.concat_eq_append, List.foldl_append]
    exact hhidden last (by simp)

theorem countP_visible_leading_hide {s : Shelf} (hknown : s.ids ⊆ s.specs.map LayerSpec.id)
    {id : String} (hid : s.hasSpec id = true) :
    (s.setVisible .base id false).1.leading.countP Layer.visible = 0 := by
  rw [leading_setVisible hid, settle_hideSpec, List.countP_map]
  refine List.countP_eq_zero.2 fun l hl => Bool.eq_false_iff.1 ?_
  have hmem : l.id ∈ s.specs.map LayerSpec.id :=
    hknown (List.mem_map_of_mem ((leadingFrom_sublist [] s.layers).subset hl))
  obtain ⟨spec, hspec, hsame⟩ := List.mem_map.1 hmem
  refine visible_foldl_mirror_of_hidden ?_ ?_ l
  · refine List.ne_nil_of_mem (List.mem_filter.2 ⟨List.mem_map_of_mem hspec, ?_⟩)
    simpa using hsame
  · intro spec hspec
    exact visible_of_mem_map_hide (List.mem_filter.1 hspec).1

/-- After a base map was shown, a leading layer is visible if it has the id and the last
specification with it is the first one. -/
theorem visible_mirrored_show {specs : List LayerSpec} {id : String} (l : Layer)
    (hknown : l.id ∈ specs.map LayerSpec.id) :
    (l.mirrorAll (updateFirst (fun spec => spec.id == id) (LayerSpec.setVisible true)
        (specs.map LayerSpec.hide))).visible =
      (l.id == id && specs.countP (fun spec => spec.id == id) == 1) := by
  have hhidden : (specs.map LayerSpec.hide).filter (fun spec => spec.id == l.id) =
      (specs.filter (fun spec => spec.id == l.id)).map LayerSpec.hide := by
    rw [List.filter_map]
    rfl
  obtain ⟨spec, hspec, hsame⟩ := List.mem_map.1 hknown
  have hfound : spec ∈ specs.filter (fun spec => spec.id == l.id) :=
    List.mem_filter.2 ⟨hspec, by simpa using hsame⟩
  rw [Layer.mirrorAll]
  by_cases hl : l.id = id
  · rw [hl] at hhidden hfound ⊢
    rw [List.countP_eq_length_filter]
    cases hfilter : specs.filter (fun spec => spec.id == id) with
    | nil =>
      rw [hfilter] at hfound
      exact absurd hfound List.not_mem_nil
    | cons first rest =>
      rw [hfilter] at hhidden
      rw [filter_updateFirst (f := LayerSpec.setVisible true) _ (fun _ => rfl) hhidden,
        List.foldl_cons]
      cases rest with
      | nil => simp [Layer.mirror, LayerSpec.setVisible]
      | cons second rest =>
        -- the first specification is shown, but the layer goes on to mirror hidden ones
        rw [visible_foldl_mirror_of_hidden (by simp) (fun spec => visible_of_mem_map_hide)]
        simp
  · have hother := filter_updateFirst_of_ne (f := LayerSpec.setVisible true)
      (fun _ => rfl : ∀ spec : LayerSpec, (spec.setVisible true).id = spec.id) hl
      (specs.map LayerSpec.hide)
    have hne : (specs.filter (fun spec => spec.id == l.id)).map LayerSpec.hide ≠ [] := by
      simpa using List.ne_nil_of_mem hfound
    rw [hother, hhidden, visible_foldl_mirror_of_hidden hne (fun spec => visible_of_mem_map_hide)]
    simp [hl]

/-- After a base map was shown, one layer leads visibly if there is a layer with the id and a
single specification with it, and none otherwise. -/
theorem countP_visible_leading_show {s : Shelf} (hknown : s.ids ⊆ s.specs.map LayerSpec.id)
    {id : String} (hid : s.hasSpec id = true) :
    (s.setVisible .base id true).1.leading.countP Layer.visible =
      if id ∈ s.ids ∧ s.specs.countP (fun spec => spec.id == id) = 1 then 1 else 0 := by
  rw [leading_setVisible hid, settle_showSpec, List.countP_map]
  have hvisible : s.leading.countP (Layer.visible ∘ Layer.mirrorAll
      (updateFirst (fun spec => spec.id == id) (LayerSpec.setVisible true)
        (s.specs.map LayerSpec.hide))) =
      s.leading.countP
        (fun l => l.id == id && s.specs.countP (fun spec => spec.id == id) == 1) := by
    refine List.countP_congr fun l hl => ?_
    have hmem : l.id ∈ s.specs.map LayerSpec.id :=
      hknown (List.mem_map_of_mem ((leadingFrom_sublist [] s.layers).subset hl))
    rw [Function.comp_apply, visible_mirrored_show l hmem]
  have hids : s.leading.countP (fun l => l.id == id) = if id ∈ s.ids then 1 else 0 := by
    have hmem : id ∈ s.leading.map Layer.id ↔ id ∈ s.ids :=
      mem_map_id_leadingFrom.trans (and_iff_left List.not_mem_nil)
    have hcount : s.leading.countP (fun l => l.id == id) = (s.leading.map Layer.id).count id := by
      rw [List.count, List.countP_map]
      rfl
    rw [hcount]
    split
    · next h => exact List.count_eq_one_of_mem (nodup_leadingFrom [] s.layers) (hmem.2 h)
    · next h => exact List.count_eq_zero_of_not_mem (fun hm => h (hmem.1 hm))
  rw [hvisible]
  by_cases hone : s.specs.countP (fun spec => spec.id == id) = 1
  · simp [hone, hids]
  · simp [hone]

/-! ## At most one visible base map -/

/-- A visible layer stands behind another one with its id. -/
def HidesVisible (s : Shelf) : Prop := ∃ l ∈ s.covered, l.visible = true

/-- Some layer has an id that stands in a single specification. -/
def HasSingle (s : Shelf) : Prop :=
  ∃ id ∈ s.ids, s.specs.countP (fun spec => spec.id == id) = 1

theorem hidesVisible_iff {s : Shelf} : s.HidesVisible ↔ 0 < s.covered.countP Layer.visible :=
  List.countP_pos_iff.symm

/-- At most one base map is visible, and it will stay so: if a visible layer is covered, none can
be shown besides it. -/
structure Exclusive (s : Shelf) : Prop where
  known : s.ids ⊆ s.specs.map LayerSpec.id
  lasting : s.HidesVisible → ¬ s.HasSingle
  single : s.layers.countP Layer.visible ≤ 1

/-- A new layer is as visible as its specification, and some specifications have no layer. -/
theorem countP_visible_filterMap_ofSpec? (grid : TileGrid) (specs : List LayerSpec) :
    (specs.filterMap (Layer.ofSpec? grid)).countP Layer.visible ≤
      specs.countP LayerSpec.visible := by
  induction specs with
  | nil => exact Nat.le_refl 0
  | cons spec specs ih =>
    rw [List.filterMap_cons, List.countP_cons]
    cases hl : Layer.ofSpec? grid spec with
    | none => exact Nat.le_add_right_of_le ih
    | some l =>
      have hvisible : l.visible = spec.visible :=
        (congrArg Layer.visible (Layer.mirror_of_ofSpec? hl)).symm
      rw [List.countP_cons, hvisible]
      exact Nat.add_le_add_right ih _

theorem exclusive_build {grid : TileGrid} {specs : List LayerSpec}
    (h : (build .base grid specs).HidesVisible → ¬ (build .base grid specs).HasSingle) :
    (build .base grid specs).Exclusive where
  known := ids_build_subset .base grid specs
  lasting := h
  single := Nat.le_trans (countP_visible_filterMap_ofSpec? grid _) (countP_visible_settle specs)

/-- After a base map was chosen, at most one layer leads visibly, and only if it is the layer of a
single specification. -/
theorem countP_visible_leading_setVisible {s : Shelf} (hknown : s.ids ⊆ s.specs.map LayerSpec.id)
    {id : String} (hid : s.hasSpec id = true) (visible : Bool) :
    (s.setVisible .base id visible).1.leading.countP Layer.visible ≤ 1 ∧
      (¬ s.HasSingle → (s.setVisible .base id visible).1.leading.countP Layer.visible = 0) := by
  cases visible with
  | false =>
    rw [countP_visible_leading_hide hknown hid]
    exact ⟨Nat.zero_le 1, fun _ => rfl⟩
  | true =>
    rw [countP_visible_leading_show hknown hid]
    split
    · next h => exact ⟨Nat.le_refl 1, fun hnone => absurd ⟨id, h⟩ hnone⟩
    · exact ⟨Nat.zero_le 1, fun _ => rfl⟩

theorem map_id_specs_setVisible (role : Role) (id : String) (visible : Bool) (s : Shelf) :
    (s.setVisible role id visible).1.specs.map LayerSpec.id = s.specs.map LayerSpec.id := by
  unfold Shelf.setVisible
  split
  · show (settle role _).map LayerSpec.id = _
    rw [map_id_settle, List.map_map]
    exact List.map_congr_left fun spec _ => id_setSpecVisible role id visible spec
  · rfl

theorem ids_setVisible (role : Role) (id : String) (visible : Bool) (s : Shelf) :
    (s.setVisible role id visible).1.ids = s.ids := by
  unfold Shelf.setVisible
  split
  · exact ids_sync role _
  · rfl

theorem hasSingle_congr {s s' : Shelf} (hids : s'.ids = s.ids)
    (hspecs : s'.specs.map LayerSpec.id = s.specs.map LayerSpec.id) :
    s'.HasSingle ↔ s.HasSingle := by
  have hcount : ∀ t : Shelf, ∀ id, t.specs.countP (fun spec => spec.id == id) =
      (t.specs.map LayerSpec.id).count id := by
    intro t id
    rw [List.count, List.countP_map]
    rfl
  simp only [HasSingle, hids, hcount, hspecs]

/-- **Choosing a base map keeps at most one visible,** as long as no visible layer is covered or
no layer has a single specification. -/
theorem Exclusive.setVisible {s : Shelf} (h : s.Exclusive) (id : String) (visible : Bool) :
    (s.setVisible .base id visible).1.Exclusive := by
  by_cases hid : s.hasSpec id = true
  · have hspecs := map_id_specs_setVisible .base id visible s
    have hids := ids_setVisible .base id visible s
    have hcovered := covered_setVisible .base id visible s
    refine ⟨by rw [hids, hspecs]; exact h.known, ?_, ?_⟩
    · rw [hasSingle_congr hids hspecs, HidesVisible, hcovered]
      exact h.lasting
    · obtain ⟨hone, hnone⟩ := countP_visible_leading_setVisible h.known hid visible
      rw [← countP_leading_add_countP_covered, hcovered]
      by_cases hhides : s.HidesVisible
      · -- the visible layer that is covered stays the only one
        have hsplit := countP_leading_add_countP_covered Layer.visible s
        have hsingle := h.single
        rw [hnone (h.lasting hhides)]
        omega
      · rw [hidesVisible_iff] at hhides
        omega
  · rw [Shelf.setVisible, if_neg hid]
    exact h

theorem Exclusive.setTime {s : Shelf} (h : s.Exclusive) (interval : String) :
    (s.setTime interval).1.Exclusive where
  known := by
    have hids : (s.setTime interval).1.ids = s.ids := map_layers_setTime (fun _ => rfl) s
    rw [hids]
    exact h.known
  lasting := by
    have hids : (s.setTime interval).1.ids = s.ids := map_layers_setTime (fun _ => rfl) s
    rw [hasSingle_congr hids rfl, HidesVisible, covered_setTime]
    exact h.lasting
  single := by
    rw [countP_eq_of_map_eq (map_layers_setTime (g := Layer.visible) (fun _ => rfl) s)]
    exact h.single

/-- Besides a visible layer that is covered, another one can be shown if it has a single
specification. -/
theorem HidesVisible.exists_two {s : Shelf} (h : s.HidesVisible)
    (hknown : s.ids ⊆ s.specs.map LayerSpec.id) (hsingle : s.HasSingle) :
    ∃ id, 2 ≤ (s.setVisible .base id true).1.layers.countP Layer.visible := by
  obtain ⟨id, hid, hone⟩ := hsingle
  have hspec : s.hasSpec id = true := hasSpec_iff.2 (hknown hid)
  have hleading := countP_visible_leading_show hknown hspec
  rw [if_pos ⟨hid, hone⟩] at hleading
  have hcovered : 0 < s.covered.countP Layer.visible := hidesVisible_iff.1 h
  refine ⟨id, ?_⟩
  rw [← countP_leading_add_countP_covered, covered_setVisible, hleading]
  omega

end Shelf
end Atlas
