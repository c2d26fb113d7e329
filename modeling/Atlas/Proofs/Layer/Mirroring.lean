import Atlas.Layer.Shelf
import Mathlib.Data.List.Nodup
import Mathlib.Data.List.Perm.Subperm

/-!
# Layers mirror their specifications

A shelf is kept in two lists, and every operation has to keep them in step. Where ids are distinct,
the fold by which `Shelf.sync` writes one specification after the other is a map: every layer takes
over what the one specification with its id says. From this follows that `sync` brings any two
lists in step whose layers all have a specification, and the other operations either end with a
`sync` or write both lists in the same way.

## Main statements

* `Shelf.layers_sync` — with distinct ids, mirroring is a map over the layers
* `Shelf.Paired.sync` — mirroring brings paired lists in step
* `Shelf.InStep.countP_visible_le_one` — at most one visible base specification means at most one
  visible base layer
-/

namespace Atlas

/-! ## Changing the element with a key -/

/-- Where keys are distinct, changing the first element with a key is changing all of them. -/
theorem updateFirst_eq_map {α : Type} {key : α → String} (k : String) (f : α → α) {xs : List α}
    (h : (xs.map key).Nodup) :
    updateFirst (fun x => key x == k) f xs = xs.map (fun x => if key x = k then f x else x) := by
  induction xs with
  | nil => rfl
  | cons x xs ih =>
    obtain ⟨hx, hxs⟩ := List.nodup_cons.1 h
    rw [updateFirst, List.map_cons]
    by_cases hk : key x = k
    · -- the key stands at the head, so the map leaves the tail alone
      have htail : ∀ y ∈ xs, (if key y = k then f y else y) = y := by
        intro y hy
        rw [if_neg]
        intro he
        exact hx (List.mem_map.2 ⟨y, hy, he.trans hk.symm⟩)
      rw [if_pos (by simpa using hk), if_pos hk, List.map_congr_left htail, List.map_id']
    · rw [if_neg (by simpa using hk), if_neg hk, ih hxs]

/-- Where keys are distinct, changing the first element with the key of one entry after the other
sends each element through the entries with its key. -/
theorem foldl_updateFirst_eq_map {α β : Type} {key : α → String} {entry : β → String}
    {f : β → α → α} (hf : ∀ b x, key (f b x) = key x) (bs : List β) {xs : List α}
    (h : (xs.map key).Nodup) :
    bs.foldl (fun xs b => updateFirst (fun x => key x == entry b) (f b) xs) xs =
      xs.map (fun x => (bs.filter (fun b => entry b == key x)).foldl (fun x b => f b x) x) := by
  induction bs generalizing xs with
  | nil => simp
  | cons b bs ih =>
    have hkeys : ((updateFirst (fun x => key x == entry b) (f b) xs).map key).Nodup := by
      rw [map_updateFirst (hf b)]
      exact h
    rw [List.foldl_cons, ih hkeys, updateFirst_eq_map _ _ h, List.map_map]
    refine List.map_congr_left fun x _ => ?_
    rw [Function.comp_apply, List.filter_cons]
    by_cases hk : key x = entry b
    · rw [if_pos hk, if_pos (by simpa using hk.symm), List.foldl_cons, hf]
    · rw [if_neg hk, if_neg (by simpa using Ne.symm hk)]

/-- A list has one element with a key if keys are distinct and some element has it. -/
theorem filter_key_eq_singleton {α : Type} {key : α → String} {xs : List α} {x : α}
    (h : (xs.map key).Nodup) (hx : x ∈ xs) : xs.filter (fun y => key y == key x) = [x] := by
  induction xs with
  | nil => exact absurd hx List.not_mem_nil
  | cons y ys ih =>
    obtain ⟨hy, hys⟩ := List.nodup_cons.1 h
    rcases List.mem_cons.1 hx with rfl | hx
    · rw [List.filter_cons_of_pos (by simp), List.cons_inj_right, List.filter_eq_nil_iff]
      intro z hz he
      exact hy (List.mem_map.2 ⟨z, hz, beq_iff_eq.1 he⟩)
    · have hne : key y ≠ key x := fun he => hy (he ▸ List.mem_map_of_mem hx)
      rw [List.filter_cons_of_neg (by simpa using hne), ih hys hx]

/-- How many elements satisfy a condition can be read off the truth values in their order. -/
theorem countP_eq_of_map_eq {α : Type} {p : α → Bool} {xs ys : List α}
    (h : xs.map p = ys.map p) : xs.countP p = ys.countP p := by
  have hcount := congrArg (List.countP id) h
  rw [List.countP_map, List.countP_map] at hcount
  exact hcount

/-! ## Bringing specifications in order -/

@[simp] theorem id_hide (spec : LayerSpec) : spec.hide.id = spec.id := rfl

@[simp] theorem visible_hide (spec : LayerSpec) : spec.hide.visible = false := rfl

@[simp] theorem LayerSpec.id_setOpacity (opacity : Float) (spec : LayerSpec) :
    (spec.setOpacity opacity).id = spec.id := rfl

@[simp] theorem LayerSpec.visible_setOpacity (opacity : Float) (spec : LayerSpec) :
    (spec.setOpacity opacity).visible = spec.visible := rfl

/-- What hiding leaves alone is left alone by keeping only the first one visible. -/
theorem map_keepFirstVisible {β : Type} {g : LayerSpec → β} (h : ∀ spec, g spec.hide = g spec)
    (specs : List LayerSpec) : (keepFirstVisible specs).map g = specs.map g := by
  induction specs with
  | nil => rfl
  | cons spec specs ih =>
    rw [keepFirstVisible]
    split
    · simp [h]
    · rw [List.map_cons, List.map_cons, ih]

theorem countP_visible_map_hide (specs : List LayerSpec) :
    (specs.map LayerSpec.hide).countP LayerSpec.visible = 0 := by
  rw [List.countP_eq_zero]
  intro x hx
  obtain ⟨y, -, rfl⟩ := List.mem_map.1 hx
  simp

theorem countP_visible_keepFirstVisible (specs : List LayerSpec) :
    (keepFirstVisible specs).countP LayerSpec.visible ≤ 1 := by
  induction specs with
  | nil => exact Nat.zero_le 1
  | cons spec specs ih =>
    rw [keepFirstVisible]
    split
    · next h =>
      have hone : (spec :: specs.map LayerSpec.hide).countP LayerSpec.visible = 1 := by
        rw [List.countP_cons_of_pos h, countP_visible_map_hide]
      exact Nat.le_of_eq hone
    · next h => rw [List.countP_cons_of_neg h]; exact ih

/-- Of a list with at most one visible specification nothing has to be hidden. -/
theorem keepFirstVisible_of_countP_le_one {specs : List LayerSpec}
    (h : specs.countP LayerSpec.visible ≤ 1) : keepFirstVisible specs = specs := by
  induction specs with
  | nil => rfl
  | cons spec specs ih =>
    rw [keepFirstVisible]
    split
    · next hspec =>
      rw [List.countP_cons_of_pos hspec] at h
      have hnone : specs.countP LayerSpec.visible = 0 := by omega
      have hhidden : specs.map LayerSpec.hide = specs := by
        refine (List.map_congr_left fun spec hspec => ?_).trans (List.map_id specs)
        have hvisible := Bool.eq_false_iff.2 (List.countP_eq_zero.1 hnone spec hspec)
        rw [LayerSpec.hide, ← hvisible]
        rfl
      rw [hhidden]
    · next hspec =>
      rw [List.countP_cons_of_neg hspec] at h
      rw [ih h]

theorem map_settle {β : Type} {g : LayerSpec → β} (h : ∀ spec, g spec.hide = g spec) (role : Role)
    (specs : List LayerSpec) : (settle role specs).map g = specs.map g := by
  unfold settle
  split
  · exact map_keepFirstVisible h specs
  · rfl

theorem map_id_settle (role : Role) (specs : List LayerSpec) :
    (settle role specs).map LayerSpec.id = specs.map LayerSpec.id := map_settle id_hide role specs

theorem countP_visible_settle (specs : List LayerSpec) :
    (settle .base specs).countP LayerSpec.visible ≤ 1 :=
  countP_visible_keepFirstVisible specs

theorem settle_eq_self {role : Role} {specs : List LayerSpec}
    (h : role = .base → specs.countP LayerSpec.visible ≤ 1) : settle role specs = specs := by
  rw [settle]
  split
  · next hrole => exact keepFirstVisible_of_countP_le_one (h hrole)
  · rfl

/-! ## Following the specifications -/

/-- What a layer shows of its specification: the id, whether it is visible and how opaque it is. -/
def Layer.face (layer : Layer) : String × Bool × Float := (layer.id, layer.visible, layer.opacity)

/-- The layer without what it takes over from its specification. -/
def Layer.unshown (layer : Layer) : Layer := { layer with visible := false, opacity := 0 }

/-- The layer after it has taken over what the first specification with its id says. -/
def Layer.follow (specs : List LayerSpec) (layer : Layer) : Layer :=
  match specs.find? (fun spec => spec.id == layer.id) with
  | some spec => layer.mirror spec
  | none => layer

theorem Layer.follow_of_notMem {specs : List LayerSpec} {layer : Layer}
    (h : layer.id ∉ specs.map LayerSpec.id) : layer.follow specs = layer := by
  have hnone : specs.find? (fun spec => spec.id == layer.id) = none := by
    rw [List.find?_eq_none]
    intro spec hspec he
    exact h (List.mem_map.2 ⟨spec, hspec, beq_iff_eq.1 he⟩)
  rw [Layer.follow, hnone]

/-- A layer follows the specification with its id. -/
theorem Layer.follow_of_mem {specs : List LayerSpec} {spec : LayerSpec} {layer : Layer}
    (hids : (specs.map LayerSpec.id).Nodup) (hspec : spec ∈ specs) (hid : spec.id = layer.id) :
    layer.follow specs = layer.mirror spec := by
  have hsome : specs.find? (fun spec => spec.id == layer.id) = some spec := by
    rw [← List.head?_filter, ← hid, filter_key_eq_singleton hids hspec, List.head?_cons]
  rw [Layer.follow, hsome]

/-- The layer after it has mirrored all specifications with its id, one after the other. -/
def Layer.mirrorAll (specs : List LayerSpec) (layer : Layer) : Layer :=
  (specs.filter (fun spec => spec.id == layer.id)).foldl (fun l spec => l.mirror spec) layer

/-- Where ids are distinct, there is at most one specification to mirror. -/
theorem Layer.mirrorAll_eq_follow {specs : List LayerSpec} (hids : (specs.map LayerSpec.id).Nodup)
    (layer : Layer) : layer.mirrorAll specs = layer.follow specs := by
  rw [mirrorAll]
  by_cases hid : layer.id ∈ specs.map LayerSpec.id
  · obtain ⟨spec, hspec, hid⟩ := List.mem_map.1 hid
    rw [follow_of_mem hids hspec hid, ← hid, filter_key_eq_singleton hids hspec]
    rfl
  · have hnone : specs.filter (fun spec => spec.id == layer.id) = [] := by
      rw [List.filter_eq_nil_iff]
      intro spec hspec he
      exact hid (List.mem_map.2 ⟨spec, hspec, beq_iff_eq.1 he⟩)
    rw [follow_of_notMem hid, hnone]
    rfl

namespace Shelf

theorem foldl_mirrorInto_eq_map {layers : List Layer} (hlayers : (layers.map Layer.id).Nodup)
    (specs : List LayerSpec) : specs.foldl mirrorInto layers = layers.map (Layer.mirrorAll specs) :=
  foldl_updateFirst_eq_map Layer.id_mirror specs hlayers

/-- **With distinct ids, mirroring is a map over the layers.** -/
theorem layers_sync (role : Role) {s : Shelf} (hspecs : (s.specs.map LayerSpec.id).Nodup)
    (hlayers : s.ids.Nodup) :
    (s.sync role).layers = s.layers.map (Layer.follow (settle role s.specs)) := by
  have hsettled : ((settle role s.specs).map LayerSpec.id).Nodup := by
    rw [map_id_settle]
    exact hspecs
  rw [← funext (Layer.mirrorAll_eq_follow hsettled)]
  exact foldl_mirrorInto_eq_map hlayers (settle role s.specs)

@[simp] theorem specs_sync (role : Role) (s : Shelf) :
    (s.sync role).specs = settle role s.specs := rfl

/-! ## Lists in step -/

/-- No id stands twice in either list. -/
structure Distinct (s : Shelf) : Prop where
  specs_nodup : (s.specs.map LayerSpec.id).Nodup
  layers_nodup : s.ids.Nodup

/-- No id stands twice in either list, and every layer has a specification with its id. -/
structure Paired (s : Shelf) : Prop where
  specs_nodup : (s.specs.map LayerSpec.id).Nodup
  layers_nodup : s.ids.Nodup
  known : s.ids ⊆ s.specs.map LayerSpec.id

/-- The lists are paired, every layer shows what a specification with its id says, and on the base
shelf at most one specification is visible. -/
structure InStep (role : Role) (s : Shelf) : Prop extends Paired s where
  mirrored : ∀ l ∈ s.layers, ∃ spec ∈ s.specs,
    spec.id = l.id ∧ l.visible = spec.visible ∧ l.opacity = spec.opacity
  single : role = .base → s.specs.countP LayerSpec.visible ≤ 1

theorem Paired.distinct {s : Shelf} (h : s.Paired) : s.Distinct := ⟨h.specs_nodup, h.layers_nodup⟩

/-- Being distinct is a matter of the ids alone, and not of their order. -/
theorem Distinct.of_ids_perm {s s' : Shelf} (h : s.Distinct)
    (hspecs : (s'.specs.map LayerSpec.id).Perm (s.specs.map LayerSpec.id))
    (hlayers : s'.ids.Perm s.ids) : s'.Distinct where
  specs_nodup := hspecs.nodup_iff.2 h.specs_nodup
  layers_nodup := hlayers.nodup_iff.2 h.layers_nodup

/-- Being paired is a matter of the ids alone, and not of their order. -/
theorem Paired.of_ids_perm {s s' : Shelf} (h : s.Paired)
    (hspecs : (s'.specs.map LayerSpec.id).Perm (s.specs.map LayerSpec.id))
    (hlayers : s'.ids.Perm s.ids) : s'.Paired where
  specs_nodup := (h.distinct.of_ids_perm hspecs hlayers).specs_nodup
  layers_nodup := (h.distinct.of_ids_perm hspecs hlayers).layers_nodup
  known := fun _ hid => hspecs.mem_iff.2 (h.known (hlayers.mem_iff.1 hid))

/-- **Mirroring brings paired lists in step.** -/
theorem Paired.sync {s : Shelf} (h : s.Paired) (role : Role) : (s.sync role).InStep role where
  toPaired := h.of_ids_perm (by rw [specs_sync, map_id_settle]) (by rw [ids_sync])
  mirrored := by
    have hids : ((settle role s.specs).map LayerSpec.id).Nodup := by
      rw [map_id_settle]
      exact h.specs_nodup
    intro l hl
    rw [layers_sync role h.specs_nodup h.layers_nodup] at hl
    obtain ⟨l', hl', rfl⟩ := List.mem_map.1 hl
    have hknown : l'.id ∈ (settle role s.specs).map LayerSpec.id := by
      rw [map_id_settle]
      exact h.known (List.mem_map_of_mem hl')
    obtain ⟨spec, hspec, hid⟩ := List.mem_map.1 hknown
    rw [Layer.follow_of_mem hids hspec hid]
    exact ⟨spec, hspec, hid, rfl, rfl⟩
  single := by
    rintro rfl
    exact countP_visible_settle s.specs

/-- Mirroring leaves a shelf in step as it is. -/
theorem InStep.sync_eq {role : Role} {s : Shelf} (h : s.InStep role) : s.sync role = s := by
  have hsettled : settle role s.specs = s.specs := settle_eq_self h.single
  have hlayers : (s.sync role).layers = s.layers := by
    rw [layers_sync role h.specs_nodup h.layers_nodup, hsettled]
    refine (List.map_congr_left (fun l hl => ?_)).trans (List.map_id s.layers)
    obtain ⟨spec, hspec, hid, hvisible, hopacity⟩ := h.mirrored l hl
    rw [Layer.follow_of_mem h.specs_nodup hspec hid, Layer.mirror, ← hvisible, ← hopacity]
    rfl
  exact congrArg₂ Shelf.mk hsettled hlayers

/-- **At most one visible base specification means at most one visible base layer.** -/
theorem InStep.countP_visible_le_one {s : Shelf} (h : s.InStep .base) :
    s.layers.countP Layer.visible ≤ 1 := by
  -- different visible layers have different ids, and these are ids of visible specifications
  have hnodup : ((s.layers.filter Layer.visible).map Layer.id).Nodup :=
    h.layers_nodup.sublist (List.filter_sublist.map _)
  have hsub : (s.layers.filter Layer.visible).map Layer.id ⊆
      (s.specs.filter LayerSpec.visible).map LayerSpec.id := by
    intro id hid
    obtain ⟨l, hl, rfl⟩ := List.mem_map.1 hid
    obtain ⟨hmem, hvisible⟩ := List.mem_filter.1 hl
    obtain ⟨spec, hspec, hid, hsame, -⟩ := h.mirrored l hmem
    exact List.mem_map.2 ⟨spec, List.mem_filter.2 ⟨hspec, hsame ▸ hvisible⟩, hid⟩
  have hlen := hnodup.length_le_of_subset hsub
  rw [List.length_map, List.length_map, ← List.countP_eq_length_filter,
    ← List.countP_eq_length_filter] at hlen
  exact Nat.le_trans hlen (h.single rfl)

/-! ## Setting up -/

/-- The layers that are built have the ids of the specifications with a source, in their order. -/
theorem map_id_filterMap_ofSpec? (grid : TileGrid) (specs : List LayerSpec) :
    (specs.filterMap (Layer.ofSpec? grid)).map Layer.id =
      (specs.filter (fun spec => (Layer.ofSpec? grid spec).isSome)).map LayerSpec.id := by
  induction specs with
  | nil => rfl
  | cons spec specs ih =>
    rw [List.filterMap_cons, List.filter_cons]
    cases hl : Layer.ofSpec? grid spec with
    | none => simpa using ih
    | some l => simpa [Layer.id_of_ofSpec? hl] using ih

theorem ids_build_subset (role : Role) (grid : TileGrid) (specs : List LayerSpec) :
    (build role grid specs).ids ⊆ (build role grid specs).specs.map LayerSpec.id := by
  show ((settle role specs).filterMap (Layer.ofSpec? grid)).map Layer.id ⊆ _
  rw [map_id_filterMap_ofSpec?]
  exact (List.filter_sublist.map _).subset

/-- A new shelf is in step. -/
theorem inStep_build (role : Role) (grid : TileGrid) {specs : List LayerSpec}
    (h : (specs.map LayerSpec.id).Nodup) : (build role grid specs).InStep role where
  specs_nodup := by
    show ((settle role specs).map LayerSpec.id).Nodup
    rw [map_id_settle]
    exact h
  layers_nodup := by
    show (((settle role specs).filterMap (Layer.ofSpec? grid)).map Layer.id).Nodup
    rw [map_id_filterMap_ofSpec?]
    refine List.Nodup.sublist (List.filter_sublist.map _) ?_
    rw [map_id_settle]
    exact h
  known := ids_build_subset role grid specs
  mirrored := by
    intro l hl
    obtain ⟨spec, hspec, hbuilt⟩ := List.mem_filterMap.1 hl
    have hsame := Layer.mirror_of_ofSpec? hbuilt
    exact ⟨spec, hspec, (Layer.id_of_ofSpec? hbuilt).symm, (congrArg Layer.visible hsame).symm,
      (congrArg Layer.opacity hsame).symm⟩
  single := by
    rintro rfl
    exact countP_visible_settle specs

/-! ## The operations -/

theorem Paired.sort {s : Shelf} (h : s.Paired) : s.sort.Paired :=
  h.of_ids_perm (List.Perm.refl _) ((layers_sort_perm s).map Layer.id)

theorem Paired.reorder {s : Shelf} (h : s.Paired) (role : Role) : (s.reorder role).InStep role :=
  h.sort.sync role

@[simp] theorem id_setSpecVisible (role : Role) (id : String) (visible : Bool) (spec : LayerSpec) :
    (setSpecVisible role id visible spec).id = spec.id := by
  unfold setSpecVisible
  split
  · rfl
  · split <;> rfl

theorem InStep.setVisible {role : Role} {s : Shelf} (h : s.InStep role) (id : String)
    (visible : Bool) : (s.setVisible role id visible).1.InStep role := by
  unfold Shelf.setVisible
  split
  · have hids : (s.specs.map (setSpecVisible role id visible)).map LayerSpec.id =
        s.specs.map LayerSpec.id := by
      rw [List.map_map]
      exact List.map_congr_left fun spec _ => id_setSpecVisible role id visible spec
    have hpaired : Paired { s with specs := s.specs.map (setSpecVisible role id visible) } :=
      h.toPaired.of_ids_perm (.of_eq hids) (.refl _)
    exact hpaired.sync role
  · exact h

/-- Changing an opacity writes both lists in the same way, so it keeps them in step. -/
theorem InStep.setOpacity {role : Role} {s : Shelf} (h : s.InStep role) (id : String)
    (opacity : Float) : (s.setOpacity id opacity).1.InStep role := by
  unfold Shelf.setOpacity
  split
  · exact h
  · have hspecs : (updateFirst (fun spec => spec.id == id)
        (LayerSpec.setOpacity (clampOpacity opacity)) s.specs).map LayerSpec.id =
        s.specs.map LayerSpec.id := map_updateFirst (LayerSpec.id_setOpacity _) _
    have hlayers : (updateFirst (fun l => l.id == id)
        (Layer.setOpacity (clampOpacity opacity)) s.layers).map Layer.id = s.ids :=
      map_updateFirst (Layer.id_setOpacity _) _
    refine { toPaired := h.toPaired.of_ids_perm (.of_eq hspecs) (.of_eq hlayers), mirrored := ?_,
             single := fun hrole => ?_ }
    · show ∀ l ∈ updateFirst _ _ s.layers, ∃ spec ∈ updateFirst _ _ s.specs, _
      rw [updateFirst_eq_map id _ h.layers_nodup, updateFirst_eq_map id _ h.specs_nodup]
      intro l' hl'
      obtain ⟨l, hl, rfl⟩ := List.mem_map.1 hl'
      obtain ⟨spec, hspec, hid, hvisible, hopacity⟩ := h.mirrored l hl
      refine ⟨_, List.mem_map.2 ⟨spec, hspec, rfl⟩, ?_⟩
      by_cases hk : l.id = id
      · rw [if_pos hk, if_pos (hid.trans hk)]
        exact ⟨hid, hvisible, rfl⟩
      · rw [if_neg hk, if_neg (fun he => hk (hid ▸ he))]
        exact ⟨hid, hvisible, hopacity⟩
    · refine Nat.le_trans (Nat.le_of_eq (countP_eq_of_map_eq ?_)) (h.single hrole)
      exact map_updateFirst (LayerSpec.visible_setOpacity _) _

/-- Telling the layers a time changes only their sources. -/
theorem map_layers_setTime {β : Type} {g : Layer → β} {interval : String}
    (h : ∀ l, g (Layer.setTime interval l) = g l) (s : Shelf) :
    (s.setTime interval).1.layers.map g = s.layers.map g := by
  refine List.foldlRecOn (motive := fun (layers : List Layer) => layers.map g = s.layers.map g)
    _ _ rfl ?_
  intro layers ih spec _
  rw [timeInto, map_updateFirst h, ih]

theorem InStep.setTime {role : Role} {s : Shelf} (h : s.InStep role) (interval : String) :
    (s.setTime interval).1.InStep role where
  toPaired := h.toPaired.of_ids_perm (.refl _) (.of_eq (map_layers_setTime (fun _ => rfl) s))
  mirrored := by
    intro l hl
    have hfaces : (s.setTime interval).1.layers.map Layer.face = s.layers.map Layer.face :=
      map_layers_setTime (fun _ => rfl) s
    have hmem : l.face ∈ s.layers.map Layer.face := by
      rw [← hfaces]
      exact List.mem_map_of_mem hl
    obtain ⟨old, hold, hface⟩ := List.mem_map.1 hmem
    obtain ⟨spec, hspec, hid, hvisible, hopacity⟩ := h.mirrored old hold
    have h1 : old.id = l.id := congrArg Prod.fst hface
    have h2 : old.visible = l.visible := congrArg (fun p => p.2.1) hface
    have h3 : old.opacity = l.opacity := congrArg (fun p => p.2.2) hface
    exact ⟨spec, hspec, hid.trans h1, h2 ▸ hvisible, h3 ▸ hopacity⟩
  single := h.single

end Shelf
end Atlas
