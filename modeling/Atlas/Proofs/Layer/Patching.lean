import Atlas.Proofs.Layer.Repeating
import Atlas.Proofs.Layer.Timing

/-!
# Changes of a shelf that may be swapped

What can be done to a shelf in two orders with the same result. Nothing is asked of the shelf but
that no id stands twice on it: its layers need not show what the specifications say, and some of
them may have no specification.

Some changes are followed by mirroring: showing a specification, sorting the layers, and doing
nothing. Mirroring overwrites what it has written before, so of two such changes only the last
mirroring counts. Other changes write into both lists by id, or into the sources. They are patches,
and can be swapped with mirroring, sorting and showing one by one.

## Main statements

* `Shelf.Preparation.swap` — of two changes that are followed by mirroring, either may come first
* `Shelf.Pointwise.patch` — writing into specifications and layers one by one is a patch
* `Shelf.Patch.setVisible`, `Shelf.Patch.reorder` — a patch may come before or after them
-/

namespace Atlas

/-! ## What mirroring sees -/

/-- What is done to each specification can be done before or after bringing them in order, if it
leaves alone what is visible. -/
theorem settle_map {f : LayerSpec → LayerSpec} (hvisible : ∀ spec, (f spec).visible = spec.visible)
    (hhide : ∀ spec, (f spec).hide = f spec.hide) (role : Role) (specs : List LayerSpec) :
    settle role (specs.map f) = (settle role specs).map f := by
  unfold settle
  split
  · induction specs with
    | nil => rfl
    | cons spec specs ih =>
      rw [List.map_cons, keepFirstVisible, keepFirstVisible, hvisible]
      split
      · rw [List.map_cons, List.map_map, List.map_map]
        exact congrArg _ (List.map_congr_left fun spec _ => hhide spec)
      · rw [List.map_cons, ih]
  · rfl

/-- Showing or hiding a layer does not depend on what was visible on the base shelf before. -/
theorem settle_map_setSpecVisible (role : Role) (id : String) (visible : Bool)
    (specs : List LayerSpec) :
    settle role ((settle role specs).map (Shelf.setSpecVisible role id visible)) =
      settle role (specs.map (Shelf.setSpecVisible role id visible)) := by
  by_cases hrole : role = .base
  · subst hrole
    have hhidden : (settle .base specs).map LayerSpec.hide = specs.map LayerSpec.hide :=
      map_settle hide_hide .base specs
    cases visible with
    | false => rw [settle_hideSpec, settle_hideSpec, hhidden]
    | true => rw [settle_showSpec, settle_showSpec, hhidden]
  · have hsettle : settle role specs = specs := if_neg hrole
    rw [hsettle]

namespace Layer

variable {specs specs' : List LayerSpec}

@[simp] theorem id_follow (specs : List LayerSpec) (layer : Layer) :
    (layer.follow specs).id = layer.id := by
  rw [follow]
  split
  · exact id_mirror _ _
  · rfl

theorem mirror_follow (specs : List LayerSpec) (spec : LayerSpec) (layer : Layer) :
    (layer.follow specs).mirror spec = layer.mirror spec := by
  rw [follow]
  split
  · rfl
  · rfl

/-- A layer that follows two lists with the same ids shows what the later one says. -/
theorem follow_follow (hids : (specs'.map LayerSpec.id).Nodup)
    (h : specs'.map LayerSpec.id = specs.map LayerSpec.id) (layer : Layer) :
    (layer.follow specs).follow specs' = layer.follow specs' := by
  by_cases hmem : layer.id ∈ specs'.map LayerSpec.id
  · obtain ⟨spec, hspec, hid⟩ := List.mem_map.1 hmem
    rw [follow_of_mem hids hspec hid, follow_of_mem hids hspec (hid.trans (id_follow _ _).symm),
      mirror_follow]
  · have hmem' : layer.id ∉ specs.map LayerSpec.id := h ▸ hmem
    rw [follow_of_notMem hmem']

end Layer

namespace Shelf

/-! ## Shelves with the same ids -/

/-- Two shelves have the same specifications but for their look, and the ids of their layers are
the same but for their order. -/
structure Alike (s s' : Shelf) : Prop where
  specs : s'.specs.map LayerSpec.unshown = s.specs.map LayerSpec.unshown
  ids : s'.ids.Perm s.ids

theorem Relooks.alike {s s' : Shelf} (h : s.Relooks s') : s.Alike s' where
  specs := h.specs
  ids := by
    have hperm := h.layers.map Layer.id
    rwa [List.map_map, List.map_map] at hperm

theorem alike_setTime (interval : String) (s : Shelf) : s.Alike (s.setTime interval).1 :=
  ⟨rfl, .of_eq (map_layers_setTime (fun _ => rfl) s)⟩

/-- What does not look at visibility and opacity is the same for specifications but for their
look. -/
theorem Alike.map_specs {s s' : Shelf} (h : s.Alike s') {β : Type} {g : LayerSpec → β}
    (hg : ∀ spec, g spec.unshown = g spec) : s'.specs.map g = s.specs.map g := by
  have hmap := congrArg (List.map g) h.specs
  rw [List.map_map, List.map_map] at hmap
  rwa [show g ∘ LayerSpec.unshown = g from funext hg] at hmap

theorem Alike.distinct {s s' : Shelf} (h : s.Alike s') (hs : s.Distinct) : s'.Distinct :=
  hs.of_ids_perm (.of_eq (h.map_specs fun _ => rfl)) h.ids

theorem Alike.hasSpec {s s' : Shelf} (h : s.Alike s') (id : String) :
    s'.hasSpec id = s.hasSpec id := by
  rw [Bool.eq_iff_iff, hasSpec_iff, hasSpec_iff, h.map_specs fun _ => rfl]

theorem isSome_layer? (s : Shelf) (id : String) : (s.layer? id).isSome = decide (id ∈ s.ids) := by
  rw [Bool.eq_iff_iff, layer?, List.find?_isSome, decide_eq_true_iff]
  simp [ids]

theorem Alike.isSome_layer? {s s' : Shelf} (h : s.Alike s') (id : String) :
    (s'.layer? id).isSome = (s.layer? id).isSome := by
  rw [Shelf.isSome_layer?, Shelf.isSome_layer?]
  exact decide_eq_decide.2 h.ids.mem_iff

/-! ## Mirroring and sorting -/

section

variable {s : Shelf} (h : s.Distinct)
include h

theorem Distinct.sync_eq (role : Role) : s.sync role =
    ⟨settle role s.specs, s.layers.map (Layer.follow (settle role s.specs))⟩ :=
  congrArg (Shelf.mk _) (layers_sync role h.specs_nodup h.layers_nodup)

theorem Distinct.setTime_eq (interval : String) : (s.setTime interval).1 =
    ⟨s.specs, s.layers.map (fun l => if s.isTimed l then l.setTime interval else l)⟩ :=
  congrArg (Shelf.mk _) (layers_setTime h interval)

end

/-- What is done to each layer can be done before or after sorting, if it leaves the ids alone. -/
theorem mergeSort_map {specs specs' : List LayerSpec}
    (hspecs : specs'.map LayerSpec.id = specs.map LayerSpec.id) {f : Layer → Layer}
    (hf : ∀ l, (f l).id = l.id) (layers : List Layer) :
    (layers.map f).mergeSort (mayLieBelow specs') =
      (layers.mergeSort (mayLieBelow specs)).map f := by
  refine (List.map_mergeSort fun a _ b _ => ?_).symm
  rw [mayLieBelow, mayLieBelow, rank?_congr hspecs, hf, hf]

theorem Distinct.sync {s : Shelf} (h : s.Distinct) (role : Role) : (s.sync role).Distinct :=
  (restyles_sync role s).relooks.alike.distinct h

theorem Distinct.sort {s : Shelf} (h : s.Distinct) : s.sort.Distinct :=
  (relooks_sort s).alike.distinct h

/-- Layers may mirror their specifications before or after they are sorted. -/
theorem Distinct.sort_sync {s : Shelf} (h : s.Distinct) (role : Role) :
    (s.sync role).sort = s.sort.sync role := by
  rw [h.sync_eq, h.sort.sync_eq]
  exact congrArg (Shelf.mk _)
    (mergeSort_map (map_id_settle role s.specs) (Layer.id_follow _) s.layers)

/-! ## Changes that are followed by mirroring -/

/-- Shows or hides the specifications with an id, without letting the layers mirror them. -/
def showSpecs (role : Role) (id : String) (visible : Bool) (s : Shelf) : Shelf :=
  { s with specs := s.specs.map (setSpecVisible role id visible) }

theorem setVisible_eq (role : Role) (id : String) (visible : Bool) (s : Shelf) :
    (s.setVisible role id visible).1 =
      if s.hasSpec id then (s.showSpecs role id visible).sync role else s := by
  rw [setVisible]
  split
  · rfl
  · rfl

theorem alike_showSpecs (role : Role) (id : String) (visible : Bool) (s : Shelf) :
    s.Alike (s.showSpecs role id visible) where
  specs := by
    rw [showSpecs, List.map_map]
    exact List.map_congr_left fun spec _ => unshown_setSpecVisible role id visible spec
  ids := .refl _

/-- A change that is followed by mirroring: it does not matter whether the layers mirrored their
specifications before it. -/
structure Preparation (role : Role) (f : Shelf → Shelf) : Prop where
  alike : ∀ s : Shelf, s.Alike (f s)
  sync_sync : ∀ s : Shelf, s.Distinct → (f (s.sync role)).sync role = (f s).sync role

theorem preparation_id (role : Role) : Preparation role id where
  alike s := (Relooks.refl s).alike
  sync_sync s _ := Shelf.sync_sync role s

theorem preparation_sort (role : Role) : Preparation role sort where
  alike s := (relooks_sort s).alike
  sync_sync s h := by rw [h.sort_sync, Shelf.sync_sync]

theorem preparation_showSpecs (role : Role) (id : String) (visible : Bool) :
    Preparation role (showSpecs role id visible) where
  alike := alike_showSpecs role id visible
  sync_sync s h := by
    have hshown : ∀ s : Shelf, s.Distinct → (s.showSpecs role id visible).Distinct :=
      fun s => (alike_showSpecs role id visible s).distinct
    rw [(hshown _ (h.sync role)).sync_eq, (hshown s h).sync_eq, h.sync_eq]
    simp only [showSpecs, settle_map_setSpecVisible, List.map_map]
    refine congrArg (Shelf.mk _) (List.map_congr_left fun l _ => Layer.follow_follow ?_ ?_ l)
    · rw [map_id_settle]
      exact (hshown s h).specs_nodup
    · rw [map_id_settle, map_id_settle, List.map_map]
      exact List.map_congr_left fun spec _ => id_setSpecVisible role id visible spec

/-- **Of two changes that are followed by mirroring, either may come first,** if either may without
the mirroring. -/
theorem Preparation.swap {role : Role} {f g : Shelf → Shelf} (hf : Preparation role f)
    (hg : Preparation role g) {s : Shelf} (h : s.Distinct) (hfg : g (f s) = f (g s)) :
    (g ((f s).sync role)).sync role = (f ((g s).sync role)).sync role := by
  rw [hg.sync_sync _ ((hf.alike s).distinct h), hfg,
    hf.sync_sync _ ((hg.alike s).distinct h)]

/-! ## Patches -/

/-- A change that may come before or after mirroring, sorting and showing. -/
structure Patch (role : Role) (f : Shelf → Shelf) : Prop where
  alike : ∀ s : Shelf, s.Alike (f s)
  sync : ∀ s : Shelf, s.Distinct → (f s).sync role = f (s.sync role)
  sort : ∀ s : Shelf, s.Distinct → (f s).sort = f s.sort
  showSpecs : ∀ (s : Shelf) (id : String) (visible : Bool), s.Distinct →
    (f s).showSpecs role id visible = f (s.showSpecs role id visible)

section

variable {role : Role} {f : Shelf → Shelf} (hf : Patch role f) {s : Shelf} (h : s.Distinct)
include hf h

theorem Patch.reorder : (f s).reorder role = f (s.reorder role) := by
  rw [Shelf.reorder, Shelf.reorder, hf.sort s h, hf.sync _ h.sort]

theorem Patch.setVisible (id : String) (visible : Bool) :
    ((f s).setVisible role id visible).1 = f (s.setVisible role id visible).1 := by
  rw [setVisible_eq, setVisible_eq, (hf.alike s).hasSpec]
  split
  · rw [hf.showSpecs s id visible h,
      hf.sync _ ((alike_showSpecs role id visible s).distinct h)]
  · rfl

end

/-- A change that writes into the specifications and the layers one by one, by their ids, and not
into what is visible. What is written into a layer that mirrors a specification is what the layer
would mirror. -/
structure Pointwise (f : Shelf → Shelf) (g : LayerSpec → LayerSpec) (k : Shelf → Layer → Layer) :
    Prop where
  alike : ∀ s : Shelf, s.Alike (f s)
  eq : ∀ s : Shelf, s.Distinct → f s = ⟨s.specs.map g, s.layers.map (k s)⟩
  congr : ∀ s s' : Shelf, s.Alike s' → k s' = k s
  id_spec : ∀ spec, (g spec).id = spec.id
  id_layer : ∀ s l, (k s l).id = l.id
  setVisible : ∀ visible spec, g (spec.setVisible visible) = (g spec).setVisible visible
  mirror : ∀ (s : Shelf) spec l, s.hasSpec l.id = true → spec.id = l.id →
    (k s l).mirror (g spec) = k s (l.mirror spec)

section

variable {f f' : Shelf → Shelf} {g g' : LayerSpec → LayerSpec} {k k' : Shelf → Layer → Layer}

theorem Pointwise.map_id (hf : Pointwise f g k) (specs : List LayerSpec) :
    (specs.map g).map LayerSpec.id = specs.map LayerSpec.id := by
  rw [List.map_map]
  exact List.map_congr_left fun spec _ => hf.id_spec spec

theorem Pointwise.follow (hf : Pointwise f g k) {s : Shelf} (h : s.Distinct)
    {specs : List LayerSpec} (hids : specs.map LayerSpec.id = s.specs.map LayerSpec.id)
    (l : Layer) : (k s l).follow (specs.map g) = k s (l.follow specs) := by
  have hnodup : (specs.map LayerSpec.id).Nodup := hids ▸ h.specs_nodup
  by_cases hmem : l.id ∈ specs.map LayerSpec.id
  · obtain ⟨spec, hspec, hid⟩ := List.mem_map.1 hmem
    have hid' : (g spec).id = (k s l).id := by rw [hf.id_spec, hf.id_layer, hid]
    rw [Layer.follow_of_mem hnodup hspec hid, Layer.follow_of_mem ((hf.map_id specs).symm ▸ hnodup)
      (List.mem_map_of_mem hspec) hid']
    exact hf.mirror s spec l (hasSpec_iff.2 (hids ▸ hmem)) hid
  · have hmem' : (k s l).id ∉ (specs.map g).map LayerSpec.id := by
      rw [hf.map_id, hf.id_layer]
      exact hmem
    rw [Layer.follow_of_notMem hmem, Layer.follow_of_notMem hmem']

theorem Pointwise.settle (hf : Pointwise f g k) (role : Role) (specs : List LayerSpec) :
    settle role (specs.map g) = (settle role specs).map g := by
  refine settle_map (fun spec => ?_) (fun spec => (hf.setVisible false spec).symm) role specs
  -- a specification is shown as it is already
  exact (congrArg LayerSpec.visible (hf.setVisible spec.visible spec) :)

theorem Pointwise.setSpecVisible (hf : Pointwise f g k) (role : Role) (id : String)
    (visible : Bool) (spec : LayerSpec) :
    setSpecVisible role id visible (g spec) = g (setSpecVisible role id visible spec) := by
  have hid := hf.id_spec spec
  rw [Shelf.setSpecVisible, Shelf.setSpecVisible]
  split
  · next h =>
    rw [if_pos (hid.symm.trans h)]
    exact (hf.setVisible visible spec).symm
  · next h =>
    rw [if_neg (fun h' => h (hid.trans h'))]
    split
    · exact (hf.setVisible false spec).symm
    · rfl

/-- **Writing into specifications and layers one by one is a patch.** -/
theorem Pointwise.patch (hf : Pointwise f g k) (role : Role) : Patch role f where
  alike := hf.alike
  sync s h := by
    rw [((hf.alike s).distinct h).sync_eq, hf.eq _ (h.sync role),
      hf.congr _ _ (restyles_sync role s).relooks.alike, hf.eq s h, h.sync_eq]
    simp only [hf.settle, List.map_map]
    exact congrArg (Shelf.mk _)
      (List.map_congr_left fun l _ => hf.follow h (map_id_settle role s.specs) l)
  sort s h := by
    rw [hf.eq _ h.sort, hf.congr _ _ (relooks_sort s).alike, hf.eq s h]
    exact congrArg (Shelf.mk _) (mergeSort_map (hf.map_id s.specs) (hf.id_layer s) s.layers)
  showSpecs s id visible h := by
    have hshown := alike_showSpecs role id visible s
    rw [hf.eq _ (hshown.distinct h), hf.congr _ _ hshown, hf.eq s h]
    simp only [showSpecs, List.map_map]
    exact congrArg (Shelf.mk · _)
      (List.map_congr_left fun spec _ => hf.setSpecVisible role id visible spec)

/-- Two changes that write one by one may be swapped if what they write may be. -/
theorem Pointwise.swap (hf : Pointwise f g k) (hf' : Pointwise f' g' k') {s : Shelf}
    (h : s.Distinct) (hspecs : ∀ spec, g' (g spec) = g (g' spec))
    (hlayers : ∀ l, k' s (k s l) = k s (k' s l)) : f' (f s) = f (f' s) := by
  rw [hf'.eq _ ((hf.alike s).distinct h), hf.eq _ ((hf'.alike s).distinct h),
    hf'.congr _ _ (hf.alike s), hf.congr _ _ (hf'.alike s), hf.eq s h, hf'.eq s h]
  simp only [List.map_map]
  exact congrArg₂ Shelf.mk (List.map_congr_left fun spec _ => hspecs spec)
    (List.map_congr_left fun l _ => hlayers l)

end

theorem Alike.isTimed {s s' : Shelf} (h : s.Alike s') (l : Layer) : s'.isTimed l = s.isTimed l := by
  have hany : ∀ s : Shelf, s.isTimed l = (s.specs.map
      (fun spec => (spec.id, spec.timeEnabled))).any (fun row => row.1 == l.id && row.2) := by
    intro s
    rw [List.any_map]
    rfl
  rw [hany, hany, h.map_specs fun _ => rfl]

theorem pointwise_setTime (interval : String) : Pointwise (fun s => (s.setTime interval).1) id
    (fun s l => if s.isTimed l then l.setTime interval else l) where
  alike := alike_setTime interval
  eq s h := by rw [List.map_id, h.setTime_eq]
  congr s s' h := by
    funext l
    rw [h.isTimed]
  id_spec _ := rfl
  id_layer s l := by
    split
    · rfl
    · rfl
  setVisible _ _ := rfl
  mirror s spec l _ _ := by
    have htimed : s.isTimed (l.mirror spec) = s.isTimed l := rfl
    rw [htimed]
    split
    · rfl
    · rfl

theorem pointwise_setOpacity {opacity : Float} (hnumber : opacity.isNaN = false) (id : String) :
    Pointwise (fun s => (s.setOpacity id opacity).1)
      (fun spec => if spec.id = id then spec.setOpacity (clampOpacity opacity) else spec)
      (fun s l => if l.id = id ∧ s.hasSpec id = true then l.setOpacity (clampOpacity opacity)
        else l) where
  alike s := (restyles_setOpacity id opacity s).relooks.alike
  eq s h := by
    rw [setOpacity, hnumber, Bool.false_or]
    cases hid : s.hasSpec id with
    | false =>
      have hspecs : ∀ spec ∈ s.specs, spec.id ≠ id := by
        intro spec hspec he
        have hmem : id ∈ s.specs.map LayerSpec.id := List.mem_map.2 ⟨spec, hspec, he⟩
        rw [hasSpec_iff.2 hmem] at hid
        cases hid
      have hsame : s.specs.map (fun spec => if spec.id = id then
          spec.setOpacity (clampOpacity opacity) else spec) = s.specs :=
        (List.map_congr_left fun spec hspec => if_neg (hspecs spec hspec)).trans (List.map_id _)
      simp [hsame]
    | true =>
      simp only [updateFirst_eq_map id _ h.specs_nodup, updateFirst_eq_map id _ h.layers_nodup]
      simp
  congr s s' h := by
    funext l
    rw [h.hasSpec]
  id_spec spec := by
    split
    · rfl
    · rfl
  id_layer s l := by
    split
    · rfl
    · rfl
  setVisible visible spec := by
    have hid : (spec.setVisible visible).id = spec.id := rfl
    rw [hid]
    split
    · rfl
    · rfl
  mirror s spec l hspec hid := by
    have hid' : (l.mirror spec).id = l.id := rfl
    rw [hid, hid']
    by_cases hl : l.id = id
    · rw [hl] at hspec
      rw [if_pos hl, if_pos ⟨hl, hspec⟩, if_pos ⟨hl, hspec⟩]
      rfl
    · rw [if_neg hl, if_neg (fun h => hl h.1), if_neg (fun h => hl h.1)]

theorem patch_id (role : Role) : Patch role fun s => s where
  alike s := (Relooks.refl s).alike
  sync _ _ := rfl
  sort _ _ := rfl
  showSpecs _ _ _ _ := rfl

/-! ## Answers -/

theorem setVisible_snd (role : Role) (id : String) (visible : Bool) (s : Shelf) :
    (s.setVisible role id visible).2 = s.hasSpec id := by
  rw [setVisible]
  cases s.hasSpec id with
  | false | true => rfl

theorem Alike.setOpacity_snd {s s' : Shelf} (h : s.Alike s') (id : String) (opacity : Float) :
    (s'.setOpacity id opacity).2 = (s.setOpacity id opacity).2 := by
  rw [setOpacity, setOpacity, h.hasSpec]
  split
  · rfl
  · exact h.isSome_layer? id

theorem Alike.setTime_snd {s s' : Shelf} (h : s.Alike s') (interval : String) :
    (s'.setTime interval).2 = (s.setTime interval).2 := by
  have hcount : ∀ t : Shelf, (∀ id, (t.layer? id).isSome = (s.layer? id).isSome) →
      (t.setTime interval).2 = (t.specs.map (fun spec => (spec.id, spec.timeEnabled))).countP
        (fun row => (s.layer? row.1).isSome && row.2) := by
    intro t ht
    rw [List.countP_map]
    show (t.specs.filter LayerSpec.timeEnabled).countP (fun spec => (t.layer? spec.id).isSome) = _
    rw [List.countP_filter]
    simp only [ht]
    rfl
  rw [hcount s' h.isSome_layer?, hcount s fun _ => rfl, h.map_specs fun _ => rfl]

end Shelf

end Atlas
