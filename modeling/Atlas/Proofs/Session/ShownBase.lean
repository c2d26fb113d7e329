import Atlas.Proofs.Layer.Permanence
import Atlas.Proofs.Session.BaseMaps
import Atlas.Proofs.Session.Periods

/-!
# The base map that is shown

A catalog names its base map after the visible base specification, and the map draws the visible
base layer. The two agree as far as layers go: with distinct ids, the base layer that is drawn is
always the one that is named, and the one that is named is drawn if it has a layer. A specification
without a layer can be chosen like any other, and is then named while nothing is drawn.

## Main statements

* `Shelf.InStep.find?_visible_iff`, `Shelf.InStep.exists_visible_iff` — what is named and what is
  drawn, by the visible specification
* `Session.drawsBase_iff` — after any messages a base map is drawn if it is named and has a layer
-/

namespace Atlas
namespace Shelf

/-! ## The visible specification -/

/-- Where ids are distinct and one specification is visible, the first visible one is the visible
one. -/
theorem InStep.find?_visible_iff {s : Shelf} (h : s.InStep .base) {id : String} :
    (s.specs.find? LayerSpec.visible).map LayerSpec.id = some id ↔
      ∃ spec ∈ s.specs, spec.id = id ∧ spec.visible = true := by
  constructor
  · intro hfind
    obtain ⟨spec, hspec, hid⟩ := Option.map_eq_some_iff.1 hfind
    exact ⟨spec, List.mem_of_find?_eq_some hspec, hid, List.find?_some hspec⟩
  · rintro ⟨spec, hspec, rfl, hvisible⟩
    have hmem : spec ∈ s.specs.filter LayerSpec.visible := List.mem_filter.2 ⟨hspec, hvisible⟩
    have hone : (s.specs.filter LayerSpec.visible).length ≤ 1 := by
      rw [← List.countP_eq_length_filter]
      exact h.single rfl
    obtain ⟨spec', hspec'⟩ := List.length_eq_one_iff.1
      (Nat.le_antisymm hone (List.length_pos_of_mem hmem))
    obtain rfl : spec = spec' := by rwa [hspec', List.mem_singleton] at hmem
    rw [← List.head?_filter, hspec', List.head?_cons, Option.map_some]

/-- A layer is visible if its specification is. -/
theorem InStep.exists_visible_iff {role : Role} {s : Shelf} (h : s.InStep role) {id : String} :
    (∃ l ∈ s.layers, l.id = id ∧ l.visible = true) ↔
      id ∈ s.ids ∧ ∃ spec ∈ s.specs, spec.id = id ∧ spec.visible = true := by
  constructor
  · rintro ⟨l, hl, rfl, hvisible⟩
    obtain ⟨spec, hspec, hid, hsame, -⟩ := h.mirrored l hl
    exact ⟨List.mem_map_of_mem hl, spec, hspec, hid, hsame.symm.trans hvisible⟩
  · rintro ⟨hid, spec, hspec, rfl, hvisible⟩
    obtain ⟨l, hl, hid⟩ := List.mem_map.1 hid
    obtain ⟨spec', hspec', hid', hsame, -⟩ := h.mirrored l hl
    obtain rfl : spec' = spec :=
      List.inj_on_of_nodup_map h.specs_nodup hspec' hspec (hid'.trans hid)
    exact ⟨l, hl, hid, hsame.trans hvisible⟩

/-- A new shelf has a layer with an id if a specification with the id can be drawn. -/
theorem mem_ids_build {role : Role} {specs : List LayerSpec} {id : String} :
    id ∈ (build role .geographic specs).ids ↔
      ∃ spec ∈ specs, spec.id = id ∧ spec.isDrawable = true := by
  have hids : (build role .geographic specs).ids =
      (specs.filter LayerSpec.isDrawable).map LayerSpec.id := by
    show ((settle role specs).filterMap (Layer.ofSpec? .geographic)).map Layer.id = _
    rw [map_id_filterMap_ofSpec?, funext (Layer.isSome_ofSpec? .geographic)]
    exact map_filter_settle (fun _ => rfl) (fun _ => rfl) role specs
  rw [hids, List.mem_map]
  constructor
  · rintro ⟨spec, hspec, hid⟩
    obtain ⟨hmem, hdrawable⟩ := List.mem_filter.1 hspec
    exact ⟨spec, hmem, hid, hdrawable⟩
  · rintro ⟨spec, hspec, hid, hdrawable⟩
    exact ⟨spec, List.mem_filter.2 ⟨hspec, hdrawable⟩, hid⟩

/-- Showing a base map makes its specification visible. -/
theorem InStep.exists_visible_show {s : Shelf} (h : s.InStep .base) {id : String}
    (hid : id ∈ s.specs.map LayerSpec.id) :
    ∃ spec ∈ (s.setVisible .base id true).1.specs, spec.id = id ∧ spec.visible = true := by
  obtain ⟨spec, hspec, rfl⟩ := List.mem_map.1 hid
  rw [Shelf.setVisible, if_pos (hasSpec_iff.2 hid)]
  show ∃ shown ∈ settle .base (s.specs.map (setSpecVisible .base spec.id true)), _
  rw [settle_map_setSpecVisible_of_nodup h.specs_nodup]
  refine ⟨spec.setVisible true, List.mem_map.2 ⟨spec, hspec, ?_⟩, rfl, rfl⟩
  exact if_pos rfl

end Shelf

namespace Session

variable {σ : Type}

/-! ## What is drawn -/

/-- Whether the map draws a base layer with an id. -/
def DrawsBase (m : Session σ) (id : String) : Prop :=
  ∃ l ∈ m.catalog.layers .base, l.id = id ∧ l.visible = true

instance (m : Session σ) (id : String) : Decidable (m.DrawsBase id) :=
  inferInstanceAs (Decidable (∃ l ∈ m.catalog.layers .base, l.id = id ∧ l.visible = true))

variable [FileSaver σ] {s : Settings} (store : σ)

theorem inStep_base_receiveAll (hids : (s.base.map LayerSpec.id).Nodup) (msgs : List Message) :
    ((mount s store).receiveAll msgs).catalog.base.InStep .base := by
  have hmount : ((mount s store).catalog.shelf .base).InStep .base :=
    Shelf.inStep_build .base .geographic hids
  rw [catalog_receiveAll]
  exact Catalog.inStep_shelf_foldl hmount ((mount s store).operations msgs)

/-- After any messages there is a base layer for each specification that can be drawn. -/
theorem mem_ids_base_receiveAll (msgs : List Message) {id : String} :
    id ∈ ((mount s store).receiveAll msgs).catalog.base.ids ↔
      ∃ spec ∈ s.base, spec.id = id ∧ spec.isDrawable = true := by
  have hperm : ((mount s store).receiveAll msgs).catalog.base.ids.Perm
      (mount s store).catalog.base.ids := by
    rw [catalog_receiveAll]
    exact Catalog.ids_foldl_perm (mount s store).catalog _ .base
  exact hperm.mem_iff.trans Shelf.mem_ids_build

/-- After any messages the specifications of the base maps have the ids of the settings. -/
theorem map_id_base_receiveAll (msgs : List Message) :
    ((mount s store).receiveAll msgs).catalog.base.specs.map LayerSpec.id =
      s.base.map LayerSpec.id := by
  have hids : ∀ specs : List LayerSpec,
      (specs.map LayerSpec.unshown).map LayerSpec.id = specs.map LayerSpec.id :=
    fun specs => List.map_map ..
  have hspecs := Catalog.specs_foldl (mount s store).catalog ((mount s store).operations msgs) .base
  rw [← catalog_receiveAll, specs_mount] at hspecs
  have hmap := congrArg (List.map LayerSpec.id) hspecs
  rwa [hids, hids] at hmap

/-- **After any messages a base map is drawn if it is the one that is named and has a layer.** What
is named is what is drawn throughout if and only if every base map has a layer. -/
theorem drawsBase_iff (hids : (s.base.map LayerSpec.id).Nodup) :
    (∀ msgs id, ((mount s store).receiveAll msgs).DrawsBase id ↔
        ((mount s store).receiveAll msgs).catalog.visibleBase? = some id ∧
          ∃ spec ∈ s.base, spec.id = id ∧ spec.isDrawable = true) ∧
      ((∀ msgs id, ((mount s store).receiveAll msgs).catalog.visibleBase? = some id ↔
          ((mount s store).receiveAll msgs).DrawsBase id) ↔
        ∀ spec ∈ s.base, spec.isDrawable = true) := by
  have hdraws : ∀ msgs id, ((mount s store).receiveAll msgs).DrawsBase id ↔
      ((mount s store).receiveAll msgs).catalog.visibleBase? = some id ∧
        ∃ spec ∈ s.base, spec.id = id ∧ spec.isDrawable = true := by
    intro msgs id
    have hstep := inStep_base_receiveAll store hids msgs
    rw [← mem_ids_base_receiveAll store msgs, and_comm, Catalog.visibleBase?,
      hstep.find?_visible_iff]
    exact hstep.exists_visible_iff
  refine ⟨hdraws, ?_, ?_⟩
  · intro hsame spec hspec
    -- the message that shows the base map makes it the one that is named
    have hid : spec.id ∈ ((mount s store).receiveAll []).catalog.base.specs.map LayerSpec.id := by
      rw [map_id_base_receiveAll]
      exact List.mem_map_of_mem hspec
    have hshown := (inStep_base_receiveAll store hids []).exists_visible_show hid
    have hnamed : ((mount s store).receiveAll [showBase spec.id]).catalog.visibleBase? =
        some spec.id := by
      have hstep := inStep_base_receiveAll store hids [showBase spec.id]
      rw [Catalog.visibleBase?, hstep.find?_visible_iff]
      show ∃ shown ∈ ((mount s store).receive (showBase spec.id)).catalog.base.specs, _
      rw [catalog_receive_showBase]
      exact hshown
    obtain ⟨-, drawn, hmem, hsame, hdrawable⟩ := (hdraws _ _).1 ((hsame _ _).1 hnamed)
    obtain rfl : drawn = spec := List.inj_on_of_nodup_map hids hmem hspec hsame
    exact hdrawable
  · intro hall msgs id
    rw [hdraws]
    refine ⟨fun hnamed => ⟨hnamed, ?_⟩, And.left⟩
    obtain ⟨spec, hspec, hid, -⟩ :=
      (inStep_base_receiveAll store hids msgs).find?_visible_iff.1 hnamed
    have hmem : id ∈ s.base.map LayerSpec.id := by
      rw [← map_id_base_receiveAll store msgs, ← hid]
      exact List.mem_map_of_mem hspec
    obtain ⟨spec', hspec', hid'⟩ := List.mem_map.1 hmem
    exact ⟨spec', hspec', hid', hall spec' hspec'⟩

/-- A message shows a base map that has no layer, and the one that was drawn is hidden. -/
theorem drawsBase_after_showing :
    let terrain :=
      { LayerSpec.create "terrain" .wmts ["https://t.example/wmts"] with visible := true }
    let streets := LayerSpec.create "streets" (.unsupported "XYZ") ["https://s.example/tiles"]
    let s := { Settings.standard with base := [terrain, streets] }
    let m := mount s Store.refusing
    (s.base.map LayerSpec.id).Nodup ∧ m.DrawsBase "terrain" ∧
      ¬ (m.receiveAll [showBase "streets"]).DrawsBase "terrain" := by
  intro terrain streets s m
  have hids : (s.base.map LayerSpec.id).Nodup := by decide
  obtain ⟨hdraws, -⟩ := drawsBase_iff Store.refusing hids
  exact ⟨hids, (hdraws [] "terrain").2 (by decide +kernel),
    fun hdrawn => absurd ((hdraws [showBase "streets"] "terrain").1 hdrawn) (by decide +kernel)⟩

/-- The base map that is named from the start has no layer, so nothing is drawn. -/
theorem named_but_not_drawn :
    let streets :=
      { LayerSpec.create "streets" (.unsupported "XYZ") ["https://s.example/tiles"] with
        visible := true }
    let s := { Settings.standard with base := [streets] }
    let m := (mount s Store.refusing).receiveAll []
    (s.base.map LayerSpec.id).Nodup ∧ m.catalog.layers .base = [] ∧
      ¬ (m.catalog.visibleBase? = some "streets" ↔ m.DrawsBase "streets") := by
  decide +kernel

end Session
end Atlas
