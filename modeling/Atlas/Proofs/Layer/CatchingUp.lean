import Atlas.Layer.Edit
import Atlas.Proofs.Layer.Covering
import Atlas.Proofs.Layer.Permanence
import Atlas.Proofs.Layer.Stacking

/-!
# Layers catch up with an edit

The specifications of a role may be edited in any way, and then its layers are told to mirror them,
sorted or in their old order. Mirroring goes through the specifications and finds the first layer
with the id of each. So it reaches neither a layer whose specification was taken away nor one that
stands behind another one with its id, and such a layer is drawn as it was before the edit.

Where no two layers have the same id, an edit that moves, adds and changes specifications leaves no
layer behind. After an edit that takes away the specification of a visible layer the map shows a
layer that no specification shows, on the base shelf besides the chosen base map.

## Main statements

* `Shelf.mem_covered_sort` — sorting leaves the layers behind that were left behind before
* `Shelf.drawsOnlyShown_sync_iff` — mirroring is enough if the layers out of its reach are in order
* `Catalog.drawsOnlyShown_iff` — after which edits only layers are drawn that specifications show
-/

namespace Atlas

/-- One of the specifications has the id of the layer and is visible. -/
def Layer.ShownBy (specs : List LayerSpec) (l : Layer) : Prop :=
  ∃ spec ∈ specs, spec.id = l.id ∧ spec.visible = true

instance (specs : List LayerSpec) (l : Layer) : Decidable (l.ShownBy specs) :=
  inferInstanceAs (Decidable (∃ spec ∈ specs, spec.id = l.id ∧ spec.visible = true))

theorem Layer.ShownBy.mem_map_id {specs : List LayerSpec} {l : Layer} (h : l.ShownBy specs) :
    l.id ∈ specs.map LayerSpec.id := by
  obtain ⟨spec, hspec, hid, -⟩ := h
  exact List.mem_map.2 ⟨spec, hspec, hid⟩

/-- A visible layer that follows a specification is shown by it. -/
theorem Layer.shownBy_follow {specs : List LayerSpec} {l : Layer}
    (hids : (specs.map LayerSpec.id).Nodup) (hid : l.id ∈ specs.map LayerSpec.id)
    (hvisible : (l.follow specs).visible = true) : (l.follow specs).ShownBy specs := by
  obtain ⟨spec, hspec, hid⟩ := List.mem_map.1 hid
  rw [follow_of_mem hids hspec hid] at hvisible ⊢
  exact ⟨spec, hspec, hid, hvisible⟩

namespace Shelf

/-- Every visible layer is shown by a specification. -/
def DrawsOnlyShown (s : Shelf) : Prop := ∀ l ∈ s.layers, l.visible = true → l.ShownBy s.specs

instance (s : Shelf) : Decidable s.DrawsOnlyShown :=
  inferInstanceAs (Decidable (∀ l ∈ s.layers, l.visible = true → l.ShownBy s.specs))

/-- Mirroring does not reach a layer: it has no specification or stands behind another layer with
its id. -/
def Unreached (s : Shelf) (l : Layer) : Prop :=
  l.id ∉ s.specs.map LayerSpec.id ∨ l ∈ s.covered

/-! ## Covered layers -/

theorem mem_leadingFrom_or_mem_coveredFrom (ids : List String) {layers : List Layer} {l : Layer} :
    l ∈ leadingFrom ids layers ∨ l ∈ coveredFrom ids layers ↔ l ∈ layers := by
  induction layers generalizing ids with
  | nil => simp [leadingFrom, coveredFrom]
  | cons l' ls ih =>
    rw [leadingFrom, coveredFrom, List.mem_cons]
    split
    · rw [List.mem_cons, ← ih ids, or_left_comm]
    · rw [List.mem_cons, ← ih (l'.id :: ids), or_assoc]

theorem mem_leading_or_mem_covered {s : Shelf} {l : Layer} :
    l ∈ s.leading ∨ l ∈ s.covered ↔ l ∈ s.layers :=
  mem_leadingFrom_or_mem_coveredFrom []

theorem filter_coveredFrom (id : String) (ids : List String) (layers : List Layer) :
    (coveredFrom ids layers).filter (fun l => l.id = id) =
      if id ∈ ids then layers.filter (fun l => l.id = id)
      else (layers.filter (fun l => l.id = id)).tail := by
  induction layers generalizing ids with
  | nil => simp [coveredFrom]
  | cons l ls ih =>
    rw [coveredFrom]
    by_cases hl : l.id = id
    · rw [List.filter_cons_of_pos (by simpa using hl)]
      by_cases hid : id ∈ ids
      · rw [if_pos (hl ▸ hid), if_pos hid, List.filter_cons_of_pos (by simpa using hl), ih,
          if_pos hid]
      · -- the layer leads, and those behind it are covered from here on
        rw [if_neg (hl ▸ hid), if_neg hid, ih, if_pos (hl ▸ List.mem_cons_self), List.tail_cons]
    · rw [List.filter_cons_of_neg (by simpa using hl)]
      split
      · rw [List.filter_cons_of_neg (by simpa using hl), ih]
      · simp only [ih, List.mem_cons, Ne.symm hl, false_or]

/-- **The covered layers with an id are those behind the first one.** -/
theorem mem_covered_iff {s : Shelf} {l : Layer} :
    l ∈ s.covered ↔ l ∈ (s.layers.filter (fun l' => l'.id = l.id)).tail := by
  have hfilter := filter_coveredFrom l.id [] s.layers
  rw [if_neg List.not_mem_nil] at hfilter
  rw [← hfilter, List.mem_filter, covered]
  simp

/-- **Sorting leaves the layers behind that were left behind before.** -/
theorem mem_covered_sort {s : Shelf} {l : Layer} : l ∈ s.sort.covered ↔ l ∈ s.covered := by
  rw [mem_covered_iff, mem_covered_iff, filter_id_sort]

theorem notMem_covered {s : Shelf} (h : s.ids.Nodup) (l : Layer) : l ∉ s.covered := by
  intro hl
  have hmem : l ∈ s.layers := mem_leading_or_mem_covered.1 (.inr hl)
  have hone : s.layers.filter (fun l' => l'.id = l.id) = [l] := filter_key_eq_singleton h hmem
  rw [mem_covered_iff, hone] at hl
  exact List.not_mem_nil hl

/-! ## Mirroring and sorting -/

section
variable {s : Shelf} (role : Role)

/-- **Mirroring is enough if the layers out of its reach are in order.** -/
theorem drawsOnlyShown_sync_iff (h : (s.specs.map LayerSpec.id).Nodup) :
    (s.sync role).DrawsOnlyShown ↔ ∀ l ∈ s.layers, s.Unreached l → l.visible = true →
      l.ShownBy (settle role s.specs) := by
  have hids : ((settle role s.specs).map LayerSpec.id).Nodup := by
    rw [map_id_settle]
    exact h
  have hleading : (s.sync role).leading = s.leading.map (Layer.follow (settle role s.specs)) := by
    rw [leading_sync, funext (Layer.mirrorAll_eq_follow hids)]
  have hcovered : ∀ l ∈ s.covered, l ∈ (s.sync role).layers := fun l hl =>
    mem_leading_or_mem_covered.1 (.inr (covered_sync role s ▸ hl))
  constructor
  · rintro hsync l hl hunreached
    rcases mem_leading_or_mem_covered.2 hl with hl | hl
    · rcases hunreached with hunknown | hl
      · -- a layer without a specification follows none
        refine hsync l (mem_leading_or_mem_covered.1 (.inl ?_))
        rw [hleading]
        refine List.mem_map.2 ⟨l, hl, Layer.follow_of_notMem ?_⟩
        rwa [map_id_settle]
      · exact hsync l (hcovered l hl)
    · exact hsync l (hcovered l hl)
  · intro hrest l' hl' hvisible
    rcases mem_leading_or_mem_covered.2 hl' with hl' | hl'
    · rw [hleading] at hl'
      obtain ⟨l, hl, rfl⟩ := List.mem_map.1 hl'
      by_cases hid : l.id ∈ (settle role s.specs).map LayerSpec.id
      · exact Layer.shownBy_follow hids hid hvisible
      · rw [Layer.follow_of_notMem hid] at hvisible ⊢
        rw [map_id_settle] at hid
        exact hrest l (mem_leading_or_mem_covered.1 (.inl hl)) (.inl hid) hvisible
    · rw [covered_sync] at hl'
      exact hrest l' (mem_leading_or_mem_covered.1 (.inr hl')) (.inr hl') hvisible

/-- Sorting before mirroring changes nothing about what is out of reach. -/
theorem drawsOnlyShown_reorder_iff (h : (s.specs.map LayerSpec.id).Nodup) :
    (s.reorder role).DrawsOnlyShown ↔ (s.sync role).DrawsOnlyShown := by
  have hmem : ∀ l, l ∈ s.sort.layers ↔ l ∈ s.layers := fun _ => (layers_sort_perm s).mem_iff
  have hunreached : ∀ l, s.sort.Unreached l ↔ s.Unreached l := fun _ =>
    or_congr_right mem_covered_sort
  have hsort : (s.sort.specs.map LayerSpec.id).Nodup := h
  rw [reorder, drawsOnlyShown_sync_iff role hsort, drawsOnlyShown_sync_iff role h]
  simp only [hmem, hunreached]
  rfl

/-- Where no layer stands behind another one, mirroring reaches the layers with a specification. -/
theorem drawsOnlyShown_sync_iff_of_nodup (h : (s.specs.map LayerSpec.id).Nodup)
    (hlayers : s.ids.Nodup) : (s.sync role).DrawsOnlyShown ↔
      ∀ l ∈ s.layers, l.visible = true → l.id ∈ s.specs.map LayerSpec.id := by
  rw [drawsOnlyShown_sync_iff role h]
  constructor
  · intro hrest l hl hvisible
    by_contra hid
    have hshown := hrest l hl (.inl hid) hvisible
    exact hid (map_id_settle role s.specs ▸ hshown.mem_map_id)
  · intro hknown l hl hunreached hvisible
    exact (hunreached.elim (· (hknown l hl hvisible)) (notMem_covered hlayers l)).elim

end

end Shelf

namespace Catalog

/-- **After which edits only layers are drawn that specifications show.** It is enough to look at
the layers that mirroring does not reach, and whether they are sorted does not matter. Where no two
layers have the same id, the edit must not take away the specification of a visible layer, and may
do anything else. -/
theorem drawsOnlyShown_iff (c : Catalog) (role : Role) (edit : List LayerSpec → List LayerSpec)
    (h : ((edit (c.specs role)).map LayerSpec.id).Nodup) :
    let edited := c.editSpecs role edit
    (((edited.sync role).shelf role).DrawsOnlyShown ↔
        ∀ l ∈ c.layers role, (edited.shelf role).Unreached l → l.visible = true →
          l.ShownBy (settle role (edit (c.specs role)))) ∧
      (((edited.reorder role).shelf role).DrawsOnlyShown ↔
        ((edited.sync role).shelf role).DrawsOnlyShown) ∧
      ((c.shelf role).ids.Nodup → (((edited.sync role).shelf role).DrawsOnlyShown ↔
        ∀ l ∈ c.layers role, l.visible = true →
          l.id ∈ (edit (c.specs role)).map LayerSpec.id)) := by
  intro edited
  have hshelf : edited.shelf role = ⟨edit (c.specs role), c.layers role⟩ :=
    shelf_withShelf_self c role _
  have hsync : (edited.sync role).shelf role = (edited.shelf role).sync role :=
    shelf_withShelf_self edited role _
  have hreorder : (edited.reorder role).shelf role = (edited.shelf role).reorder role :=
    shelf_withShelf_self edited role _
  rw [hsync, hreorder, hshelf]
  exact ⟨Shelf.drawsOnlyShown_sync_iff role h, Shelf.drawsOnlyShown_reorder_iff role h,
    fun hlayers => Shelf.drawsOnlyShown_sync_iff_of_nodup role h hlayers⟩

/-- A specification is added, and the others change their places. -/
theorem drawsOnlyShown_of_added :
    let c := create [] [{ LayerSpec.create "ndvi" .wms ["n"] with visible := true },
      .create "sst" .wmts ["s"]] []
    let edit := fun specs : List LayerSpec => .create "clouds" .wms ["c"] :: specs.reverse
    let edited := c.editSpecs .product edit
    ((edit (c.specs .product)).map LayerSpec.id).Nodup ∧ (c.shelf .product).ids.Nodup ∧
      ((edited.sync .product).shelf .product).DrawsOnlyShown ∧
      ((edited.reorder .product).shelf .product).DrawsOnlyShown := by
  intro c edit edited
  have hedit : ((edit (c.specs .product)).map LayerSpec.id).Nodup := by decide
  have hlayers : (c.shelf .product).ids.Nodup := by decide +kernel
  obtain ⟨-, hreorder, hsync⟩ := drawsOnlyShown_iff c .product edit hedit
  have hshown := (hsync hlayers).2 (by decide +kernel)
  exact ⟨hedit, hlayers, hshown, hreorder.2 hshown⟩

/-- The specification of the shown base map is taken away, and another one is shown. Both are drawn
then. -/
theorem draws_removed_base :
    let terrain :=
      { LayerSpec.create "terrain" .wmts ["https://t.example/wmts"] with visible := true }
    let relief := LayerSpec.create "relief" .wmts ["https://r.example/wmts"]
    let c := create [terrain, relief] [] []
    let edit := fun specs : List LayerSpec =>
      (SpecEdit.amend 0 (some true) none none).apply ((SpecEdit.remove 0).apply specs)
    let edited := c.editSpecs .base edit
    (∀ role, ((c.specs role).map LayerSpec.id).Nodup) ∧
      ((edit (c.specs .base)).map LayerSpec.id).Nodup ∧
      ((edited.sync .base).layers .base).map (fun l => (l.id, l.visible)) =
        [("terrain", true), ("relief", true)] ∧
      (edited.sync .base).visibleBase? = some "relief" ∧
      ¬ ((edited.sync .base).shelf .base).DrawsOnlyShown ∧
      ¬ ((edited.reorder .base).shelf .base).DrawsOnlyShown := by
  intro terrain relief c edit edited
  have hids : ∀ role, ((c.specs role).map LayerSpec.id).Nodup := by
    intro role
    cases role with
    | base | product | overlay => decide
  have hedit : ((edited.shelf .base).specs.map LayerSpec.id).Nodup := by decide
  have hsync : ¬ ((edited.sync .base).shelf .base).DrawsOnlyShown := by decide +kernel
  have hreorder : ¬ ((edited.reorder .base).shelf .base).DrawsOnlyShown :=
    fun hshown => hsync ((Shelf.drawsOnlyShown_reorder_iff .base hedit).1 hshown)
  exact ⟨hids, hedit, by decide +kernel, by decide +kernel, hsync, hreorder⟩

end Catalog
end Atlas
