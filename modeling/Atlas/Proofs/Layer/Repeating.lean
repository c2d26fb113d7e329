import Atlas.Layer.Catalog
import Atlas.Proofs.Layer.Covering
import Mathlib.Data.List.Induction

/-!
# Mirroring and sorting again

Layers that have mirrored their specifications, or have been sorted, do not change when this is done
once more. Nothing is asked of the ids, which may stand several times in both lists, and nothing of
the specifications, which may have been edited in any way since the layers were built.

Of the specifications with one id the first leading layer with it mirrors one after the other, and
what it shows in the end is said by the last one. Mirroring them all once more ends with this one
again, and the covered layers are not reached either time. Sorting looks at the ids alone, which
mirroring leaves at their places, so layers that were sorted before they mirrored are sorted still.

## Main statements

* `Shelf.eq_of_leading_of_covered` — layers are known by their ids, the leading and the covered ones
* `Shelf.sync_sync` — mirroring twice is mirroring once
* `Catalog.reorder_reorder` — sorting a role twice is sorting it once
-/

namespace Atlas

theorem settle_settle (role : Role) (specs : List LayerSpec) :
    settle role (settle role specs) = settle role specs := by
  unfold settle
  split
  · exact keepFirstVisible_idem specs
  · rfl

namespace Layer

/-- Of several specifications that a layer mirrors, the last one says what it shows. -/
theorem foldl_mirror_concat (specs : List LayerSpec) (spec : LayerSpec) (layer : Layer) :
    (specs ++ [spec]).foldl (fun l spec => l.mirror spec) layer = layer.mirror spec := by
  have hmirror : ∀ (specs : List LayerSpec) (layer : Layer),
      (specs.foldl (fun l spec => l.mirror spec) layer).mirror spec = layer.mirror spec := by
    intro specs
    induction specs with
    | nil => exact fun _ => rfl
    | cons _ specs ih => exact fun layer => ih _
  rw [List.foldl_append]
  exact hmirror specs layer

@[simp] theorem id_mirrorAll (specs : List LayerSpec) (layer : Layer) :
    (layer.mirrorAll specs).id = layer.id :=
  List.foldlRecOn (motive := fun l : Layer => l.id = layer.id) _ _ rfl fun _ h _ _ => h

/-- A layer that has mirrored its specifications shows what they say. -/
theorem mirrorAll_mirrorAll (specs : List LayerSpec) (layer : Layer) :
    (layer.mirrorAll specs).mirrorAll specs = layer.mirrorAll specs := by
  rw [mirrorAll, id_mirrorAll]
  rcases List.eq_nil_or_concat (specs.filter (fun spec => spec.id == layer.id)) with
    hnone | ⟨init, last, hsome⟩
  · rw [hnone]
    rfl
  · rw [List.concat_eq_append] at hsome
    rw [mirrorAll, hsome, foldl_mirror_concat, foldl_mirror_concat]
    rfl

end Layer

namespace Shelf

/-! ## Mirroring again -/

/-- What is said of layers one by one is known from their ids and from what is said of the leading
and of the covered ones. -/
theorem map_eq_of_leadingFrom_of_coveredFrom {β : Type} {g : Layer → β} (ids : List String)
    {layers layers' : List Layer} (hids : layers.map Layer.id = layers'.map Layer.id)
    (hleading : (leadingFrom ids layers).map g = (leadingFrom ids layers').map g)
    (hcovered : (coveredFrom ids layers).map g = (coveredFrom ids layers').map g) :
    layers.map g = layers'.map g := by
  induction layers generalizing ids layers' with
  | nil => rw [List.map_eq_nil_iff.1 hids.symm]
  | cons l ls ih =>
    cases layers' with
    | nil => cases hids
    | cons l' ls' =>
      obtain ⟨hid, hrest⟩ := List.cons.inj hids
      rw [leadingFrom, leadingFrom, ← hid] at hleading
      rw [coveredFrom, coveredFrom, ← hid] at hcovered
      -- the ids decide for both lists alike whether the first layer leads
      split at hleading
      · next hl =>
        rw [if_pos hl, if_pos hl] at hcovered
        obtain ⟨hfirst, hbehind⟩ := List.cons.inj hcovered
        exact congrArg₂ List.cons hfirst (ih ids hrest hleading hbehind)
      · next hl =>
        rw [if_neg hl, if_neg hl] at hcovered
        obtain ⟨hfirst, hbehind⟩ := List.cons.inj hleading
        exact congrArg₂ List.cons hfirst (ih (l.id :: ids) hrest hbehind hcovered)

/-- **Layers are known by their ids, the leading and the covered ones.** -/
theorem eq_of_leading_of_covered {s s' : Shelf} (hspecs : s.specs = s'.specs)
    (hids : s.ids = s'.ids) (hleading : s.leading = s'.leading)
    (hcovered : s.covered = s'.covered) : s = s' := by
  have hlayers := map_eq_of_leadingFrom_of_coveredFrom [] hids (congrArg (List.map id) hleading)
    (congrArg (List.map id) hcovered)
  rw [List.map_id, List.map_id] at hlayers
  exact congrArg₂ Shelf.mk hspecs hlayers

/-- **Mirroring twice is mirroring once.** -/
theorem sync_sync (role : Role) (s : Shelf) : (s.sync role).sync role = s.sync role := by
  refine eq_of_leading_of_covered ?_ (ids_sync role _) ?_ (covered_sync role _)
  · rw [specs_sync, specs_sync, settle_settle]
  · rw [leading_sync, specs_sync, settle_settle, leading_sync, List.map_map]
    exact List.map_congr_left fun l _ => Layer.mirrorAll_mirrorAll _ l

/-! ## Sorting again -/

/-- The rank of an id depends on the ids of the specifications alone. -/
theorem rank?_congr {specs specs' : List LayerSpec}
    (h : specs'.map LayerSpec.id = specs.map LayerSpec.id) : rank? specs' = rank? specs := by
  have hids : ∀ specs id,
      rank? specs id = (specs.map LayerSpec.id).reverse.findIdx? (fun i => i == id) := by
    intro specs id
    rw [← List.map_reverse, List.findIdx?_map]
    rfl
  funext id
  rw [hids, hids, h]

/-- Layers that have been sorted are in order still after they mirrored their specifications. -/
theorem sort_sync_sort (role : Role) (s : Shelf) :
    (s.sort.sync role).sort = s.sort.sync role := by
  have hordered : (s.sort.sync role).ids.Pairwise
      (fun id id' => rankLE (rank? s.specs id) (rank? s.specs id') = true) := by
    rw [ids_sync]
    exact List.pairwise_map.2 (layers_sort_pairwise s)
  have hranks : rank? (s.sort.sync role).specs = rank? s.specs :=
    rank?_congr (map_id_settle role s.specs)
  refine congrArg (Shelf.mk _) (List.mergeSort_of_pairwise ?_)
  simp only [mayLieBelow, hranks]
  exact List.pairwise_map.1 hordered

theorem reorder_idem (role : Role) (s : Shelf) :
    (s.reorder role).reorder role = s.reorder role := by
  rw [reorder, reorder, sort_sync_sort, sync_sync]

end Shelf

namespace Catalog

/-- **Sorting a role twice is sorting it once.** Neither the specifications of any role nor its
layers or their order are changed by the second time, whatever the catalog was before. -/
theorem reorder_reorder (c : Catalog) (role : Role) :
    (c.reorder role).reorder role = c.reorder role := by
  rw [reorder, reorder, shelf_withShelf_self, withShelf_withShelf, Shelf.reorder_idem]

end Catalog
end Atlas
