import Atlas.Proofs.Double.Order
import Atlas.Proofs.Layer.CatalogRun

/-!
# How opaque layers are

An opacity is a number from 0 to 1. A change of the opacity brings its number into this range, and
all other operations only copy the opacities that there are. What the specifications of a new
catalog say is taken as it is.

So a range that holds the opacities of all specifications and layers goes on to hold them, if it
holds the numbers from 0 to 1. Each operation is looked at once, for any such range.

## Main statements

* `Shelf.isOpacity_clampOpacity` — the opacity that is set lies between 0 and 1
* `Catalog.opacitiesIn_foldl` — operations never leave a range that holds all opacities
-/

namespace Atlas

/-- A number from 0 to 1. -/
def IsOpacity (x : Float) : Prop := 0.0 ≤ x ∧ x ≤ 1.0

instance : DecidablePred IsOpacity := fun x => inferInstanceAs (Decidable (0.0 ≤ x ∧ x ≤ 1.0))

theorem forall_mem_updateFirst {α : Type} {p : α → Bool} {f : α → α} {q : α → Prop} {xs : List α}
    (hf : ∀ x, q x → q (f x)) (h : ∀ x ∈ xs, q x) : ∀ x ∈ updateFirst p f xs, q x := by
  induction xs with
  | nil => exact h
  | cons x xs ih =>
    obtain ⟨hx, hxs⟩ := List.forall_mem_cons.1 h
    rw [updateFirst]
    split
    · exact List.forall_mem_cons.2 ⟨hf x hx, hxs⟩
    · exact List.forall_mem_cons.2 ⟨hx, ih hxs⟩

namespace Shelf

/-- **The opacity that is set lies between 0 and 1.** -/
theorem isOpacity_clampOpacity {x : Float} (h : x.isNaN = false) : IsOpacity (clampOpacity x) := by
  have hzero : (0.0 : Float).isNaN = false := by decide
  have hone : (1.0 : Float).isNaN = false := by decide
  rw [clampOpacity]
  split
  · decide
  · next hlow =>
    split
    · decide
    · next hhigh => exact ⟨Double.le_of_not_lt h hzero hlow, Double.le_of_not_lt hone h hhigh⟩

/-- A range holds the opacities of all specifications and layers of a shelf. -/
structure OpacitiesIn (range : Float → Prop) (s : Shelf) : Prop where
  specs : ∀ spec ∈ s.specs, range spec.opacity
  layers : ∀ l ∈ s.layers, range l.opacity

section
variable {range : Float → Prop}

/-- Bringing specifications in order leaves their opacities alone. -/
theorem forall_opacity_settle_iff {role : Role} {specs : List LayerSpec} :
    (∀ spec ∈ settle role specs, range spec.opacity) ↔ ∀ spec ∈ specs, range spec.opacity := by
  have hopacities : (settle role specs).map LayerSpec.opacity = specs.map LayerSpec.opacity :=
    map_settle (fun _ => rfl) role specs
  rw [← List.forall_mem_map, hopacities, List.forall_mem_map]

theorem opacitiesIn_build {role : Role} {grid : TileGrid} {specs : List LayerSpec}
    (h : ∀ spec ∈ specs, range spec.opacity) : (build role grid specs).OpacitiesIn range where
  specs := forall_opacity_settle_iff.2 h
  layers := by
    intro l hl
    obtain ⟨spec, hspec, hbuilt⟩ := List.mem_filterMap.1 hl
    rw [← Layer.mirror_of_ofSpec? hbuilt]
    exact forall_opacity_settle_iff.2 h spec hspec

variable {s : Shelf} (h : s.OpacitiesIn range)
include h

/-- A layer takes over the opacity of a specification. -/
theorem OpacitiesIn.sync (role : Role) : (s.sync role).OpacitiesIn range where
  specs := forall_opacity_settle_iff.2 h.specs
  layers := by
    refine List.foldlRecOn
      (motive := fun (layers : List Layer) => ∀ l ∈ layers, range l.opacity) _ _ h.layers ?_
    intro layers hlayers spec hspec
    exact forall_mem_updateFirst (fun _ _ => forall_opacity_settle_iff.2 h.specs spec hspec) hlayers

theorem OpacitiesIn.reorder (role : Role) : (s.reorder role).OpacitiesIn range := by
  have hsort : s.sort.OpacitiesIn range :=
    ⟨h.specs, fun l hl => h.layers l ((layers_sort_perm s).mem_iff.1 hl)⟩
  exact hsort.sync role

theorem OpacitiesIn.setVisible (role : Role) (id : String) (visible : Bool) :
    (s.setVisible role id visible).1.OpacitiesIn range := by
  have hopacity : ∀ spec, (setSpecVisible role id visible spec).opacity = spec.opacity := by
    intro spec
    unfold setSpecVisible
    split
    · rfl
    · split <;> rfl
  rw [Shelf.setVisible]
  split
  · have hset :
        OpacitiesIn range { s with specs := s.specs.map (setSpecVisible role id visible) } :=
      ⟨List.forall_mem_map.2 fun spec hspec => by rw [hopacity]; exact h.specs spec hspec, h.layers⟩
    exact hset.sync role
  · exact h

theorem OpacitiesIn.setOpacity (hrange : ∀ x, IsOpacity x → range x) (id : String)
    (opacity : Float) : (s.setOpacity id opacity).1.OpacitiesIn range := by
  rw [Shelf.setOpacity]
  split
  · exact h
  · next hfound =>
    have hnumber : opacity.isNaN = false := by
      rw [Bool.or_eq_true, not_or, Bool.not_eq_true] at hfound
      exact hfound.1
    have hclamped := hrange _ (isOpacity_clampOpacity hnumber)
    exact ⟨forall_mem_updateFirst (fun _ _ => hclamped) h.specs,
      forall_mem_updateFirst (fun _ _ => hclamped) h.layers⟩

theorem OpacitiesIn.setTime (interval : String) :
    (s.setTime interval).1.OpacitiesIn range where
  specs := h.specs
  layers := by
    have hopacities : (s.setTime interval).1.layers.map Layer.opacity =
        s.layers.map Layer.opacity := map_layers_setTime (fun _ => rfl) s
    rw [← List.forall_mem_map, hopacities, List.forall_mem_map]
    exact h.layers

end
end Shelf

namespace Catalog

section
variable {range : Float → Prop} (hrange : ∀ x, IsOpacity x → range x)
include hrange

/-- An operation does not leave a range that holds all opacities of a shelf. -/
theorem Operation.opacitiesIn_onShelf (op : Operation) (role : Role) {s : Shelf}
    (h : s.OpacitiesIn range) : (op.onShelf role s).OpacitiesIn range := by
  refine op.onShelf_cases (P := fun s => s.OpacitiesIn range) h ?_ ?_ ?_ ?_ ?_
  · exact fun id visible _ => h.setVisible role id visible
  · exact fun id opacity _ => h.setOpacity hrange id opacity
  · exact fun period _ => h.setTime period.interval
  · exact fun _ => h.reorder role
  · exact fun _ => h.sync role

/-- **Operations never leave a range that holds all opacities of a role,** if it holds the numbers
from 0 to 1. -/
theorem opacitiesIn_foldl {c : Catalog} {role : Role} (h : (c.shelf role).OpacitiesIn range)
    (ops : List Operation) : ((ops.foldl apply c).shelf role).OpacitiesIn range := by
  refine List.foldlRecOn (motive := fun c : Catalog => (c.shelf role).OpacitiesIn range) ops apply
    h ?_
  intro c hc op _
  rw [shelf_apply]
  exact op.opacitiesIn_onShelf hrange role hc

end

end Catalog
end Atlas
