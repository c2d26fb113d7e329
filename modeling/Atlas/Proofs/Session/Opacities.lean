import Atlas.Proofs.Layer.Opacities
import Atlas.Proofs.Session.Periods

/-!
# Opacities after messages

No message makes a layer or a specification more or less opaque than a number from 0 to 1 can say.
The settings can: what they say is neither refused nor brought into the range.

## Main statements

* `Session.opacities_receiveAll` — opacities lie between 0 and 1 in every run if and only if those
  of the settings do
-/

namespace Atlas.Session

variable {σ : Type} (s : Settings) (store : σ)

theorem map_opacity_specs_mount (role : Role) :
    ((mount s store).catalog.specs role).map LayerSpec.opacity =
      (s.specs role).map LayerSpec.opacity := by
  have hsettle : ∀ role specs,
      (settle role specs).map LayerSpec.opacity = specs.map LayerSpec.opacity :=
    fun role specs => map_settle (fun _ => rfl) role specs
  cases role with
  | base => exact hsettle .base s.base
  | product => exact (hsettle .product _).trans (hsettle .product s.products)
  | overlay => exact hsettle .overlay s.overlays

/-- A range that holds the opacities of a role in the settings holds them in a new session. -/
theorem opacitiesIn_mount {range : Float → Prop} {role : Role}
    (h : ∀ spec ∈ s.specs role, range spec.opacity) :
    ((mount s store).catalog.shelf role).OpacitiesIn range := by
  cases role with
  | base => exact Shelf.opacitiesIn_build h
  | product => exact (Shelf.opacitiesIn_build h).reorder .product
  | overlay => exact Shelf.opacitiesIn_build h

theorem opacitiesIn_receiveAll [FileSaver σ] {range : Float → Prop}
    (hrange : ∀ x, IsOpacity x → range x)
    {role : Role} (h : ∀ spec ∈ s.specs role, range spec.opacity) (msgs : List Message) :
    (((mount s store).receiveAll msgs).catalog.shelf role).OpacitiesIn range := by
  rw [catalog_receiveAll]
  exact Catalog.opacitiesIn_foldl hrange (opacitiesIn_mount s store h) _

/-- **Opacities lie between 0 and 1 in every run if and only if those of the settings do.** Any
other opacity of a role, at any time, is one that the settings give to a layer of the role. -/
theorem opacities_receiveAll [FileSaver σ] :
    (∀ msgs role, (((mount s store).receiveAll msgs).catalog.shelf role).OpacitiesIn
        (fun x => IsOpacity x ∨ x ∈ (s.specs role).map LayerSpec.opacity)) ∧
      ((∀ msgs role, (((mount s store).receiveAll msgs).catalog.shelf role).OpacitiesIn IsOpacity) ↔
        ∀ role, ∀ spec ∈ s.specs role, IsOpacity spec.opacity) := by
  refine ⟨fun msgs role => ?_, fun h role => ?_, fun h msgs role => ?_⟩
  · exact opacitiesIn_receiveAll s store (fun _ => .inl)
      (fun spec hspec => .inr (List.mem_map_of_mem hspec)) msgs
  · -- what the settings say is there before the first message
    rw [← List.forall_mem_map, ← map_opacity_specs_mount s store, List.forall_mem_map]
    exact (h [] role).specs
  · exact opacitiesIn_receiveAll s store (fun _ => id) (h role) msgs

/-- The settings say that a product is more than opaque, and it is drawn so. -/
theorem more_than_opaque :
    let ndvi := { LayerSpec.create "ndvi" .wms ["https://n.example/ows"] with opacity := 1.5 }
    let s := { Settings.standard with products := [ndvi] }
    let m := (mount s Store.refusing).receiveAll []
    Settings.ofJson? (Json.ofMembers [("products", .arr [Json.ofMembers [("id", .str "ndvi"),
        ("protocol", .str "WMS"), ("urls", .arr [.str "https://n.example/ows"]),
        ("opacity", Json.ofFloat 1.5)]])]) = some s ∧
      (m.catalog.specs .product).map LayerSpec.opacity = [1.5] ∧
      (m.catalog.layers .product).map Layer.opacity = [1.5] ∧ ¬ IsOpacity 1.5 := by
  decide +kernel

end Atlas.Session
