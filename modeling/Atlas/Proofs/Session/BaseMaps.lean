import Atlas.Proofs.Layer.Covering
import Atlas.Proofs.Message.Payloads
import Atlas.Proofs.Session.Messages

/-!
# One base map at a time

Of the base maps at most one is shown, whatever messages a session is handed, unless two things
come together in its settings: an id that stands twice has a later layer that starts out visible,
and some layer has an id that stands once. Choosing the latter then shows it besides the former,
which no message can hide.

## Main statements

* `Session.one_base_map_iff` — the settings with which at most one base map is shown in every run
-/

namespace Atlas

/-- An operation that messages can ask for keeps at most one base map visible. -/
theorem Catalog.Operation.Requestable.exclusive {op : Catalog.Operation} (hop : op.Requestable)
    {c : Catalog} (h : c.base.Exclusive) : (c.apply op).base.Exclusive := by
  cases hop with
  | setVisible role id visible =>
    cases role with
    | base => exact h.setVisible id visible
    | product | overlay => exact h
  | setOpacity | sortProducts => exact h
  | setPeriod p => exact h.setTime p.interval

namespace Session

variable {σ : Type} [FileSaver σ]

theorem exclusive_receiveAll {m : Session σ} (h : m.catalog.base.Exclusive)
    (msgs : List Message) :
    (m.receiveAll msgs).catalog.base.Exclusive := by
  rw [catalog_receiveAll]
  refine List.foldlRecOn (motive := fun c : Catalog => c.base.Exclusive) _ _ h ?_
  intro c hc op hop
  exact (requestable_of_mem_operations hop).exclusive hc

/-- The message that shows a base map. -/
def showBase (id : String) : Message :=
  ⟨Topic.layerChange.name, LayerChange.toJson ⟨id, true, true⟩⟩

theorem catalog_receive_showBase (m : Session σ) (id : String) :
    (m.receive (showBase id)).catalog = (m.catalog.setVisible .base id true).1 := by
  have hcommand : (showBase id).command? = some (.changeLayer ⟨id, true, true⟩) := by
    rw [Message.command?, showBase, Command.decode, Topic.ofName?_name]
    simp only [LayerChange.ofJson?_toJson]
    rfl
  rw [catalog_receive, hcommand]
  rfl

/-- **At most one base map is shown in every run** unless a visible layer stands behind another one
with its id, and another layer has an id that stands once. -/
theorem one_base_map_iff (s : Settings) (store : σ) :
    (∀ msgs, (((mount s store).receiveAll msgs).catalog.layers .base).countP Layer.visible ≤ 1) ↔
      ¬ ((mount s store).catalog.base.HidesVisible ∧ (mount s store).catalog.base.HasSingle) := by
  constructor
  · rintro hone ⟨hhides, hsingle⟩
    have hknown := Shelf.ids_build_subset .base .geographic s.base
    obtain ⟨id, htwo⟩ := hhides.exists_two hknown hsingle
    have hshown := hone [showBase id]
    have hcatalog : ((mount s store).receiveAll [showBase id]).catalog =
        ((mount s store).catalog.setVisible .base id true).1 :=
      catalog_receive_showBase (mount s store) id
    rw [hcatalog] at hshown
    exact absurd (Nat.le_trans htwo hshown) (by decide)
  · intro hnot msgs
    have hexclusive : (mount s store).catalog.base.Exclusive :=
      Shelf.exclusive_build (fun hhides hsingle => hnot ⟨hhides, hsingle⟩)
    exact (exclusive_receiveAll hexclusive msgs).single

/-- The second specification with an id is the visible one, and then another base map is shown. -/
theorem two_base_maps_shown :
    let terrain := LayerSpec.create "terrain" .wmts ["https://t.example/wmts"]
    let relief := LayerSpec.create "relief" .wmts ["https://r.example/wmts"]
    let s := { Settings.standard with base := [terrain, { terrain with visible := true }, relief] }
    let m := (mount s Store.refusing).receiveAll [showBase "relief"]
    (m.catalog.layers .base).map (fun l => (l.id, l.visible)) =
        [("terrain", false), ("terrain", true), ("relief", true)] ∧
      ¬ (m.catalog.layers .base).countP Layer.visible ≤ 1 := by
  decide +kernel

end Session
end Atlas
