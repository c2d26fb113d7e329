import Atlas.Proofs.Layer.Timing
import Atlas.Proofs.Session.Messages

/-!
# What layers know about the time

After any messages a layer that follows the time has been told all periods that could be read, and
shows the last of them. Nothing else changes a source: it is what its specification in the settings
says, whatever the other messages were.

## Main statements

* `Session.timed_receiveAll` — after any messages the sources have heard the periods of the messages
-/

namespace Atlas

/-- The specifications of a role in the settings. -/
def Settings.specs (s : Settings) : Role → List LayerSpec
  | .base => s.base
  | .product => s.products
  | .overlay => s.overlays

namespace Session

variable {σ : Type}

/-- A session that was set up with some settings has been told some periods. Its specifications
are those of the settings but for their look. The source of each layer is as its specification in
the settings says, and has heard the periods if the specification follows the time; its revision is
their number, if this is below 2^64. Telling one more period answers how many layers follow the
time, and the sources go as many revisions further, unless it is the 2^64th period. -/
structure Timed (s : Settings) (periods : List Period) (m : Session σ) : Prop where
  specs : ∀ role, (m.catalog.specs role).map LayerSpec.unshown =
    (s.specs role).map LayerSpec.unshown
  sources : ∀ role, ∀ l ∈ m.catalog.layers role, ∃ spec ∈ s.specs role, spec.id = l.id ∧
    l.source.UpToDate spec (if spec.timeEnabled then periods.map Period.interval else []) ∧
    (periods.length < UInt64.size →
      l.source.revision = if spec.timeEnabled then periods.length else 0)
  counted : ∀ p, (m.changePeriod p).2 = m.catalog.timedLayers
  raised : periods.length + 1 < UInt64.size → ∀ p,
    (m.changePeriod p).1.catalog.revisions = m.catalog.revisions + (m.changePeriod p).2

variable {s : Settings} (store : σ)

theorem specs_mount (role : Role) : ((mount s store).catalog.specs role).map LayerSpec.unshown =
    (s.specs role).map LayerSpec.unshown := by
  have hbuild : ∀ role specs, (Shelf.build role .geographic specs).specs.map LayerSpec.unshown =
      specs.map LayerSpec.unshown := fun role specs => map_settle (fun _ => rfl) role specs
  cases role with
  | base => exact hbuild .base s.base
  | product => exact (Shelf.relooks_reorder .product _).specs.trans (hbuild .product s.products)
  | overlay => exact hbuild .overlay s.overlays

theorem upToDate_mount : (mount s store).catalog.UpToDate [] := by
  have hcreate := Catalog.upToDate_create s.base s.products s.overlays
  intro role
  cases role with
  | base => exact hcreate .base
  | product => exact (hcreate .product).relook (Shelf.relooks_reorder .product _)
  | overlay => exact hcreate .overlay

theorem inStep_mount (hids : ∀ role, ((s.specs role).map LayerSpec.id).Nodup) :
    (mount s store).catalog.InStep :=
  (Catalog.inStep_create (hids .base) (hids .product) (hids .overlay)).apply (.reorder .product)

/-- **After any messages the sources have heard the periods of the messages,** if no id stands
twice in the specifications of a role. -/
theorem timed_receiveAll [FileSaver σ] (hids : ∀ role, ((s.specs role).map LayerSpec.id).Nodup)
    (msgs : List Message) :
    ((mount s store).receiveAll msgs).Timed s (msgs.filterMap Message.period?) := by
  have hstep := inStep_mount store hids
  have hcatalog := catalog_receiveAll (mount s store) msgs
  have hspecs : ∀ role, (((mount s store).receiveAll msgs).catalog.specs role).map
      LayerSpec.unshown = (s.specs role).map LayerSpec.unshown := by
    intro role
    rw [hcatalog, Catalog.specs_foldl, specs_mount]
  have htold := Catalog.upToDate_foldl (upToDate_mount store) hstep
    ((mount s store).operations msgs)
  rw [← hcatalog, List.nil_append, filterMap_period?_operations] at htold
  have hafter : ((mount s store).receiveAll msgs).catalog.InStep := by
    rw [hcatalog]
    exact Catalog.inStep_foldl hstep _
  refine ⟨hspecs, fun role l hl => ?_, Catalog.setPeriod_counts hafter, fun hroom => ?_⟩
  · obtain ⟨spec, hspec, hid, hsource⟩ := htold role l hl
    have hmem : spec.unshown ∈ (s.specs role).map LayerSpec.unshown := by
      rw [← hspecs role]
      exact List.mem_map_of_mem hspec
    obtain ⟨spec', hspec', hsame⟩ := List.mem_map.1 hmem
    replace hsource := hsource.of_unshown hsame.symm
    refine ⟨spec', hspec', (congrArg LayerSpec.id hsame :).trans hid, hsource, fun hfew => ?_⟩
    cases htimed : spec'.timeEnabled with
    | true =>
      rw [htimed] at hsource
      rw [hsource.revision_eq (by rwa [if_pos rfl, List.length_map]), if_pos rfl, if_pos rfl,
        List.length_map]
    | false =>
      rw [htimed] at hsource
      exact hsource.revision
  · refine Catalog.revisions_setPeriod hafter fun role l hl => ?_
    have hle := htold.revision_le hl
    rw [List.length_map] at hle
    exact Nat.lt_of_le_of_lt (Nat.succ_le_succ hle) hroom

/-- Two periods are read, and the payload between them is none. The layer that follows the time
shows the second one and has gone two revisions, and the other one has heard nothing. -/
theorem timed_june_july :
    let ndvi := { LayerSpec.create "ndvi" .wms ["https://p.example/ows"] with timeEnabled := true }
    let terrain := LayerSpec.create "terrain" .wmts ["https://t.example/wmts"]
    let s := { Settings.standard with base := [terrain], products := [ndvi] }
    let june : Period := ⟨⟨⟨2024, 6, 1⟩, 0, 0, 0, 0⟩, ⟨⟨2024, 6, 30⟩, 12, 0, 0, 0⟩⟩
    let july : Period := ⟨⟨⟨2024, 7, 1⟩, 0, 0, 0, 0⟩, ⟨⟨2024, 7, 31⟩, 12, 0, 0, 0⟩⟩
    let msgs := [june.toJson, .null, july.toJson].map (Message.mk Topic.timeChange.name)
    let m := (mount s Store.refusing).receiveAll msgs
    let heard := fun l : Layer => (l.id, l.source.revision, l.source.time?)
    (∀ role, ((s.specs role).map LayerSpec.id).Nodup) ∧ m.Timed s [june, july] ∧
      (m.catalog.layers .product).map heard =
        [("ndvi", 2, some "2024-07-01T00:00:00Z/2024-07-31T12:00:00Z")] ∧
      (m.catalog.layers .base).map heard = [("terrain", 0, none)] := by
  intro ndvi terrain s june july msgs m heard
  have hids : ∀ role, ((s.specs role).map LayerSpec.id).Nodup := by
    intro role
    cases role with
    | base | product | overlay => decide
  have hperiods : msgs.filterMap Message.period? = [june, july] := by decide +kernel
  have htimed := timed_receiveAll Store.refusing hids msgs
  rw [hperiods] at htimed
  exact ⟨hids, htimed, by decide +kernel, by decide +kernel⟩

end Session
end Atlas
