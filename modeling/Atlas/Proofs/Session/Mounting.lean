import Atlas.Proofs.Json.Parsing
import Atlas.Proofs.Layer.Permanence
import Atlas.Proofs.Layer.Settling
import Atlas.Proofs.Layer.Stacking
import Atlas.Proofs.Session.Periods
import Atlas.Proofs.Session.Routing

/-!
# What a map is set up with

A session is set up in three steps: the shelves are built, the visible products are announced, and
the products are put in order. Where the ids of a role are distinct, a new shelf is in step with
its specifications, so the sort turns the layers around and the mirroring after it finds nothing
to do: every layer is still the one that was built.

## Main statements

* `Shelf.layers_reorder_build` — putting a new shelf in order turns its layers around
* `Session.mount_setUpFrom` — what is published, shown, drawn and listed after setting up
-/

namespace Atlas

/-! ## Which layers are built -/

namespace Shelf

/-- The ids of a new shelf are those of the specifications for which a layer can be built. -/
theorem ids_build (role : Role) (grid : TileGrid) (specs : List LayerSpec) :
    (build role grid specs).ids = (specs.filter LayerSpec.isDrawable).map LayerSpec.id := by
  show ((settle role specs).filterMap (Layer.ofSpec? grid)).map Layer.id = _
  rw [map_id_filterMap_ofSpec?, funext (Layer.isSome_ofSpec? grid)]
  exact map_filter_settle (fun _ => rfl) id_hide role specs

/-! ## Putting a new shelf in order -/

theorem InStep.sort {role : Role} {s : Shelf} (h : s.InStep role) : s.sort.InStep role where
  toPaired := h.toPaired.sort
  mirrored := fun l hl => h.mirrored l ((layers_sort_perm s).mem_iff.1 hl)
  single := h.single

/-- Layers that are listed as their specifications are, bottom to top, are turned around by
sorting. -/
theorem layers_sort_of_sublist {s : Shelf} (hspecs : (s.specs.map LayerSpec.id).Nodup)
    (hlisted : s.ids.Sublist (s.specs.map LayerSpec.id)) : s.sort.layers = s.layers.reverse := by
  have hperm : s.sort.layers.Perm s.layers.reverse :=
    (layers_sort_perm s).trans (List.reverse_perm s.layers).symm
  have hreversed : s.layers.reverse.Pairwise (fun a b => mayLieBelow s.specs a b = true) :=
    List.pairwise_reverse.2 (List.pairwise_map.1 ((pairwise_rank hspecs).sublist hlisted))
  refine hperm.eq_of_pairwise (fun a b ha hb hle hge => ?_) (layers_sort_pairwise s) hreversed
  -- layers that may lie below each other have the same id, and no id stands twice
  have ha : a ∈ s.layers := (layers_sort_perm s).mem_iff.1 ha
  have hid : a.id = b.id :=
    eq_of_rank?_eq (hlisted.subset (List.mem_map_of_mem ha)) (rankLE_antisymm hle hge)
  exact List.inj_on_of_nodup_map (hspecs.sublist hlisted) ha (List.mem_reverse.1 hb) hid

/-- **Putting a new shelf in order turns its layers around,** if ids are distinct. -/
theorem layers_reorder_build (role : Role) (grid : TileGrid) {specs : List LayerSpec}
    (h : (specs.map LayerSpec.id).Nodup) :
    ((build role grid specs).reorder role).layers = (build role grid specs).layers.reverse := by
  have hstep := inStep_build role grid h
  have hlisted : (build role grid specs).ids.Sublist
      ((build role grid specs).specs.map LayerSpec.id) := by
    show (((settle role specs).filterMap (Layer.ofSpec? grid)).map Layer.id).Sublist _
    rw [map_id_filterMap_ofSpec?]
    exact List.filter_sublist.map _
  rw [reorder, hstep.sort.sync_eq]
  exact layers_sort_of_sublist hstep.specs_nodup hlisted

end Shelf

/-! ## What a new map has -/

namespace Shelf

/-- A shelf has the layers of its specifications with the given ids, bottom to top. Each is as it
was built for a specification on the shelf, and shows what every specification with its id says. -/
structure Holds (s : Shelf) (ids : List String) : Prop where
  order : s.ids = ids
  built : ∀ l ∈ s.layers, ∃ spec ∈ s.specs, Layer.ofSpec? .geographic spec = some l
  mirrors : s.Mirrors

theorem holds_build (role : Role) {specs : List LayerSpec} (h : (specs.map LayerSpec.id).Nodup) :
    (build role .geographic specs).Holds
      ((specs.filter LayerSpec.isDrawable).map LayerSpec.id) where
  order := ids_build role .geographic specs
  built := fun _ hl => List.mem_filterMap.1 hl
  mirrors := (inStep_build role .geographic h).mirrors

/-- Of products nothing is hidden, so a shelf that was put in order has the same specifications
and the same layers, turned around. -/
theorem holds_reorder_build {specs : List LayerSpec} (h : (specs.map LayerSpec.id).Nodup) :
    ((build .product .geographic specs).reorder .product).Holds
      ((specs.filter LayerSpec.isDrawable).map LayerSpec.id).reverse := by
  have hlayers := layers_reorder_build .product .geographic h
  have hbuild := holds_build .product h
  refine ⟨?_, fun l hl => ?_, fun l hl => ?_⟩
  · rw [ids, hlayers, List.map_reverse, ← hbuild.order]
    rfl
  · rw [hlayers, List.mem_reverse] at hl
    exact hbuild.built l hl
  · rw [hlayers, List.mem_reverse] at hl
    exact hbuild.mirrors l hl

end Shelf

/-- The message that announces a product: its topic and its payload. -/
def announcement (id : String) : String × Json :=
  ("map:layer:change",
    .obj [("id", .str id), ("isBaseLayer", .bool false), ("visible", .bool true)])

namespace Session

variable {σ : Type}

/-- A session is as some settings describe it. The visible products have been announced, one by
one, and nothing else was published. The view is where the settings say, in the allowed range.
Nothing is drawn and no tool is active. The specifications are those of the settings, but of the
visible base maps only the first one is. Where no id stands twice in a role, the shelves hold the
layers that can be built, and the first product lies on top. -/
structure SetUpFrom (s : Settings) (m : Session σ) : Prop where
  announced : m.outbox.notices.map (fun n => (n.topic.name, n.payload)) =
    (s.products.filter LayerSpec.visible).map (fun spec => announcement spec.id)
  center : m.view.center = ⟨s.center.1, s.center.2⟩
  zoom : (m.view.zoom : Int) = max 0 (min 28 s.zoom)
  size : m.view.width = max 1 s.size.1 ∧ m.view.height = max 1 s.size.2
  blank : m.board.tool = none ∧ m.board.boxStart = none ∧ m.board.features = []
  base : ShowsFirst LayerSpec.visible s.base (m.catalog.specs .base)
  product : m.catalog.specs .product = s.products
  overlay : m.catalog.specs .overlay = s.overlays
  layers : (∀ role, ((s.specs role).map LayerSpec.id).Nodup) → ∀ role,
    let ids := ((s.specs role).filter LayerSpec.isDrawable).map LayerSpec.id
    (m.catalog.shelf role).Holds (if role = .product then ids.reverse else ids)

variable (s : Settings) (store : σ)

theorem notices_mount : (mount s store).outbox.notices.map (fun n => (n.topic.name, n.payload)) =
    (s.products.filter LayerSpec.visible).map (fun spec => announcement spec.id) := by
  show ([] ++ mountNotices s.products).map _ = _
  rw [List.nil_append, mountNotices, List.map_map]
  refine List.map_congr_left fun spec _ => ?_
  have hkeys : ["id", "isBaseLayer", "visible"].Pairwise (· < ·) := by decide
  have hpayload : (LayerChange.mk spec.id false true).toJson = (announcement spec.id).2 :=
    congrArg Json.obj (Keyed.ofRows_of_sorted (List.pairwise_map.1 hkeys))
  exact Prod.ext rfl hpayload

theorem zoom_mount : ((mount s store).view.zoom : Int) = max 0 (min 28 s.zoom) := by
  show ((min s.zoom.toNat 28 : Nat) : Int) = _
  omega

/-- **Setting up a map makes a session as the settings describe it.** -/
theorem mount_setUpFrom : (mount s store).SetUpFrom s where
  announced := notices_mount s store
  center := rfl
  zoom := zoom_mount s store
  size := ⟨Nat.max_comm _ _, Nat.max_comm _ _⟩
  blank := ⟨rfl, rfl, rfl⟩
  base := by
    show ShowsFirst LayerSpec.visible s.base (keepFirstVisible s.base)
    rw [keepFirstVisible_eq_showFirst]
    exact showsFirst_showFirst LayerSpec.visible s.base
  product := rfl
  overlay := rfl
  layers := by
    intro hids role
    cases role with
    | base => exact Shelf.holds_build .base (hids .base)
    | product => exact Shelf.holds_reorder_build (hids .product)
    | overlay => exact Shelf.holds_build .overlay (hids .overlay)

/-- Of two visible base maps the second one is hidden. A visible product is announced even if no
layer can be built for it, and the others come to lie with the first one on top. -/
theorem mount_setUpFrom_three_products :
    let streets := { LayerSpec.create "streets" .wms ["https://s.example"] with visible := true }
    let terrain := { LayerSpec.create "terrain" .wmts ["https://t.example"] with visible := true }
    let ndvi := { LayerSpec.create "ndvi" .wms ["https://p.example"] with visible := true }
    let snow := { LayerSpec.create "snow" (.unsupported "WFS") [] with visible := true }
    let rain := LayerSpec.create "rain" .wms ["https://p.example"]
    let s := { Settings.standard with base := [streets, terrain], products := [ndvi, snow, rain] }
    let m := mount s Store.refusing
    (∀ role, ((s.specs role).map LayerSpec.id).Nodup) ∧ m.SetUpFrom s ∧
      m.catalog.specs .base = [streets, terrain.hide] ∧
      m.outbox.notices.map (fun n => (n.topic.name, n.payload)) =
        [announcement "ndvi", announcement "snow"] ∧
      (m.catalog.shelf .product).Holds ["rain", "ndvi"] := by
  intro streets terrain ndvi snow rain s m
  have hids : ∀ role, ((s.specs role).map LayerSpec.id).Nodup := by
    intro role
    cases role with
    | base | product | overlay => decide
  have hmount := mount_setUpFrom s Store.refusing
  exact ⟨hids, hmount, rfl, hmount.announced, hmount.layers hids .product⟩

end Session
end Atlas
