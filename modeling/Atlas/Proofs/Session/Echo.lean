import Atlas.Proofs.Layer.Mirroring
import Atlas.Proofs.Session.Finiteness
import Atlas.Proofs.View.Deepest

/-!
# Echoes

What a map tells others can come back to it: its address as a center to move to, the notices about
its products as changes of layers, the box that it shows as a box to show. The address and the
notices find everything as they say. The box is shown again by the same view with exact numbers. The
sides of a box are doubles, though: one that was rounded outward widens the box, and the view then
goes out by a zoom level.

## Main statements

* `Session.stable_under_echoes` — the address and the notices about products change nothing
* `Session.handle_shown_box` — neither does the box that is shown, if its sides need no rounding
-/

namespace Atlas

/-! ## Layers -/

/-- Showing or hiding what is shown or hidden already leaves a shelf in step as it is. On the base
shelf it may hide others. -/
theorem Shelf.InStep.setVisible_eq {role : Role} {s : Shelf} (h : s.InStep role)
    (hrole : role ≠ .base) {id : String} {visible : Bool}
    (hsame : ∀ spec ∈ s.specs, spec.id = id → spec.visible = visible) :
    (s.setVisible role id visible).1 = s := by
  rw [Shelf.setVisible]
  split
  · have hspecs : s.specs.map (setSpecVisible role id visible) = s.specs := by
      refine (List.map_congr_left (fun spec hspec => ?_)).trans (List.map_id s.specs)
      show setSpecVisible role id visible spec = spec
      rw [setSpecVisible, if_neg hrole]
      split
      · next hid => rw [← hsame spec hspec hid]
      · rfl
    show ({ s with specs := s.specs.map (setSpecVisible role id visible) } : Shelf).sync role = s
    rw [hspecs]
    exact h.sync_eq
  · rfl

namespace Session

variable {σ : Type}

theorem changeLayer_eq_self {m : Session σ} (h : m.catalog.product.InStep .product)
    {spec : LayerSpec} (hspec : spec ∈ m.catalog.product.specs) :
    (m.changeLayer ⟨spec.id, false, spec.visible⟩).1 = m := by
  have hfound : m.catalog.product.hasSpec spec.id = true :=
    List.any_eq_true.2 ⟨spec, hspec, beq_self_eq_true spec.id⟩
  have hrole : m.roleOfChange? ⟨spec.id, false, spec.visible⟩ = some .product := by
    have hproduct : m.catalog.roleOf? spec.id = some .product := List.find?_cons_of_pos hfound
    rw [roleOfChange?, if_neg Bool.false_ne_true, hproduct]
  have hsame : ∀ spec' ∈ m.catalog.product.specs, spec'.id = spec.id →
      spec'.visible = spec.visible := by
    intro spec' hspec' hid
    rw [List.inj_on_of_nodup_map h.specs_nodup hspec' hspec hid]
  have hshelf : (m.catalog.product.setVisible .product spec.id spec.visible).1 =
      m.catalog.product :=
    h.setVisible_eq (by decide) hsame
  rw [changeLayer, hrole]
  exact congrArg (fun product => { m with catalog := { m.catalog with product := product } }) hshelf

variable [FileSaver σ]

/-- A notice about a product is true of the map that has published it. -/
theorem handle_mountNotice {s : Settings} {store : σ}
    (hids : (s.products.map LayerSpec.id).Nodup) {m : Session σ}
    (hm : m.catalog = (mount s store).catalog) {n : Notice}
    (hn : n ∈ (mount s store).outbox.notices) :
    m.handle n.topic.name n.payload = (m, .ok ()) := by
  have hspecs : m.catalog.product.specs = s.products := by
    rw [hm]
    rfl
  have hstep : m.catalog.product.InStep .product := by
    rw [hm]
    exact (Shelf.inStep_build .product .geographic hids).toPaired.reorder .product
  obtain ⟨spec, hspec, rfl⟩ := List.mem_map.1 hn
  obtain ⟨hspec, hvisible⟩ := List.mem_filter.1 hspec
  have hunchanged : (m.changeLayer ⟨spec.id, false, true⟩).1 = m := by
    rw [← hvisible]
    rw [← hspecs] at hspec
    exact changeLayer_eq_self hstep hspec
  have hspells := Command.Spells.changeLayer (LayerChange.ofJson?_toJson ⟨spec.id, false, true⟩)
  calc m.handle Topic.layerChange.name (LayerChange.toJson ⟨spec.id, false, true⟩)
      = ((m.changeLayer ⟨spec.id, false, true⟩).1, .ok ()) := handle_of_spells hspells
    _ = (m, .ok ()) := by rw [hunchanged]

/-! ## The address -/

/-- The address of a view leads to the view. -/
theorem handle_address {m : Session σ} (hcenter : Coord.isFinite m.view.center = true)
    (hzoom : m.view.zoom ≤ maxZoom) :
    m.handle Topic.center.name (Notice.setUrl m.view.center m.view.zoom).payload =
      (m.announceMove, .ok ()) := by
  have hfits : CenterRequest.fits32 m.view.zoom = true := by
    have hsmall : m.view.zoom ≤ 28 := hzoom
    rw [CenterRequest.fits32, Bool.and_eq_true, decide_eq_true_eq, decide_eq_true_eq]
    omega
  have hview : (m.view.withCenter m.view.center).withZoom m.view.zoom = m.view := by
    rw [View.withZoom, clampZoom_of_le hzoom]
    rfl
  have hspells := Command.Spells.center
    (CenterRequest.ofJson?_toJson (.create m.view.center m.view.zoom))
  show m.handle Topic.center.name (CenterRequest.create m.view.center m.view.zoom).toJson = _
  rw [handle_of_spells hspells]
  show m.center _ = _
  rw [Session.center, CenterRequest.parse_create hcenter hfits]
  show (m.moveTo m.view.center m.view.zoom, Except.ok ()) = _
  rw [moveTo, hview]

/-- **A map is stable under the echo of its address and of its notices about products.** The address
of a view in a finite place is accepted, leaves everything as it is and is published again with the
box that is shown. As long as the layers are as they were mounted, the notices about products are
accepted in any order and number, and nothing is published. -/
theorem stable_under_echoes (s : Settings) (store : σ) :
    (∀ ops, let m := ((Run.start s store).after ops).session
      Coord.isFinite m.view.center = true →
        m.handle Topic.center.name (Notice.setUrl m.view.center m.view.zoom).payload =
          ({ m with outbox := m.outbox.publishAll (moveNotices m.view) }, .ok ())) ∧
    ((s.products.map LayerSpec.id).Nodup →
      ∀ m : Session σ, m.catalog = (mount s store).catalog →
        ∀ ns : List Notice, ns ⊆ (mount s store).outbox.onTopic Topic.layerChange.name →
          (∀ n ∈ ns, m.handle Topic.layerChange.name n.payload = (m, .ok ())) ∧
            m.receiveAll (ns.map (fun n => ⟨Topic.layerChange.name, n.payload⟩)) = m) := by
  constructor
  · intro ops m hcenter
    exact handle_address hcenter (Run.located s store ops).zoom
  · intro hids m hm ns hns
    have hhandle : ∀ n ∈ ns, m.handle Topic.layerChange.name n.payload = (m, .ok ()) := by
      intro n hn
      obtain ⟨hmem, htopic⟩ := List.mem_filter.1 (hns hn)
      rw [← eq_of_beq htopic]
      exact handle_mountNotice hids hm hmem
    refine ⟨hhandle, ?_⟩
    -- every message finds the session as the one before it has found it
    induction ns with
    | nil => rfl
    | cons n ns ih =>
      obtain ⟨hfirst, hrest⟩ := List.forall_mem_cons.1 hhandle
      have hreceive : m.receive ⟨Topic.layerChange.name, n.payload⟩ = m := congrArg Prod.fst hfirst
      rw [List.map_cons, receiveAll, List.foldl_cons, hreceive]
      exact ih (fun n' hn' => hns (List.mem_cons_of_mem n hn')) hrest

/-- The notice about a product that is shown from the start, received twice, and the address of the
mounted view. -/
theorem stable_under_echoes_bathymetry :
    let spec := LayerSpec.create "bathymetry" .wms ["https://b.example/wms"]
    let s := { Settings.standard with products := [{ spec with visible := true }] }
    let m := mount s Store.refusing
    let shown := Notice.layer ⟨"bathymetry", false, true⟩
    Coord.isFinite m.view.center = true ∧
      m.handle Topic.center.name (Notice.setUrl m.view.center m.view.zoom).payload =
        ({ m with outbox := m.outbox.publishAll (moveNotices m.view) }, .ok ()) ∧
      (s.products.map LayerSpec.id).Nodup ∧
      [shown, shown] ⊆ m.outbox.onTopic Topic.layerChange.name ∧
      m.receiveAll ([shown, shown].map (fun n => ⟨Topic.layerChange.name, n.payload⟩)) = m := by
  intro spec s m shown
  have hcenter : Coord.isFinite m.view.center = true := by decide +kernel
  have hids : (s.products.map LayerSpec.id).Nodup := by decide
  have hshown : [shown, shown] ⊆ m.outbox.onTopic Topic.layerChange.name := by
    have hmem : shown ∈ m.outbox.onTopic Topic.layerChange.name :=
      List.mem_filter.2 ⟨List.mem_cons_self, beq_self_eq_true Topic.layerChange.name⟩
    exact List.forall_mem_cons.2 ⟨hmem, List.forall_mem_singleton.2 hmem⟩
  obtain ⟨haddress, hnotices⟩ := stable_under_echoes s Store.refusing
  exact ⟨hcenter, haddress [] hcenter, hids, hshown, (hnotices hids m rfl [shown, shown] hshown).2⟩

/-! ## The box -/

/-- **The box that a map shows leads to the view that shows it.** With exact numbers this holds of
every view. With doubles it holds if no side of the box needs rounding, and the center may then
differ by the sign of a zero. -/
theorem handle_shown_box {v : Json} {s : Settings} (hs : Settings.ofJson? v = some s)
    (store : σ) (msgs : List Message) :
    let m := (mount s store).receiveAll msgs
    m.view.toRat.fit m.view.toRat.bounds = (m.view.toRat, true) ∧
      (m.view.bounds.isFinite = true → m.view.bounds.toRat = m.view.toRat.bounds →
        ∃ answer center, m.request Topic.getExtent.name = some answer ∧
          Coord.agrees center m.view.center = true ∧
          m.handle Topic.setExtent.name answer =
            (announceMove { m with view := m.view.withCenter center }, .ok ())) := by
  intro m
  have hallowed : m.view.Allowed := allowed_receiveAll (allowed_mount hs store) msgs
  constructor
  · exact View.fit_bounds ⟨hallowed.zoom, hallowed.width, hallowed.height⟩
  · intro hfinite hexact
    obtain ⟨center, hfit, hagrees⟩ := View.fit_bounds_of_exact hallowed hfinite hexact
    refine ⟨m.view.bounds.toJson, center, request_getExtent m, hagrees, ?_⟩
    rw [handle_setExtent m hfinite, Session.fit, hfit]

/-- The sides of the box around this view need no rounding. -/
theorem handle_shown_box_deep :
    let moved : Message := ⟨Topic.center.name, (CenterRequest.create ⟨12.5, -33.25⟩ 17).toJson⟩
    let m := (mount .standard Store.refusing).receiveAll [moved]
    Settings.ofJson? (.obj []) = some .standard ∧ m.view.zoom = 17 ∧
      m.view.bounds.isFinite = true ∧ m.view.bounds.toRat = m.view.toRat.bounds ∧
      ∃ answer center, m.request Topic.getExtent.name = some answer ∧
        Coord.agrees center m.view.center = true ∧
        m.handle Topic.setExtent.name answer =
          (announceMove { m with view := m.view.withCenter center }, .ok ()) := by
  intro moved m
  have hs : Settings.ofJson? (.obj []) = some .standard := by decide +kernel
  have hfinite : m.view.bounds.isFinite = true := by decide +kernel
  have hexact : m.view.bounds.toRat = m.view.toRat.bounds := by decide +kernel
  exact ⟨hs, by decide +kernel, hfinite, hexact,
    (handle_shown_box hs Store.refusing [moved]).2 hfinite hexact⟩

/-- Far from the middle of the plane the left and the right side of the box around a view are both
rounded outward. The box is wider than the pixels of the view, and the view goes out by one zoom
level, although it shows the whole box at the level at which it was. -/
theorem not_handle_shown_box :
    let request := CenterRequest.create ⟨3221225472, 45⟩ 28
    let m := (mount .standard Store.refusing).receive ⟨Topic.center.name, request.toJson⟩
    let box := m.view.bounds
    Settings.ofJson? (.obj []) = some .standard ∧ box.isFinite = true ∧
      m.view = ⟨⟨3221225472, 45⟩, 28, 1024, 768⟩ ∧
      (m.view.around box 28).bounds.contains box = true ∧
      ∃ answer, m.request Topic.getExtent.name = some answer ∧
        (m.receive ⟨Topic.setExtent.name, answer⟩).view = m.view.around box 27 := by
  intro request m box
  have hfinite : box.isFinite = true := by decide +kernel
  have hreceive : m.receive ⟨Topic.setExtent.name, box.toJson⟩ = (m.fit box).1 :=
    congrArg Prod.fst (handle_setExtent m hfinite)
  refine ⟨by decide +kernel, hfinite, by decide +kernel, by decide +kernel, _,
    request_getExtent m, ?_⟩
  rw [hreceive]
  decide +kernel

end Session
end Atlas
