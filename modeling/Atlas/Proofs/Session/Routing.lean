import Atlas.Proofs.Layer.Patching
import Atlas.Proofs.Session.Misses
import Atlas.Proofs.Session.Periods

/-!
# Which layers a change is about

A change of a layer names an id and says whether it means a base map. An id may stand in the
specifications of several roles. A base map is looked for among the base maps alone; any other
change goes to the products if one of them has the id, and else to the overlays. The other roles are
not touched.

In the role that is meant, the specification with the id is shown or hidden, and among the base maps
all others are hidden. The layers mirror all specifications of the role afterwards. Where they did
so before, the layers change in the same way as the specifications, and in no other one.

## Main statements

* `Session.roleOfChange?_eq` — the role that a change is about
* `Shelf.setVisible_eq_map` — what showing or hiding does to layers that mirror their specifications
* `Session.changeLayer_routes` — a change touches one role at most, and there the layer with the id
-/

namespace Atlas

/-! ## Showing or hiding in a role -/

/-- Shows or hides a layer if it has an id; among the base maps others are hidden. -/
def Layer.redraw (role : Role) (id : String) (visible : Bool) (l : Layer) : Layer :=
  if l.id = id then { l with visible := visible }
  else if role = .base then { l with visible := false }
  else l

/-- Shows or hides a specification if it has an id; among the base maps others are hidden. -/
def LayerSpec.redraw (role : Role) (id : String) (visible : Bool) (spec : LayerSpec) : LayerSpec :=
  if spec.id = id then { spec with visible := visible }
  else if role = .base then { spec with visible := false }
  else spec

theorem Shelf.setSpecVisible_eq_redraw (role : Role) (id : String) (visible : Bool) :
    setSpecVisible role id visible = LayerSpec.redraw role id visible := rfl

theorem LayerSpec.id_redraw (role : Role) (id : String) (visible : Bool) (spec : LayerSpec) :
    (spec.redraw role id visible).id = spec.id := Shelf.id_setSpecVisible role id visible spec

theorem Layer.mirror_redraw {role : Role} {id : String} {visible : Bool}
    {spec : LayerSpec} {l : Layer} (hid : spec.id = l.id) (hvisible : l.visible = spec.visible)
    (hopacity : l.opacity = spec.opacity) :
    l.mirror (spec.redraw role id visible) = l.redraw role id visible := by
  rw [Layer.redraw, LayerSpec.redraw, hid, Layer.mirror]
  split
  · rw [← hopacity]
  · split
    · rw [← hopacity]
    · rw [← hvisible, ← hopacity]

namespace Shelf

/-- Every layer that has a specification shows what it says. -/
def Mirrors (s : Shelf) : Prop :=
  ∀ l ∈ s.layers, ∀ spec ∈ s.specs, spec.id = l.id →
    l.visible = spec.visible ∧ l.opacity = spec.opacity

theorem InStep.mirrors {role : Role} {s : Shelf} (h : s.InStep role) : s.Mirrors := by
  intro l hl spec hspec hid
  obtain ⟨spec', hspec', hid', hsame⟩ := h.mirrored l hl
  obtain rfl : spec' = spec :=
    List.inj_on_of_nodup_map h.specs_nodup hspec' hspec (hid'.trans hid.symm)
  exact hsame

theorem hasSpec_iff_exists {s : Shelf} {id : String} :
    s.hasSpec id = true ↔ ∃ spec ∈ s.specs, spec.id = id := by
  rw [hasSpec_iff, List.mem_map]

/-- **Layers that mirror their specifications change as the specifications do,** if no id stands
twice. A layer without a specification is not reached. -/
theorem setVisible_eq_map {role : Role} {s : Shelf} (h : s.Distinct) (hmirrors : s.Mirrors)
    {id : String} (hid : s.hasSpec id = true) (visible : Bool) :
    (s.setVisible role id visible).1 = ⟨s.specs.map (LayerSpec.redraw role id visible),
      s.layers.map (fun l => if s.hasSpec l.id then l.redraw role id visible else l)⟩ := by
  have hshown := (alike_showSpecs role id visible s).distinct h
  have hids := hshown.specs_nodup
  rw [setVisible_eq, if_pos hid, hshown.sync_eq]
  simp only [showSpecs] at hids ⊢
  rw [settle_map_setSpecVisible_of_nodup h.specs_nodup]
  rw [setSpecVisible_eq_redraw] at hids ⊢
  refine congrArg (Shelf.mk _) (List.map_congr_left fun l hl => ?_)
  by_cases hl' : s.hasSpec l.id = true
  · obtain ⟨spec, hspec, hsame⟩ := hasSpec_iff_exists.1 hl'
    obtain ⟨hvisible, hopacity⟩ := hmirrors l hl spec hspec hsame
    rw [if_pos hl', Layer.follow_of_mem hids (List.mem_map_of_mem hspec)
      ((LayerSpec.id_redraw role id visible spec).trans hsame)]
    exact Layer.mirror_redraw hsame hvisible hopacity
  · rw [if_neg hl', Layer.follow_of_notMem]
    rw [hasSpec_iff, ← (alike_showSpecs role id visible s).map_specs fun _ => rfl] at hl'
    exact hl'

end Shelf

namespace Session

variable {σ : Type}

/-! ## The role that is meant -/

/-- The role that a change is about: base maps if it says so, else products if one of them has the
id, and else overlays if one of them has it. -/
def target? (m : Session σ) (change : LayerChange) : Option Role :=
  if change.isBase then some .base
  else if ∃ spec ∈ m.catalog.specs .product, spec.id = change.id then some .product
  else if ∃ spec ∈ m.catalog.specs .overlay, spec.id = change.id then some .overlay
  else none

theorem roleOfChange?_eq (m : Session σ) (change : LayerChange) :
    m.roleOfChange? change = m.target? change := by
  have hfound : ∀ role, (m.catalog.shelf role).hasSpec change.id = true ↔
      ∃ spec ∈ m.catalog.specs role, spec.id = change.id := fun _ => Shelf.hasSpec_iff_exists
  simp only [target?, ← hfound]
  rw [roleOfChange?, Catalog.roleOf?]
  split
  · rfl
  · rw [List.find?_cons, List.find?_cons, List.find?_cons]
    cases (m.catalog.shelf .product).hasSpec change.id with
    | true => rfl
    | false =>
      cases (m.catalog.shelf .overlay).hasSpec change.id with
      | true => rfl
      | false => cases (m.catalog.shelf .base).hasSpec change.id <;> rfl

theorem changeLayer_of_target {m : Session σ} {change : LayerChange} {role : Role}
    (h : m.target? change = some role) : m.changeLayer change =
      ({ m with catalog := (m.catalog.setVisible role change.id change.visible).1 },
        (m.catalog.shelf role).hasSpec change.id) := by
  rw [changeLayer, roleOfChange?_eq, h]
  exact congrArg (Prod.mk _) (Shelf.setVisible_snd role change.id change.visible _)

theorem changeLayer_of_none {m : Session σ} {change : LayerChange} (h : m.target? change = none) :
    m.changeLayer change = (m, false) := by
  rw [changeLayer, roleOfChange?_eq, h]

/-! ## What a change touches -/

/-- What a change of a layer leaves of a session, and what it says. It has found what it was asked
for if a specification of the role that is meant has the id, and all other roles are as they were:
the base maps if it is not about them, and the overlays if a product has the id. Where the layers of
the role showed what the specifications say, the specification and the layer with the id are shown
or hidden, among the base maps the others are hidden, and nothing else has changed. -/
structure Routed (m : Session σ) (change : LayerChange) (m' : Session σ) (found : Bool) :
    Prop where
  rest : m' = { m with catalog := m'.catalog }
  found_iff : found = true ↔ ∃ role, m.target? change = some role ∧
    ∃ spec ∈ m.catalog.specs role, spec.id = change.id
  missed : found = false → m' = m
  others : ∀ role, m.target? change ≠ some role → m'.catalog.shelf role = m.catalog.shelf role
  base : change.isBase = false → m'.catalog.base = m.catalog.base
  overlay : change.isBase = false → (∃ spec ∈ m.catalog.specs .product, spec.id = change.id) →
    m'.catalog.overlay = m.catalog.overlay
  /-- Layers that have lost their specifications are not reached. -/
  reached : ∀ role, m.target? change = some role → found = true →
    (m.catalog.shelf role).Distinct → (m.catalog.shelf role).Mirrors →
    m'.catalog.specs role =
        (m.catalog.specs role).map (LayerSpec.redraw role change.id change.visible) ∧
      m'.catalog.layers role = (m.catalog.layers role).map (fun l =>
        if (m.catalog.shelf role).hasSpec l.id then l.redraw role change.id change.visible else l)
  /-- Where every layer has a specification, all are reached. -/
  redrawn : ∀ role, m.target? change = some role → found = true →
    (m.catalog.shelf role).Paired → (m.catalog.shelf role).Mirrors →
    m'.catalog.specs role =
        (m.catalog.specs role).map (LayerSpec.redraw role change.id change.visible) ∧
      m'.catalog.layers role =
        (m.catalog.layers role).map (Layer.redraw role change.id change.visible)

section
variable {m : Session σ} {change : LayerChange}

theorem target?_ne_base (h : change.isBase = false) : m.target? change ≠ some .base := by
  rw [target?, h]
  split
  · next hbase => cases hbase
  · split
    · exact fun heq => nomatch heq
    · split
      · exact fun heq => nomatch heq
      · exact fun heq => nomatch heq

theorem target?_of_product (h : change.isBase = false)
    (hproduct : ∃ spec ∈ m.catalog.specs .product, spec.id = change.id) :
    m.target? change = some .product := by
  rw [target?, h, if_neg Bool.false_ne_true, if_pos hproduct]

theorem shelf_changeLayer_of_ne {role : Role} (h : m.target? change ≠ some role) :
    (m.changeLayer change).1.catalog.shelf role = m.catalog.shelf role := by
  cases htarget : m.target? change with
  | none => rw [changeLayer_of_none htarget]
  | some role' =>
    rw [changeLayer_of_target htarget]
    refine Catalog.shelf_withShelf_of_ne ?_ m.catalog _
    rintro rfl
    exact h htarget

theorem shelf_changeLayer {role : Role} (h : m.target? change = some role)
    (hfound : (m.changeLayer change).2 = true) (hdistinct : (m.catalog.shelf role).Distinct)
    (hmirrors : (m.catalog.shelf role).Mirrors) :
    (m.changeLayer change).1.catalog.shelf role =
      ⟨(m.catalog.specs role).map (LayerSpec.redraw role change.id change.visible),
        (m.catalog.layers role).map (fun l => if (m.catalog.shelf role).hasSpec l.id then
          l.redraw role change.id change.visible else l)⟩ := by
  rw [changeLayer_of_target h] at hfound ⊢
  rw [← Catalog.shelf_withShelf_self m.catalog role ⟨_, _⟩]
  refine congrArg (fun s => (m.catalog.withShelf role s).shelf role) ?_
  exact Shelf.setVisible_eq_map hdistinct hmirrors hfound change.visible

end

/-- **A change touches one role at most, and there the layer with the id.** -/
theorem changeLayer_routes (m : Session σ) (change : LayerChange) :
    Routed m change (m.changeLayer change).1 (m.changeLayer change).2 where
  rest := by
    cases htarget : m.target? change with
    | none => rw [changeLayer_of_none htarget]
    | some role => rw [changeLayer_of_target htarget]
  found_iff := by
    cases htarget : m.target? change with
    | none =>
      rw [changeLayer_of_none htarget]
      simp
    | some role =>
      rw [changeLayer_of_target htarget, Shelf.hasSpec_iff_exists]
      simp only [Option.some.injEq, exists_eq_left']
      rfl
  missed := changeLayer_of_missed
  others _ := shelf_changeLayer_of_ne
  base h := shelf_changeLayer_of_ne (target?_ne_base h)
  overlay h hproduct := by
    have hne : m.target? change ≠ some .overlay := by
      rw [target?_of_product h hproduct]
      exact fun heq => nomatch heq
    exact shelf_changeLayer_of_ne hne
  reached role h hfound hdistinct hmirrors := by
    have hshelf := shelf_changeLayer h hfound hdistinct hmirrors
    exact ⟨congrArg Shelf.specs hshelf, congrArg Shelf.layers hshelf⟩
  redrawn role h hfound hpaired hmirrors := by
    have hshelf := shelf_changeLayer h hfound hpaired.distinct hmirrors
    refine ⟨congrArg Shelf.specs hshelf, (congrArg Shelf.layers hshelf).trans ?_⟩
    refine List.map_congr_left fun l hl => if_pos ?_
    exact Shelf.hasSpec_iff.2 (hpaired.known (List.mem_map_of_mem hl))

/-- One id stands among the products and among the overlays, and a base map is chosen while another
one is shown. -/
theorem changeLayer_routes_shared :
    let s := { Settings.standard with
      base := [{ LayerSpec.create "terrain" .wmts ["t"] with visible := true },
        .create "relief" .wms ["r"]]
      products := [.create "clouds" .wms ["c"], .create "sst" .wmts ["s"]]
      overlays := [.create "clouds" .wmts ["o"]] }
    let m := mount s Store.refusing
    let relief : LayerChange := ⟨"relief", true, true⟩
    let clouds : LayerChange := ⟨"clouds", false, true⟩
    m.target? relief = some .base ∧ (m.changeLayer relief).2 = true ∧
      (m.catalog.shelf .base).Paired ∧ (m.catalog.shelf .base).Mirrors ∧
      (m.changeLayer relief).1.catalog.layers .base =
        (m.catalog.layers .base).map (Layer.redraw .base "relief" true) ∧
      m.target? clouds = some .product ∧ (m.changeLayer clouds).2 = true ∧
      (m.changeLayer clouds).1.catalog.overlay = m.catalog.overlay := by
  intro s m relief clouds
  have hids : ∀ role, ((s.specs role).map LayerSpec.id).Nodup := by
    intro role
    cases role with
    | base | product | overlay => decide
  have hbase := inStep_mount Store.refusing hids .base
  have hrelief : m.target? relief = some .base := rfl
  have hchosen : (m.changeLayer relief).2 = true := by decide +kernel
  have hproduct : ∃ spec ∈ m.catalog.specs .product, spec.id = "clouds" := by decide +kernel
  have hclouds : m.target? clouds = some .product := target?_of_product rfl hproduct
  have hfound := (changeLayer_routes m clouds).found_iff.2 ⟨.product, hclouds, hproduct⟩
  exact ⟨hrelief, hchosen, hbase.toPaired, hbase.mirrors,
    ((changeLayer_routes m relief).redrawn .base hrelief hchosen hbase.toPaired hbase.mirrors).2,
    hclouds, hfound, (changeLayer_routes m clouds).overlay rfl hproduct⟩

end Session
end Atlas
