import Atlas.Layer.Catalog
import Atlas.Proofs.Layer.Mirroring
import Mathlib.Logic.Relation

/-!
# Runs of a catalog

What a catalog can go through: its own operations in any order, and edits of the specifications of
a role. An edit may reorder the specifications and change how they are drawn, and the layers of the
role catch up with it at once, by `Catalog.sync` or `Catalog.reorder`.

The invariant is that every shelf is in step. Each step either ends with a `sync` of paired lists
or writes both lists alike, so one lemma per step and an induction over the run are enough.

## Main statements

* `Catalog.Step.inStep` — a step keeps the shelves in step
* `Catalog.faithful_of_steps` — after every run of a catalog with distinct ids, the layers show
  what the specifications say, and at most one base layer is shown
-/

namespace Atlas

/-! ## Edits -/

/-- The specification without what an edit may change. -/
def LayerSpec.undrawn (spec : LayerSpec) : LayerSpec :=
  { spec with visible := false, opacity := 0, timeEnabled := false }

/-- A list holds the specifications of another one in some order; they may be drawn differently. -/
def Redrawn (specs specs' : List LayerSpec) : Prop :=
  (specs'.map LayerSpec.undrawn).Perm (specs.map LayerSpec.undrawn)

theorem Redrawn.map_id_perm {specs specs' : List LayerSpec} (h : Redrawn specs specs') :
    (specs'.map LayerSpec.id).Perm (specs.map LayerSpec.id) := by
  have hids : ∀ l : List LayerSpec, (l.map LayerSpec.undrawn).map LayerSpec.id =
      l.map LayerSpec.id := by
    intro l
    rw [List.map_map]
    rfl
  have hperm := h.map LayerSpec.id
  rwa [hids, hids] at hperm

theorem redrawn_of_perm {specs specs' : List LayerSpec} (h : specs'.Perm specs) :
    Redrawn specs specs' := h.map LayerSpec.undrawn

namespace Catalog

/-! ## Operations and steps -/

/-- An operation of a catalog. -/
inductive Operation where
  | setVisible (role : Role) (id : String) (visible : Bool)
  | setOpacity (id : String) (opacity : Float)
  | setPeriod (period : Period)
  | reorder (role : Role)
  | sync (role : Role)

/-- The catalog after an operation. -/
def apply (c : Catalog) : Operation → Catalog
  | .setVisible role id visible => (c.setVisible role id visible).1
  | .setOpacity id opacity => (c.setOpacity id opacity).1
  | .setPeriod period => (c.setPeriod period).1
  | .reorder role => c.reorder role
  | .sync role => c.sync role

/-- What an operation does to the shelf of a role. -/
def Operation.onShelf (op : Operation) (role : Role) (s : Shelf) : Shelf :=
  match op with
  | .setVisible role' id visible => if role' = role then (s.setVisible role id visible).1 else s
  | .setOpacity id opacity => if role = .product then (s.setOpacity id opacity).1 else s
  | .setPeriod period => (s.setTime period.interval).1
  | .reorder role' => if role' = role then s.reorder role else s
  | .sync role' => if role' = role then s.sync role else s

theorem shelf_withShelf (c : Catalog) (role role' : Role) (f : Role → Shelf → Shelf) :
    (c.withShelf role' (f role' (c.shelf role'))).shelf role =
      if role' = role then f role (c.shelf role) else c.shelf role := by
  split
  · next h =>
    subst h
    exact shelf_withShelf_self c role' _
  · next h => exact shelf_withShelf_of_ne (Ne.symm h) c _

/-- An operation changes the shelves one by one. -/
theorem shelf_apply (c : Catalog) (op : Operation) (role : Role) :
    (c.apply op).shelf role = op.onShelf role (c.shelf role) := by
  cases op with
  | setVisible role' id visible =>
    exact shelf_withShelf c role role' (fun role s => (s.setVisible role id visible).1)
  | setOpacity id opacity =>
    cases role with
    | base | product | overlay => rfl
  | setPeriod period =>
    cases role with
    | base | product | overlay => rfl
  | reorder role' => exact shelf_withShelf c role role' Shelf.reorder
  | sync role' => exact shelf_withShelf c role role' Shelf.sync

/-- An operation leaves the shelf of a role as it is, or does one of five things to it. -/
theorem Operation.onShelf_cases {P : Shelf → Prop} {role : Role} {s : Shelf} (op : Operation)
    (same : P s)
    (setVisible : ∀ id visible, op = .setVisible role id visible →
      P (s.setVisible role id visible).1)
    (setOpacity : ∀ id opacity, op = .setOpacity id opacity → P (s.setOpacity id opacity).1)
    (setPeriod : ∀ period, op = .setPeriod period → P (s.setTime period.interval).1)
    (reorder : op = .reorder role → P (s.reorder role))
    (sync : op = .sync role → P (s.sync role)) : P (op.onShelf role s) := by
  cases op with
  | setVisible role' id visible =>
    rw [onShelf]
    split
    · next hrole => exact setVisible id visible (by rw [hrole])
    · exact same
  | setOpacity id opacity =>
    rw [onShelf]
    split
    · exact setOpacity id opacity rfl
    · exact same
  | setPeriod period => exact setPeriod period rfl
  | reorder role' =>
    rw [onShelf]
    split
    · next hrole => exact reorder (by rw [hrole])
    · exact same
  | sync role' =>
    rw [onShelf]
    split
    · next hrole => exact sync (by rw [hrole])
    · exact same

/-- A catalog is known by its shelves. -/
theorem ext_shelf {c c' : Catalog} (h : ∀ role, c.shelf role = c'.shelf role) : c = c' := by
  obtain ⟨base, product, overlay⟩ := c
  obtain ⟨base', product', overlay'⟩ := c'
  obtain rfl : base = base' := h .base
  obtain rfl : product = product' := h .product
  obtain rfl : overlay = overlay' := h .overlay
  rfl

/-- The period that an operation tells the layers. -/
def Operation.period? : Operation → Option Period
  | .setPeriod period => some period
  | .setVisible .. | .setOpacity .. | .reorder _ | .sync _ => none

/-- One step of a run: an operation, or an edit with which the layers catch up at once. -/
inductive Step (c : Catalog) : Catalog → Prop where
  | operation (op : Operation) : Step c (c.apply op)
  | editSync (role : Role) (edit : List LayerSpec → List LayerSpec)
      (h : Redrawn (c.specs role) (edit (c.specs role))) :
      Step c ((c.editSpecs role edit).sync role)
  | editReorder (role : Role) (edit : List LayerSpec → List LayerSpec)
      (h : Redrawn (c.specs role) (edit (c.specs role))) :
      Step c ((c.editSpecs role edit).reorder role)

/-! ## Shelves in step -/

/-- All shelves are in step. -/
def InStep (c : Catalog) : Prop := ∀ role, (c.shelf role).InStep role

theorem InStep.withShelf {c : Catalog} (h : c.InStep) {role : Role} {s : Shelf}
    (hs : s.InStep role) : (c.withShelf role s).InStep := by
  intro role'
  by_cases hr : role' = role
  · subst hr
    rw [shelf_withShelf_self]
    exact hs
  · rw [shelf_withShelf_of_ne hr]
    exact h role'

/-- Catching up again after an edit only depends on the lists being paired. -/
theorem InStep.paired_editSpecs {c : Catalog} (h : c.InStep) {role : Role}
    {edit : List LayerSpec → List LayerSpec}
    (hedit : Redrawn (c.specs role) (edit (c.specs role))) :
    ((c.editSpecs role edit).shelf role).Paired := by
  rw [editSpecs, shelf_withShelf_self]
  exact (h role).toPaired.of_ids_perm hedit.map_id_perm (.refl _)

/-- What is written for the role that was edited replaces the edit. -/
theorem withShelf_editSpecs (c : Catalog) (role : Role) (edit : List LayerSpec → List LayerSpec)
    (s : Shelf) : (c.editSpecs role edit).withShelf role s = c.withShelf role s :=
  withShelf_withShelf c role _ s

theorem inStep_create {base product overlay : List LayerSpec}
    (hbase : (base.map LayerSpec.id).Nodup) (hproduct : (product.map LayerSpec.id).Nodup)
    (hoverlay : (overlay.map LayerSpec.id).Nodup) : (create base product overlay).InStep := by
  intro role
  cases role with
  | base => exact Shelf.inStep_build .base .geographic hbase
  | product => exact Shelf.inStep_build .product .geographic hproduct
  | overlay => exact Shelf.inStep_build .overlay .geographic hoverlay

/-- An operation keeps the shelf of a role in step. -/
theorem Operation.inStep_onShelf (op : Operation) {role : Role} {s : Shelf} (h : s.InStep role) :
    (op.onShelf role s).InStep role := by
  refine op.onShelf_cases (P := fun s => s.InStep role) h ?_ ?_ ?_ ?_ ?_
  · exact fun id visible _ => h.setVisible id visible
  · exact fun id opacity _ => h.setOpacity id opacity
  · exact fun period _ => h.setTime period.interval
  · exact fun _ => h.toPaired.reorder role
  · exact fun _ => h.toPaired.sync role

/-- Operations keep the shelf of a role in step, whatever the other shelves are like. -/
theorem inStep_shelf_foldl {c : Catalog} {role : Role} (h : (c.shelf role).InStep role)
    (ops : List Operation) : ((ops.foldl apply c).shelf role).InStep role := by
  refine List.foldlRecOn (motive := fun c => (c.shelf role).InStep role) ops apply h ?_
  intro c hc op _
  rw [shelf_apply]
  exact op.inStep_onShelf hc

theorem InStep.apply {c : Catalog} (h : c.InStep) (op : Operation) : (c.apply op).InStep :=
  fun role => inStep_shelf_foldl (h role) [op]

/-- **A step keeps the shelves in step.** -/
theorem Step.inStep {c c' : Catalog} (hstep : c.Step c') (h : c.InStep) : c'.InStep := by
  cases hstep with
  | operation op => exact h.apply op
  | editSync role edit hedit =>
    rw [Catalog.sync, withShelf_editSpecs]
    exact h.withShelf ((h.paired_editSpecs hedit).sync role)
  | editReorder role edit hedit =>
    rw [Catalog.reorder, withShelf_editSpecs]
    exact h.withShelf ((h.paired_editSpecs hedit).reorder role)

/-! ## What is shown -/

/-- The layers show what the specifications say: for each layer there is exactly one specification
with its id, which is as visible and as opaque as the layer is. Of the base specifications at most
one is visible, and of the base layers as well. -/
structure Faithful (c : Catalog) : Prop where
  shown : ∀ role, ∀ l ∈ c.layers role, ∃ spec,
    (c.specs role).filter (fun spec => spec.id == l.id) = [spec] ∧
      l.visible = spec.visible ∧ l.opacity = spec.opacity
  one_spec : (c.specs .base).countP LayerSpec.visible ≤ 1
  one_layer : (c.layers .base).countP Layer.visible ≤ 1

theorem InStep.faithful {c : Catalog} (h : c.InStep) : c.Faithful where
  shown := by
    intro role l hl
    obtain ⟨spec, hspec, hid, hvisible, hopacity⟩ := (h role).mirrored l hl
    refine ⟨spec, ?_, hvisible, hopacity⟩
    rw [← hid]
    exact filter_key_eq_singleton (h role).specs_nodup hspec
  one_spec := (h .base).single rfl
  one_layer := (h .base).countP_visible_le_one

/-- **After every run the layers show what the specifications say,** if no id stood twice in the
specifications of a role. -/
theorem faithful_of_steps {base product overlay : List LayerSpec} {c : Catalog}
    (hbase : (base.map LayerSpec.id).Nodup) (hproduct : (product.map LayerSpec.id).Nodup)
    (hoverlay : (overlay.map LayerSpec.id).Nodup)
    (hrun : Relation.ReflTransGen Step (create base product overlay) c) : c.Faithful := by
  have hstep : c.InStep := by
    induction hrun with
    | refl => exact inStep_create hbase hproduct hoverlay
    | tail _ hlast ih => exact hlast.inStep ih
  exact hstep.faithful

/-- Two of the base maps start out visible, one layer of each kind cannot be drawn, and the run
goes through two operations and an edit. It leaves one base map visible, one product less opaque,
and the products in the order in which they were built. -/
theorem faithful_after_reversing :
    let base := [{ LayerSpec.create "terrain" .wmts ["t"] with visible := true },
      { LayerSpec.create "imagery" .wms ["i"] with visible := true }, .create "relief" .wms []]
    let products := [{ LayerSpec.create "ndvi" .wms ["n"] with timeEnabled := true },
      .create "sst" .wmts ["s"], .create "grid" (.unsupported "XYZ") ["g"]]
    let start := create base products []
    let edited := ((start.apply (.setVisible .base "imagery" true)).apply
      (.setOpacity "sst" 0.25)).editSpecs .product List.reverse
    let stop := edited.reorder .product
    let drawn := fun l : Layer => (l.id, l.visible, l.opacity)
    (base.map LayerSpec.id).Nodup ∧ (products.map LayerSpec.id).Nodup ∧
      Relation.ReflTransGen Step start stop ∧ stop.Faithful ∧
      (start.layers .product).map drawn = [("ndvi", false, 1.0), ("sst", false, 1.0)] ∧
      (stop.layers .base).map drawn = [("terrain", false, 1.0), ("imagery", true, 1.0)] ∧
      (stop.layers .product).map drawn = [("ndvi", false, 1.0), ("sst", false, 0.25)] := by
  intro base products start edited stop drawn
  have hbase : (base.map LayerSpec.id).Nodup := by decide
  have hproducts : (products.map LayerSpec.id).Nodup := by decide
  have hoverlays : (([] : List LayerSpec).map LayerSpec.id).Nodup := List.nodup_nil
  have hrun : Relation.ReflTransGen Step start stop :=
    ((Relation.ReflTransGen.single (.operation _)).tail (.operation _)).tail
      (.editReorder .product List.reverse (redrawn_of_perm (List.reverse_perm _)))
  -- turned around, the specifications want the layers as they stand
  have hsort : (edited.shelf .product).sort = edited.shelf .product :=
    congrArg (Shelf.mk _) (List.mergeSort_of_pairwise (by decide +kernel))
  have hstop : stop.layers .product = ((edited.shelf .product).sync .product).layers := by
    rw [← hsort]
    rfl
  refine ⟨hbase, hproducts, hrun, faithful_of_steps hbase hproducts hoverlays hrun,
    by decide +kernel, by decide +kernel, ?_⟩
  rw [hstop]
  decide +kernel

end Catalog
end Atlas
