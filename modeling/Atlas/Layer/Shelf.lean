import Atlas.Layer.Basic

/-!
# Shelves

All layers of one role: their specifications in the order in which they are listed, and the layers
that could be built, bottom to top. Specifications may be edited freely; afterwards the layers
mirror them again. Ids are not kept distinct: a layer is found as the first one with an id.

On the base shelf at most one specification is visible. Where several are, the first one stays.

## Main statements

* `Shelf.layers_sort_perm` — sorting neither loses nor adds a layer
* `Shelf.layers_sort_pairwise` — after sorting, every layer may lie below the ones above it
* `Shelf.ids_sync` — mirroring leaves the layers and their order alone
* `keepFirstVisible_idem` — hiding the further base maps twice is hiding them once
-/

namespace Atlas

/-- The layers of one role. -/
structure Shelf where
  /-- What the map was told, in the order of the list. -/
  specs : List LayerSpec
  /-- What is drawn, bottom to top. -/
  layers : List Layer
  deriving DecidableEq

/-! ## At most one visible specification -/

/-- The same specification, hidden. -/
def LayerSpec.hide (spec : LayerSpec) : LayerSpec := { spec with visible := false }

/-- The same specification with an opacity. -/
def LayerSpec.setOpacity (opacity : Float) (spec : LayerSpec) : LayerSpec :=
  { spec with opacity := opacity }

/-- Hides every visible specification but the first one. -/
def keepFirstVisible : List LayerSpec → List LayerSpec
  | [] => []
  | spec :: specs =>
    if spec.visible then spec :: specs.map LayerSpec.hide
    else spec :: keepFirstVisible specs

/-- Brings specifications in order: on the base shelf at most one is visible. -/
def settle (role : Role) (specs : List LayerSpec) : List LayerSpec :=
  if role = .base then keepFirstVisible specs else specs

theorem hide_hide (spec : LayerSpec) : spec.hide.hide = spec.hide := rfl

/-- **Hiding the further visible ones twice is hiding them once.** -/
theorem keepFirstVisible_idem (specs : List LayerSpec) :
    keepFirstVisible (keepFirstVisible specs) = keepFirstVisible specs := by
  induction specs with
  | nil => rfl
  | cons spec specs ih =>
    by_cases h : spec.visible = true
    · have hc : ∀ l, keepFirstVisible (spec :: l) = spec :: l.map LayerSpec.hide :=
        fun l => by rw [keepFirstVisible, if_pos h]
      rw [hc, hc, List.map_map]
      rfl
    · have hc : ∀ l, keepFirstVisible (spec :: l) = spec :: keepFirstVisible l :=
        fun l => by rw [keepFirstVisible, if_neg h]
      rw [hc, hc, ih]

/-! ## Changing the first layer with an id -/

/-- Changes the first element that satisfies a condition. -/
def updateFirst {α : Type} (p : α → Bool) (f : α → α) : List α → List α
  | [] => []
  | x :: xs => if p x then f x :: xs else x :: updateFirst p f xs

/-- What `f` leaves alone is left alone by the change. -/
theorem map_updateFirst {α β : Type} {p : α → Bool} {f : α → α} {g : α → β}
    (h : ∀ x, g (f x) = g x) (xs : List α) : (updateFirst p f xs).map g = xs.map g := by
  induction xs with
  | nil => rfl
  | cons x xs ih =>
    rw [updateFirst]
    split
    · simp [h]
    · simp [ih]

namespace Shelf

/-- The layers that can be built for the specifications, in their order. -/
def build (role : Role) (grid : TileGrid) (specs : List LayerSpec) : Shelf :=
  let specs := settle role specs
  ⟨specs, specs.filterMap (Layer.ofSpec? grid)⟩

/-- The first layer with an id. -/
def layer? (s : Shelf) (id : String) : Option Layer := s.layers.find? (fun l => l.id == id)

/-- The ids of the layers, bottom to top. -/
def ids (s : Shelf) : List String := s.layers.map Layer.id

/-- Whether a specification has an id. -/
def hasSpec (s : Shelf) (id : String) : Bool := s.specs.any (fun spec => spec.id == id)

/-! ## Mirroring -/

/-- Lets the first layer with the id of a specification mirror it. -/
def mirrorInto (layers : List Layer) (spec : LayerSpec) : List Layer :=
  updateFirst (fun l => l.id == spec.id) (Layer.mirror spec) layers

/-- Brings the specifications in order and lets the layers mirror them, one after the other. -/
def sync (role : Role) (s : Shelf) : Shelf :=
  let specs := settle role s.specs
  ⟨specs, specs.foldl mirrorInto s.layers⟩

/-! ## Changing what is drawn -/

/-- Shows or hides all specifications with an id; on the base shelf all others are hidden. -/
def setSpecVisible (role : Role) (id : String) (visible : Bool) (spec : LayerSpec) : LayerSpec :=
  if spec.id = id then { spec with visible := visible }
  else if role = .base then spec.hide
  else spec

/-- Shows or hides a layer. The answer says whether a specification has the id; nothing changes
otherwise. -/
def setVisible (role : Role) (id : String) (visible : Bool) (s : Shelf) : Shelf × Bool :=
  if s.hasSpec id then
    (sync role { s with specs := s.specs.map (setSpecVisible role id visible) }, true)
  else (s, false)

/-- The nearest number between 0 and 1. -/
def clampOpacity (x : Float) : Float := if x < 0.0 then 0.0 else if 1.0 < x then 1.0 else x

/-- Makes a layer as opaque as a number between 0 and 1 says: the first specification with the id
and the first layer with it. The answer says whether there is such a layer; a specification
without a layer is changed all the same. What is no number changes nothing. -/
def setOpacity (id : String) (opacity : Float) (s : Shelf) : Shelf × Bool :=
  if opacity.isNaN || !s.hasSpec id then (s, false)
  else
    let x := clampOpacity opacity
    (⟨updateFirst (fun spec => spec.id == id) (LayerSpec.setOpacity x) s.specs,
      updateFirst (fun l => l.id == id) (Layer.setOpacity x) s.layers⟩, (s.layer? id).isSome)

/-! ## Order -/

/-- How far from the end of the list the last specification with an id stands. -/
def rank? (specs : List LayerSpec) (id : String) : Option Nat :=
  specs.reverse.findIdx? (fun spec => spec.id == id)

/-- Whether a layer with the first rank may stand below one with the second: ranked layers stand
below the others, lower ranks below higher ones. -/
def rankLE : Option Nat → Option Nat → Bool
  | some i, some j => decide (i ≤ j)
  | some _, none => true
  | none, some _ => false
  | none, none => true

theorem rankLE_total (i j : Option Nat) : (rankLE i j || rankLE j i) = true := by
  cases i <;> cases j <;> simp [rankLE, Nat.le_total]

theorem rankLE_trans {i j k : Option Nat} (hij : rankLE i j = true) (hjk : rankLE j k = true) :
    rankLE i k = true := by
  cases i <;> cases j <;> cases k <;> simp [rankLE] at hij hjk ⊢
  omega

/-- Whether the specifications let a layer stand below another one. -/
def mayLieBelow (specs : List LayerSpec) (a b : Layer) : Bool :=
  rankLE (rank? specs a.id) (rank? specs b.id)

theorem mayLieBelow_total (specs : List LayerSpec) (a b : Layer) :
    (mayLieBelow specs a b || mayLieBelow specs b a) = true := rankLE_total _ _

theorem mayLieBelow_trans (specs : List LayerSpec) (a b c : Layer)
    (hab : mayLieBelow specs a b = true) (hbc : mayLieBelow specs b c = true) :
    mayLieBelow specs a c = true := rankLE_trans hab hbc

/-- Puts the layers in the order of the specifications, the first specification on top. Layers
without a specification come to stand on top of all, and layers of equal rank keep their order. -/
def sort (s : Shelf) : Shelf := ⟨s.specs, s.layers.mergeSort (mayLieBelow s.specs)⟩

/-- Sorts the layers and lets them mirror their specifications. -/
def reorder (role : Role) (s : Shelf) : Shelf := s.sort.sync role

/-! ## Time -/

/-- Tells the first layer with the id of a specification the interval to show. -/
def timeInto (interval : String) (layers : List Layer) (spec : LayerSpec) : List Layer :=
  updateFirst (fun l => l.id == spec.id) (Layer.setTime interval) layers

/-- Tells the first layer with the id of each specification that follows the time the interval to
show, and counts them. -/
def setTime (interval : String) (s : Shelf) : Shelf × Nat :=
  let timed := s.specs.filter LayerSpec.timeEnabled
  (⟨s.specs, timed.foldl (timeInto interval) s.layers⟩,
    timed.countP (fun spec => (s.layer? spec.id).isSome))

/-! ## Small lemmas -/

theorem map_foldl_mirrorInto {β : Type} {g : Layer → β}
    (h : ∀ spec l, g (Layer.mirror spec l) = g l) (specs : List LayerSpec) (layers : List Layer) :
    (specs.foldl mirrorInto layers).map g = layers.map g := by
  induction specs generalizing layers with
  | nil => rfl
  | cons spec specs ih => rw [List.foldl_cons, ih, mirrorInto, map_updateFirst (h spec)]

/-- **Mirroring leaves the layers and their order alone.** -/
theorem ids_sync (role : Role) (s : Shelf) : (s.sync role).ids = s.ids :=
  map_foldl_mirrorInto (fun _ _ => rfl) _ _

/-- **Sorting neither loses nor adds a layer.** -/
theorem layers_sort_perm (s : Shelf) : s.sort.layers.Perm s.layers := List.mergeSort_perm _ _

/-- **After sorting, every layer may lie below the ones above it.** -/
theorem layers_sort_pairwise (s : Shelf) :
    s.sort.layers.Pairwise (fun a b => mayLieBelow s.specs a b = true) :=
  List.pairwise_mergeSort (mayLieBelow_trans s.specs) (mayLieBelow_total s.specs) s.layers

end Shelf
end Atlas
