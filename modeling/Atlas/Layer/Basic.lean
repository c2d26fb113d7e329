import Atlas.Layer.Source

/-!
# Layers

A layer as it is drawn: built once from its specification, with a source for its tiles. Later it
only mirrors whether the specification is visible, and how opaque it is.
-/

namespace Atlas

/-- A layer as it is drawn. -/
structure Layer where
  id : String
  visible : Bool
  opacity : Float
  attribution : Option String
  source : TileSource
  deriving DecidableEq

namespace Layer

/-- The layer for a specification, if its source can be built. -/
def ofSpec? (grid : TileGrid) (spec : LayerSpec) : Option Layer :=
  (TileSource.ofSpec? spec grid).map
    (fun source => ⟨spec.id, spec.visible, spec.opacity, spec.attribution, source⟩)

/-- Takes over what changes in a specification. -/
def mirror (spec : LayerSpec) (layer : Layer) : Layer :=
  { layer with visible := spec.visible, opacity := spec.opacity }

/-- Tells the source of the layer the interval to show. -/
def setTime (interval : String) (layer : Layer) : Layer :=
  { layer with source := layer.source.setTime interval }

/-- Draws the layer with an opacity. -/
def setOpacity (opacity : Float) (layer : Layer) : Layer := { layer with opacity := opacity }

@[simp] theorem id_mirror (spec : LayerSpec) (layer : Layer) : (layer.mirror spec).id = layer.id :=
  rfl

@[simp] theorem id_setTime (interval : String) (layer : Layer) :
    (layer.setTime interval).id = layer.id := rfl

@[simp] theorem id_setOpacity (opacity : Float) (layer : Layer) :
    (layer.setOpacity opacity).id = layer.id := rfl

/-- A layer has the id of its specification. -/
theorem id_of_ofSpec? {grid : TileGrid} {spec : LayerSpec} {layer : Layer}
    (h : ofSpec? grid spec = some layer) : layer.id = spec.id := by
  unfold ofSpec? at h
  rw [Option.map_eq_some_iff] at h
  obtain ⟨source, _, rfl⟩ := h
  rfl

/-- A layer starts as its specification says. -/
theorem mirror_of_ofSpec? {grid : TileGrid} {spec : LayerSpec} {layer : Layer}
    (h : ofSpec? grid spec = some layer) : layer.mirror spec = layer := by
  unfold ofSpec? at h
  rw [Option.map_eq_some_iff] at h
  obtain ⟨source, _, rfl⟩ := h
  rfl

end Layer
end Atlas
