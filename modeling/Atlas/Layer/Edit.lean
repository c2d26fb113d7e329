import Atlas.Layer.Spec

/-!
# Edits of a list of specifications

The list of specifications of a role belongs to the user of the map, who may reorder it, add to it,
take away from it and change how layers are drawn. Places are counted from zero; an edit of a place
that the list does not have changes nothing.
-/

namespace Atlas

/-- An edit of a list of specifications. -/
inductive SpecEdit where
  /-- Moves the specification at one place to another one. -/
  | move (source target : Nat)
  | reverse
  | remove (index : Nat)
  | append (spec : LayerSpec)
  /-- Changes how the layer at a place is drawn, in the ways that are given. -/
  | amend (index : Nat) (visible : Option Bool) (opacity : Option Float)
      (timeEnabled : Option Bool)

namespace SpecEdit

/-- The specification with the given ways of drawing. -/
def amended (visible : Option Bool) (opacity : Option Float) (timeEnabled : Option Bool)
    (spec : LayerSpec) : LayerSpec :=
  { spec with
    visible := visible.getD spec.visible
    opacity := opacity.getD spec.opacity
    timeEnabled := timeEnabled.getD spec.timeEnabled }

/-- Carries out an edit. -/
def apply : SpecEdit → List LayerSpec → List LayerSpec
  | .move source target, specs =>
    match specs[source]? with
    | some spec => (specs.eraseIdx source).insertIdx target spec
    | none => specs
  | .reverse, specs => specs.reverse
  | .remove index, specs => specs.eraseIdx index
  | .append spec, specs => specs ++ [spec]
  | .amend index visible opacity timeEnabled, specs =>
    specs.modify index (amended visible opacity timeEnabled)

end SpecEdit
end Atlas
