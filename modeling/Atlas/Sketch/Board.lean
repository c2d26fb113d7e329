import Atlas.Feature
import Atlas.Sketch.Tool

/-!
# The drawing board

What is drawn on the map and what was imported onto it: a list of features, of which the last one
is the current selection. At most one tool is active. Changing the tool clears the board and
forgets a box that was begun.

Every change of the current selection is noted, oldest first, until somebody takes the notes. A
drawing in single mode is two changes: the board is cleared, then the feature is added.

## Main statements

* `Board.changes_*` — what each operation notes
* `Board.sketch_eq_of_refused` — a refused sketch leaves the board as it is
-/

namespace Atlas

/-- The drawing board. -/
structure Board where
  /-- The active tool, if any. -/
  tool : Option Tool
  mode : DrawMode
  features : List Feature
  /-- Where the box began that is being dragged. -/
  boxStart : Option Coord
  /-- The current selection after each change that nobody has taken yet. -/
  changes : List (Option Geometry)

namespace Board

/-- An empty board without a tool. -/
def empty : Board := ⟨none, .multi, [], none, []⟩

/-- What the pointer does. -/
def interaction? (b : Board) : Option Interaction := b.tool.map Tool.interaction

/-- The geometry of the last feature. -/
def current? (b : Board) : Option Geometry := b.features.getLast?.map Feature.geometry

/-- Notes the current selection. -/
def note (b : Board) : Board := { b with changes := b.changes ++ [b.current?] }

/-- Takes the notes away. -/
def takeChanges (b : Board) : List (Option Geometry) × Board :=
  (b.changes, { b with changes := [] })

/-- Puts other features on the board and notes the selection. -/
def put (b : Board) (features : List Feature) : Board := note { b with features := features }

/-- Removes all features. -/
def clear (b : Board) : Board := b.put []

/-- Makes a tool the active one, on an empty board. -/
def activate (b : Board) (tool : Tool) (mode : DrawMode) : Board :=
  { b.clear with boxStart := none, tool := some tool, mode := mode }

/-- Makes the tool with an id the active one. -/
def activateById (b : Board) (id : String) (mode : DrawMode) : Board × Except Fault Unit :=
  match Tool.ofId id with
  | .ok tool => (b.activate tool mode, .ok ())
  | .error fault => (b, .error fault)

/-- Puts the tool away and empties the board. -/
def deactivate (b : Board) : Board := { b.clear with boxStart := none, tool := none }

/-- Adds a drawing; in single mode it takes the place of all features. -/
def add (b : Board) (f : Feature) : Board :=
  -- clearing is a change of its own, so single mode notes two
  let b := if b.mode = .single then b.clear else b
  b.put (b.features ++ [f])

/-- Ends a sketch. It is accepted if the active tool draws geometries of its kind. -/
def sketch (b : Board) (g : Geometry) : Board × Bool :=
  match b.interaction? with
  | some (.draw kind) => if kind.matches g then (b.add (Feature.ofGeometry g), true) else (b, false)
  | _ => (b, false)

/-- Begins to drag a box, if the tool for it is active. -/
def startBox (b : Board) (corner : Coord) : Board × Bool :=
  if b.interaction? = some .dragBox then ({ b with boxStart := some corner }, true) else (b, false)

/-- The polygon of a box with two opposite corners, around from the first one. -/
def boxPolygon (start stop : Coord) : Geometry :=
  .polygon (Polygon.ofRings [start, ⟨start.x, stop.y⟩, stop, ⟨stop.x, start.y⟩] [])

/-- Ends a box, if the tool for it is active and a box was begun. -/
def endBox (b : Board) (corner : Coord) : Board × Bool :=
  if b.interaction? = some .dragBox then
    match b.boxStart with
    | some start =>
      (add { b with boxStart := none } (Feature.ofGeometry (boxPolygon start corner)), true)
    | none => (b, false)
  else (b, false)

/-- Replaces all features: the board is cleared first. -/
def replace (b : Board) (features : List Feature) : Board :=
  if features.isEmpty then b.clear else b.clear.put features

/-! ## What is noted -/

@[simp] theorem features_put (b : Board) (fs : List Feature) : (b.put fs).features = fs := rfl

@[simp] theorem changes_put (b : Board) (fs : List Feature) :
    (b.put fs).changes = b.changes ++ [fs.getLast?.map Feature.geometry] := rfl

@[simp] theorem features_clear (b : Board) : b.clear.features = [] := rfl

@[simp] theorem changes_clear (b : Board) : b.clear.changes = b.changes ++ [none] := rfl

@[simp] theorem changes_activate (b : Board) (tool : Tool) (mode : DrawMode) :
    (b.activate tool mode).changes = b.changes ++ [none] := rfl

@[simp] theorem changes_deactivate (b : Board) : b.deactivate.changes = b.changes ++ [none] := rfl

/-- A drawing in multi mode stands behind all features. -/
theorem features_add_multi {b : Board} (h : b.mode = .multi) (f : Feature) :
    (b.add f).features = b.features ++ [f] := by
  simp [add, h]

/-- A drawing in single mode stands alone. -/
theorem features_add_single {b : Board} (h : b.mode = .single) (f : Feature) :
    (b.add f).features = [f] := by
  simp [add, h]

/-- After a drawing it is the current selection. -/
theorem current?_add (b : Board) (f : Feature) : (b.add f).current? = some f.geometry := by
  simp [add, current?]

/-- **A refused sketch leaves the board as it is.** -/
theorem sketch_eq_of_refused {b : Board} {g : Geometry} (h : (b.sketch g).2 = false) :
    (b.sketch g).1 = b := by
  unfold sketch at h ⊢
  split
  · next kind hk =>
    rw [hk] at h
    simp only at h
    split
    · next hm => rw [if_pos hm] at h; exact absurd h (by simp)
    · rfl
  · rfl

end Board
end Atlas
