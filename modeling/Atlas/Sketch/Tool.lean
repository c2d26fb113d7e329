import Atlas.Fault
import Atlas.Geometry.Basic
import Atlas.Json.Record

/-!
# Drawing tools

Four tools draw on the map. Three of them draw a geometry position by position, the fourth drags a
box. In single mode a new drawing takes the place of all earlier ones, in multi mode it is added
to them.

A tool has an id, by which buttons and messages refer to it, and a name in records.
-/

namespace Atlas

/-- What the pointer does while a tool is active. -/
inductive Interaction where
  | draw (kind : GeometryKind)
  | dragBox
  deriving DecidableEq, Repr

/-- A drawing tool. -/
inductive Tool where
  | point
  | line
  | polygon
  | box
  deriving DecidableEq, Repr

namespace Tool

/-- All tools. -/
def all : List Tool := [.point, .line, .polygon, .box]

/-- The id of a tool. -/
def id : Tool → String
  | .point => "pointSelection"
  | .line => "lineSelection"
  | .polygon => "polygonSelection"
  | .box => "bboxSelection"

/-- The name of a tool in records. -/
def name : Tool → String
  | .point => "Point"
  | .line => "Line"
  | .polygon => "Polygon"
  | .box => "Box"

/-- What the pointer does while the tool is active. -/
def interaction : Tool → Interaction
  | .point => .draw .point
  | .line => .draw .lineString
  | .polygon => .draw .polygon
  | .box => .dragBox

/-- The tool with an id. -/
def ofId? (s : String) : Option Tool := all.find? (fun t => t.id == s)

/-- The tool with an id, or the fault that there is none. -/
def ofId (s : String) : Except Fault Tool := orFault (.unknownTool s) (ofId? s)

/-- Reads the name of a tool. -/
def ofJson? (v : Json) : Option Tool :=
  (Json.name? v).bind (fun s => all.find? (fun t => t.name == s))

/-- Every tool is found by its id. -/
theorem ofId?_id (t : Tool) : ofId? t.id = some t := by cases t <;> decide

/-- A tool is found by no id but its own. -/
theorem ofId?_eq_some_iff {s : String} {t : Tool} : ofId? s = some t ↔ s = t.id := by
  constructor
  · intro h
    have := List.find?_some h
    exact (beq_iff_eq.1 this).symm
  · rintro rfl
    exact ofId?_id t

theorem ofId?_eq_none_iff {s : String} : ofId? s = none ↔ ∀ t : Tool, s ≠ t.id := by
  simp only [ne_eq, ← ofId?_eq_some_iff, Option.eq_none_iff_forall_ne_some]

end Tool

/-- What a new drawing does to the earlier ones. -/
inductive DrawMode where
  | single
  | multi
  deriving DecidableEq, Repr

namespace DrawMode

/-- The name of a mode in records. -/
def name : DrawMode → String
  | .single => "single"
  | .multi => "multi"

/-- Reads the name of a mode. -/
def ofJson? (v : Json) : Option DrawMode :=
  (Json.name? v).bind (fun s => [DrawMode.single, .multi].find? (fun m => m.name == s))

/-- The mode that a message asks for: single if it says so, and multi in all other cases. -/
def ofRequest : Option String → DrawMode
  | some "single" => .single
  | _ => .multi

end DrawMode
end Atlas
