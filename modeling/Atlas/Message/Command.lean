import Atlas.Calendar.Period
import Atlas.Geometry.Bounds
import Atlas.Message.CenterRequest
import Atlas.Message.Topic

/-!
# Commands

A message to the map, decoded by its topic. Most topics carry a record. An import carries a
GeoJSON value of any shape, and two topics carry nothing that matters.
-/

namespace Atlas

/-- A layer is shown or hidden. -/
structure LayerChange where
  id : String
  isBase : Bool
  visible : Bool
  deriving DecidableEq, Repr

namespace LayerChange

/-- Reads a record; what is not said to be a base layer is none, and what is not said to be
visible is hidden. -/
def ofJson? (v : Json) : Option LayerChange := do
  match ← Json.fields? ["id", "isBaseLayer", "visible"] v with
  | [id, isBase, visible] =>
    return ⟨← Json.required Json.str? id, ← Json.withDefault false Json.bool? isBase,
      ← Json.withDefault false Json.bool? visible⟩
  | _ => none

/-- The record of a change. -/
def toJson (c : LayerChange) : Json :=
  Json.ofMembers [("id", .str c.id), ("isBaseLayer", .bool c.isBase), ("visible", .bool c.visible)]

end LayerChange

/-- A product becomes more or less opaque. -/
structure OpacityUpdate where
  product : String
  value : Float
  deriving DecidableEq

namespace OpacityUpdate

/-- Reads a record. -/
def ofJson? (v : Json) : Option OpacityUpdate := do
  match ← Json.fields? ["model", "value"] v with
  | [product, value] =>
    return ⟨← Json.required Json.str? product, ← Json.required Json.float? value⟩
  | _ => none

/-- The record of an update. -/
def toJson (u : OpacityUpdate) : Json :=
  Json.ofMembers [("model", .str u.product), ("value", Json.ofFloat u.value)]

end OpacityUpdate

/-- A drawing tool is activated, or the active one is put away. -/
structure ToolActivation where
  active : Bool
  id : Option String
  /-- The name of the mode. -/
  mode : Option String
  deriving DecidableEq, Repr

namespace ToolActivation

/-- Reads a record. -/
def ofJson? (v : Json) : Option ToolActivation := do
  match ← Json.fields? ["active", "id", "selectionType"] v with
  | [active, id, mode] =>
    return ⟨← Json.required Json.bool? active, ← Json.withDefault none Json.optional? id,
      ← Json.withDefault none Json.optional? mode⟩
  | _ => none

/-- The record of an activation. -/
def toJson (a : ToolActivation) : Json :=
  Json.ofMembers [("active", .bool a.active), ("id", Json.ofString? a.id),
    ("selectionType", Json.ofString? a.mode)]

end ToolActivation

/-- A message to the map. -/
inductive Command where
  | center (request : CenterRequest)
  | changeLayer (change : LayerChange)
  | setExtent (box : Bounds Float)
  | sortProducts
  | updateOpacity (update : OpacityUpdate)
  | activateTool (activation : ToolActivation)
  | loadFeatures (value : Json)
  | exportSelection
  | changePeriod (period : Period)

namespace Command

/-- The topic of a command. -/
def topic : Command → Topic
  | .center _ => .center
  | .changeLayer _ => .layerChange
  | .setExtent _ => .setExtent
  | .sortProducts => .sortProducts
  | .updateOpacity _ => .updateOpacity
  | .activateTool _ => .selectionActivated
  | .loadFeatures _ => .loadFeatures
  | .exportSelection => .exportSelection
  | .changePeriod _ => .timeChange

/-- Decodes a message: the topic has to lead to the map, and the payload has to have its shape. -/
def decode (topic : String) (payload : Json) : Except Fault Command :=
  match Topic.ofName? topic with
  | some .center => orFault .shape ((CenterRequest.ofJson? payload).map .center)
  | some .layerChange => orFault .shape ((LayerChange.ofJson? payload).map .changeLayer)
  | some .setExtent => orFault .shape ((Bounds.ofJson? payload).map .setExtent)
  | some .sortProducts => .ok .sortProducts
  | some .updateOpacity => orFault .shape ((OpacityUpdate.ofJson? payload).map .updateOpacity)
  | some .selectionActivated =>
    orFault .shape ((ToolActivation.ofJson? payload).map .activateTool)
  | some .loadFeatures => .ok (.loadFeatures payload)
  | some .exportSelection => .ok .exportSelection
  | some .timeChange => orFault .shape ((Period.ofJson? payload).map .changePeriod)
  | _ => .error (Fault.of (.unknownTopic topic))

/-- What a command carries; null for the commands that carry nothing. -/
def payload : Command → Json
  | .center request => request.toJson
  | .changeLayer change => change.toJson
  | .setExtent box => box.toJson
  | .updateOpacity update => update.toJson
  | .activateTool activation => activation.toJson
  | .loadFeatures value => value
  | .changePeriod period => period.toJson
  | .sortProducts => .null
  | .exportSelection => .null

/-- **A command is decoded from its own topic only.** -/
theorem topic_of_decode {topic : String} {payload : Json} {c : Command}
    (h : decode topic payload = .ok c) : Topic.ofName? topic = some c.topic := by
  have key : ∀ {α : Type} {o : Option α} {f : α → Command},
      orFault .shape (o.map f) = .ok c → ∃ a, c = f a := by
    intro α o f h
    cases o with
    | none => exact absurd h (by simp [orFault])
    | some a => exact ⟨a, by simpa [orFault, eq_comm] using h⟩
  unfold decode at h
  split at h <;> rename_i ht
  · obtain ⟨a, rfl⟩ := key h; exact ht
  · obtain ⟨a, rfl⟩ := key h; exact ht
  · obtain ⟨a, rfl⟩ := key h; exact ht
  · cases h; exact ht
  · obtain ⟨a, rfl⟩ := key h; exact ht
  · obtain ⟨a, rfl⟩ := key h; exact ht
  · cases h; exact ht
  · cases h; exact ht
  · obtain ⟨a, rfl⟩ := key h; exact ht
  · exact absurd h (by simp)

end Command
end Atlas
