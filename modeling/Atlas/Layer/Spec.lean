import Atlas.Json.Record

/-!
# Layer specifications

What a map is told about a layer: which server has it, how it is drawn, and whether it follows the
time of the map. A layer has one of three roles. Of the base layers at most one is shown; products
are the data of the map and have an order; overlays are drawn on top.

The protocol of a server is a name. Two names are known, in any letter case, and every other one
is kept as it is.
-/

namespace Atlas

/-! ## Roles -/

/-- What a layer is for. -/
inductive Role where
  | base
  | product
  | overlay
  deriving DecidableEq, Repr

namespace Role

/-- The roles in the order in which the map goes through them. -/
def all : List Role := [.base, .product, .overlay]

/-- The name of a role. -/
def name : Role → String
  | .base => "base"
  | .product => "product"
  | .overlay => "overlay"

/-- The role with a name. -/
def ofName? (s : String) : Option Role := all.find? (fun r => r.name == s)

/-- Reads the name of a role. -/
def ofJson? (v : Json) : Option Role := (Json.name? v).bind ofName?

/-- Every role is found by its name. -/
theorem ofName?_name (r : Role) : ofName? r.name = some r := by cases r <;> decide

end Role

/-! ## Protocols -/

/-- How a server is asked for a layer. -/
inductive Protocol where
  | wms
  | wmts
  /-- A protocol that is not known here, with its name. -/
  | unsupported (name : String)
  deriving DecidableEq, Repr

namespace Protocol

/-- The same characters with the ASCII letters in upper case. -/
def upper (s : String) : List Char := s.toList.map Char.toUpper

/-- The protocol with a name. Letter case does not matter for the known ones. -/
def ofName (s : String) : Protocol :=
  if upper s = ['W', 'M', 'S'] then .wms
  else if upper s = ['W', 'M', 'T', 'S'] then .wmts
  else .unsupported s

/-- The name of a protocol. -/
def name : Protocol → String
  | .wms => "WMS"
  | .wmts => "WMTS"
  | .unsupported s => s

/-- Whether layers can be built for a protocol. -/
def isSupported : Protocol → Bool
  | .unsupported _ => false
  | _ => true

/-- **Writing and reading the name of a protocol that was read leads to it again.** -/
theorem ofName_name_ofName (s : String) : ofName (ofName s).name = ofName s := by
  by_cases h1 : upper s = ['W', 'M', 'S']
  · rw [show ofName s = .wms from if_pos h1]; decide
  · by_cases h2 : upper s = ['W', 'M', 'T', 'S']
    · rw [show ofName s = .wmts by rw [ofName, if_neg h1, if_pos h2]]; decide
    · rw [show ofName s = .unsupported s by rw [ofName, if_neg h1, if_neg h2]]
      rw [name, ofName, if_neg h1, if_neg h2]

end Protocol

/-! ## Specifications -/

/-- What a map is told about a layer. -/
structure LayerSpec where
  id : String
  protocol : Protocol
  urls : List String
  visible : Bool
  opacity : Float
  style : Option String
  /-- The name of the set of tile matrices. -/
  matrixSet : Option String
  format : Option String
  projection : Option String
  attribution : Option String
  /-- Whether the layer follows the time of the map. -/
  timeEnabled : Bool
  deriving DecidableEq

namespace LayerSpec

/-- A hidden opaque layer about which nothing else is said. -/
def create (id : String) (protocol : Protocol) (urls : List String) : LayerSpec :=
  { id := id, protocol := protocol, urls := urls, visible := false, opacity := 1.0, style := none,
    matrixSet := none, format := none, projection := none, attribution := none,
    timeEnabled := false }

/-- The names of the fields, in their order. -/
def fieldNames : List String :=
  ["id", "protocol", "urls", "visible", "opacity", "style", "matrixSet", "format", "projection",
    "attribution", "timeEnabled"]

/-- Reads a specification. Id and protocol have to be there. -/
def ofJson? (v : Json) : Option LayerSpec := do
  match ← Json.fields? fieldNames v with
  | [id, protocol, urls, visible, opacity, style, matrixSet, format, projection, attribution,
      timeEnabled] =>
    return {
      id := ← Json.required Json.str? id
      protocol := Protocol.ofName (← Json.required Json.str? protocol)
      urls := ← Json.withDefault [] (Json.list? Json.str?) urls
      visible := ← Json.withDefault false Json.bool? visible
      opacity := ← Json.withDefault 1.0 Json.float? opacity
      style := ← Json.withDefault none Json.optional? style
      matrixSet := ← Json.withDefault none Json.optional? matrixSet
      format := ← Json.withDefault none Json.optional? format
      projection := ← Json.withDefault none Json.optional? projection
      attribution := ← Json.withDefault none Json.optional? attribution
      timeEnabled := ← Json.withDefault false Json.bool? timeEnabled }
  | _ => none

/-- The record of a specification, with all fields. -/
def toJson (s : LayerSpec) : Json :=
  Json.ofMembers [("id", .str s.id), ("protocol", .str s.protocol.name),
    ("urls", .arr (s.urls.map .str)), ("visible", .bool s.visible),
    ("opacity", Json.ofFloat s.opacity), ("style", Json.ofString? s.style),
    ("matrixSet", Json.ofString? s.matrixSet), ("format", Json.ofString? s.format),
    ("projection", Json.ofString? s.projection), ("attribution", Json.ofString? s.attribution),
    ("timeEnabled", .bool s.timeEnabled)]

end LayerSpec
end Atlas
