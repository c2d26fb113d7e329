import Atlas.Layer.Spec

/-!
# Settings

What a map is set up with: where its view starts, which layers it has and how a selection is
drawn. Every part has a default, so an empty record describes a map.
-/

namespace Atlas

/-- How a selection is drawn. -/
structure SelectionStyle where
  fill : String
  stroke : String
  strokeWidth : Float
  pointRadius : Float
  deriving DecidableEq

namespace SelectionStyle

/-- A yellow line around a pale area. -/
def standard : SelectionStyle := ⟨"rgba(255, 255, 255, 0.2)", "#ffcc33", 2.0, 7.0⟩

/-- Reads a record; missing parts are as in the standard style. -/
def ofJson? (v : Json) : Option SelectionStyle := do
  match ← Json.fields? ["fill", "stroke", "strokeWidth", "pointRadius"] v with
  | [fill, stroke, strokeWidth, pointRadius] =>
    return ⟨← Json.withDefault standard.fill Json.str? fill,
      ← Json.withDefault standard.stroke Json.str? stroke,
      ← Json.withDefault standard.strokeWidth Json.float? strokeWidth,
      ← Json.withDefault standard.pointRadius Json.float? pointRadius⟩
  | _ => none

end SelectionStyle

/-- What a map is set up with. -/
structure Settings where
  /-- Longitude and latitude of the center. -/
  center : Float × Float
  zoom : Int
  /-- Width and height in pixels. -/
  size : Nat × Nat
  base : List LayerSpec
  products : List LayerSpec
  overlays : List LayerSpec
  style : SelectionStyle
  deriving DecidableEq

namespace Settings

/-- A map without layers. -/
def standard : Settings := ⟨(9.0, 45.0), 6, (1024, 768), [], [], [], SelectionStyle.standard⟩

/-- Two values, decoded in the same way. -/
def pair? {α : Type} (decode : Json → Option α) : Json → Option (α × α)
  | .arr [x, y] =>
    match decode x, decode y with
    | some a, some b => some (a, b)
    | _, _ => none
  | _ => none

/-- Reads a record; missing parts are as in the standard settings. -/
def ofJson? (v : Json) : Option Settings := do
  match ← Json.fields?
      ["center", "zoom", "size", "baseLayers", "products", "overlays", "selectionStyle"] v with
  | [center, zoom, size, base, products, overlays, style] =>
    return {
      center := ← Json.withDefault standard.center (pair? Json.float?) center
      zoom := ← Json.withDefault standard.zoom Json.int32? zoom
      size := ← Json.withDefault standard.size (pair? Json.nat32?) size
      base := ← Json.withDefault [] (Json.list? LayerSpec.ofJson?) base
      products := ← Json.withDefault [] (Json.list? LayerSpec.ofJson?) products
      overlays := ← Json.withDefault [] (Json.list? LayerSpec.ofJson?) overlays
      style := ← Json.withDefault SelectionStyle.standard SelectionStyle.ofJson? style }
  | _ => none

end Settings
end Atlas
