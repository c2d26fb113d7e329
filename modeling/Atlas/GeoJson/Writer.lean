import Atlas.Feature

/-!
# Writing GeoJSON

Points, line strings and polygons have a GeoJSON object; no other geometry is exported. A list of
features becomes a feature collection. A feature whose geometry is not exported keeps its place
with the geometry null, missing properties are written as null, and a missing id is not written.
-/

namespace Atlas.GeoJson

/-- The array of a position. -/
def positionJson (p : Coord) : Json := .arr [Json.ofFloat p.x, Json.ofFloat p.y]

/-- The array of some positions. -/
def positionsJson (ps : List Coord) : Json := .arr (ps.map positionJson)

/-- The object of a geometry with its type and its coordinates. -/
def typedJson (type : String) (coordinates : Json) : Json :=
  .obj [("coordinates", coordinates), ("type", .str type)]

/-- The object of a geometry, if it can be exported. -/
def geometryJson? : Geometry → Option Json
  | .point p => some (typedJson "Point" (positionJson p))
  | .lineString ps => some (typedJson "LineString" (positionsJson ps))
  | .polygon p => some (typedJson "Polygon" (.arr (p.rings.map positionsJson)))
  | _ => none

/-- The object of an optional geometry, or null. -/
def ofGeometryOrNull (g : Option Geometry) : Json := (g.bind geometryJson?).getD .null

/-- The value of an id. -/
def idJson : FeatureId → Json
  | .text s => .str s
  | .number n => .num n

/-- The object of a feature. -/
def ofFeature (f : Feature) : Json :=
  let properties := match f.properties with
    | some members => .obj members
    | none => .null
  let id := match f.id with
    | some id => [("id", idJson id)]
    | none => []
  .obj (("geometry", ofGeometryOrNull (some f.geometry)) :: id ++
    [("properties", properties), ("type", .str "Feature")])

/-- The feature collection of some features. -/
def ofFeatures (fs : List Feature) : Json :=
  .obj [("features", .arr (fs.map ofFeature)), ("type", .str "FeatureCollection")]

/-- **A geometry is exported exactly if it can be drawn.** -/
theorem isSome_geometryJson? (g : Geometry) : (geometryJson? g).isSome = g.kind?.isSome := by
  cases g <;> rfl

end Atlas.GeoJson
