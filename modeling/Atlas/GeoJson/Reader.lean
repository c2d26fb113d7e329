import Atlas.Fault
import Atlas.Feature

/-!
# Reading GeoJSON

A GeoJSON object is a geometry, a feature or a feature collection. Of the seven kinds of
geometries all are checked, and points, line strings and polygons are read. A position is an array
of at least two numbers, of which the first two count.

Reading a collection keeps its well-formed features with a readable geometry and skips all other
members, so one bad member does not spoil the import. A geometry on its own has to be readable.
-/

namespace Atlas.GeoJson

/-! ## Coordinates -/

/-- Whether a value is an array of numbers. -/
def isNumberArray : Json → Bool
  | .arr items => items.all (fun x => (Json.num? x).isSome)
  | _ => false

/-- A position: at least two numbers. -/
def position? : Json → Option Coord
  | .arr (.num x :: .num y :: rest) =>
    if isNumberArray (.arr rest) then some ⟨x.toFloat, y.toFloat⟩ else none
  | _ => none

/-- A list of values that are read in the same way. -/
def arrayOf? {α : Type} (read : Json → Option α) : Json → Option (List α)
  | .arr items => items.mapM read
  | _ => none

/-- A list of positions. -/
def positions? : Json → Option (List Coord) := arrayOf? position?

/-- A list of rings or lines. -/
def rings? : Json → Option (List (List Coord)) := arrayOf? positions?

/-! ## Geometries -/

/-- A well-formed GeoJSON geometry, as far as it matters here. -/
inductive Shape where
  | point (p : Coord)
  | lineString (ps : List Coord)
  /-- The rings of a polygon as they are given: perhaps none, perhaps not closed. -/
  | polygon (rings : List (List Coord))
  /-- A geometry of another kind. -/
  | other
  deriving DecidableEq

/-- The type of an object. -/
def type? (members : List (String × Json)) : Option String :=
  (Keyed.lookup "type" members).bind Json.str?

/-- A bounding box is missing, null or an array of numbers. -/
def hasGoodBox (members : List (String × Json)) : Bool :=
  match Keyed.lookup "bbox" members with
  | none => true
  | some .null => true
  | some v => isNumberArray v

/-- The shape of a type with coordinates. -/
def shapeOf? (type : String) (coordinates : Json) : Option Shape :=
  match type with
  | "Point" => (position? coordinates).map .point
  | "LineString" => (positions? coordinates).map .lineString
  | "Polygon" => (rings? coordinates).map .polygon
  | "MultiPoint" => (positions? coordinates).map (fun _ => .other)
  | "MultiLineString" => (rings? coordinates).map (fun _ => .other)
  | "MultiPolygon" => (arrayOf? rings? coordinates).map (fun _ => .other)
  | _ => none

mutual
/-- The shape of a geometry object; nothing if the object is malformed. -/
def shape? : Json → Option Shape
  | .obj members =>
    if !hasGoodBox members then none
    else
      match type? members with
      | none => none
      | some "GeometryCollection" => if collects members then some .other else none
      | some type => (Keyed.lookup "coordinates" members).bind (shapeOf? type)
  | _ => none

/-- Whether the members of a collection are there and well-formed. -/
def collects : List (String × Json) → Bool
  | [] => false
  | (k, .arr items) :: rest => if k = "geometries" then allShapes items else collects rest
  | (k, _) :: rest => if k = "geometries" then false else collects rest

/-- Whether all values are well-formed geometry objects. -/
def allShapes : List Json → Bool
  | [] => true
  | x :: xs => (shape? x).isSome && allShapes xs
end

/-- The geometry of a shape: a polygon needs a ring, and other kinds are not supported. -/
def Shape.toGeometry : Shape → Except Fault Geometry
  | .point p => .ok (.point p)
  | .lineString ps => .ok (.lineString ps)
  | .polygon [] => .error (Fault.of .noRings)
  | .polygon (exterior :: interiors) => .ok (.polygon (Polygon.ofRings exterior interiors))
  | .other => .error (Fault.of .unsupportedGeometry)

/-- Reads a geometry object. -/
def readGeometry (v : Json) : Except Fault Geometry :=
  match during .readingGeometry (orFault .geojson (shape? v)) with
  | .ok shape => shape.toGeometry
  | .error fault => .error fault

/-! ## Features -/

/-- Reads an id: missing, a number or a text. -/
def id? : Option Json → Option (Option FeatureId)
  | none => some none
  | some (.num n) => some (some (.number n))
  | some (.str s) => some (some (.text s))
  | some _ => none

/-- Reads properties: missing, null or an object. -/
def properties? : Option Json → Option (Option (List (String × Json)))
  | none => some none
  | some .null => some none
  | some (.obj members) => some (some members)
  | some _ => none

/-- Reads a feature object with a readable geometry. -/
def feature? : Json → Option Feature
  | .obj members =>
    if type? members = some "Feature" && hasGoodBox members then
      match Keyed.lookup "geometry" members, id? (Keyed.lookup "id" members),
          properties? (Keyed.lookup "properties" members) with
      | some g, some id, some properties =>
        match readGeometry g with
        | .ok geometry => some ⟨id, geometry, properties⟩
        | .error _ => none
      | _, _, _ => none
    else none
  | _ => none

/-- Reads the features of a GeoJSON object. -/
def readFeatures (v : Json) : Except Fault (List Feature) :=
  match (v.member? "type").bind Json.str? with
  | none => .error (Fault.of .untyped)
  | some "FeatureCollection" =>
    match (v.member? "features").bind Json.arr? with
    | none => .error (Fault.of .noFeatureList)
    | some items => .ok (items.filterMap feature?)
  | some "Feature" => .ok (feature? v).toList
  | some _ =>
    match readGeometry v with
    | .ok g => .ok [Feature.ofGeometry g]
    | .error fault => .error fault

end Atlas.GeoJson
