import Atlas.Scalar

/-!
# Geometries

The kinds of geometries that a map component may meet. Only points, line strings and polygons can
be drawn, imported and exported; the others are known so that they can be told apart.

A polygon has an exterior ring and interior ones. Rings are closed: the last position is the first
one again, or agrees with it. `Polygon.ofRings` closes the rings it is given, and no polygon has a
ring that is not closed. The corners of a triangle are listed counterclockwise, and
`Geometry.ofCorners` lists them so.
-/

namespace Atlas

/-- A position in the plane. -/
structure Position (α : Type) where
  x : α
  y : α
  deriving DecidableEq

/-- A position with doubles as coordinates. -/
abbrev Coord := Position Float

/-- Two positions agree if their coordinates are equal as doubles are: what is no number agrees
with nothing, and zeros of both signs agree. -/
def Coord.agrees (p q : Coord) : Bool := p.x == q.x && p.y == q.y

/-- Whether both coordinates are finite. -/
def Coord.isFinite (p : Coord) : Bool := p.x.isFinite && p.y.isFinite

theorem Coord.isFinite_iff {p : Coord} :
    p.isFinite = true ↔ p.x.isFinite = true ∧ p.y.isFinite = true := by
  rw [isFinite, Bool.and_eq_true]

/-- A box whose sides are parallel to the axes. -/
structure Bounds (α : Type) where
  left : α
  bottom : α
  right : α
  top : α
  deriving DecidableEq

/-- Whether a list of positions is a closed ring: its last position agrees with the first one, or
is the very same. -/
def IsClosedRing (ring : List Coord) : Prop :=
  ∀ first ∈ ring.head?, ∀ last ∈ ring.getLast?, first.agrees last = true ∨ first = last

/-- A polygon with its rings closed. -/
structure Polygon where
  exterior : List Coord
  interiors : List (List Coord)
  exterior_closed : IsClosedRing exterior
  interiors_closed : ∀ ring ∈ interiors, IsClosedRing ring
  deriving DecidableEq

/-- Closes a ring: where the last position does not agree with the first one, the first one
follows. -/
def closeRing (ring : List Coord) : List Coord :=
  match ring.head?, ring.getLast? with
  | some first, some last => if first.agrees last then ring else ring ++ [first]
  | _, _ => ring

/-- What has been closed is a closed ring. -/
theorem isClosedRing_closeRing (ring : List Coord) : IsClosedRing (closeRing ring) := by
  intro first hfirst last hlast
  cases ring with
  | nil => cases hfirst
  | cons p ps =>
    obtain ⟨q, hq⟩ : ∃ q, (p :: ps).getLast? = some q := ⟨_, List.getLast?_cons⟩
    simp only [closeRing, List.head?_cons, hq] at hfirst hlast
    split at hfirst
    · next hagrees =>
      rw [if_pos hagrees, hq] at hlast
      cases hfirst
      cases hlast
      exact .inl hagrees
    · next hagrees =>
      rw [if_neg hagrees, List.getLast?_concat] at hlast
      cases hfirst
      cases hlast
      exact .inr rfl

/-- The polygon with the given rings, which need not be closed. -/
def Polygon.ofRings (exterior : List Coord) (interiors : List (List Coord)) : Polygon where
  exterior := closeRing exterior
  interiors := interiors.map closeRing
  exterior_closed := isClosedRing_closeRing exterior
  interiors_closed := by
    intro ring hring
    obtain ⟨positions, -, rfl⟩ := List.mem_map.1 hring
    exact isClosedRing_closeRing positions

/-- All rings, the exterior one first. -/
def Polygon.rings (p : Polygon) : List (List Coord) := p.exterior :: p.interiors

/-- A geometry. -/
inductive Geometry where
  | point (p : Coord)
  | segment (a b : Coord)
  | lineString (ps : List Coord)
  | polygon (p : Polygon)
  | multiPoint (ps : List Coord)
  | multiLineString (lines : List (List Coord))
  | multiPolygon (ps : List Polygon)
  | collection (gs : List Geometry)
  | rectangle (box : Bounds Float)
  | triangle (a b c : Coord)

/-- The kinds of geometries that can be drawn. -/
inductive GeometryKind where
  | point
  | lineString
  | polygon
  deriving DecidableEq, Repr

/-- All kinds that can be drawn. -/
def GeometryKind.all : List GeometryKind := [.point, .lineString, .polygon]

namespace Geometry

/-- Twice the area of the triangle with the given corners, less than zero where they are listed
clockwise. -/
def signedArea (a b c : Coord) : Float :=
  (b.x - a.x) * (c.y - a.y) - (b.y - a.y) * (c.x - a.x)

/-- The triangle with the given corners. Corners listed clockwise are taken from the last one to
the first one. -/
def ofCorners (a b c : Coord) : Geometry :=
  if signedArea a b c < 0 then .triangle c b a else .triangle a b c

/-- The kind of a geometry, if it can be drawn. -/
def kind? : Geometry → Option GeometryKind
  | .point _ => some .point
  | .lineString _ => some .lineString
  | .polygon _ => some .polygon
  | _ => none

end Geometry

/-- Whether a geometry is of a kind. -/
def GeometryKind.matches (kind : GeometryKind) (g : Geometry) : Bool := g.kind? == some kind

/-! ## Agreement -/

/-- Lists agree element by element. -/
def agreeAll {α : Type} (agree : α → α → Bool) : List α → List α → Bool
  | [], [] => true
  | x :: xs, y :: ys => agree x y && agreeAll agree xs ys
  | _, _ => false

/-- Polygons agree ring by ring. -/
def Polygon.agrees (p q : Polygon) : Bool := agreeAll (agreeAll Coord.agrees) p.rings q.rings

namespace Geometry

mutual
/-- Two geometries agree if they are of one kind and agree position by position. -/
def agrees : Geometry → Geometry → Bool
  | .point p, .point q => p.agrees q
  | .segment a b, .segment c d => a.agrees c && b.agrees d
  | .lineString ps, .lineString qs => agreeAll Coord.agrees ps qs
  | .polygon p, .polygon q => p.agrees q
  | .multiPoint ps, .multiPoint qs => agreeAll Coord.agrees ps qs
  | .multiLineString ps, .multiLineString qs => agreeAll (agreeAll Coord.agrees) ps qs
  | .multiPolygon ps, .multiPolygon qs => agreeAll Polygon.agrees ps qs
  | .collection gs, .collection hs => agreesAll gs hs
  | .rectangle p, .rectangle q =>
    p.left == q.left && p.bottom == q.bottom && p.right == q.right && p.top == q.top
  | .triangle a b c, .triangle d e f => a.agrees d && b.agrees e && c.agrees f
  | _, _ => false

/-- Lists of geometries agree element by element. -/
def agreesAll : List Geometry → List Geometry → Bool
  | [], [] => true
  | g :: gs, h :: hs => agrees g h && agreesAll gs hs
  | _, _ => false
end

end Geometry
end Atlas
