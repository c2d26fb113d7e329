import Atlas.Geometry.Basic
import Atlas.Json.Record

/-!
# Boxes

A box is given by its four sides; nothing keeps the left side to the left of the right one. Union
and inclusion go side by side. The box of a geometry is the least one around its positions, where
the interior rings of a polygon do not count; a geometry without positions has none.
-/

namespace Atlas

namespace Bounds

section
variable {α : Type} [Scalar α]

/-- How far the right side is from the left one. -/
def width (b : Bounds α) : α := b.right - b.left

/-- How far the top is from the bottom. -/
def height (b : Bounds α) : α := b.top - b.bottom

/-- The middle of a box. -/
def center (b : Bounds α) : Position α :=
  ⟨(b.left + b.right) / Scalar.ofInt 2, (b.bottom + b.top) / Scalar.ofInt 2⟩

/-- The upper left corner. -/
def topLeft (b : Bounds α) : Position α := ⟨b.left, b.top⟩

/-- The least box around two boxes. -/
def union (a b : Bounds α) : Bounds α :=
  ⟨Scalar.min a.left b.left, Scalar.min a.bottom b.bottom,
    Scalar.max a.right b.right, Scalar.max a.top b.top⟩

/-- Whether a box lies inside of another one; shared sides are allowed. -/
def contains (a b : Bounds α) : Bool :=
  decide (a.left ≤ b.left) && decide (a.bottom ≤ b.bottom) && decide (b.right ≤ a.right) &&
    decide (b.top ≤ a.top)

/-- Whether all four sides are finite. -/
def isFinite (b : Bounds α) : Bool :=
  Scalar.isFinite b.left && Scalar.isFinite b.bottom && Scalar.isFinite b.right &&
    Scalar.isFinite b.top

/-- The box with two opposite corners. -/
def ofCorners (p q : Position α) : Bounds α :=
  let (left, right) := if p.x < q.x then (p.x, q.x) else (q.x, p.x)
  let (bottom, top) := if p.y < q.y then (p.y, q.y) else (q.y, p.y)
  ⟨left, bottom, right, top⟩

/-- The box that is just a position. -/
def ofPosition (p : Position α) : Bounds α := ⟨p.x, p.y, p.x, p.y⟩

/-- Moves the sides out until a position is inside. -/
def extendTo (b : Bounds α) (p : Position α) : Bounds α :=
  ⟨if p.x < b.left then p.x else b.left, if p.y < b.bottom then p.y else b.bottom,
    if b.right < p.x then p.x else b.right, if b.top < p.y then p.y else b.top⟩

/-- The least box around some positions. -/
def around? : List (Position α) → Option (Bounds α)
  | [] => none
  | p :: ps => some (ps.foldl extendTo (ofPosition p))

/-- The least box around some boxes. -/
def unions? : List (Bounds α) → Option (Bounds α)
  | [] => none
  | b :: bs => some (bs.foldl union b)

end

theorem isFinite_iff {b : Bounds Float} : b.isFinite = true ↔
    b.left.isFinite = true ∧ b.bottom.isFinite = true ∧ b.right.isFinite = true ∧
      b.top.isFinite = true := by
  rw [isFinite, Bool.and_eq_true, Bool.and_eq_true, Bool.and_eq_true, and_assoc, and_assoc]
  rfl

/-! ## As a record -/

/-- The record with the four sides. -/
def toJson (b : Bounds Float) : Json :=
  Json.ofMembers [("left", Json.ofFloat b.left), ("bottom", Json.ofFloat b.bottom),
    ("right", Json.ofFloat b.right), ("top", Json.ofFloat b.top)]

/-- Reads a record with the four sides. -/
def ofJson? (v : Json) : Option (Bounds Float) := do
  match ← Json.fields? ["left", "bottom", "right", "top"] v with
  | [left, bottom, right, top] =>
    return ⟨← Json.required Json.float? left, ← Json.required Json.float? bottom,
      ← Json.required Json.float? right, ← Json.required Json.float? top⟩
  | _ => none

end Bounds

namespace Geometry

mutual
/-- The positions that count for the box of a geometry. -/
def outline : Geometry → List Coord
  | .point p => [p]
  | .segment a b => [a, b]
  | .lineString ps => ps
  | .polygon p => p.exterior
  | .multiPoint ps => ps
  | .multiLineString lines => lines.flatten
  | .multiPolygon ps => ps.flatMap Polygon.exterior
  | .collection gs => outlines gs
  | .rectangle b => [⟨b.left, b.bottom⟩, ⟨b.right, b.top⟩]
  | .triangle a b c => [a, b, c]

/-- The positions of all members of a collection. -/
def outlines : List Geometry → List Coord
  | [] => []
  | g :: gs => outline g ++ outlines gs
end

/-- The least box around a geometry. -/
def bounds? (g : Geometry) : Option (Bounds Float) := Bounds.around? g.outline

end Geometry
end Atlas
