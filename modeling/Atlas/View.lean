import Atlas.Geometry.Bounds

/-!
# The view

What part of the world a map shows. A view has a center, a zoom level and a size in pixels. At
zoom level 0 one tile of 256 pixels is as wide as the world, and each level halves the size of a
pixel. Positions are degrees of longitude and latitude, drawn as plane coordinates.

Fitting a view to a box moves its center into the middle of the box and takes the deepest zoom
level at which the box is still inside. The levels reach from 0 to 28, so a box can be larger than
the view at level 0.
-/

namespace Atlas

/-- What part of the world is shown. -/
structure View (α : Type) where
  center : Position α
  zoom : Nat
  /-- The width in pixels. -/
  width : Nat
  /-- The height in pixels. -/
  height : Nat
  deriving DecidableEq

/-- The deepest zoom level. -/
def maxZoom : Nat := 28

/-- The width and height of a tile in pixels. -/
def tileSize : Nat := 256

/-- The nearest zoom level. -/
def clampZoom (level : Int) : Nat := Nat.min level.toNat maxZoom

theorem clampZoom_le (level : Int) : clampZoom level ≤ maxZoom := Nat.min_le_right _ _

theorem clampZoom_of_le {level : Nat} (h : level ≤ maxZoom) : clampZoom level = level := by
  unfold clampZoom
  rw [Int.toNat_natCast]
  exact Nat.min_eq_left h

namespace View

variable {α : Type} [Scalar α]

/-- The box of the whole world. -/
def world : Bounds α :=
  ⟨Scalar.ofInt (-180), Scalar.ofInt (-90), Scalar.ofInt 180, Scalar.ofInt 90⟩

/-- The size of a pixel at zoom level 0. -/
def maxResolution : α := (world : Bounds α).width / Scalar.ofInt tileSize

/-- The size of a pixel at any level, also outside of the zoom levels of a view. -/
def resolutionAt (level : Int) : α := maxResolution / Scalar.twoPow level

/-- A view with the nearest allowed zoom level and size. -/
def create (center : Position α) (zoom : Int) (width height : Nat) : View α :=
  ⟨center, clampZoom zoom, Nat.max width 1, Nat.max height 1⟩

/-- The size of a pixel. -/
def resolution (v : View α) : α := resolutionAt v.zoom

/-- The same view around another center. -/
def withCenter (v : View α) (center : Position α) : View α := { v with center := center }

/-- The same view at the nearest allowed zoom level. -/
def withZoom (v : View α) (zoom : Int) : View α := { v with zoom := clampZoom zoom }

/-- The box that is shown. -/
def bounds (v : View α) : Bounds α :=
  let halfWidth := Scalar.ofInt v.width * v.resolution / Scalar.ofInt 2
  let halfHeight := Scalar.ofInt v.height * v.resolution / Scalar.ofInt 2
  ⟨v.center.x - halfWidth, v.center.y - halfHeight, v.center.x + halfWidth,
    v.center.y + halfHeight⟩

/-- The size of a pixel that a view of this size needs at least, to show a box. -/
def neededResolution (v : View α) (b : Bounds α) : α :=
  Scalar.max (b.width / Scalar.ofInt v.width) (b.height / Scalar.ofInt v.height)

/-- The deepest level whose pixels are not smaller than the given size, before it is brought into
the range of zoom levels. -/
def levelFor (needed : α) : Int :=
  if needed ≤ Scalar.ofInt 0 then maxZoom else Scalar.floorLog2 (maxResolution / needed)

/-- Whether a view can be fitted to a box: its sides are finite and in order. -/
def fits (b : Bounds α) : Bool :=
  b.isFinite && !decide (b.width < Scalar.ofInt 0) && !decide (b.height < Scalar.ofInt 0)

/-- Fits the view to a box. The answer says whether the box was accepted; the view stays as it is
otherwise. -/
def fit (v : View α) (b : Bounds α) : View α × Bool :=
  if fits b then ((v.withCenter b.center).withZoom (levelFor (v.neededResolution b)), true)
  else (v, false)

end View
end Atlas
