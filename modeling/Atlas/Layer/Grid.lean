import Atlas.Decimal.Basic
import Atlas.View

/-!
# Tile grids

A tile server cuts a box into tiles, level by level. The pixels of each level are half as large as
those of the level before, and the matrix of a level is named by its number.
-/

namespace Atlas

/-- The levels at which a box is cut into tiles. -/
structure TileGrid where
  bounds : Bounds Float
  /-- The size of a pixel, level by level. -/
  resolutions : List Float
  /-- The name of the tile matrix, level by level. -/
  matrixIds : List String
  deriving DecidableEq

namespace TileGrid

/-- The grid of a box with some levels. Two tiles lie side by side on the first one. -/
def ofBounds (bounds : Bounds Float) (levels : Nat) : TileGrid :=
  let base := bounds.width / Scalar.ofInt tileSize
  { bounds := bounds
    resolutions := (List.range levels).map
      (fun (level : Nat) => base / Scalar.twoPow ((level : Int) + 1))
    matrixIds := (List.range levels).map (fun level => String.ofList (digits level)) }

/-- The number of levels of the world grid. -/
def worldLevels : Nat := 18

/-- The grid of the whole world, which all tile layers share. -/
def geographic : TileGrid := ofBounds View.world worldLevels

/-- Tiles are counted from the upper left corner. -/
def origin (g : TileGrid) : Coord := g.bounds.topLeft

/-- Every level has a matrix name. -/
theorem length_matrixIds_ofBounds (bounds : Bounds Float) (levels : Nat) :
    (ofBounds bounds levels).matrixIds.length = (ofBounds bounds levels).resolutions.length := by
  simp [ofBounds]

end TileGrid
end Atlas
