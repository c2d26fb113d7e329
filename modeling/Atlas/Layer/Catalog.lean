import Atlas.Calendar.Period
import Atlas.Layer.Shelf

/-!
# The catalog

The layers of a map: a shelf for each role. The catalog finds out which shelf a request is about;
the shelves do the rest. An id may stand on several shelves, and then a product goes before an
overlay and an overlay before a base layer.
-/

namespace Atlas

/-- The layers of a map. -/
structure Catalog where
  base : Shelf
  product : Shelf
  overlay : Shelf
  deriving DecidableEq

namespace Catalog

/-- The catalog of some specifications. All tile layers share the grid of the world. -/
def create (base product overlay : List LayerSpec) : Catalog :=
  ⟨Shelf.build .base .geographic base, Shelf.build .product .geographic product,
    Shelf.build .overlay .geographic overlay⟩

/-- The shelf of a role. -/
def shelf (c : Catalog) : Role → Shelf
  | .base => c.base
  | .product => c.product
  | .overlay => c.overlay

/-- The catalog with another shelf for a role. -/
def withShelf (c : Catalog) (role : Role) (s : Shelf) : Catalog :=
  match role with
  | .base => { c with base := s }
  | .product => { c with product := s }
  | .overlay => { c with overlay := s }

/-- The specifications of a role. -/
def specs (c : Catalog) (role : Role) : List LayerSpec := (c.shelf role).specs

/-- The layers of a role, bottom to top. -/
def layers (c : Catalog) (role : Role) : List Layer := (c.shelf role).layers

/-- Edits the specifications of a role. The layers do not change before the next `sync` or
`reorder` of the role. -/
def editSpecs (c : Catalog) (role : Role) (edit : List LayerSpec → List LayerSpec) : Catalog :=
  c.withShelf role { c.shelf role with specs := edit (c.specs role) }

/-- The role of the specification with an id. -/
def roleOf? (c : Catalog) (id : String) : Option Role :=
  [Role.product, .overlay, .base].find? (fun role => (c.shelf role).hasSpec id)

/-- The id of the visible base layer. -/
def visibleBase? (c : Catalog) : Option String :=
  (c.base.specs.find? LayerSpec.visible).map LayerSpec.id

/-- Lets the layers of a role mirror their specifications. -/
def sync (c : Catalog) (role : Role) : Catalog := c.withShelf role ((c.shelf role).sync role)

/-- Puts the layers of a role in the order of their specifications. -/
def reorder (c : Catalog) (role : Role) : Catalog :=
  c.withShelf role ((c.shelf role).reorder role)

/-- Shows or hides a layer of a role. -/
def setVisible (c : Catalog) (role : Role) (id : String) (visible : Bool) : Catalog × Bool :=
  let (s, found) := (c.shelf role).setVisible role id visible
  (c.withShelf role s, found)

/-- Makes a product as opaque as a number between 0 and 1 says. -/
def setOpacity (c : Catalog) (id : String) (opacity : Float) : Catalog × Bool :=
  let (s, found) := c.product.setOpacity id opacity
  ({ c with product := s }, found)

/-- Tells all layers that follow the time the period to show, and counts them. -/
def setPeriod (c : Catalog) (p : Period) : Catalog × Nat :=
  let (base, m) := c.base.setTime p.interval
  let (product, n) := c.product.setTime p.interval
  let (overlay, k) := c.overlay.setTime p.interval
  (⟨base, product, overlay⟩, m + n + k)

/-! ## Small lemmas -/

@[simp] theorem shelf_withShelf_self (c : Catalog) (role : Role) (s : Shelf) :
    (c.withShelf role s).shelf role = s := by cases role <;> rfl

theorem shelf_withShelf_of_ne {role role' : Role} (h : role' ≠ role) (c : Catalog) (s : Shelf) :
    (c.withShelf role s).shelf role' = c.shelf role' := by
  cases role <;> cases role' <;> simp_all [withShelf, shelf]

@[simp] theorem withShelf_shelf (c : Catalog) (role : Role) :
    c.withShelf role (c.shelf role) = c := by
  cases role <;> rfl

@[simp] theorem withShelf_withShelf (c : Catalog) (role : Role) (s s' : Shelf) :
    (c.withShelf role s).withShelf role s' = c.withShelf role s' := by
  cases role <;> rfl

end Catalog
end Atlas
