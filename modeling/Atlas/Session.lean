import Atlas.GeoJson.Text
import Atlas.Layer.Catalog
import Atlas.Layer.Edit
import Atlas.Message.Notice
import Atlas.Settings
import Atlas.Sketch.Board
import Atlas.Store

/-!
# The map session

A session holds everything that a map shows and does what its users and the components around it
ask for: it moves the view, changes layers, draws, imports and exports. Whatever others have to
know is published as a notice.

## Rules

* A move publishes the address of the view and then its box, and nothing else publishes either.
* After every operation on the drawing board its notes are published and taken away.
* An operation that answers with a fault, or that says it found nothing to do, publishes nothing.
-/

namespace Atlas

/-- What a map shows and knows, and where its exports go. -/
structure Session (σ : Type := Store) where
  view : View Float
  catalog : Catalog
  board : Board
  style : SelectionStyle
  outbox : Outbox
  store : σ

namespace Session

variable {σ : Type}

/-- The file that a selection is exported to. -/
def exportName : String := "selection.geojson"

/-- The media type of an exported selection. -/
def exportType : String := "text/plain;charset=utf-8"

/-! ## Setting up -/

/-- The notices about the products that are shown from the start. -/
def mountNotices (products : List LayerSpec) : List Notice :=
  (products.filter LayerSpec.visible).map (fun spec => .layer ⟨spec.id, false, true⟩)

/-- Sets up a map. Visible products are announced, and the products are put in order. -/
def mount (s : Settings) (store : σ) : Session σ :=
  { view := View.create ⟨s.center.1, s.center.2⟩ s.zoom s.size.1 s.size.2
    catalog := (Catalog.create s.base s.products s.overlays).reorder .product
    board := Board.empty
    style := s.style
    outbox := Outbox.empty.publishAll (mountNotices s.products)
    store := store }

/-! ## Publishing -/

/-- Publishes where the view is. -/
def announceMove (m : Session σ) : Session σ :=
  let url := Notice.setUrl m.view.center m.view.zoom
  { m with outbox := m.outbox.publishAll [url, .position m.view.bounds] }

/-- The session with another board, whose notes are published and taken away. -/
def withBoard (m : Session σ) (b : Board) : Session σ :=
  let (changes, b) := b.takeChanges
  { m with board := b, outbox := m.outbox.publishAll (changes.map .selection) }

/-- Takes the notices away. -/
def drain (m : Session σ) : List Notice × Session σ :=
  let (notices, outbox) := m.outbox.drain
  (notices, { m with outbox := outbox })

/-! ## The view -/

/-- Moves the view to a center and the nearest zoom level. -/
def moveTo (m : Session σ) (center : Coord) (zoom : Int) : Session σ :=
  announceMove { m with view := (m.view.withCenter center).withZoom zoom }

/-- Moves the view as requested. -/
def center (m : Session σ) (r : CenterRequest) : Session σ × Except Fault Unit :=
  match r.parse with
  | .ok (center, zoom) => (m.moveTo center zoom, .ok ())
  | .error fault => (m, .error fault)

/-- Moves the view so that a box is shown, and says whether the box was accepted. -/
def fit (m : Session σ) (box : Bounds Float) : Session σ × Bool :=
  match m.view.fit box with
  | (view, true) => (announceMove { m with view := view }, true)
  | (_, false) => (m, false)

/-! ## Layers -/

/-- The role that a change is about. What is not said to be a base layer is a product or an
overlay, and a product first. -/
def roleOfChange? (m : Session σ) (c : LayerChange) : Option Role :=
  if c.isBase then some .base
  else
    match m.catalog.roleOf? c.id with
    | some .product => some .product
    | some .overlay => some .overlay
    | _ => none

/-- Shows or hides a layer, and says whether there is one. -/
def changeLayer (m : Session σ) (c : LayerChange) : Session σ × Bool :=
  match m.roleOfChange? c with
  | some role =>
    let (catalog, found) := m.catalog.setVisible role c.id c.visible
    ({ m with catalog := catalog }, found)
  | none => (m, false)

/-- Edits the specifications of a role. -/
def editSpecs (m : Session σ) (role : Role) (edit : SpecEdit) : Session σ :=
  { m with catalog := m.catalog.editSpecs role edit.apply }

/-- Puts the products in the order of their specifications. -/
def sortProducts (m : Session σ) : Session σ := { m with catalog := m.catalog.reorder .product }

/-- Changes the opacity of a product, and says whether there is such a layer. -/
def updateOpacity (m : Session σ) (u : OpacityUpdate) : Session σ × Bool :=
  let (catalog, found) := m.catalog.setOpacity u.product u.value
  ({ m with catalog := catalog }, found)

/-- Shows another period on all layers that follow the time, and counts them. -/
def changePeriod (m : Session σ) (p : Period) : Session σ × Nat :=
  let (catalog, count) := m.catalog.setPeriod p
  ({ m with catalog := catalog }, count)

/-! ## Drawing -/

/-- Makes a tool the active one. -/
def activateTool (m : Session σ) (tool : Tool) (mode : DrawMode) : Session σ :=
  m.withBoard (m.board.activate tool mode)

/-- Puts the active tool away. -/
def deactivateTool (m : Session σ) : Session σ := m.withBoard m.board.deactivate

/-- Activates the requested tool, or puts the active one away. -/
def toolActivated (m : Session σ) (a : ToolActivation) : Session σ × Except Fault Unit :=
  if !a.active then (m.deactivateTool, .ok ())
  else
    match a.id with
    | none => (m, .error (Fault.of .noTool))
    | some id =>
      match Tool.ofId id with
      | .ok tool => (m.activateTool tool (DrawMode.ofRequest a.mode), .ok ())
      | .error fault => (m, .error fault)

/-- Ends a sketch, and says whether it was accepted. -/
def sketch (m : Session σ) (g : Geometry) : Session σ × Bool :=
  let (b, accepted) := m.board.sketch g
  (m.withBoard b, accepted)

/-- Begins to drag a box, and says whether that is possible. -/
def startBox (m : Session σ) (corner : Coord) : Session σ × Bool :=
  let (b, accepted) := m.board.startBox corner
  ({ m with board := b }, accepted)

/-- Ends a box, and says whether there was one. -/
def endBox (m : Session σ) (corner : Coord) : Session σ × Bool :=
  let (b, accepted) := m.board.endBox corner
  (m.withBoard b, accepted)

/-! ## Import and export -/

/-- The features of a payload; what cannot be read has none. -/
def importable (v : Json) : List Feature :=
  match GeoJson.readFeatures v with
  | .ok features => features
  | .error _ => []

/-- The least box around the features, if any of them has a position. -/
def boundsOf? (fs : List Feature) : Option (Bounds Float) :=
  Bounds.unions? (fs.filterMap (fun f => f.geometry.bounds?))

/-- Replaces the features by imported ones, moves the view so that they are shown, and counts
them. -/
def load (m : Session σ) (v : Json) : Session σ × Nat :=
  let features := importable v
  -- the selection is published before the move
  let m := m.withBoard (m.board.replace features)
  match boundsOf? features with
  | some box => ((m.fit box).1, features.length)
  | none => (m, features.length)

/-- The features on the board as a GeoJSON value. -/
def selectionJson (m : Session σ) : Json := GeoJson.ofFeatures m.board.features

/-- Saves the features on the board as a file. -/
def exportSelection [FileSaver σ] (m : Session σ) : Session σ × Except Fault Unit :=
  let (store, saved) :=
    FileSaver.save m.store ⟨exportName, exportType, GeoJson.writeText m.board.features⟩
  ({ m with store := store }, during .exporting saved)

/-! ## Messages -/

/-- Carries out a command. -/
def perform [FileSaver σ] (m : Session σ) : Command → Session σ × Except Fault Unit
  | .center request => m.center request
  | .changeLayer change => ((m.changeLayer change).1, .ok ())
  | .setExtent box => ((m.fit box).1, .ok ())
  | .sortProducts => (m.sortProducts, .ok ())
  | .updateOpacity update => ((m.updateOpacity update).1, .ok ())
  | .activateTool activation => m.toolActivated activation
  | .loadFeatures value => ((m.load value).1, .ok ())
  | .exportSelection => m.exportSelection
  | .changePeriod period => ((m.changePeriod period).1, .ok ())

/-- Handles a message. -/
def handle [FileSaver σ] (m : Session σ) (topic : String) (payload : Json) :
    Session σ × Except Fault Unit :=
  match during (.decoding topic) (Command.decode topic payload) with
  | .ok command => m.perform command
  | .error fault => (m, .error fault)

/-- Answers a request. -/
def request (m : Session σ) (topic : String) : Option Json :=
  match Topic.ofName? topic with
  | some .getExtent => some m.view.bounds.toJson
  | some .getSelection => some m.selectionJson
  | _ => none

/-! ## Reading a position -/

/-- A position as a readout shows it, with four places. -/
def formatPosition (p : Coord) : String :=
  Decimal.writeFixed 4 p.x ++ ", " ++ Decimal.writeFixed 4 p.y

end Session
end Atlas
