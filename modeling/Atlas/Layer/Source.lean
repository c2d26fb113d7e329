import Atlas.Layer.Grid
import Atlas.Layer.Spec

/-!
# Tile sources

Where the tiles of a layer come from. A WMS server takes parameters with each request, a WMTS
server has dimensions; both are a table of texts, and the time of the map is one of its rows. Each
change of the table raises the revision of the source, so that loaded tiles are known to be stale.
Revisions are counted in 64 bits, and after the last one comes zero again.

A source can be built only for a known protocol and a server with an address.
-/

namespace Atlas

/-- The service behind a source. -/
inductive Service where
  /-- A map service at one address. -/
  | wms (url : String)
  /-- A tile service at some addresses, with the name of its layer and what tiles it has. -/
  | wmts (urls : List String) (layer : String) (matrixSet : Option String) (format : String)
      (projection : Option String) (style : Option String) (grid : TileGrid)
  deriving DecidableEq

/-- Where the tiles of a layer come from. -/
structure TileSource where
  service : Service
  /-- The parameters or dimensions of a request. -/
  params : List (String × String)
  /-- Counts the changes of the table. -/
  counter : UInt64
  deriving DecidableEq

namespace TileSource

/-- The row with the time. -/
def timeKey : String := "TIME"

/-- The version of the map service. -/
def wmsVersion : String := "1.1.0"

/-- The format of images where none is given. -/
def defaultFormat : String := "image/png"

/-- Tiles are asked for without credentials. -/
def crossOrigin : String := "anonymous"

/-- Tiles repeat to the left and right of the world. -/
def wrapsX : Bool := true

/-- The service for a specification, if the protocol is known and there is an address. -/
def serviceFor? (spec : LayerSpec) (grid : TileGrid) : Option Service :=
  match spec.protocol, spec.urls with
  | .wms, url :: _ => some (.wms url)
  | .wmts, url :: urls =>
    some (.wmts (url :: urls) spec.id spec.matrixSet (spec.format.getD defaultFormat)
      spec.projection spec.style grid)
  | _, _ => none

/-- The table of a new source. -/
def initialParams (spec : LayerSpec) : Service → List (String × String)
  | .wms _ =>
    Keyed.ofRows [("LAYERS", spec.id), ("VERSION", wmsVersion), ("FORMAT", defaultFormat)]
  | .wmts .. => []

/-- The source for a specification, if one can be built. -/
def ofSpec? (spec : LayerSpec) (grid : TileGrid) : Option TileSource :=
  (serviceFor? spec grid).map (fun service => ⟨service, initialParams spec service, 0⟩)

/-- The protocol of a source. -/
def protocol (s : TileSource) : Protocol :=
  match s.service with
  | .wms _ => .wms
  | .wmts .. => .wmts

/-- The revision of the source: how often the table was changed, as far as 64 bits tell. -/
def revision (s : TileSource) : Nat := s.counter.toNat

/-- Writes rows into the table. -/
def update (s : TileSource) (rows : List (String × String)) : TileSource :=
  { s with params := Keyed.update s.params rows, counter := s.counter + 1 }

/-- Tells the source the interval to show. -/
def setTime (s : TileSource) (interval : String) : TileSource := s.update [(timeKey, interval)]

/-- The interval that is shown, if the source was told one. -/
def time? (s : TileSource) : Option String := Keyed.lookup timeKey s.params

/-! ## Small lemmas -/

/-- **A source can be built exactly for a known protocol and a server with an address.** -/
theorem isSome_ofSpec? (spec : LayerSpec) (grid : TileGrid) :
    (ofSpec? spec grid).isSome = (spec.protocol.isSupported && !spec.urls.isEmpty) := by
  unfold ofSpec? serviceFor?
  cases spec.protocol <;> cases spec.urls <;> rfl

@[simp] theorem service_setTime (s : TileSource) (interval : String) :
    (s.setTime interval).service = s.service := rfl

theorem revision_lt (s : TileSource) : s.revision < UInt64.size := s.counter.toNat_lt

/-- A time raises the revision, but after the last one comes zero. -/
theorem revision_setTime (s : TileSource) (interval : String) :
    (s.setTime interval).revision = (s.revision + 1) % UInt64.size := UInt64.toNat_add s.counter 1

/-- The source shows the interval it was told. -/
@[simp] theorem time?_setTime (s : TileSource) (interval : String) :
    (s.setTime interval).time? = some interval := by
  simp [setTime, time?, update, Keyed.lookup_insert]

end TileSource
end Atlas
