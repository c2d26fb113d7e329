import Atlas.Layer.Summary
import Atlas.Session
import Atlas.Proofs.Layer.Mirroring
import Atlas.Proofs.Layer.CatalogRun
import Atlas.Proofs.Session.Refusal
import Atlas.Proofs.GeoJson.Reading
import Atlas.Proofs.Session.Run
import Atlas.Proofs.Double.Finite
import Atlas.Proofs.Double.Positive
import Atlas.Proofs.Session.Selection
import Atlas.Proofs.GeoJson.RoundTrip
import Atlas.Proofs.Sketch.History
import Atlas.Proofs.View.Fitting
import Atlas.Proofs.Session.Moves
import Atlas.Proofs.Layer.Covering
import Atlas.Proofs.Session.Messages
import Atlas.Proofs.Session.BaseMaps
import Atlas.Proofs.Layer.Timing
import Atlas.Proofs.Session.Periods
import Atlas.Proofs.Double.Rounding
import Atlas.Proofs.Double.Operations
import Atlas.Proofs.Double.Numbers
import Atlas.Proofs.View.Showing
import Atlas.Proofs.Message.Payloads
import Atlas.Proofs.Session.Mounted
import Atlas.Proofs.Session.Finiteness
import Atlas.Proofs.Session.Misses
import Atlas.Proofs.Session.Echo
import Atlas.Proofs.Layer.Commuting
import Atlas.Proofs.Layer.Permanence
import Atlas.Proofs.Session.ShownBase
import Atlas.Proofs.Decimal.Nearest
import Atlas.Proofs.Decimal.ReadBack
import Atlas.Proofs.Json.Lexing
import Atlas.Proofs.Json.Parsing
import Atlas.Proofs.Json.WellFormed
import Atlas.Proofs.GeoJson.TextRoundTrip
import Atlas.Proofs.View.Deepest
import Atlas.Proofs.Double.Order
import Atlas.Proofs.Layer.Opacities
import Atlas.Proofs.Session.Opacities
import Atlas.Proofs.Layer.CatchingUp
import Atlas.Proofs.Layer.Repeating
import Atlas.Proofs.Layer.Settling
import Atlas.Proofs.Sketch.Dragging
import Atlas.Proofs.Session.Routing
import Atlas.Proofs.Session.Mounting
import Atlas.Proofs.GeoJson.Accepting
import Atlas.Proofs.Double.Comparing
import Atlas.Proofs.Geometry.Boxes
import Atlas.Proofs.Session.Importing
import Atlas.Proofs.Message.ZoomLevels
import Atlas.Proofs.Text.Blanks
import Atlas.Proofs.Calendar.Timestamps
import Atlas.Proofs.Calendar.Intervals
import Atlas.Proofs.Layer.Times
import Atlas.Proofs.Session.Resending
import Atlas.Proofs.Layer.SpecRoundTrip
import Atlas.Proofs.Double.Zeros
import Atlas.Proofs.Geometry.LeastBoxes
import Atlas.Proofs.Session.ImportOrder
