import Atlas.Decimal.Layout
import Atlas.Json.Token

/-!
# What can go wrong

A fault is a cause and the circumstances around it. Every cause that this library finds itself
has a wording; a text that is no JSON, a value of the wrong shape, a malformed GeoJSON object and a
failed write are told apart by kind only. The message of a fault names the circumstances from the
outermost to the innermost one, then the cause.
-/

namespace Atlas

/-- Why something failed. -/
inductive Cause where
  /-- A text that is no JSON text, or a value that has not the shape of what it should be. -/
  | shape
  /-- A value that is no GeoJSON object. -/
  | geojson
  /-- A file that cannot be written. -/
  | write
  | unknownTopic (topic : String)
  | unknownTool (name : String)
  /-- A drawing session without a tool. -/
  | noTool
  | notFinite (value : Json)
  | wideZoom (level : Int)
  | wideFractionalZoom (level : Float)
  /-- An object that does not say what it is. -/
  | untyped
  | noFeatureList
  | noRings
  | unsupportedGeometry
  /-- A file that was not saved, in the words of who was to save it. -/
  | notSaved (words : String)

/-- What was being done when something failed. -/
inductive Circumstance where
  | readingGeometry
  | readingText
  | readingCenterX
  | readingCenterY
  | readingZoom
  | decoding (topic : String)
  | exporting
  | writing (path : String)

/-- A cause in its circumstances, outermost first. -/
structure Fault where
  circumstances : List Circumstance
  cause : Cause

/-- The four kinds of causes. -/
inductive FaultKind where
  | message
  | json
  | geojson
  | io
  deriving DecidableEq, Repr

/-- The kind of a cause. -/
def Cause.kind : Cause → FaultKind
  | .shape => .json
  | .geojson => .geojson
  | .write => .io
  | _ => .message

/-- The wording of a cause, if this library words it. -/
def Cause.wording? : Cause → Option String
  | .shape => none
  | .geojson => none
  | .write => none
  | .unknownTopic topic => some ("no handler for topic '" ++ topic ++ "'")
  | .unknownTool name => some ("unknown selection tool '" ++ name ++ "'")
  | .noTool => some "selection activated without a tool id"
  | .notFinite value => some ("expected a finite number, got " ++ value.render)
  | .wideZoom level => some ("zoom " ++ (Json.ofInt level).render ++ " out of range")
  | .wideFractionalZoom level =>
    some ("zoom " ++ Decimal.Layout.plain.write level ++ " out of range")
  | .untyped => some "GeoJSON object without a type"
  | .noFeatureList => some "FeatureCollection without a features array"
  | .noRings => some "polygon without rings"
  | .unsupportedGeometry => some "only Point, LineString and Polygon geometries are supported"
  | .notSaved words => some words

/-- The wording of a circumstance. -/
def Circumstance.wording : Circumstance → String
  | .readingGeometry => "malformed geometry"
  | .readingText => "invalid GeoJSON text"
  | .readingCenterX => "invalid center x"
  | .readingCenterY => "invalid center y"
  | .readingZoom => "invalid zoom level"
  | .decoding topic => "Failed to decode '" ++ topic ++ "' payload"
  | .exporting => "Failed to save selection export"
  | .writing path => "Failed to write " ++ path

namespace Fault

/-- A cause on its own. -/
def of (cause : Cause) : Fault := ⟨[], cause⟩

/-- Puts a fault into a further circumstance. -/
def within (circumstance : Circumstance) (fault : Fault) : Fault :=
  ⟨circumstance :: fault.circumstances, fault.cause⟩

/-- The kind of the cause. -/
def kind (fault : Fault) : FaultKind := fault.cause.kind

/-- The circumstances and the cause, with a colon and a blank between them. -/
def message (fault : Fault) : String :=
  ": ".intercalate
    (fault.circumstances.map Circumstance.wording ++ fault.cause.wording?.toList)

end Fault

/-- Puts the fault of a failed computation into a circumstance. -/
def during {α : Type} (circumstance : Circumstance) : Except Fault α → Except Fault α
  | .ok a => .ok a
  | .error fault => .error (fault.within circumstance)

/-- The value, or a fault with the given cause. -/
def orFault {α : Type} (cause : Cause) : Option α → Except Fault α
  | some a => .ok a
  | none => .error (Fault.of cause)

end Atlas
