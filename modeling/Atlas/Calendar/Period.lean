import Atlas.Calendar.Timestamp
import Atlas.Json.Record

/-!
# Periods

A period has a start and an end, in any order. Layers with a time dimension show a period; they
are told it as an interval, start and end to the second with a slash between them.
-/

namespace Atlas

/-- A start and an end. -/
structure Period where
  start : Instant
  stop : Instant
  deriving DecidableEq, Repr

namespace Period

/-- The interval form of a period. -/
def interval (p : Period) : String := String.ofList (p.start.toSeconds ++ '/' :: p.stop.toSeconds)

/-- The same period with start and end exchanged. -/
def reverse (p : Period) : Period := ⟨p.stop, p.start⟩

/-- The same period to the second. -/
def dropFractions (p : Period) : Period := ⟨p.start.dropFraction, p.stop.dropFraction⟩

/-- Reads an instant from a text value. -/
def instantOfJson? : Json → Option Instant
  | .str s => Timestamp.read? s.toList
  | _ => none

/-- Reads a record with start and end. -/
def ofJson? (v : Json) : Option Period := do
  match ← Json.fields? ["start", "end"] v with
  | [start, stop] =>
    return ⟨← Json.required instantOfJson? start, ← Json.required instantOfJson? stop⟩
  | _ => none

/-- The record with start and end. -/
def toJson (p : Period) : Json :=
  Json.ofMembers [("start", .str (String.ofList p.start.toFull)),
    ("end", .str (String.ofList p.stop.toFull))]

end Period
end Atlas
