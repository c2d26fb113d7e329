import Atlas.GeoJson.Reader
import Atlas.GeoJson.Writer
import Atlas.Json.Parser

/-!
# GeoJSON as text

Features are exported as the text of a feature collection, and imported from any GeoJSON text.
-/

namespace Atlas.GeoJson

/-- The text of a feature collection. -/
def writeText (fs : List Feature) : String := (ofFeatures fs).render

/-- Reads the features of a GeoJSON text. -/
def readText (text : String) : Except Fault (List Feature) :=
  match during .readingText (orFault .shape (Json.parse? text)) with
  | .ok v => readFeatures v
  | .error fault => .error fault

end Atlas.GeoJson
