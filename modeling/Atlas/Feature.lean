import Atlas.Geometry.Basic
import Atlas.Json.Basic

/-!
# Features

A feature is a geometry with properties and an optional id. A feature that was drawn has neither;
an imported one keeps what it came with.
-/

namespace Atlas

/-- The id of a feature. -/
inductive FeatureId where
  | text (s : String)
  | number (n : Number)
  deriving DecidableEq

/-- A geometry with an optional id and optional properties. -/
structure Feature where
  id : Option FeatureId
  geometry : Geometry
  properties : Option (List (String × Json))

namespace Feature

/-- A feature that is only a geometry. -/
def ofGeometry (g : Geometry) : Feature := ⟨none, g, none⟩

end Feature

/-- Ids agree if they are of one kind and equal there. -/
def FeatureId.agrees : FeatureId → FeatureId → Bool
  | .text s, .text t => s == t
  | .number m, .number n => m.agrees n
  | _, _ => false

/-- Optional values agree if both are missing or both are there and agree. -/
def agreeOption {α : Type} (agree : α → α → Bool) : Option α → Option α → Bool
  | none, none => true
  | some a, some b => agree a b
  | _, _ => false

/-- Features agree part by part. -/
def Feature.agrees (f g : Feature) : Bool :=
  agreeOption FeatureId.agrees f.id g.id && f.geometry.agrees g.geometry &&
    agreeOption Json.agreesMembers f.properties g.properties

end Atlas
