/-!
# Topics

The map and the components around it talk by messages with a topic. Some topics lead to the map,
some away from it, a change of a layer does both, and two are requests that are answered at once.
-/

namespace Atlas

/-- What a message is about. -/
inductive Topic where
  | center
  | layerChange
  | setExtent
  | sortProducts
  | updateOpacity
  | selectionActivated
  | loadFeatures
  | exportSelection
  | timeChange
  | setUrl
  | positionChange
  | selectionChanged
  | getExtent
  | getSelection
  deriving DecidableEq, Repr

namespace Topic

/-- All topics. -/
def all : List Topic :=
  [.center, .layerChange, .setExtent, .sortProducts, .updateOpacity, .selectionActivated,
    .loadFeatures, .exportSelection, .timeChange, .setUrl, .positionChange, .selectionChanged,
    .getExtent, .getSelection]

/-- The name of a topic in messages. -/
def name : Topic → String
  | .center => "map:center"
  | .layerChange => "map:layer:change"
  | .setExtent => "map:set:extent"
  | .sortProducts => "productCollection:sortUpdated"
  | .updateOpacity => "productCollection:updateOpacity"
  | .selectionActivated => "selection:activated"
  | .loadFeatures => "map:load:geojson"
  | .exportSelection => "map:export:geojson"
  | .timeChange => "time:change"
  | .setUrl => "router:setUrl"
  | .positionChange => "map:position:change"
  | .selectionChanged => "selection:changed"
  | .getExtent => "map:get:extent"
  | .getSelection => "get:selection:json"

/-- The topic with a name. -/
def ofName? (s : String) : Option Topic := all.find? (fun t => t.name == s)

/-- **Every topic is found by its name.** -/
theorem ofName?_name (t : Topic) : ofName? t.name = some t := by cases t <;> decide

/-- A topic is found by no name but its own. -/
theorem ofName?_eq_some_iff {s : String} {t : Topic} : ofName? s = some t ↔ s = t.name := by
  constructor
  · intro h
    have hs := List.find?_some h
    exact (beq_iff_eq.1 hs).symm
  · rintro rfl
    exact ofName?_name t

/-- Topics are told apart by their names. -/
theorem name_beq_name (t u : Topic) : (t.name == u.name) = (t == u) := by
  rw [Bool.eq_iff_iff, beq_iff_eq, beq_iff_eq, ← ofName?_eq_some_iff, ofName?_name,
    Option.some_inj]

end Topic
end Atlas
