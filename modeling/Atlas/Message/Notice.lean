import Atlas.GeoJson.Writer
import Atlas.Message.Command

/-!
# Notices

What the map tells the components around it: where the view is after a move, what is selected, and
which products are shown when the map is set up. Notices are kept in the order of publishing until
they are drained.
-/

namespace Atlas

/-- A message from the map. -/
inductive Notice where
  | setUrl (center : Coord) (zoom : Int)
  | position (box : Bounds Float)
  | selection (geometry : Option Geometry)
  | layer (change : LayerChange)

namespace Notice

/-- The topic of a notice. -/
def topic : Notice → Topic
  | .setUrl _ _ => .setUrl
  | .position _ => .positionChange
  | .selection _ => .selectionChanged
  | .layer _ => .layerChange

/-- What a notice carries. -/
def payload : Notice → Json
  | .setUrl center zoom => (CenterRequest.create center zoom).toJson
  | .position box => box.toJson
  | .selection geometry => GeoJson.ofGeometryOrNull geometry
  | .layer change => change.toJson

end Notice

/-- Notices in the order of publishing. -/
structure Outbox where
  notices : List Notice

namespace Outbox

/-- An outbox without notices. -/
def empty : Outbox := ⟨[]⟩

/-- Adds a notice. -/
def publish (o : Outbox) (n : Notice) : Outbox := ⟨o.notices ++ [n]⟩

/-- Adds notices one after the other. -/
def publishAll (o : Outbox) (ns : List Notice) : Outbox := ⟨o.notices ++ ns⟩

/-- The notices with a topic. -/
def onTopic (o : Outbox) (topic : String) : List Notice :=
  o.notices.filter (fun n => n.topic.name == topic)

/-- Takes all notices away. -/
def drain (o : Outbox) : List Notice × Outbox := (o.notices, empty)

/-- Publishing several notices is publishing one after the other. -/
theorem publishAll_eq_foldl (o : Outbox) (ns : List Notice) :
    o.publishAll ns = ns.foldl publish o := by
  induction ns generalizing o with
  | nil => simp [publishAll]
  | cons n ns ih => rw [List.foldl_cons, ← ih]; simp [publishAll, publish]

end Outbox
end Atlas
