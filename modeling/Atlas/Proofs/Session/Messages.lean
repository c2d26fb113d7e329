import Atlas.Proofs.Layer.CatalogRun
import Atlas.Session

/-!
# Layers and messages

What messages do to the layers of a session. Four kinds of commands are about layers, and each of
them is one operation of the catalog; the others leave the catalog alone, and so does a message
that cannot be read. After any messages the catalog has therefore gone through the operations that
they ask for, and only the products can have been put in another order.

## Main statements

* `Session.catalog_perform` — a command is one operation of the catalog, or none
* `Session.catalog_receiveAll` — messages send the catalog through the operations they ask for
-/

namespace Atlas

/-- The period of a change of the period. -/
def Command.period? : Command → Option Period
  | .changePeriod p => some p
  | _ => none

/-- A message as it is handed to a session. -/
structure Message where
  topic : String
  payload : Json

namespace Message

/-- The command that a message is read as. -/
def command? (msg : Message) : Option Command := (Command.decode msg.topic msg.payload).toOption

/-- The period that a message tells, if it is read as a change of the period. -/
def period? (msg : Message) : Option Period := msg.command?.bind Command.period?

end Message

namespace Catalog

/-- The operations that messages can ask for. -/
inductive Operation.Requestable : Operation → Prop where
  | setVisible (role : Role) (id : String) (visible : Bool) :
      Requestable (.setVisible role id visible)
  | setOpacity (id : String) (opacity : Float) : Requestable (.setOpacity id opacity)
  | setPeriod (p : Period) : Requestable (.setPeriod p)
  | sortProducts : Requestable (.reorder .product)

end Catalog

namespace Session

variable {σ : Type}

/-! ## Commands -/

/-- The operation of the catalog that a command asks for. -/
def operation? (m : Session σ) : Command → Option Catalog.Operation
  | .changeLayer change =>
    (m.roleOfChange? change).map (fun role => .setVisible role change.id change.visible)
  | .sortProducts => some (.reorder .product)
  | .updateOpacity update => some (.setOpacity update.product update.value)
  | .changePeriod period => some (.setPeriod period)
  | .center _ | .setExtent _ | .activateTool _ | .loadFeatures _ | .exportSelection => none

theorem requestable_of_operation? {m : Session σ} {c : Command} {op : Catalog.Operation}
    (h : m.operation? c = some op) : op.Requestable := by
  cases c with
  | changeLayer change =>
    obtain ⟨role, -, rfl⟩ := Option.map_eq_some_iff.1 h
    exact .setVisible role change.id change.visible
  | sortProducts =>
    cases h
    exact .sortProducts
  | updateOpacity update =>
    cases h
    exact .setOpacity update.product update.value
  | changePeriod period =>
    cases h
    exact .setPeriod period
  | center | setExtent | activateTool | loadFeatures | exportSelection => cases h

theorem catalog_fit (m : Session σ) (box : Bounds Float) : (m.fit box).1.catalog = m.catalog := by
  rw [fit]
  split
  · rfl
  · rfl

theorem catalog_center (m : Session σ) (r : CenterRequest) :
    (m.center r).1.catalog = m.catalog := by
  rw [center]
  split
  · rfl
  · rfl

theorem catalog_toolActivated (m : Session σ) (a : ToolActivation) :
    (m.toolActivated a).1.catalog = m.catalog := by
  rw [toolActivated]
  split
  · rfl
  · split
    · rfl
    · split
      · rfl
      · rfl

theorem catalog_load (m : Session σ) (v : Json) : (m.load v).1.catalog = m.catalog := by
  rw [load]
  split
  · exact catalog_fit _ _
  · rfl

/-- **A command is one operation of the catalog, or none.** -/
theorem catalog_perform [FileSaver σ] (m : Session σ) (c : Command) :
    (m.perform c).1.catalog = (m.operation? c).elim m.catalog m.catalog.apply := by
  cases c with
  | changeLayer change =>
    show (m.changeLayer change).1.catalog = _
    rw [changeLayer, operation?]
    cases m.roleOfChange? change with
    | none => rfl
    | some role => rfl
  | sortProducts | updateOpacity | changePeriod | exportSelection => rfl
  | center request => exact catalog_center m request
  | setExtent box => exact catalog_fit m box
  | activateTool activation => exact catalog_toolActivated m activation
  | loadFeatures value => exact catalog_load m value

/-! ## Messages -/

variable [FileSaver σ]

/-- The session after a message. -/
def receive (m : Session σ) (msg : Message) : Session σ := (m.handle msg.topic msg.payload).1

/-- The session after messages, one after the other. -/
def receiveAll (m : Session σ) (msgs : List Message) : Session σ := msgs.foldl receive m

/-- The operations of the catalog that messages ask for, one after the other. -/
def operations (m : Session σ) : List Message → List Catalog.Operation
  | [] => []
  | msg :: msgs => (msg.command?.bind m.operation?).toList ++ (m.receive msg).operations msgs

theorem receive_eq (m : Session σ) (msg : Message) :
    m.receive msg = msg.command?.elim m (fun c => (m.perform c).1) := by
  rw [receive, handle, Message.command?]
  cases Command.decode msg.topic msg.payload with
  | ok c => rfl
  | error fault => rfl

theorem catalog_receive (m : Session σ) (msg : Message) : (m.receive msg).catalog =
    (msg.command?.bind m.operation?).toList.foldl Catalog.apply m.catalog := by
  rw [receive_eq]
  cases msg.command? with
  | none => rfl
  | some c =>
    rw [Option.elim_some, Option.bind_some, catalog_perform]
    cases m.operation? c with
    | none => rfl
    | some op => rfl

/-- **Messages send the catalog through the operations they ask for.** -/
theorem catalog_receiveAll (m : Session σ) (msgs : List Message) :
    (m.receiveAll msgs).catalog = (m.operations msgs).foldl Catalog.apply m.catalog := by
  induction msgs generalizing m with
  | nil => rfl
  | cons msg msgs ih =>
    rw [receiveAll, List.foldl_cons, operations, List.foldl_append, ← catalog_receive]
    exact ih (m.receive msg)

theorem requestable_of_mem_operations {m : Session σ} {msgs : List Message}
    {op : Catalog.Operation} (h : op ∈ m.operations msgs) : op.Requestable := by
  induction msgs generalizing m with
  | nil => cases h
  | cons msg msgs ih =>
    rcases List.mem_append.1 h with h | h
    · obtain ⟨c, -, hc⟩ := Option.bind_eq_some_iff.1 (Option.mem_toList.1 h)
      exact requestable_of_operation? hc
    · exact ih h

theorem filterMap_toList {α β : Type} (f : α → Option β) (o : Option α) :
    o.toList.filterMap f = (o.bind f).toList := by
  cases o with
  | none => rfl
  | some a =>
    rw [Option.bind_some, Option.toList_some, List.filterMap_cons]
    cases f a with
    | none => rfl
    | some b => rfl

omit [FileSaver σ] in
theorem period?_operation? (m : Session σ) (c : Command) :
    (m.operation? c).bind Catalog.Operation.period? = c.period? := by
  cases c with
  | changeLayer change =>
    rw [operation?]
    cases m.roleOfChange? change with
    | none => rfl
    | some role => rfl
  | sortProducts | updateOpacity | changePeriod | center | setExtent | activateTool
  | loadFeatures | exportSelection => rfl

/-- The catalog is told the periods of the messages that are read as a change of the period. -/
theorem filterMap_period?_operations (m : Session σ) (msgs : List Message) :
    (m.operations msgs).filterMap Catalog.Operation.period? = msgs.filterMap Message.period? := by
  induction msgs generalizing m with
  | nil => rfl
  | cons msg msgs ih =>
    have hmsg : (msg.command?.bind m.operation?).toList.filterMap Catalog.Operation.period? =
        msg.period?.toList := by
      rw [filterMap_toList, Option.bind_assoc, Message.period?]
      simp only [period?_operation?]
    rw [operations, List.filterMap_append, ih, hmsg, List.filterMap_cons]
    cases msg.period? with
    | none => rfl
    | some p => rfl

end Session
end Atlas
