import Atlas.Session

/-!
# Messages that are refused

A session answers a message with a fault in four situations and in no other. The message cannot be
read, one of the numbers of a center is none, the tool to activate does not exist, or the file of
an export is not saved. Each of them is noticed before anything has been changed, so a session that
refuses a message is what it was before. Only what did not save the file may be another than it was,
if it is not lawful.

Most commands cannot be refused: a box that cannot be shown, a layer that does not exist and a
value that is no GeoJSON are passed over without a fault.

## Main statements

* `Command.decode_eq_ok_iff` — the messages that are read, and as which command
* `Session.fails_perform` and `Session.kept_of_rejects` — the commands that are rejected
* `Session.handle_refuses_iff` — the messages that are refused, and that nothing happens then
-/

namespace Atlas

/-! ## Faults -/

/-- A computation ends with a fault. -/
def Fails {α : Type} (x : Except Fault α) : Prop := ∃ fault, x = .error fault

section
variable {α : Type}

theorem fails_error (fault : Fault) : Fails (.error fault : Except Fault α) := ⟨fault, rfl⟩

theorem not_fails_ok (a : α) : ¬ Fails (.ok a : Except Fault α) := by
  rintro ⟨fault, h⟩
  cases h

@[simp] theorem fails_during {circumstance : Circumstance} {x : Except Fault α} :
    Fails (during circumstance x) ↔ Fails x := by
  cases x with
  | ok a => exact iff_of_false (not_fails_ok a) (not_fails_ok a)
  | error fault => exact iff_of_true (fails_error _) (fails_error _)

theorem eq_ok_of_not_fails {x : Except Fault Unit} (h : ¬ Fails x) : x = .ok () := by
  cases x with
  | ok u => rfl
  | error fault => exact absurd (fails_error fault) h

end

/-! ## Reading a message -/

namespace Command

/-- A message spells a command: it has the topic of the command, and its payload reads as what the
command carries. -/
inductive Spells : String → Json → Command → Prop where
  | center {payload : Json} {request : CenterRequest}
      (h : CenterRequest.ofJson? payload = some request) :
      Spells Topic.center.name payload (.center request)
  | changeLayer {payload : Json} {change : LayerChange}
      (h : LayerChange.ofJson? payload = some change) :
      Spells Topic.layerChange.name payload (.changeLayer change)
  | setExtent {payload : Json} {box : Bounds Float} (h : Bounds.ofJson? payload = some box) :
      Spells Topic.setExtent.name payload (.setExtent box)
  | sortProducts {payload : Json} : Spells Topic.sortProducts.name payload .sortProducts
  | updateOpacity {payload : Json} {update : OpacityUpdate}
      (h : OpacityUpdate.ofJson? payload = some update) :
      Spells Topic.updateOpacity.name payload (.updateOpacity update)
  | activateTool {payload : Json} {activation : ToolActivation}
      (h : ToolActivation.ofJson? payload = some activation) :
      Spells Topic.selectionActivated.name payload (.activateTool activation)
  | loadFeatures {payload : Json} : Spells Topic.loadFeatures.name payload (.loadFeatures payload)
  | exportSelection {payload : Json} : Spells Topic.exportSelection.name payload .exportSelection
  | changePeriod {payload : Json} {period : Period} (h : Period.ofJson? payload = some period) :
      Spells Topic.timeChange.name payload (.changePeriod period)

/-- What a payload is decoded to by its shape. -/
theorem orFault_map_eq_ok_iff {α : Type} {cause : Cause} {o : Option α} {f : α → Command}
    {c : Command} : orFault cause (o.map f) = .ok c ↔ ∃ a, o = some a ∧ f a = c := by
  cases o with
  | none => simp [orFault]
  | some a => simp [orFault]

/-- **The decoder reads the messages that spell a command,** as that command. -/
theorem decode_eq_ok_iff {topic : String} {payload : Json} {c : Command} :
    decode topic payload = .ok c ↔ Spells topic payload c := by
  constructor
  · intro h
    have ht : topic = c.topic.name := Topic.ofName?_eq_some_iff.1 (topic_of_decode h)
    subst ht
    rw [decode, Topic.ofName?_name] at h
    -- the topic of each command leads to its own branch of the decoder
    cases c with
    | sortProducts => exact .sortProducts
    | exportSelection => exact .exportSelection
    | loadFeatures value =>
      cases h
      exact .loadFeatures
    | center | changeLayer | setExtent | updateOpacity | activateTool | changePeriod =>
      obtain ⟨a, ha, he⟩ := orFault_map_eq_ok_iff.1 h
      cases he
      constructor
      exact ha
  · intro h
    cases h with
    | sortProducts => rw [decode, Topic.ofName?_name]
    | exportSelection => rw [decode, Topic.ofName?_name]
    | loadFeatures => rw [decode, Topic.ofName?_name]
    | center h | changeLayer h | setExtent h | updateOpacity h | activateTool h | changePeriod h =>
      rw [decode, Topic.ofName?_name]
      exact orFault_map_eq_ok_iff.2 ⟨_, h, rfl⟩

/-- The decoder refuses the messages that spell no command. -/
theorem fails_decode {topic : String} {payload : Json} :
    Fails (decode topic payload) ↔ ∀ c, ¬ Spells topic payload c := by
  constructor
  · rintro ⟨fault, hf⟩ c hc
    rw [decode_eq_ok_iff.2 hc] at hf
    cases hf
  · intro h
    cases hd : decode topic payload with
    | ok c => exact absurd (decode_eq_ok_iff.1 hd) (h c)
    | error fault => exact fails_error fault

end Command

/-- The numbers of a center are read one after the other, so one bad number is enough. -/
theorem CenterRequest.fails_parse {r : CenterRequest} :
    Fails r.parse ↔ Fails (finite r.x) ∨ Fails (finite r.y) ∨ Fails (level r.zoom) := by
  unfold CenterRequest.parse
  cases hx : finite r.x with
  | error fault => exact iff_of_true (fails_error _) (.inl (fails_error _))
  | ok x =>
    cases hy : finite r.y with
    | error fault => exact iff_of_true (fails_error _) (.inr (.inl (fails_error _)))
    | ok y =>
      cases hz : level r.zoom with
      | error fault => exact iff_of_true (fails_error _) (.inr (.inr (fails_error _)))
      | ok zoom =>
        refine iff_of_false (not_fails_ok _) ?_
        rintro (h | h | h)
        · exact not_fails_ok x h
        · exact not_fails_ok y h
        · exact not_fails_ok zoom h

namespace Session

variable {σ : Type} {m : Session σ}

/-! ## Rejected commands -/

/-- The file of an export. -/
def exportFile (m : Session σ) : SavedFile :=
  ⟨exportName, exportType, GeoJson.writeText m.board.features⟩

theorem fails_center {r : CenterRequest} : Fails (m.center r).2 ↔ Fails r.parse := by
  unfold Session.center
  cases r.parse with
  | ok target => exact iff_of_false (not_fails_ok _) (not_fails_ok _)
  | error fault => exact iff_of_true (fails_error _) (fails_error _)

theorem center_eq_of_fails {r : CenterRequest} (h : Fails r.parse) :
    (m.center r).1 = m := by
  obtain ⟨fault, hf⟩ := h
  rw [Session.center, hf]

variable [FileSaver σ]

/-- A session is the one from before. Where its exports go may have changed, but not if this is
lawful. -/
structure Kept (m m' : Session σ) : Prop where
  rest : m' = { m with store := m'.store }
  store : LawfulFileSaver σ → m' = m

theorem Kept.of_eq {m' : Session σ} (h : m' = m) : m.Kept m' := by
  subst h
  exact ⟨rfl, fun _ => rfl⟩

/-- The commands that a session rejects. -/
def Rejects (m : Session σ) : Command → Prop
  | .center r => Fails r.parse
  | .activateTool a => a.active = true ∧ ∀ tool : Tool, a.id ≠ some tool.id
  | .exportSelection => Fails (FileSaver.save m.store m.exportFile).2
  | _ => False

theorem fails_ofId {id : String} : Fails (Tool.ofId id) ↔ ∀ tool : Tool, id ≠ tool.id := by
  rw [← Tool.ofId?_eq_none_iff, Tool.ofId]
  cases Tool.ofId? id with
  | some tool => exact iff_of_false (not_fails_ok tool) (Option.some_ne_none tool)
  | none => exact iff_of_true (fails_error _) rfl

/-- What activating a tool answers and leaves, by what was asked for. -/
theorem toolActivated_spec (m : Session σ) (a : ToolActivation) :
    (Fails (m.toolActivated a).2 ↔ m.Rejects (.activateTool a)) ∧
      (m.Rejects (.activateTool a) → (m.toolActivated a).1 = m) := by
  obtain ⟨active, id, mode⟩ := a
  cases active with
  | false =>
    have hr : ¬ m.Rejects (.activateTool ⟨false, id, mode⟩) := by
      rintro ⟨hactive, -⟩
      cases hactive
    exact ⟨iff_of_false (not_fails_ok _) hr, fun h => absurd h hr⟩
  | true =>
    cases id with
    | none =>
      refine ⟨iff_of_true (fails_error _) ⟨rfl, ?_⟩, fun _ => rfl⟩
      intro tool he
      cases he
    | some id =>
      have hr : m.Rejects (.activateTool ⟨true, some id, mode⟩) ↔ Fails (Tool.ofId id) := by
        rw [fails_ofId]
        simp [Rejects]
      rw [hr]
      simp only [toolActivated, Bool.not_true, Bool.false_eq_true, if_false]
      cases Tool.ofId id with
      | ok tool =>
        exact ⟨iff_of_false (not_fails_ok _) (not_fails_ok _), fun h => absurd h (not_fails_ok _)⟩
      | error fault => exact ⟨iff_of_true (fails_error _) (fails_error _), fun _ => rfl⟩

theorem kept_exportSelection (h : Fails (FileSaver.save m.store m.exportFile).2) :
    m.Kept m.exportSelection.1 := by
  refine ⟨rfl, fun _ => ?_⟩
  obtain ⟨fault, hf⟩ := h
  have hs : (FileSaver.save m.store m.exportFile).1 = m.store :=
    LawfulFileSaver.save_eq_of_error hf
  show { m with store := (FileSaver.save m.store m.exportFile).1 } = m
  rw [hs]

/-- **A command ends with a fault if it is rejected,** and only then. -/
theorem fails_perform {c : Command} : Fails (m.perform c).2 ↔ m.Rejects c := by
  cases c with
  | center r => exact fails_center
  | activateTool a => exact (toolActivated_spec m a).1
  | exportSelection => exact fails_during
  | changeLayer | setExtent | sortProducts | updateOpacity | loadFeatures | changePeriod =>
    exact iff_of_false (not_fails_ok ()) id

/-- **A rejected command leaves the session as it is.** -/
theorem kept_of_rejects {c : Command} (h : m.Rejects c) : m.Kept (m.perform c).1 := by
  cases c with
  | center r => exact .of_eq (center_eq_of_fails h)
  | activateTool a => exact .of_eq ((toolActivated_spec m a).2 h)
  | exportSelection => exact kept_exportSelection h
  | changeLayer | setExtent | sortProducts | updateOpacity | loadFeatures | changePeriod =>
    exact h.elim

/-! ## Refused messages -/

/-- The messages that a session refuses. -/
inductive Refuses (m : Session σ) (topic : String) (payload : Json) : Prop where
  /-- The topic does not lead to the map, or the payload has not the shape that goes with it. -/
  | unreadable (h : ∀ c, ¬ Command.Spells topic payload c)
  /-- A coordinate of a center is no finite number, or its zoom level does not fit. -/
  | center (r : CenterRequest) (ht : topic = Topic.center.name)
      (hr : CenterRequest.ofJson? payload = some r)
      (h : Fails (CenterRequest.finite r.x) ∨ Fails (CenterRequest.finite r.y) ∨
        Fails (CenterRequest.level r.zoom))
  /-- A tool is to be activated, but none is named, or none has that id. -/
  | tool (a : ToolActivation) (ht : topic = Topic.selectionActivated.name)
      (ha : ToolActivation.ofJson? payload = some a) (hactive : a.active = true)
      (h : ∀ tool : Tool, a.id ≠ some tool.id)
  /-- The features are to be exported, but the file is not saved. -/
  | saving (ht : topic = Topic.exportSelection.name)
      (h : Fails
        (FileSaver.save m.store ⟨exportName, exportType, GeoJson.writeText m.board.features⟩).2)

/-- A message is refused if it spells no command or one that is rejected. -/
theorem refuses_iff {topic : String} {payload : Json} :
    m.Refuses topic payload ↔
      (∀ c, ¬ Command.Spells topic payload c) ∨
        ∃ c, Command.Spells topic payload c ∧ m.Rejects c := by
  constructor
  · intro h
    cases h with
    | unreadable h => exact .inl h
    | center r ht hr h =>
      subst ht
      exact .inr ⟨_, .center hr, CenterRequest.fails_parse.2 h⟩
    | tool a ht ha hactive h =>
      subst ht
      exact .inr ⟨_, .activateTool ha, hactive, h⟩
    | saving ht h =>
      subst ht
      exact .inr ⟨_, .exportSelection, h⟩
  · rintro (h | ⟨c, hc, hr⟩)
    · exact .unreadable h
    · cases hc with
      | center h => exact .center _ rfl h (CenterRequest.fails_parse.1 hr)
      | activateTool h => exact .tool _ rfl h hr.1 hr.2
      | exportSelection => exact .saving rfl hr
      | changeLayer | setExtent | sortProducts | updateOpacity | loadFeatures | changePeriod =>
        exact hr.elim

/-- A message that spells a command is handled by performing it. -/
theorem handle_of_spells {topic : String} {payload : Json} {c : Command}
    (h : Command.Spells topic payload c) : m.handle topic payload = m.perform c := by
  rw [handle, Command.decode_eq_ok_iff.2 h]
  rfl

theorem handle_of_unreadable {topic : String} {payload : Json}
    (h : ∀ c, ¬ Command.Spells topic payload c) :
    Fails (m.handle topic payload).2 ∧ (m.handle topic payload).1 = m := by
  obtain ⟨fault, hf⟩ := Command.fails_decode.2 h
  rw [handle, hf]
  exact ⟨fails_error _, rfl⟩

/-- **A message is answered with a fault exactly if it is refused,** nothing has changed then but
what did not save a file, and every other message is accepted. -/
theorem handle_refuses_iff (m : Session σ) (topic : String) (payload : Json) :
    (Fails (m.handle topic payload).2 ↔ m.Refuses topic payload) ∧
      (m.Refuses topic payload → m.Kept (m.handle topic payload).1) ∧
      (¬ m.Refuses topic payload → (m.handle topic payload).2 = .ok ()) := by
  have hfails : Fails (m.handle topic payload).2 ↔ m.Refuses topic payload := by
    rw [refuses_iff]
    constructor
    · intro hf
      by_cases hs : ∃ c, Command.Spells topic payload c
      · obtain ⟨c, hc⟩ := hs
        rw [handle_of_spells hc] at hf
        exact .inr ⟨c, hc, fails_perform.1 hf⟩
      · exact .inl (not_exists.1 hs)
    · rintro (h | ⟨c, hc, hr⟩)
      · exact (handle_of_unreadable h).1
      · rw [handle_of_spells hc]
        exact fails_perform.2 hr
  refine ⟨hfails, ?_, ?_⟩
  · intro h
    rcases refuses_iff.1 h with h | ⟨c, hc, hr⟩
    · exact .of_eq (handle_of_unreadable h).2
    · rw [handle_of_spells hc]
      exact kept_of_rejects hr
  · intro h
    exact eq_ok_of_not_fails (fun hf => h (hfails.1 hf))

/-- A center with a text that is no number is refused, and an import of null is not. -/
theorem handle_center_east :
    let m := mount .standard Store.refusing
    let center := (CenterRequest.mk (.str "east") (.str "0") (.str "3")).toJson
    m.Refuses Topic.center.name center ∧ (m.handle Topic.center.name center).1 = m ∧
      ¬ m.Refuses Topic.loadFeatures.name .null ∧
      (m.handle Topic.loadFeatures.name .null).2 = .ok () := by
  intro m center
  have heast : Fails (CenterRequest.finite (.str "east")) := ⟨_, rfl⟩
  have hcenter : m.Refuses Topic.center.name center :=
    .center ⟨.str "east", .str "0", .str "3"⟩ rfl rfl (.inl heast)
  have hload : ¬ m.Refuses Topic.loadFeatures.name .null := by
    intro h
    exact not_fails_ok () ((handle_refuses_iff m _ _).1.2 h)
  exact ⟨hcenter, ((handle_refuses_iff m _ _).2.1 hcenter).store inferInstance, hload,
    (handle_refuses_iff m _ _).2.2 hload⟩

end Session
end Atlas
