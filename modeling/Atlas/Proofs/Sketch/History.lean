import Atlas.Sketch.Board
import Mathlib.Data.List.DropRight

/-!
# The history of a drawing board

What lies on a board can be told from what was done with it, without going through the states in
between. Some operations reset the board: they leave it with a content that does not depend on what
was there. Since the last of them drawings have been accepted, and the mode of the latest activation
says what became of them: in multi mode all of them follow the content of the reset, in single mode
the last one stands alone.

Which drawings are accepted is told from the history, too. A sketch is accepted by the tool that
draws its kind. A box is accepted by the box tool if it was begun since the tool was taken up and
since the last box was ended. Clearing the board or replacing its features does not stop a box that
is being dragged, so a box can be begun before a reset and be ended behind it.

## Main statements

* `Board.follows_after` — tool, mode, begun box and features are those that the history tells
* `Board.recounted` — the features by the history, which drawings are accepted, and that what is
  refused leaves no trace
-/

namespace Atlas

/-- Whether a tool draws a geometry by a sketch. Boxes are dragged and not sketched. -/
def Tool.draws : Tool → Geometry → Bool
  | .point, .point _ => true
  | .line, .lineString _ => true
  | .polygon, .polygon _ => true
  | _, _ => false

theorem Tool.draws_iff (tool : Tool) (g : Geometry) : tool.draws g = true ↔
    (tool = .point ∧ ∃ p, g = .point p) ∨ (tool = .line ∧ ∃ ps, g = .lineString ps) ∨
      (tool = .polygon ∧ ∃ p, g = .polygon p) := by
  cases tool <;> cases g <;> simp [Tool.draws]

namespace Board

/-! ## Operations -/

/-- An operation on a board. -/
inductive Operation where
  | activate (tool : Tool) (mode : DrawMode)
  | activateById (id : String) (mode : DrawMode)
  | deactivate
  | sketch (g : Geometry)
  | startBox (corner : Coord)
  | endBox (corner : Coord)
  | clear
  | replace (features : List Feature)
  | takeChanges

/-- The board after an operation. -/
def apply (b : Board) : Operation → Board
  | .activate tool mode => b.activate tool mode
  | .activateById id mode => (b.activateById id mode).1
  | .deactivate => b.deactivate
  | .sketch g => (b.sketch g).1
  | .startBox corner => (b.startBox corner).1
  | .endBox corner => (b.endBox corner).1
  | .clear => b.clear
  | .replace features => b.replace features
  | .takeChanges => b.takeChanges.2

/-- What becomes of an empty board by operations, one after the other. -/
def after (ops : List Operation) : Board := ops.foldl apply empty

theorem after_concat (ops : List Operation) (op : Operation) :
    after (ops ++ [op]) = (after ops).apply op := by
  rw [after, List.foldl_append]
  rfl

namespace Operation

/-- The tool and the mode that an operation activates. An id that no tool has activates nothing. -/
def activation? : Operation → Option (Tool × DrawMode)
  | .activate tool mode => some (tool, mode)
  | .activateById id mode => (Tool.ofId? id).map (fun tool => (tool, mode))
  | _ => none

/-- What an operation changes the active tool to, if it changes it. -/
def toolChange? : Operation → Option (Option Tool)
  | .deactivate => some none
  | op => op.activation?.map (fun activated => some activated.1)

/-- What an operation resets the features to, if it resets them. -/
def reset? : Operation → Option (List Feature)
  | .deactivate => some []
  | .clear => some []
  | .replace features => some features
  | op => op.activation?.map (fun _ => [])

/-- Where an operation begins a box. -/
def corner? : Operation → Option Coord
  | .startBox corner => some corner
  | _ => none

/-- Whether no box is being dragged behind an operation, whatever was before it. -/
def endsDrag : Operation → Bool
  | .endBox _ => true
  | op => op.toolChange?.isSome

theorem activation?_eq_none {op : Operation} (h : op.reset? = none) : op.activation? = none := by
  cases op with
  | activate | deactivate | clear | replace => cases h
  | activateById => exact Option.map_eq_none_iff.1 h
  | sketch | startBox | endBox | takeChanges => rfl

theorem toolChange?_eq_none {op : Operation} (h : op.reset? = none) : op.toolChange? = none := by
  cases op with
  | deactivate => cases h
  | _ => simp [toolChange?, activation?_eq_none h]

end Operation

/-! ## What a history tells -/

namespace History

/-- The latest of the events of a kind. -/
def latest? {α : Type} (event : Operation → Option α) (h : List Operation) : Option α :=
  (h.filterMap event).getLast?

/-- The tool that is active. -/
def tool? (h : List Operation) : Option Tool := (latest? Operation.toolChange? h).join

/-- The mode of the latest activation. -/
def mode (h : List Operation) : DrawMode :=
  ((latest? Operation.activation? h).map Prod.snd).getD .multi

/-- Where the box begins that is being dragged. -/
def corner? (h : List Operation) : Option Coord :=
  if tool? h = some .box then
    latest? Operation.corner? (h.rtakeWhile (fun op => !op.endsDrag))
  else none

/-- What an operation draws, if that is accepted behind a history. -/
def drawn? (h : List Operation) : Operation → Option Feature
  | .sketch g => if (tool? h).any (fun tool => tool.draws g) then some (.ofGeometry g) else none
  | .endBox stop => (corner? h).map (fun start => .ofGeometry (boxPolygon start stop))
  | _ => none

/-- What the operations behind a history draw. -/
def drawings (h : List Operation) : List Operation → List Feature
  | [] => []
  | op :: later => (drawn? h op).toList ++ drawings (h ++ [op]) later

/-- The features that the board was reset to last. -/
def content (h : List Operation) : List Feature := (latest? Operation.reset? h).getD []

/-- The drawings that were accepted since the last reset. -/
def accepted (h : List Operation) : List Feature :=
  drawings (h.rdropWhile (fun op => op.reset?.isNone)) (h.rtakeWhile (fun op => op.reset?.isNone))

/-- The features on the board: in multi mode the content of the last reset and the drawings that
were accepted since then, in single mode the last of these drawings, and the content of the reset
if there is none. -/
def features (h : List Operation) : List Feature :=
  match mode h with
  | .multi => content h ++ accepted h
  | .single =>
    match (accepted h).getLast? with
    | some f => [f]
    | none => content h

/-! ## One operation more -/

section
variable (h : List Operation) (op : Operation)

theorem latest?_concat {α : Type} (event : Operation → Option α) :
    latest? event (h ++ [op]) = (event op).or (latest? event h) := by
  rw [latest?, List.filterMap_append]
  cases he : event op with
  | none => simp [he, latest?]
  | some a => simp [he]

theorem tool?_concat : tool? (h ++ [op]) = op.toolChange?.getD (tool? h) := by
  rw [tool?, latest?_concat]
  cases op.toolChange? with
  | none => rfl
  | some change => rfl

theorem mode_concat : mode (h ++ [op]) = (op.activation?.map Prod.snd).getD (mode h) := by
  rw [mode, latest?_concat]
  cases op.activation? with
  | none => rfl
  | some activated => rfl

theorem content_concat : content (h ++ [op]) = op.reset?.getD (content h) := by
  rw [content, latest?_concat]
  cases op.reset? with
  | none => rfl
  | some fs => rfl

theorem corner?_concat_of_endsDrag (he : op.endsDrag = true) : corner? (h ++ [op]) = none := by
  rw [corner?, List.rtakeWhile_concat_neg _ _ _ (by simp [he])]
  exact ite_self none

theorem corner?_concat (he : op.endsDrag = false) :
    corner? (h ++ [op]) = if tool? h = some .box then op.corner?.or (corner? h) else none := by
  have hchange : op.toolChange? = none := by
    cases op with
    | endBox => cases he
    | _ => simpa [Operation.endsDrag] using he
  rw [corner?, tool?_concat, hchange, Option.getD_none,
    List.rtakeWhile_concat_pos _ _ _ (by simp [he]), latest?_concat]
  by_cases hbox : tool? h = some .box
  · rw [if_pos hbox, if_pos hbox, corner?, if_pos hbox]
  · rw [if_neg hbox, if_neg hbox]

theorem corner?_concat_of_idle (he : op.endsDrag = false) (hc : op.corner? = none) :
    corner? (h ++ [op]) = corner? h := by
  rw [corner?_concat h op he, hc, Option.none_or]
  by_cases hbox : tool? h = some .box
  · rw [if_pos hbox]
  · rw [if_neg hbox, corner?, if_neg hbox]

theorem drawings_concat (later : List Operation) :
    drawings h (later ++ [op]) = drawings h later ++ (drawn? (h ++ later) op).toList := by
  induction later generalizing h with
  | nil => simp [drawings]
  | cons op' later ih => simp [drawings, ih]

theorem accepted_concat_of_reset {fs : List Feature} (hr : op.reset? = some fs) :
    accepted (h ++ [op]) = [] := by
  rw [accepted, List.rtakeWhile_concat_neg _ _ _ (by simp [hr])]
  rfl

theorem accepted_concat (hr : op.reset? = none) :
    accepted (h ++ [op]) = accepted h ++ (drawn? h op).toList := by
  -- the part up to the last reset stays, and the part behind it grows by the operation
  rw [accepted, List.rtakeWhile_concat_pos _ _ _ (by simp [hr]),
    List.rdropWhile_concat_pos _ _ _ (by simp [hr]), drawings_concat,
    List.rdropWhile_append_rtakeWhile]
  rfl

/-- A reset forgets all that was drawn before, in both modes. -/
theorem features_concat_of_reset {fs : List Feature} (hr : op.reset? = some fs) :
    features (h ++ [op]) = fs := by
  rw [features, accepted_concat_of_reset h op hr, content_concat, hr]
  cases mode (h ++ [op]) with
  | multi => exact List.append_nil fs
  | single => rfl

theorem mode_concat_of_not_reset (hr : op.reset? = none) : mode (h ++ [op]) = mode h := by
  rw [mode_concat, Operation.activation?_eq_none hr]
  rfl

theorem features_concat_of_drawn {f : Feature} (hr : op.reset? = none)
    (hd : drawn? h op = some f) :
    features (h ++ [op]) = if mode h = .single then [f] else features h ++ [f] := by
  rw [features, features, mode_concat_of_not_reset h op hr, accepted_concat h op hr, hd,
    content_concat, hr]
  cases mode h with
  | multi => simp
  | single => simp

theorem features_concat_of_silent (hr : op.reset? = none) (hd : drawn? h op = none) :
    features (h ++ [op]) = features h := by
  rw [features, features, mode_concat_of_not_reset h op hr, accepted_concat h op hr, hd,
    content_concat, hr]
  simp

end

theorem tool?_of_corner? {h : List Operation} {start : Coord} (hc : corner? h = some start) :
    tool? h = some .box := by
  rw [corner?] at hc
  split at hc
  · assumption
  · cases hc

end History

/-! ## Drawings that are accepted -/

theorem sketch_eq (b : Board) (g : Geometry) :
    b.sketch g =
      if b.tool.any (fun tool => tool.draws g) then (b.add (.ofGeometry g), true)
      else (b, false) := by
  obtain ⟨tool, mode, features, boxStart, changes⟩ := b
  cases tool with
  | none => rfl
  | some tool => cases tool <;> cases g <;> rfl

theorem endBox_of_begun {b : Board} {start : Coord} (ht : b.tool = some .box)
    (hs : b.boxStart = some start) (stop : Coord) :
    b.endBox stop =
      (add { b with boxStart := none } (.ofGeometry (boxPolygon start stop)), true) := by
  rw [endBox, interaction?, ht, hs]
  rfl

theorem endBox_of_not_begun {b : Board} (hs : b.boxStart = none) (stop : Coord) :
    b.endBox stop = (b, false) := by
  rw [endBox, hs]
  split <;> rfl

theorem startBox_eq (b : Board) (corner : Coord) :
    b.startBox corner =
      if b.tool = some .box then ({ b with boxStart := some corner }, true) else (b, false) := by
  obtain ⟨tool, mode, features, boxStart, changes⟩ := b
  cases tool with
  | none => rfl
  | some tool => cases tool <;> rfl

theorem features_add (b : Board) (f : Feature) :
    (b.add f).features = if b.mode = .single then [f] else b.features ++ [f] := by
  cases hm : b.mode with
  | single => exact features_add_single hm f
  | multi => exact features_add_multi hm f

theorem features_replace (b : Board) (fs : List Feature) : (b.replace fs).features = fs := by
  cases fs with
  | nil => rfl
  | cons f fs => rfl

theorem activateById_of_tool {id : String} {tool : Tool} (h : Tool.ofId? id = some tool)
    (b : Board) (mode : DrawMode) : b.activateById id mode = (b.activate tool mode, .ok ()) := by
  rw [activateById, Tool.ofId, h]
  rfl

theorem activateById_of_unknown {id : String} (h : Tool.ofId? id = none) (b : Board)
    (mode : DrawMode) :
    b.activateById id mode = (b, .error (Fault.of (.unknownTool id))) := by
  rw [activateById, Tool.ofId, h]
  rfl

/-! ## The board follows its history -/

/-- A board is as its history tells. -/
structure Follows (h : List Operation) (b : Board) : Prop where
  tool : b.tool = History.tool? h
  mode : b.mode = History.mode h
  boxStart : b.boxStart = History.corner? h
  features : b.features = History.features h

section
open History
variable {h : List Operation} {b : Board}

/-- An operation that resets nothing and draws nothing is only told by the box that it begins or
ends. -/
theorem Follows.silent (hb : b.Follows h) (op : Operation) (hr : op.reset? = none)
    (hd : drawn? h op = none) {start : Option Coord} (hs : start = corner? (h ++ [op])) :
    Follows (h ++ [op]) { b with boxStart := start } where
  tool := by
    rw [tool?_concat, Operation.toolChange?_eq_none hr]
    exact hb.tool
  mode := by
    rw [mode_concat_of_not_reset h op hr]
    exact hb.mode
  boxStart := hs
  features := by
    rw [features_concat_of_silent h op hr hd]
    exact hb.features

theorem Follows.drawn (hb : b.Follows h) (op : Operation) {f : Feature} (hr : op.reset? = none)
    (hd : drawn? h op = some f) {start : Option Coord} (hs : start = corner? (h ++ [op])) :
    Follows (h ++ [op]) (add { b with boxStart := start } f) := by
  have hadd : ∀ b : Board, (b.add f).tool = b.tool ∧ (b.add f).mode = b.mode ∧
      (b.add f).boxStart = b.boxStart := by
    intro b
    rw [add]
    split <;> exact ⟨rfl, rfl, rfl⟩
  obtain ⟨htool, hmode, hstart⟩ := hadd { b with boxStart := start }
  refine ⟨?_, ?_, hstart.trans hs, ?_⟩
  · rw [htool, tool?_concat, Operation.toolChange?_eq_none hr]
    exact hb.tool
  · rw [hmode, mode_concat_of_not_reset h op hr]
    exact hb.mode
  · rw [features_concat_of_drawn h op hr hd, features_add, ← hb.features, ← hb.mode]

/-- Taking up a tool and putting it away start anew. -/
theorem Follows.changeTool (hb : b.Follows h) {op : Operation} {tool : Option Tool}
    {mode : DrawMode} (hr : op.reset? = some []) (ht : op.toolChange? = some tool)
    (hm : (op.activation?.map Prod.snd).getD b.mode = mode) :
    Follows (h ++ [op]) { b.clear with boxStart := none, tool := tool, mode := mode } where
  tool := by rw [tool?_concat, ht]; rfl
  mode := by rw [mode_concat, ← hb.mode, hm]
  boxStart := by
    rw [corner?_concat_of_endsDrag]
    cases op with
    | endBox => rfl
    | _ => simp [Operation.endsDrag, ht]
  features := (features_concat_of_reset h op hr).symm

/-- Other features leave the tool and a box that is being dragged as they are. -/
theorem Follows.reset (hb : b.Follows h) {op : Operation} {b' : Board}
    (hr : op.reset? = some b'.features) (ha : op.activation? = none)
    (ht : op.toolChange? = none) (hd : op.endsDrag = false) (hc : op.corner? = none)
    (hsame : b'.tool = b.tool ∧ b'.mode = b.mode ∧ b'.boxStart = b.boxStart) :
    Follows (h ++ [op]) b' where
  tool := by rw [tool?_concat, ht, hsame.1]; exact hb.tool
  mode := by rw [mode_concat, ha, hsame.2.1]; exact hb.mode
  boxStart := by rw [corner?_concat_of_idle h op hd hc, hsame.2.2]; exact hb.boxStart
  features := (features_concat_of_reset h op hr).symm

theorem Follows.activateById (hb : b.Follows h) (id : String) (mode : DrawMode) :
    Follows (h ++ [.activateById id mode]) (b.activateById id mode).1 := by
  cases ht : Tool.ofId? id with
  | some tool =>
    rw [activateById_of_tool ht]
    exact hb.changeTool (by simp [Operation.reset?, Operation.activation?, ht])
      (by simp [Operation.toolChange?, Operation.activation?, ht])
      (by simp [Operation.activation?, ht])
  | none =>
    have hr : (Operation.activateById id mode).reset? = none := by
      simp [Operation.reset?, Operation.activation?, ht]
    have he : (Operation.activateById id mode).endsDrag = false := by
      simp [Operation.endsDrag, Operation.toolChange?_eq_none hr]
    rw [activateById_of_unknown ht]
    exact hb.silent _ hr rfl (hb.boxStart.trans (corner?_concat_of_idle h _ he rfl).symm)

theorem Follows.sketch (hb : b.Follows h) (g : Geometry) :
    Follows (h ++ [.sketch g]) (b.sketch g).1 := by
  have hidle : b.boxStart = corner? (h ++ [.sketch g]) :=
    hb.boxStart.trans (corner?_concat_of_idle h _ rfl rfl).symm
  rw [sketch_eq, hb.tool]
  by_cases hd : (tool? h).any (fun tool => tool.draws g) = true
  · rw [if_pos hd]
    exact hb.drawn (.sketch g) rfl (if_pos hd) hidle
  · rw [if_neg hd]
    exact hb.silent (.sketch g) rfl (if_neg hd) hidle

theorem Follows.startBox (hb : b.Follows h) (corner : Coord) :
    Follows (h ++ [.startBox corner]) (b.startBox corner).1 := by
  have hc := corner?_concat h (.startBox corner) rfl
  by_cases hbox : tool? h = some .box
  · rw [startBox_eq, if_pos (hb.tool.trans hbox)]
    rw [if_pos hbox] at hc
    exact hb.silent (.startBox corner) rfl rfl hc.symm
  · rw [startBox_eq, if_neg (fun ht => hbox (hb.tool.symm.trans ht))]
    rw [if_neg hbox] at hc
    have hnone : corner? h = none := if_neg hbox
    exact hb.silent (.startBox corner) rfl rfl ((hb.boxStart.trans hnone).trans hc.symm)

theorem Follows.endBox (hb : b.Follows h) (stop : Coord) :
    Follows (h ++ [.endBox stop]) (b.endBox stop).1 := by
  have hended : none = corner? (h ++ [.endBox stop]) := (corner?_concat_of_endsDrag h _ rfl).symm
  cases hc : corner? h with
  | some start =>
    have ht : b.tool = some .box := hb.tool.trans (tool?_of_corner? hc)
    rw [endBox_of_begun ht (hb.boxStart.trans hc)]
    have hd : drawn? h (.endBox stop) = some (.ofGeometry (boxPolygon start stop)) := by
      rw [drawn?, hc]
      rfl
    exact hb.drawn _ rfl hd hended
  | none =>
    have hs : b.boxStart = none := hb.boxStart.trans hc
    rw [endBox_of_not_begun hs]
    have hd : drawn? h (.endBox stop) = none := by
      rw [drawn?, hc]
      rfl
    exact hb.silent _ rfl hd (hs.trans hended)

/-- **An operation leaves a board that follows its history as the longer history tells.** -/
theorem Follows.apply (hb : b.Follows h) (op : Operation) : (b.apply op).Follows (h ++ [op]) := by
  cases op with
  | activate tool mode => exact hb.changeTool rfl rfl rfl
  | activateById id mode => exact hb.activateById id mode
  | deactivate => exact hb.changeTool rfl rfl rfl
  | sketch g => exact hb.sketch g
  | startBox corner => exact hb.startBox corner
  | endBox stop => exact hb.endBox stop
  | clear => exact hb.reset rfl rfl rfl rfl rfl ⟨rfl, rfl, rfl⟩
  | replace fs =>
    refine hb.reset (congrArg some (features_replace b fs).symm) rfl rfl rfl rfl ?_
    cases fs with
    | nil | cons => exact ⟨rfl, rfl, rfl⟩
  | takeChanges =>
    have hidle := hb.boxStart.trans (corner?_concat_of_idle h .takeChanges rfl rfl).symm
    obtain ⟨htool, hmode, hstart, hfeatures⟩ := hb.silent .takeChanges rfl rfl hidle
    exact ⟨htool, hmode, hstart, hfeatures⟩

end

/-- **A board follows its history.** -/
theorem follows_after (ops : List Operation) : (after ops).Follows ops := by
  induction ops using List.reverseRecOn with
  | nil => exact ⟨rfl, rfl, rfl, rfl⟩
  | append_singleton ops op ih =>
    rw [after_concat]
    exact ih.apply op

/-- The answer to a drawing; other operations draw nothing. -/
def accepts (b : Board) : Operation → Bool
  | .sketch g => (b.sketch g).2
  | .endBox stop => (b.endBox stop).2
  | _ => false

/-- The features on a board and its tool are those that the history tells, and the drawings that
the history takes for accepted are those that the board has accepted. A sketch is accepted by the
point tool if it is a point, by the line tool if it is a line string and by the polygon tool if it
is a polygon. What is refused, a drawing or an id that no tool has, leaves the whole board as it
is. -/
structure Recounted (ops : List Operation) : Prop where
  features : (after ops).features = History.features ops
  tool : (after ops).tool = History.tool? ops
  accepted : ∀ op, (after ops).accepts op = (History.drawn? ops op).isSome
  sketched : ∀ g, ((after ops).sketch g).2 = true ↔
    ((after ops).tool = some .point ∧ ∃ p, g = .point p) ∨
      ((after ops).tool = some .line ∧ ∃ ps, g = .lineString ps) ∨
      ((after ops).tool = some .polygon ∧ ∃ p, g = .polygon p)
  refused_sketch : ∀ g, ((after ops).sketch g).2 = false → ((after ops).sketch g).1 = after ops
  refused_box : ∀ stop, ((after ops).endBox stop).2 = false →
    ((after ops).endBox stop).1 = after ops
  refused_id : ∀ id mode,
    ((∃ fault, ((after ops).activateById id mode).2 = .error fault) ↔
      ∀ tool : Tool, id ≠ tool.id) ∧
    ((∀ tool : Tool, id ≠ tool.id) → ((after ops).activateById id mode).1 = after ops)

theorem accepts_iff_drawn? {h : List Operation} {b : Board} (hb : b.Follows h) (op : Operation) :
    b.accepts op = (History.drawn? h op).isSome := by
  cases op with
  | sketch g =>
    rw [accepts, sketch_eq, hb.tool, History.drawn?]
    split <;> rfl
  | endBox stop =>
    rw [accepts, History.drawn?]
    cases hc : History.corner? h with
    | some start =>
      have ht : b.tool = some .box := hb.tool.trans (History.tool?_of_corner? hc)
      rw [endBox_of_begun ht (hb.boxStart.trans hc)]
      rfl
    | none =>
      rw [endBox_of_not_begun (hb.boxStart.trans hc)]
      rfl
  | _ => rfl

theorem sketch_accepted_iff (b : Board) (g : Geometry) : (b.sketch g).2 = true ↔
    (b.tool = some .point ∧ ∃ p, g = .point p) ∨
      (b.tool = some .line ∧ ∃ ps, g = .lineString ps) ∨
      (b.tool = some .polygon ∧ ∃ p, g = .polygon p) := by
  have haccepted : (b.sketch g).2 = b.tool.any (fun tool => tool.draws g) := by
    rw [sketch_eq]
    split
    · next hd => exact hd.symm
    · next hd => exact (Bool.eq_false_iff.2 hd).symm
  rw [haccepted]
  cases b.tool with
  | none => simp
  | some tool => simpa using Tool.draws_iff tool g

theorem endBox_eq_of_refused {b : Board} {stop : Coord} (h : (b.endBox stop).2 = false) :
    (b.endBox stop).1 = b := by
  rw [endBox] at h ⊢
  split
  · next hbox =>
    rw [if_pos hbox] at h
    split
    · next start hs => simp [hs] at h
    · rfl
  · rfl

theorem activateById_refused_iff (b : Board) (id : String) (mode : DrawMode) :
    ((∃ fault, (b.activateById id mode).2 = .error fault) ↔ ∀ tool : Tool, id ≠ tool.id) ∧
      ((∀ tool : Tool, id ≠ tool.id) → (b.activateById id mode).1 = b) := by
  rw [← Tool.ofId?_eq_none_iff]
  cases ht : Tool.ofId? id with
  | some tool =>
    rw [activateById_of_tool ht]
    exact ⟨by simp, by simp⟩
  | none =>
    rw [activateById_of_unknown ht]
    exact ⟨by simp, by simp⟩

/-- **The history tells what lies on the board,** and which drawings have been accepted. -/
theorem recounted (ops : List Operation) : Recounted ops where
  features := (follows_after ops).features
  tool := (follows_after ops).tool
  accepted := accepts_iff_drawn? (follows_after ops)
  sketched := sketch_accepted_iff (after ops)
  refused_sketch := fun _ => sketch_eq_of_refused
  refused_box := fun _ => endBox_eq_of_refused
  refused_id := activateById_refused_iff (after ops)

/-- A box that was begun before the features were replaced is added to the new ones. -/
example (p q : Coord) (fs : List Feature) :
    History.features [.activate .box .multi, .startBox p, .replace fs, .endBox q] =
      fs ++ [.ofGeometry (boxPolygon p q)] := rfl

end Board
end Atlas
