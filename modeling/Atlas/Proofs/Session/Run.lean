import Atlas.Proofs.GeoJson.Reading
import Atlas.Proofs.Sketch.Noting
import Atlas.Session

/-!
# Runs of a session

A run is what happens to a session after it has been mounted: any operations in any order, and all
that they publish. The notices are also written into a journal that nobody drains, so it still
holds those that are no longer in the outbox. The session hands out its catalog, so any edit of the
catalog is an operation, too.

An operation takes one of a few kinds of steps. What a step publishes is known from its kind, so an
invariant of all runs needs one case for each kind and none for each operation.

## Main statements

* `Session.step_apply` — every operation takes a step, and publishes what goes with it
* `Session.Run.induction` — what holds at first and is kept by every step holds in every run
-/

namespace Atlas
namespace Session

variable {σ : Type}

/-! ## Operations -/

/-- An operation of a session. The centers, boxes, layers, tools, imports, exports and periods that
a component asks for directly are performed as the commands that stand for them. -/
inductive Operation where
  | handle (topic : String) (payload : Json)
  | perform (c : Command)
  | moveTo (center : Coord) (zoom : Int)
  | editCatalog (edit : Catalog → Catalog)
  | activateTool (tool : Tool) (mode : DrawMode)
  | deactivateTool
  | sketch (g : Geometry)
  | startBox (corner : Coord)
  | endBox (corner : Coord)
  | drain

/-- The session after an operation. -/
def apply [FileSaver σ] (m : Session σ) : Operation → Session σ
  | .handle topic payload => (m.handle topic payload).1
  | .perform c => (m.perform c).1
  | .moveTo center zoom => m.moveTo center zoom
  | .editCatalog edit => { m with catalog := edit m.catalog }
  | .activateTool tool mode => m.activateTool tool mode
  | .deactivateTool => m.deactivateTool
  | .sketch g => (m.sketch g).1
  | .startBox corner => (m.startBox corner).1
  | .endBox corner => (m.endBox corner).1
  | .drain => m.drain.2

/-- The notices that an operation publishes: those behind the ones that were there before. -/
def publishedBy [FileSaver σ] (m : Session σ) (op : Operation) : List Notice :=
  (m.apply op).outbox.notices.drop m.outbox.notices.length

/-! ## Steps -/

/-- The notices of a move. -/
def moveNotices (v : View Float) : List Notice := [.setUrl v.center v.zoom, .position v.bounds]

/-- One step of a session, with the notices that it publishes. -/
inductive Step (m : Session σ) : Session σ → List Notice → Prop where
  | layers (catalog : Catalog) : Step m { m with catalog := catalog } []
  | save (store : σ) : Step m { m with store := store } []
  | draw (b : Board) (h : m.board.Noted b) : Step m (m.withBoard b) (b.changes.map .selection)
  | move (center : Coord) (zoom : Int) :
      Step m (m.moveTo center zoom) (moveNotices (m.moveTo center zoom).view)
  /-- An import that is shown: the selection is published before the move. -/
  | drawMove (b : Board) (h : m.board.Noted b) (center : Coord) (zoom : Int) :
      Step m ((m.withBoard b).moveTo center zoom)
        (b.changes.map .selection ++ moveNotices (m.moveTo center zoom).view)
  | drain : Step m m.drain.2 []

theorem Step.refl (m : Session σ) : m.Step m [] := .layers m.catalog

/-- A step adds its notices to the outbox; only draining takes notices away. -/
theorem Step.notices {m m' : Session σ} {ns : List Notice} (h : m.Step m' ns) :
    m'.outbox.notices = m.outbox.notices ++ ns ∨ m'.outbox.notices = [] ∧ ns = [] := by
  cases h with
  | layers | save => exact .inl (List.append_nil _).symm
  | draw | move => exact .inl rfl
  | drawMove b h center zoom =>
    left
    rw [← List.append_assoc]
    rfl
  | drain => exact .inr ⟨rfl, rfl⟩

/-- What an operation publishes is known from its step. -/
theorem Step.publishedBy_eq [FileSaver σ] {m : Session σ} {op : Operation} {ns : List Notice}
    (h : m.Step (m.apply op) ns) : m.publishedBy op = ns := by
  rw [publishedBy]
  rcases h.notices with hns | ⟨hempty, rfl⟩
  · rw [hns, List.drop_left]
  · rw [hempty, List.drop_nil]

/-! ## Operations take steps -/

/-- A box that is accepted is shown by a move. -/
theorem fit_cases (m : Session σ) (box : Bounds Float) :
    (m.fit box).1 = m ∨ ∃ center zoom, (m.fit box).1 = m.moveTo center zoom := by
  rw [Session.fit, View.fit]
  split
  · next view h =>
    split at h
    · obtain ⟨rfl, -⟩ := Prod.mk.inj h
      exact .inr ⟨_, _, rfl⟩
    · cases h
  · exact .inl rfl

theorem step_fit (m : Session σ) (box : Bounds Float) : ∃ ns, m.Step (m.fit box).1 ns := by
  rcases fit_cases m box with h | ⟨center, zoom, h⟩
  · rw [h]
    exact ⟨_, .refl m⟩
  · rw [h]
    exact ⟨_, .move center zoom⟩

theorem step_center (m : Session σ) (r : CenterRequest) : ∃ ns, m.Step (m.center r).1 ns := by
  unfold Session.center
  split
  · exact ⟨_, .move _ _⟩
  · exact ⟨_, .refl m⟩

theorem step_changeLayer (m : Session σ) (c : LayerChange) :
    ∃ ns, m.Step (m.changeLayer c).1 ns := by
  rw [changeLayer]
  split
  · exact ⟨_, .layers _⟩
  · exact ⟨_, .refl m⟩

theorem step_activateTool (m : Session σ) (tool : Tool) (mode : DrawMode) :
    ∃ ns, m.Step (m.activateTool tool mode) ns :=
  ⟨_, .draw _ (m.board.noted_activate tool mode)⟩

theorem step_deactivateTool (m : Session σ) : ∃ ns, m.Step m.deactivateTool ns :=
  ⟨_, .draw _ m.board.noted_deactivate⟩

theorem step_toolActivated (m : Session σ) (a : ToolActivation) :
    ∃ ns, m.Step (m.toolActivated a).1 ns := by
  rw [toolActivated]
  split
  · exact step_deactivateTool m
  · split
    · exact ⟨_, .refl m⟩
    · split
      · exact step_activateTool m _ _
      · exact ⟨_, .refl m⟩

/-- The features of an import can be drawn, also if there are none. -/
theorem kind?_of_mem_importable {v : Json} {f : Feature} (hf : f ∈ importable v) :
    f.geometry.kind?.isSome = true := by
  rw [importable] at hf
  split at hf
  · next features h => exact GeoJson.kind?_of_mem_readFeatures h hf
  · cases hf

theorem step_load (m : Session σ) (v : Json) : ∃ ns, m.Step (m.load v).1 ns := by
  have hnoted : m.board.Noted (m.board.replace (importable v)) :=
    m.board.noted_replace (fun f hf => kind?_of_mem_importable hf)
  rw [load]
  split
  · next box hbox =>
    rcases fit_cases (m.withBoard (m.board.replace (importable v))) box with h | ⟨c, z, h⟩
    · rw [h]
      exact ⟨_, .draw _ hnoted⟩
    · rw [h]
      exact ⟨_, .drawMove _ hnoted c z⟩
  · exact ⟨_, .draw _ hnoted⟩

theorem step_perform [FileSaver σ] (m : Session σ) (c : Command) :
    ∃ ns, m.Step (m.perform c).1 ns := by
  cases c with
  | center request => exact step_center m request
  | changeLayer change => exact step_changeLayer m change
  | setExtent box => exact step_fit m box
  | sortProducts => exact ⟨_, .layers _⟩
  | updateOpacity update => exact ⟨_, .layers _⟩
  | activateTool activation => exact step_toolActivated m activation
  | loadFeatures value => exact step_load m value
  | exportSelection => exact ⟨_, .save _⟩
  | changePeriod period => exact ⟨_, .layers _⟩

theorem step_handle [FileSaver σ] (m : Session σ) (topic : String) (payload : Json) :
    ∃ ns, m.Step (m.handle topic payload).1 ns := by
  rw [handle]
  split
  · exact step_perform m _
  · exact ⟨_, .refl m⟩

/-- A board without notes is replaced silently. -/
theorem withBoard_of_quiet (m : Session σ) {b : Board} (h : b.changes = []) :
    m.withBoard b = { m with board := b } := by
  obtain ⟨tool, mode, features, boxStart, changes⟩ := b
  cases h
  have hempty : m.outbox.publishAll [] = m.outbox := by rw [Outbox.publishAll, List.append_nil]
  show { m with board := _, outbox := m.outbox.publishAll [] } = _
  rw [hempty]

/-- A box is begun without a note, so on a quiet board this is a drawing without notices. -/
theorem step_startBox {m : Session σ} (hquiet : m.board.changes = []) (corner : Coord) :
    ∃ ns, m.Step (m.startBox corner).1 ns := by
  have hchanges : (m.board.startBox corner).1.changes = [] := by
    rw [Board.startBox]
    split <;> exact hquiet
  have hboard : (m.startBox corner).1 = m.withBoard (m.board.startBox corner).1 :=
    (withBoard_of_quiet m hchanges).symm
  rw [hboard]
  exact ⟨_, .draw _ (m.board.noted_startBox corner)⟩

/-- **Every operation takes a step,** and publishes what goes with the step. -/
theorem step_apply [FileSaver σ] {m : Session σ} (hquiet : m.board.changes = [])
    (op : Operation) :
    m.Step (m.apply op) (m.publishedBy op) := by
  have hstep : ∃ ns, m.Step (m.apply op) ns := by
    cases op with
    | handle topic payload => exact step_handle m topic payload
    | perform c => exact step_perform m c
    | moveTo center zoom => exact ⟨_, .move center zoom⟩
    | editCatalog edit => exact ⟨_, .layers _⟩
    | activateTool tool mode => exact step_activateTool m tool mode
    | deactivateTool => exact step_deactivateTool m
    | sketch g => exact ⟨_, .draw _ (m.board.noted_sketch g)⟩
    | startBox corner => exact step_startBox hquiet corner
    | endBox corner => exact ⟨_, .draw _ (m.board.noted_endBox corner)⟩
    | drain => exact ⟨_, .drain⟩
  obtain ⟨ns, h⟩ := hstep
  rw [h.publishedBy_eq]
  exact h

theorem Step.quiet {m m' : Session σ} {ns : List Notice} (h : m.Step m' ns)
    (hquiet : m.board.changes = []) : m'.board.changes = [] := by
  cases h with
  | layers | save | move | drain => exact hquiet
  | draw | drawMove => rfl

/-! ## Runs -/

/-- Where a run has got to. -/
structure Run (σ : Type) where
  session : Session σ
  /-- All that was published since the session was mounted. -/
  journal : Outbox

namespace Run

/-- A session that has just been mounted. -/
def start (s : Settings) (store : σ) : Run σ := ⟨mount s store, (mount s store).outbox⟩

variable [FileSaver σ]

/-- One more operation. -/
def next (r : Run σ) (op : Operation) : Run σ :=
  ⟨r.session.apply op, r.journal.publishAll (r.session.publishedBy op)⟩

/-- Operations one after the other. -/
def after (r : Run σ) (ops : List Operation) : Run σ := ops.foldl next r

/-- **What holds when a session is mounted and is kept by every step holds in every run.** -/
theorem induction {P : Run σ → Prop} {s : Settings} {store : σ} (hstart : P (start s store))
    (hstep : ∀ {r : Run σ} {m : Session σ} {ns : List Notice}, r.session.Step m ns → P r →
      P ⟨m, r.journal.publishAll ns⟩) (ops : List Operation) : P ((start s store).after ops) := by
  -- the board is quiet between two operations
  suffices h : P ((start s store).after ops) ∧
      ((start s store).after ops).session.board.changes = [] from h.1
  refine List.foldlRecOn (motive := fun r => P r ∧ r.session.board.changes = []) ops next
    ⟨hstart, rfl⟩ ?_
  rintro r ⟨hr, hquiet⟩ op -
  have h : r.session.Step (r.session.apply op) (r.session.publishedBy op) := step_apply hquiet op
  exact ⟨hstep h hr, h.quiet hquiet⟩

/-- The next operation of a run takes a step. -/
theorem step_next (s : Settings) (store : σ) (ops : List Operation) (op : Operation) :
    ((start s store).after ops).session.Step (((start s store).after ops).session.apply op)
      (((start s store).after ops).session.publishedBy op) := by
  refine step_apply ?_ op
  exact induction (P := fun r => r.session.board.changes = []) rfl (fun h => h.quiet) ops

end Run
end Session
end Atlas
