import Atlas.Proofs.Session.Run
import Atlas.Proofs.View.Fitting

/-!
# What others know about the view

An operation that moves the view publishes the address of the view and, right after it, the box
that is shown, and both are those of the view after the operation. No other operation publishes
either of them, and none changes the view silently. The latest notices therefore describe the view.

The size of the view is the one it was mounted with. It is not empty, so the view can be fitted to
any box without a division by zero.

## Main statements

* `Session.Step.told` — a step tells what it does to the view
* `Session.Run.located` — after every run the latest notices describe the view
-/

namespace Atlas

/-- A notice is about a move of the view: it tells the address of the view or the box. -/
def Notice.tellsMove (n : Notice) : Bool :=
  n.topic == .setUrl || n.topic == .positionChange

theorem filter_tellsMove_eq_nil {ns : List Notice} (h : ∀ n ∈ ns, n.tellsMove = false) :
    ns.filter Notice.tellsMove = [] :=
  List.filter_eq_nil_iff.2 (fun n hn => Bool.eq_false_iff.1 (h n hn))

/-- The notices with the topic of a move are among those that are about one. -/
theorem Outbox.onTopic_eq_filter_tellsMove (o : Outbox) {t : Topic}
    (ht : t = .setUrl ∨ t = .positionChange) :
    o.onTopic t.name = (o.notices.filter Notice.tellsMove).filter (fun n => n.topic == t) := by
  rw [Outbox.onTopic, List.filter_filter]
  congr 1
  funext n
  rw [Topic.name_beq_name]
  cases h : n.topic == t with
  | false => rfl
  | true =>
    have hn : n.tellsMove = true := by
      rw [Notice.tellsMove, eq_of_beq h]
      rcases ht with rfl | rfl <;> rfl
    rw [hn]
    rfl

namespace Session

variable {σ : Type}

/-- What is published about a move from one view to another: nothing, and then the view stays, or
last of all the notices of a move to the second view. -/
inductive Told (before after : View Float) (ns : List Notice) : Prop where
  | stays (hview : after = before) (hsilent : ∀ n ∈ ns, n.tellsMove = false)
  | moves (earlier : List Notice) (hns : ns = earlier ++ moveNotices after)
      (hsilent : ∀ n ∈ earlier, n.tellsMove = false)

theorem tellsMove_of_mem_notes {gs : List (Option Geometry)} {n : Notice}
    (hn : n ∈ gs.map Notice.selection) : n.tellsMove = false := by
  obtain ⟨g, -, rfl⟩ := List.mem_map.1 hn
  rfl

/-- **A step tells what it does to the view.** -/
theorem Step.told {m m' : Session σ} {ns : List Notice} (h : m.Step m' ns) :
    Told m.view m'.view ns := by
  cases h with
  | layers | save | drain => exact .stays rfl (fun n hn => by cases hn)
  | draw b => exact .stays rfl (fun n => tellsMove_of_mem_notes)
  | move center zoom => exact .moves [] rfl (fun n hn => by cases hn)
  | drawMove b hnoted center zoom =>
    -- the imported features are told before the view moves to them
    exact .moves (b.changes.map .selection) rfl (fun n => tellsMove_of_mem_notes)

/-- A step keeps the size of the view and an allowed zoom level. -/
theorem Step.view_size {m m' : Session σ} {ns : List Notice} (h : m.Step m' ns) :
    m'.view.width = m.view.width ∧ m'.view.height = m.view.height ∧
      (m.view.zoom ≤ maxZoom → m'.view.zoom ≤ maxZoom) := by
  cases h with
  | layers | save | drain | draw => exact ⟨rfl, rfl, id⟩
  | move center zoom | drawMove b hnoted center zoom =>
    exact ⟨rfl, rfl, fun _ => clampZoom_le zoom⟩

namespace Run

/-- The published notices about moves. -/
def moves (r : Run σ) : List Notice := r.journal.notices.filter Notice.tellsMove

theorem moves_start (s : Settings) (store : σ) : (start s store).moves = [] := by
  refine filter_tellsMove_eq_nil (fun n hn => ?_)
  obtain ⟨spec, -, rfl⟩ := List.mem_map.1 hn
  rfl

/-- A run has come from a mounted view: without a move it is still there, otherwise the latest
notices about moves are those of the view. -/
structure CameFrom (mounted : View Float) (r : Run σ) : Prop where
  latest : r.moves = [] ∧ r.session.view = mounted ∨
    ∃ earlier, r.moves = earlier ++ moveNotices r.session.view
  width : r.session.view.width = mounted.width
  height : r.session.view.height = mounted.height
  zoom : r.session.view.zoom ≤ maxZoom

theorem CameFrom.step {mounted : View Float} {r : Run σ} {m : Session σ} {ns : List Notice}
    (hstep : r.session.Step m ns) (h : r.CameFrom mounted) :
    CameFrom mounted ⟨m, r.journal.publishAll ns⟩ := by
  obtain ⟨hwidth, hheight, hzoom⟩ := hstep.view_size
  refine ⟨?_, hwidth.trans h.width, hheight.trans h.height, hzoom h.zoom⟩
  have hmoves : moves ⟨m, r.journal.publishAll ns⟩ = r.moves ++ ns.filter Notice.tellsMove :=
    List.filter_append _ _
  cases hstep.told with
  | stays hview hsilent =>
    rw [hmoves, filter_tellsMove_eq_nil hsilent, List.append_nil, hview]
    exact h.latest
  | moves earlier hns hsilent =>
    refine .inr ⟨r.moves, ?_⟩
    rw [hmoves, hns, List.filter_append, filter_tellsMove_eq_nil hsilent]
    rfl

theorem cameFrom [FileSaver σ] (s : Settings) (store : σ) (ops : List Operation) :
    ((start s store).after ops).CameFrom (mount s store).view :=
  induction (P := CameFrom (mount s store).view)
    ⟨.inl ⟨moves_start s store, rfl⟩, rfl, rfl, clampZoom_le s.zoom⟩ CameFrom.step ops

/-- A run is where its notices say. Every operation tells what it does to the view. Either no move
was published yet and the view is the mounted one, or the latest address and the latest box that
were published are those of the view. The zoom level is an allowed one. The size of the view is the
mounted one and not empty, so whatever a division by zero gives, fitting the view does not depend
on it. -/
structure Located [FileSaver σ] (mounted : View Float) (r : Run σ) : Prop where
  told : ∀ op, Told r.session.view (r.session.apply op).view (r.session.publishedBy op)
  latest : (r.journal.onTopic Topic.setUrl.name = [] ∧
      r.journal.onTopic Topic.positionChange.name = [] ∧ r.session.view = mounted) ∨
    ((r.journal.onTopic Topic.setUrl.name).getLast? =
        some (.setUrl r.session.view.center r.session.view.zoom) ∧
      (r.journal.onTopic Topic.positionChange.name).getLast? =
        some (.position r.session.view.bounds))
  zoom : r.session.view.zoom ≤ maxZoom
  width : r.session.view.width = mounted.width
  height : r.session.view.height = mounted.height
  nonempty : 1 ≤ r.session.view.width ∧ 1 ≤ r.session.view.height
  fit : ∀ answer box, @View.fit Float (Scalar.withZeroDivision answer) r.session.view box =
    r.session.view.fit box

/-- **After every run the latest notices describe the view.** -/
theorem located [FileSaver σ] (s : Settings) (store : σ) (ops : List Operation) :
    ((start s store).after ops).Located (mount s store).view := by
  obtain ⟨hlatest, hwidth, hheight, hzoom⟩ := cameFrom s store ops
  have htold := fun op => (step_next s store ops op).told
  generalize (start s store).after ops = r at hlatest hwidth hheight hzoom htold
  have hnonempty : 1 ≤ r.session.view.width ∧ 1 ≤ r.session.view.height := by
    rw [hwidth, hheight]
    exact ⟨Nat.le_max_right _ _, Nat.le_max_right _ _⟩
  have hfit := fun answer => View.fit_withZeroDivision answer hnonempty.1 hnonempty.2
  refine ⟨htold, ?_, hzoom, hwidth, hheight, hnonempty, hfit⟩
  -- the notices on both topics are among those about moves
  have hurl : _ = r.moves.filter _ := r.journal.onTopic_eq_filter_tellsMove (.inl rfl)
  have hposition : _ = r.moves.filter _ := r.journal.onTopic_eq_filter_tellsMove (.inr rfl)
  rw [hurl, hposition]
  rcases hlatest with ⟨hnone, hview⟩ | ⟨earlier, hmoved⟩
  · rw [hnone]
    exact .inl ⟨rfl, rfl, hview⟩
  · rw [hmoved, List.filter_append, List.filter_append, List.getLast?_append,
      List.getLast?_append]
    exact .inr ⟨rfl, rfl⟩

end Run
end Session
end Atlas
