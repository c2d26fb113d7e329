import Atlas.Proofs.Sketch.History

/-!
# Dragging a box

A box is begun at one corner and ended at the opposite one, and in between other things can happen
on the board. What the board keeps of it is the corner at which it was begun, and only while it is
being dragged: it was begun with the box tool, and since then the tool has not been changed, no box
has been ended and no other one begun. Features that are imported, sketched or cleared do not matter
to it.

What happened is told by the places of the history. At each place stands an operation, and the board
before it says whether the operation was accepted. An operation does one of three things to a box
that is being dragged, and the board is related to its history by one induction over them.

## Main statements

* `Board.dragStep_apply` — what an operation does to a box that is being dragged
* `Board.boxStart_after_iff` — which box is being dragged behind a history
* `Board.drags` — which boxes are accepted, and what is drawn then
-/

namespace Atlas
namespace Board

/-! ## Events -/

/-- What was the case at a place of a history: an operation stands there, and the board before it is
the one that the operations before it have left. -/
def Happens (ops : List Operation) (i : Nat) (event : Board → Operation → Prop) : Prop :=
  ∃ op, ops[i]? = some op ∧ event (after (ops.take i)) op

/-- A box is begun at a corner. -/
def Begins (corner : Coord) (b : Board) (op : Operation) : Prop :=
  op = .startBox corner ∧ (b.startBox corner).2 = true

/-- A box is ended. -/
def Ends (b : Board) (op : Operation) : Prop :=
  ∃ stop, op = .endBox stop ∧ (b.endBox stop).2 = true

/-- A tool is taken up or put away. -/
def ChangesTool (_ : Board) (op : Operation) : Prop := op.toolChange?.isSome = true

section
variable {ops : List Operation} {op : Operation} {i : Nat} {event : Board → Operation → Prop}

theorem Happens.lt (h : Happens ops i event) : i < ops.length := by
  obtain ⟨op, hop, -⟩ := h
  exact (List.getElem?_eq_some_iff.1 hop).1

/-- **What happens in a history with one operation more,** happened before or at its end. -/
theorem happens_concat : Happens (ops ++ [op]) i event ↔
    Happens ops i event ∨ i = ops.length ∧ event (after ops) op := by
  constructor
  · rintro ⟨op', hop', hevent⟩
    rcases Nat.lt_or_ge i ops.length with hi | hi
    · rw [List.getElem?_append_left hi] at hop'
      rw [List.take_append_of_le_length hi.le] at hevent
      exact .inl ⟨op', hop', hevent⟩
    · have hlt := (List.getElem?_eq_some_iff.1 hop').1
      rw [List.length_append, List.length_singleton] at hlt
      obtain rfl : i = ops.length := by omega
      rw [List.getElem?_concat_length, Option.some.injEq] at hop'
      rw [List.take_left] at hevent
      exact .inr ⟨rfl, hop' ▸ hevent⟩
  · rintro (h | ⟨rfl, hevent⟩)
    · have hi := h.lt
      obtain ⟨op', hop', hevent⟩ := h
      refine ⟨op', ?_, ?_⟩
      · rwa [List.getElem?_append_left hi]
      · rwa [List.take_append_of_le_length hi.le]
    · refine ⟨op, List.getElem?_concat_length, ?_⟩
      rwa [List.take_left]

theorem Happens.le_of_concat (h : Happens (ops ++ [op]) i event) : i ≤ ops.length := by
  have hlt := h.lt
  rw [List.length_append, List.length_singleton] at hlt
  omega

theorem happens_length (h : event (after ops) op) : Happens (ops ++ [op]) ops.length event :=
  happens_concat.2 (.inr ⟨rfl, h⟩)

theorem happens_concat_of_not (h : ¬ event (after ops) op) :
    Happens (ops ++ [op]) i event ↔ Happens ops i event :=
  happens_concat.trans (or_iff_left fun hend => h hend.2)

/-- What happens before a place is what happens in the history up to it. -/
theorem happens_take {n : Nat} : Happens (ops.take n) i event ↔ i < n ∧ Happens ops i event := by
  constructor
  · intro h
    have hi := h.lt
    rw [List.length_take, Nat.lt_min] at hi
    obtain ⟨op, hop, hevent⟩ := h
    rw [List.getElem?_take_of_lt hi.1] at hop
    rw [List.take_take, Nat.min_eq_left hi.1.le] at hevent
    exact ⟨hi.1, op, hop, hevent⟩
  · rintro ⟨hi, op, hop, hevent⟩
    refine ⟨op, ?_, ?_⟩
    · rwa [List.getElem?_take_of_lt hi]
    · rwa [List.take_take, Nat.min_eq_left hi.le]

/-- What has happened has happened for the last time somewhere. -/
theorem Happens.exists_last (h : Happens ops i event) :
    ∃ j, i ≤ j ∧ Happens ops j event ∧ ∀ k, Happens ops k event → k ≤ j := by
  induction ops using List.reverseRecOn with
  | nil => exact absurd h.lt (Nat.not_lt_zero i)
  | append_singleton ops op ih =>
    by_cases hevent : event (after ops) op
    · exact ⟨ops.length, h.le_of_concat, happens_length hevent, fun k => Happens.le_of_concat⟩
    · simp only [happens_concat_of_not hevent] at h ⊢
      exact ih h

end

/-! ## What an operation does to a box -/

/-- What an operation leaves of a box that is being dragged. -/
inductive DragStep (b : Board) (op : Operation) : Option Coord → Prop where
  | begun (corner : Coord) (h : Begins corner b op) : DragStep b op (some corner)
  | dropped (h : ChangesTool b op ∨ Ends b op) : DragStep b op none
  | kept (hbegin : ∀ corner, ¬ Begins corner b op) (hdrop : ¬ (ChangesTool b op ∨ Ends b op)) :
      DragStep b op b.boxStart

/-- A box is begun by the box tool alone. -/
theorem startBox_accepted_iff {b : Board} {corner : Coord} :
    (b.startBox corner).2 = true ↔ b.tool = some .box := by
  rw [startBox_eq]
  split
  · next ht => exact iff_of_true rfl ht
  · next ht => exact iff_of_false Bool.false_ne_true ht

/-- **A box is accepted** by the box tool, if one has been begun. -/
theorem endBox_accepted_iff {b : Board} {stop : Coord} :
    (b.endBox stop).2 = true ↔ b.tool = some .box ∧ ∃ start, b.boxStart = some start := by
  constructor
  · intro h
    rw [endBox] at h
    split at h
    · next hbox =>
      obtain ⟨tool, htool, hdrag⟩ := Option.map_eq_some_iff.1 hbox
      cases hs : b.boxStart with
      | none =>
        rw [hs] at h
        cases h
      | some start =>
        cases tool with
        | box => exact ⟨htool, start, rfl⟩
        | point | line | polygon => cases hdrag
    · cases h
  · rintro ⟨ht, start, hs⟩
    rw [endBox_of_begun ht hs]

theorem boxStart_add (b : Board) (f : Feature) : (b.add f).boxStart = b.boxStart := by
  rw [add]
  split
  · rfl
  · rfl

theorem boxStart_sketch (b : Board) (g : Geometry) : (b.sketch g).1.boxStart = b.boxStart := by
  rw [sketch_eq]
  split
  · exact boxStart_add b _
  · rfl

theorem boxStart_replace (b : Board) (fs : List Feature) :
    (b.replace fs).boxStart = b.boxStart := by
  rw [replace]
  split
  · rfl
  · rfl

theorem dragStep_startBox (b : Board) (corner : Coord) :
    DragStep b (.startBox corner) (b.startBox corner).1.boxStart := by
  rw [startBox_eq]
  by_cases ht : b.tool = some .box
  · rw [if_pos ht]
    exact .begun corner ⟨rfl, startBox_accepted_iff.2 ht⟩
  · rw [if_neg ht]
    refine .kept ?_ ?_
    · rintro corner' ⟨-, hbegun⟩
      exact ht (startBox_accepted_iff.1 hbegun)
    · rintro (h | ⟨stop, h, -⟩)
      · cases h
      · cases h

theorem dragStep_endBox (b : Board) (stop : Coord) :
    DragStep b (.endBox stop) (b.endBox stop).1.boxStart := by
  cases hend : (b.endBox stop).2 with
  | false =>
    rw [endBox_eq_of_refused hend]
    refine .kept ?_ ?_
    · rintro corner ⟨heq, -⟩
      cases heq
    · rintro (h | ⟨stop', heq, h⟩)
      · cases h
      · cases heq
        rw [hend] at h
        cases h
  | true =>
    obtain ⟨ht, start, hs⟩ := endBox_accepted_iff.1 hend
    rw [endBox_of_begun ht hs, boxStart_add]
    exact .dropped (.inr ⟨stop, rfl, hend⟩)

/-- What is no event for a box keeps it. -/
theorem dragStep_of_idle (b : Board) {op : Operation} (hstart : ∀ corner, op ≠ .startBox corner)
    (hend : ∀ stop, op ≠ .endBox stop) (htool : op.toolChange? = none) :
    DragStep b op b.boxStart := by
  refine .kept (fun corner h => hstart corner h.1) ?_
  rintro (h | ⟨stop, h, -⟩)
  · rw [ChangesTool, htool] at h
    cases h
  · exact hend stop h

/-- **An operation begins a box, puts an end to the one that is being dragged, or keeps it.** -/
theorem dragStep_apply (b : Board) (op : Operation) : DragStep b op (b.apply op).boxStart := by
  cases op with
  | activate tool mode => exact .dropped (.inl rfl)
  | activateById id mode =>
    cases ht : Tool.ofId? id with
    | some tool =>
      have htool : (Operation.activateById id mode).toolChange? = some (some tool) := by
        simp [Operation.toolChange?, Operation.activation?, ht]
      rw [apply, activateById_of_tool ht]
      exact .dropped (.inl (by rw [ChangesTool, htool]; rfl))
    | none =>
      have htool : (Operation.activateById id mode).toolChange? = none := by
        simp [Operation.toolChange?, Operation.activation?, ht]
      rw [apply, activateById_of_unknown ht]
      exact dragStep_of_idle b (by simp) (by simp) htool
  | deactivate => exact .dropped (.inl rfl)
  | sketch g =>
    rw [apply, boxStart_sketch]
    exact dragStep_of_idle b (by simp) (by simp) rfl
  | startBox corner => exact dragStep_startBox b corner
  | endBox stop => exact dragStep_endBox b stop
  | clear => exact dragStep_of_idle b (by simp) (by simp) rfl
  | replace fs =>
    rw [apply, boxStart_replace]
    exact dragStep_of_idle b (by simp) (by simp) rfl
  | takeChanges => exact dragStep_of_idle b (by simp) (by simp) rfl

/-! ## The box that is being dragged -/

/-- A box is being dragged that was begun at a place of the history: since then the tool has not
been changed, no box has been ended and no other one begun. -/
@[mk_iff]
structure Dragged (ops : List Operation) (i : Nat) (corner : Coord) : Prop where
  begun : Happens ops i (Begins corner)
  kept : ∀ j, Happens ops j ChangesTool ∨ Happens ops j Ends → j < i
  last : ∀ j corner', Happens ops j (Begins corner') → j ≤ i

section
variable {ops : List Operation} {op : Operation} {i : Nat} {corner : Coord}

theorem dragged_concat_of_begun {corner' : Coord} (h : Begins corner' (after ops) op) :
    Dragged (ops ++ [op]) i corner ↔ i = ops.length ∧ corner = corner' := by
  have htool : ¬ ChangesTool (after ops) op := by
    obtain ⟨rfl, -⟩ := h
    exact Bool.noConfusion
  have hend : ¬ Ends (after ops) op := by
    obtain ⟨rfl, -⟩ := h
    rintro ⟨stop, heq, -⟩
    cases heq
  constructor
  · intro hi
    obtain rfl : i = ops.length :=
      Nat.le_antisymm hi.begun.le_of_concat (hi.last _ corner' (happens_length h))
    rcases happens_concat.1 hi.begun with hbegun | ⟨-, hbegun⟩
    · exact absurd hbegun.lt (Nat.lt_irrefl _)
    · exact ⟨rfl, Operation.startBox.inj (hbegun.1.symm.trans h.1)⟩
  · rintro ⟨rfl, rfl⟩
    refine ⟨happens_length h, fun j hj => ?_, fun j _ => Happens.le_of_concat⟩
    rw [happens_concat_of_not htool, happens_concat_of_not hend] at hj
    exact hj.elim Happens.lt Happens.lt

theorem not_dragged_concat_of_dropped (h : ChangesTool (after ops) op ∨ Ends (after ops) op) :
    ¬ Dragged (ops ++ [op]) i corner := fun hi =>
  absurd (hi.kept ops.length (h.imp happens_length happens_length))
    (Nat.not_lt.2 hi.begun.le_of_concat)

theorem dragged_concat_of_kept (hbegin : ∀ corner, ¬ Begins corner (after ops) op)
    (hdrop : ¬ (ChangesTool (after ops) op ∨ Ends (after ops) op)) :
    Dragged (ops ++ [op]) i corner ↔ Dragged ops i corner := by
  obtain ⟨htool, hend⟩ := not_or.1 hdrop
  simp only [dragged_iff, happens_concat_of_not (hbegin _), happens_concat_of_not htool,
    happens_concat_of_not hend]

/-- **Which box is being dragged behind a history.** -/
theorem boxStart_after_iff :
    (after ops).boxStart = some corner ↔ ∃ i, Dragged ops i corner := by
  induction ops using List.reverseRecOn with
  | nil =>
    refine iff_of_false (fun h => nomatch h) ?_
    rintro ⟨i, hi⟩
    exact Nat.not_lt_zero i hi.begun.lt
  | append_singleton ops op ih =>
    rw [after_concat]
    have hstep := dragStep_apply (after ops) op
    generalize ((after ops).apply op).boxStart = start at hstep
    cases hstep with
    | begun corner' h =>
      simp only [dragged_concat_of_begun h, exists_eq_left, Option.some.injEq]
      exact eq_comm
    | dropped h =>
      refine iff_of_false (fun h => nomatch h) ?_
      rintro ⟨i, hi⟩
      exact not_dragged_concat_of_dropped h hi
    | kept hbegin hdrop => simp only [dragged_concat_of_kept hbegin hdrop, ih]

theorem tool_of_boxStart (h : (after ops).boxStart = some corner) :
    (after ops).tool = some .box := by
  rw [(follows_after ops).tool]
  exact History.tool?_of_corner? ((follows_after ops).boxStart.symm.trans h)

/-- A box that was begun since the tool was changed and a box was ended is being dragged, or another
one that was begun later. -/
theorem exists_dragged (hbegun : Happens ops i (Begins corner))
    (hkept : ∀ j, Happens ops j ChangesTool ∨ Happens ops j Ends → j < i) :
    ∃ j corner', Dragged ops j corner' := by
  have hsome : Happens ops i (fun b op => ∃ corner, Begins corner b op) := by
    obtain ⟨op, hop, h⟩ := hbegun
    exact ⟨op, hop, corner, h⟩
  obtain ⟨j, hij, ⟨op, hop, corner', h⟩, hlast⟩ := hsome.exists_last
  refine ⟨j, corner', ⟨op, hop, h⟩, fun k hk => Nat.lt_of_lt_of_le (hkept k hk) hij, ?_⟩
  rintro k corner'' ⟨op, hop, h⟩
  exact hlast k ⟨op, hop, corner'', h⟩

end

/-! ## Boxes and their corners -/

/-- The polygon of a box has no holes, and its ring is closed by the first corner unless the last
one agrees with that. -/
theorem exists_boxPolygon_eq (corner stop : Coord) : ∃ box : Polygon,
    boxPolygon corner stop = .polygon box ∧ box.interiors = [] ∧
      box.exterior = [corner, ⟨corner.x, stop.y⟩, stop, ⟨stop.x, corner.y⟩] ++
        (if corner.agrees ⟨stop.x, corner.y⟩ then [] else [corner]) := by
  refine ⟨_, rfl, rfl, ?_⟩
  simp only [Polygon.ofRings, closeRing, List.head?_cons, List.getLast?_cons_cons,
    List.getLast?_singleton]
  split
  · rw [List.append_nil]
  · rfl

/-- The box that was begun at one place of the history is ended at another one: no other one was
begun in between. -/
structure Completes (ops : List Operation) (i k : Nat) : Prop where
  begun : ∃ corner, Happens ops i (Begins corner)
  ended : Happens ops k Ends
  before : i < k
  last : ∀ j corner, Happens ops j (Begins corner) → j < k → j ≤ i

section
variable {ops : List Operation} {i k : Nat}

/-- Where a box is ended, one was being dragged. -/
theorem exists_dragged_of_ends (h : Happens ops k Ends) :
    ∃ i corner, Dragged (ops.take k) i corner := by
  obtain ⟨op, -, stop, -, hended⟩ := h
  obtain ⟨-, corner, hs⟩ := endBox_accepted_iff.1 hended
  obtain ⟨i, hi⟩ := boxStart_after_iff.1 hs
  exact ⟨i, corner, hi⟩

theorem completes_of_dragged {corner : Coord} (h : Happens ops k Ends)
    (hi : Dragged (ops.take k) i corner) : Completes ops i k where
  begun := ⟨corner, (happens_take.1 hi.begun).2⟩
  ended := h
  before := (happens_take.1 hi.begun).1
  last j corner' hj hjk := hi.last j corner' (happens_take.2 ⟨hjk, hj⟩)

/-- Between the two corners of a box the tool is not changed and no box is ended. -/
theorem Completes.kept (h : Completes ops i k) {j : Nat} (hjk : j < k)
    (hj : Happens ops j ChangesTool ∨ Happens ops j Ends) : j < i := by
  obtain ⟨i', corner, hi'⟩ := exists_dragged_of_ends h.ended
  have hle : i' ≤ i := h.last i' corner (happens_take.1 hi'.begun).2 (happens_take.1 hi'.begun).1
  refine Nat.lt_of_lt_of_le (hi'.kept j (hj.imp ?_ ?_)) hle
  · exact fun hj => happens_take.2 ⟨hjk, hj⟩
  · exact fun hj => happens_take.2 ⟨hjk, hj⟩

end

/-- What a history tells about boxes. The box tool begins one wherever it is active, and a box is
accepted by it if one was begun since the tool was changed and since a box was ended. It is the
rectangle from where the last one was begun, its ring closed. Only the box tool drags a box, and
features that are sketched, imported or cleared do not matter to it. Every box that was ended had
been begun, each at a place of its own and in the same session of the tool. -/
structure Drags (ops : List Operation) : Prop where
  started : ∀ corner, ((after ops).startBox corner).2 = true ↔ (after ops).tool = some .box
  accepted : ∀ stop, ((after ops).endBox stop).2 = true ↔ (after ops).tool = some .box ∧
    ∃ i corner, Happens ops i (Begins corner) ∧
      ∀ j, Happens ops j ChangesTool ∨ Happens ops j Ends → j < i
  drawn : ∀ stop, ((after ops).endBox stop).2 = true → ∃ i corner, Dragged ops i corner ∧
    ∃ box : Polygon, box.interiors = [] ∧
      box.exterior = [corner, ⟨corner.x, stop.y⟩, stop, ⟨stop.x, corner.y⟩] ++
        (if corner.agrees ⟨stop.x, corner.y⟩ then [] else [corner]) ∧
      ((after ops).endBox stop).1.features =
        (if (after ops).mode = .single then [] else (after ops).features) ++
          [.ofGeometry (.polygon box)]
  pending : ∀ corner, (after ops).boxStart = some corner → (after ops).tool = some .box
  sketched : ∀ g, ((after ops).sketch g).1.boxStart = (after ops).boxStart
  replaced : ∀ fs, ((after ops).replace fs).boxStart = (after ops).boxStart
  cleared : (after ops).clear.boxStart = (after ops).boxStart
  begun : ∀ k, Happens ops k Ends → ∃ i, Completes ops i k
  session : ∀ i k, Completes ops i k → ∀ j, Happens ops j ChangesTool → j < i ∨ k < j
  once : ∀ i k k', Completes ops i k → Completes ops i k' → k = k'

/-- **Which boxes are accepted behind a history, and what is drawn then.** -/
theorem drags (ops : List Operation) : Drags ops where
  started _ := startBox_accepted_iff
  accepted stop := by
    rw [endBox_accepted_iff]
    constructor
    · rintro ⟨ht, corner, hs⟩
      obtain ⟨i, hi⟩ := boxStart_after_iff.1 hs
      exact ⟨ht, i, corner, hi.begun, hi.kept⟩
    · rintro ⟨ht, i, corner, hbegun, hkept⟩
      obtain ⟨j, corner', hj⟩ := exists_dragged hbegun hkept
      exact ⟨ht, corner', boxStart_after_iff.2 ⟨j, hj⟩⟩
  drawn stop h := by
    obtain ⟨ht, corner, hs⟩ := endBox_accepted_iff.1 h
    obtain ⟨i, hi⟩ := boxStart_after_iff.1 hs
    obtain ⟨box, hbox, hinteriors, hexterior⟩ := exists_boxPolygon_eq corner stop
    refine ⟨i, corner, hi, box, hinteriors, hexterior, ?_⟩
    rw [endBox_of_begun ht hs, features_add, hbox]
    split
    · rfl
    · rfl
  pending _ := tool_of_boxStart
  sketched := boxStart_sketch (after ops)
  replaced := boxStart_replace (after ops)
  cleared := rfl
  begun k h := by
    obtain ⟨i, corner, hi⟩ := exists_dragged_of_ends h
    exact ⟨i, completes_of_dragged h hi⟩
  session i k h j hj := by
    rcases Nat.lt_trichotomy j k with hjk | rfl | hkj
    · exact .inl (h.kept hjk (.inl hj))
    · -- a place holds one operation
      obtain ⟨op, hop, stop, rfl, -⟩ := h.ended
      obtain ⟨op', hop', htool⟩ := hj
      obtain rfl := Option.some.inj (hop.symm.trans hop')
      cases htool
    · exact .inr hkj
  once i k k' h h' := by
    rcases Nat.lt_trichotomy k k' with hk | rfl | hk
    · exact absurd (h'.kept hk (.inr h.ended)) (Nat.not_lt.2 h.before.le)
    · rfl
    · exact absurd (h.kept hk (.inr h'.ended)) (Nat.not_lt.2 h'.before.le)

/-- A box is begun without the tool, then twice with it, features are imported in between, and it is
ended twice. -/
theorem drags_across_import :
    let ops : List Operation := [.startBox ⟨9, 9⟩, .activate .box .multi, .startBox ⟨1, 1⟩,
      .startBox ⟨4, 2⟩, .replace [.ofGeometry (.point ⟨0, 0⟩)], .endBox ⟨4, 7⟩]
    ((after (ops.take 5)).endBox ⟨4, 7⟩).2 = true ∧
      (∃ i corner, Dragged (ops.take 5) i corner ∧ ∃ box : Polygon,
        ((after (ops.take 5)).endBox ⟨4, 7⟩).1.features =
          [.ofGeometry (.point ⟨0, 0⟩), .ofGeometry (.polygon box)] ∧
        box.exterior = [corner, ⟨corner.x, 7⟩, ⟨4, 7⟩, ⟨4, corner.y⟩] ++
          (if corner.agrees ⟨4, corner.y⟩ then [] else [corner])) ∧
      Happens ops 5 Ends ∧ (∃ i, Completes ops i 5) ∧ ((after ops).endBox ⟨4, 7⟩).2 = false := by
  intro ops
  have hended : Happens ops 5 Ends := ⟨_, rfl, _, rfl, rfl⟩
  obtain ⟨i, corner, hi, box, -, hexterior, hfeatures⟩ := (drags (ops.take 5)).drawn ⟨4, 7⟩ rfl
  exact ⟨rfl, ⟨i, corner, hi, box, hfeatures, hexterior⟩, hended, (drags ops).begun 5 hended, rfl⟩

end Board
end Atlas
