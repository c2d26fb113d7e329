import Atlas.Proofs.Session.Run

/-!
# What others know about the selection

The components around a map know its selection from the notices alone. The board notes every change
of the selection and the session publishes all notes before an operation ends, so the latest notice
tells the selection at any time, and no component has to ask.

## Main statements

* `Session.Step.informed` — a step tells all that it does to the selection
* `Session.Run.announced` — after every run the latest notice tells the selection
-/

namespace Atlas

namespace Notice

/-- The selection that a notice tells, if it is about the selection. -/
def selection? : Notice → Option (Option Geometry)
  | .selection g => some g
  | _ => none

/-- A notice is on the topic of the selection if it tells one. -/
theorem onTopic_iff_selection? (n : Notice) :
    (n.topic.name == Topic.selectionChanged.name) = n.selection?.isSome := by
  cases n with
  | selection g => rfl
  | setUrl =>
    show (Topic.setUrl.name == Topic.selectionChanged.name) = false
    decide
  | position =>
    show (Topic.positionChange.name == Topic.selectionChanged.name) = false
    decide
  | layer =>
    show (Topic.layerChange.name == Topic.selectionChanged.name) = false
    decide

theorem filterMap_selection?_map (gs : List (Option Geometry)) :
    (gs.map Notice.selection).filterMap selection? = gs := by
  rw [List.filterMap_map]
  exact List.filterMap_some

end Notice

/-- The notices on the topic of the selection are those that tell one. -/
theorem Outbox.onTopic_selectionChanged (o : Outbox) :
    o.onTopic Topic.selectionChanged.name =
      (o.notices.filterMap Notice.selection?).map .selection := by
  rw [Outbox.onTopic, List.map_filterMap]
  simp only [Notice.onTopic_iff_selection?]
  rw [← List.filterMap_eq_filter]
  congr 1
  funext n
  cases n with
  | selection g => rfl
  | setUrl | position | layer => rfl

/-- No geometry is written as null. -/
theorem GeoJson.geometryJson?_ne_null (g : Geometry) : geometryJson? g ≠ some .null := by
  cases g with
  | point | lineString | polygon =>
    intro h
    cases Option.some.inj h
  | segment | multiPoint | multiLineString | multiPolygon | collection | rectangle | triangle =>
    intro h
    cases h

/-- The notice about the selection of a board carries its last feature, and null if there is
none. -/
theorem Board.payload_current? {b : Board} (hdrawable : b.Drawable) :
    (∀ f, b.features.getLast? = some f →
      GeoJson.geometryJson? f.geometry = some (Notice.selection b.current?).payload) ∧
    ((Notice.selection b.current?).payload = .null ↔ b.features = []) := by
  cases hlast : b.features.getLast? with
  | none =>
    have hnil : b.features = [] := List.getLast?_eq_none_iff.1 hlast
    refine ⟨fun f hf => (by cases hf), iff_of_true ?_ hnil⟩
    rw [Board.current?, hlast]
    rfl
  | some f =>
    have hmem : f ∈ b.features := List.mem_of_getLast? hlast
    have hsome : (GeoJson.geometryJson? f.geometry).isSome = true := by
      rw [GeoJson.isSome_geometryJson?]
      exact hdrawable f hmem
    obtain ⟨v, hv⟩ := Option.isSome_iff_exists.1 hsome
    have hpayload : (Notice.selection b.current?).payload = v := by
      rw [Board.current?, hlast]
      show ((some f.geometry).bind GeoJson.geometryJson?).getD .null = v
      rw [Option.bind_some, hv, Option.getD_some]
    rw [hpayload]
    refine ⟨?_, iff_of_false ?_ (List.ne_nil_of_mem hmem)⟩
    · intro f' hf'
      cases hf'
      exact hv
    · rintro rfl
      exact GeoJson.geometryJson?_ne_null f.geometry hv

namespace Session

variable {σ : Type}

/-- Nothing has to be published any more, all features can be drawn, and the selection is the one
that is known. -/
structure Informed (known : Option Geometry) (m : Session σ) : Prop where
  quiet : m.board.changes = []
  drawable : m.board.Drawable
  current : m.board.current? = known

/-- Publishing the notes of a board tells its selection. -/
theorem Informed.withBoard {known : Option Geometry} {m : Session σ} {b : Board}
    (h : m.Informed known) (hnoted : m.board.Noted b) :
    (m.withBoard b).Informed (lastNoted known b.changes) := by
  obtain ⟨⟨notes, hchanges, hcurrent⟩, hdrawable⟩ := hnoted
  rw [h.quiet, List.nil_append] at hchanges
  refine ⟨rfl, hdrawable h.drawable, ?_⟩
  rw [← h.current, hchanges]
  exact hcurrent

/-- **A step tells all that it does to the selection.** -/
theorem Step.informed {m m' : Session σ} {ns : List Notice} {known : Option Geometry}
    (hstep : m.Step m' ns) (h : m.Informed known) :
    m'.Informed (lastNoted known (ns.filterMap Notice.selection?)) := by
  cases hstep with
  | layers | save | move | drain => exact ⟨h.quiet, h.drawable, h.current⟩
  | draw b hnoted =>
    rw [Notice.filterMap_selection?_map]
    exact h.withBoard hnoted
  | drawMove b hnoted center zoom =>
    have hmove : (moveNotices (m.moveTo center zoom).view).filterMap Notice.selection? = [] := rfl
    rw [List.filterMap_append, Notice.filterMap_selection?_map, hmove, List.append_nil]
    -- the move does not touch the board
    obtain ⟨hquiet, hdrawable, hcurrent⟩ := h.withBoard hnoted
    exact ⟨hquiet, hdrawable, hcurrent⟩

namespace Run

/-- The selection that is known from the journal. -/
def known (r : Run σ) : Option Geometry :=
  lastNoted none (r.journal.notices.filterMap Notice.selection?)

theorem known_start (s : Settings) (store : σ) : (start s store).known = none := by
  have hnone : (mountNotices s.products).filterMap Notice.selection? = [] := by
    rw [mountNotices, List.filterMap_map]
    exact List.filterMap_eq_nil_iff.2 (fun _ _ => rfl)
  show lastNoted none (([] ++ mountNotices s.products).filterMap Notice.selection?) = none
  rw [List.nil_append, hnone, lastNoted_nil]

/-- At any point of a run the journal tells the selection. -/
theorem informed [FileSaver σ] (s : Settings) (store : σ) (ops : List Operation) :
    ((start s store).after ops).session.Informed ((start s store).after ops).known := by
  refine induction (P := fun r => r.session.Informed r.known) ?_ ?_ ops
  · rw [known_start]
    refine ⟨rfl, ?_, rfl⟩
    intro f hf
    cases hf
  · intro r m ns hstep h
    have hknown : Run.known ⟨m, r.journal.publishAll ns⟩ =
        lastNoted r.known (ns.filterMap Notice.selection?) := by
      rw [known, known, ← lastNoted_append, ← List.filterMap_append]
      rfl
    rw [hknown]
    exact hstep.informed h

/-- The selection is announced: no change waits for being published, and all features are points,
line strings or polygons. The latest notice about the selection carries the last feature, and null
exactly if there is no feature; before the first such notice there is none. -/
structure Announced (r : Run σ) : Prop where
  quiet : r.session.board.changes = []
  drawable : ∀ f ∈ r.session.board.features, ∃ kind : GeometryKind, kind.matches f.geometry = true
  latest : ∀ n, (r.journal.onTopic Topic.selectionChanged.name).getLast? = some n →
    (∀ f, r.session.board.features.getLast? = some f →
      GeoJson.geometryJson? f.geometry = some n.payload) ∧
    (n.payload = .null ↔ r.session.board.features = [])
  silent : r.journal.onTopic Topic.selectionChanged.name = [] → r.session.board.features = []

/-- **After every run the latest notice tells the selection.** -/
theorem announced [FileSaver σ] (s : Settings) (store : σ) (ops : List Operation) :
    ((start s store).after ops).Announced := by
  have h := informed s store ops
  generalize (start s store).after ops = r at h
  refine ⟨h.quiet, ?_, ?_, ?_⟩
  · intro f hf
    obtain ⟨kind, hkind⟩ := Option.isSome_iff_exists.1 (h.drawable f hf)
    exact ⟨kind, by rw [GeometryKind.matches, hkind, beq_self_eq_true]⟩
  · intro n hn
    rw [Outbox.onTopic_selectionChanged, List.getLast?_map, Option.map_eq_some_iff] at hn
    obtain ⟨g, hg, rfl⟩ := hn
    have hcurrent : r.session.board.current? = g := by
      rw [h.current, known, lastNoted, hg, Option.getD_some]
    rw [← hcurrent]
    exact Board.payload_current? h.drawable
  · intro hnone
    rw [Outbox.onTopic_selectionChanged, List.map_eq_nil_iff] at hnone
    have hcurrent : r.session.board.features.getLast?.map Feature.geometry = none := by
      have hc := h.current
      rwa [known, hnone, lastNoted_nil] at hc
    exact List.getLast?_eq_none_iff.1 (Option.map_eq_none_iff.1 hcurrent)

end Run
end Session
end Atlas
