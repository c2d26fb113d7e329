import Atlas.Proofs.GeoJson.Accepting
import Atlas.Proofs.GeoJson.RoundTrip
import Atlas.Proofs.Geometry.Boxes
import Atlas.Proofs.Session.Run
import Atlas.Proofs.Sketch.History

/-!
# What an import does

An import puts its features in the place of all others, tells the selection, and moves the view to
the features. The empty board is told first, then the last feature, and the move comes at the end.
The numbers of a JSON value are finite, so the box around the features is one that a view can be
fitted to. Features without any position have no box, and an import of nothing else moves nothing.

## Main statements

* `Geometry.bounds?_eq_none_iff` — which geometries that can be drawn have no box
* `Session.imports_load` — what an import changes and publishes
-/

namespace Atlas

/-! ## The box of some features -/

/-- The features that can be read from a value: none if it cannot be read. -/
def GeoJson.featuresOf (v : Json) : List Feature := (readFeatures v).toOption.getD []

theorem Session.importable_eq (v : Json) : importable v = GeoJson.featuresOf v := by
  rw [importable, GeoJson.featuresOf]
  cases GeoJson.readFeatures v with
  | ok | error => rfl

/-- What can be written without loss has a finite outline. -/
theorem Geometry.isFinite_of_mem_outline {g : Geometry} (h : g.isPortable = true) :
    ∀ p ∈ g.outline, p.isFinite = true := by
  cases g with
  | point p =>
    intro q hq
    rw [List.mem_singleton.1 hq]
    exact h
  | lineString ps => exact List.all_eq_true.1 h
  | polygon p => exact List.all_eq_true.1 (List.all_eq_true.1 h p.exterior List.mem_cons_self)
  | segment | multiPoint | multiLineString | multiPolygon | collection | rectangle | triangle =>
    cases h

/-- A geometry that can be drawn has no box if it is an empty line string, or a polygon with an
empty exterior. -/
theorem Geometry.bounds?_eq_none_iff {g : Geometry} (h : g.kind?.isSome = true) :
    g.bounds? = none ↔ g = .lineString [] ∨ ∃ p, g = .polygon p ∧ p.exterior = [] := by
  have hempty : g.bounds? = none ↔ g.outline = [] := by
    rw [bounds?]
    cases g.outline with
    | nil | cons => simp [Bounds.around?]
  rw [hempty]
  cases g with
  | point | lineString | polygon => simp [outline]
  | segment | multiPoint | multiLineString | multiPolygon | collection | rectangle | triangle =>
    cases h

namespace Session

variable {σ : Type}

theorem isFinite_outline_of_mem_featuresOf {v : Json} (hv : v.Spellable) {f : Feature}
    (hf : f ∈ GeoJson.featuresOf v) : ∀ p ∈ f.geometry.outline, p.isFinite = true := by
  rw [GeoJson.featuresOf] at hf
  cases hread : GeoJson.readFeatures v with
  | ok fs =>
    rw [hread] at hf
    exact Geometry.isFinite_of_mem_outline (GeoJson.isPortable_of_mem_readFeatures hv hread hf)
  | error fault =>
    rw [hread] at hf
    cases hf

/-- The box around imported features hugs all their positions. -/
theorem boxOf_boundsOf? {fs : List Feature}
    (h : ∀ f ∈ fs, ∀ p ∈ f.geometry.outline, p.isFinite = true) :
    Bounds.BoxOf (fs.flatMap (fun f => f.geometry.outline)) (boundsOf? fs) := by
  have houtlines : ∀ ps ∈ fs.map (fun f => f.geometry.outline), ∀ p ∈ ps, p.isFinite = true := by
    intro ps hps
    obtain ⟨f, hf, rfl⟩ := List.mem_map.1 hps
    exact h f hf
  have hbox := Bounds.boxOf_unions? houtlines
  rw [List.filterMap_map] at hbox
  exact hbox

theorem boundsOf?_eq_none_iff {fs : List Feature} :
    boundsOf? fs = none ↔ ∀ f ∈ fs, f.geometry.bounds? = none := by
  rw [← List.filterMap_eq_nil_iff, boundsOf?]
  cases fs.filterMap (fun f => f.geometry.bounds?) with
  | nil | cons => simp [Bounds.unions?]

/-! ## The import -/

/-- The notices about the selection when features are put in the place of all others: the board is
empty, and then the last feature is the current one, if there is any. -/
def selectionNotices (fs : List Feature) : List Notice :=
  .selection none :: (fs.getLast?.map (fun f => .selection (some f.geometry))).toList

/-- What an import of some features makes of a session, and how many it counts. The features are on
the board; the tool, the mode and a begun box are as before, and so is all that has nothing to do
with drawing. If a feature has a box, the view is fitted to the union of the boxes, which hugs all
positions and is accepted, and the move is told after the selection. Otherwise the view stays. -/
structure Imports (m m' : Session σ) (count : Nat) (fs : List Feature) : Prop where
  counted : count = fs.length
  features : m'.board.features = fs
  drawing : m'.board.tool = m.board.tool ∧ m'.board.mode = m.board.mode ∧
    m'.board.boxStart = m.board.boxStart
  others : m'.catalog = m.catalog ∧ m'.style = m.style ∧ m'.store = m.store
  moves : (∃ f ∈ fs, f.geometry.bounds? ≠ none) → ∃ box,
    Bounds.unions? (fs.filterMap (fun f => f.geometry.bounds?)) = some box ∧
    box.Hugs (fs.flatMap (fun f => f.geometry.outline)) ∧
    m.view.fit box = (m'.view, true) ∧
    m'.outbox.notices = m.outbox.notices ++ selectionNotices fs ++ moveNotices m'.view
  stays : (∀ f ∈ fs, f.geometry.bounds? = none) → m'.view = m.view ∧
    m'.outbox.notices = m.outbox.notices ++ selectionNotices fs
  blank : ∀ f ∈ fs, f.geometry.bounds? = none ↔
    f.geometry = .lineString [] ∨ ∃ p, f.geometry = .polygon p ∧ p.exterior = []

theorem changes_replace (b : Board) (fs : List Feature) :
    (b.replace fs).changes.map Notice.selection =
      b.changes.map Notice.selection ++ selectionNotices fs := by
  cases fs with
  | nil => exact List.map_append
  | cons f fs =>
    show ((b.changes ++ [none]) ++ [(f :: fs).getLast?.map Feature.geometry]).map _ = _
    rw [selectionNotices, List.getLast?_cons]
    simp

theorem drawing_replace (b : Board) (fs : List Feature) :
    (b.replace fs).tool = b.tool ∧ (b.replace fs).mode = b.mode ∧
      (b.replace fs).boxStart = b.boxStart := by
  rw [Board.replace]
  split
  · exact ⟨rfl, rfl, rfl⟩
  · exact ⟨rfl, rfl, rfl⟩

/-- A view is fitted to a box that is allowed, and the move is told. -/
theorem fit_of_fits (m : Session σ) {box : Bounds Float} (h : View.fits box = true) :
    m.view.fit box = ((m.view.fit box).1, true) ∧
      m.fit box = (announceMove { m with view := (m.view.fit box).1 }, true) := by
  rw [Session.fit, View.fit, if_pos h]
  exact ⟨rfl, rfl⟩

/-- The session with the imported features on the board, before the view moves. -/
def withFeatures (m : Session σ) (fs : List Feature) : Session σ :=
  m.withBoard (m.board.replace fs)

theorem notices_withFeatures {m : Session σ} (hquiet : m.board.changes = []) (fs : List Feature) :
    (m.withFeatures fs).outbox.notices = m.outbox.notices ++ selectionNotices fs := by
  show m.outbox.notices ++ (m.board.replace fs).changes.map .selection = _
  rw [changes_replace, hquiet]
  rfl

theorem load_eq (m : Session σ) (v : Json) : m.load v =
    match boundsOf? (GeoJson.featuresOf v) with
    | some box => (((m.withFeatures (GeoJson.featuresOf v)).fit box).1,
        (GeoJson.featuresOf v).length)
    | none => (m.withFeatures (GeoJson.featuresOf v), (GeoJson.featuresOf v).length) := by
  rw [load, importable_eq]
  rfl

theorem imports_of_quiet {m : Session σ} (hquiet : m.board.changes = []) {v : Json}
    (hv : v.Spellable) :
    m.Imports (m.load v).1 (m.load v).2 (GeoJson.featuresOf v) := by
  have hfinite := fun f hf => isFinite_outline_of_mem_featuresOf hv (f := f) hf
  have hblank : ∀ f ∈ GeoJson.featuresOf v, f.geometry.bounds? = none ↔
      f.geometry = .lineString [] ∨ ∃ p, f.geometry = .polygon p ∧ p.exterior = [] :=
    fun f hf => Geometry.bounds?_eq_none_iff (kind?_of_mem_importable (importable_eq v ▸ hf))
  rw [load_eq]
  generalize GeoJson.featuresOf v = fs at hfinite hblank
  have hbox := boxOf_boundsOf? hfinite
  have hfeatures : (m.withFeatures fs).board.features = fs := Board.features_replace m.board fs
  have hdrawing := drawing_replace m.board fs
  have hnotices := notices_withFeatures hquiet fs
  cases hbounds : boundsOf? fs with
  | none =>
    have hnone := boundsOf?_eq_none_iff.1 hbounds
    refine ⟨rfl, hfeatures, hdrawing, ⟨rfl, rfl, rfl⟩, ?_, fun _ => ⟨rfl, hnotices⟩, hblank⟩
    rintro ⟨f, hf, hsome⟩
    exact absurd (hnone f hf) hsome
  | some box =>
    rw [hbounds] at hbox
    have hhugs := hbox.hugs
    have hfits : View.fits box = true := hhugs.fits fun p hp => by
      obtain ⟨f, hf, hp⟩ := List.mem_flatMap.1 hp
      exact hfinite f hf p hp
    obtain ⟨hview, hfit⟩ := fit_of_fits (m.withFeatures fs) hfits
    show m.Imports ((m.withFeatures fs).fit box).1 fs.length fs
    rw [hfit]
    refine ⟨rfl, hfeatures, hdrawing, ⟨rfl, rfl, rfl⟩, fun _ => ⟨box, hbounds, hhugs, hview, ?_⟩,
      fun hnone => ?_, hblank⟩
    · show (m.withFeatures fs).outbox.notices ++ _ = _
      rw [hnotices]
      rfl
    · rw [boundsOf?_eq_none_iff.2 hnone] at hbounds
      cases hbounds

namespace Run

/-- **What an import changes and publishes,** after any operations and for every value. -/
theorem imports_load [FileSaver σ] (s : Settings) (store : σ) (ops : List Operation) {v : Json}
    (hv : v.Spellable) :
    let m := ((start s store).after ops).session
    m.Imports (m.load v).1 (m.load v).2 (GeoJson.featuresOf v) :=
  imports_of_quiet (induction (P := fun r => r.session.board.changes = []) rfl
    (fun h => h.quiet) ops) hv

/-- While a box is being dragged, a line and an empty line are imported, and a geometry of another
kind is skipped: the view moves to the line, two levels deeper than before, and nothing is moved by
the empty line alone. -/
theorem imports_load_lines :
    let position := fun x y => Json.arr [.ofInt x, .ofInt y]
    let line :=
      GeoJson.wrapped (GeoJson.typedJson "LineString" (.arr [position 0 50, position 4 46]))
    let empty := GeoJson.wrapped (GeoJson.typedJson "LineString" (.arr []))
    let points := GeoJson.wrapped (GeoJson.typedJson "MultiPoint" (.arr []))
    let collection := fun items =>
      Json.obj [("features", .arr items), ("type", .str "FeatureCollection")]
    let lines := collection [line, points, empty]
    let ops : List Operation := [.activateTool .box .multi, .startBox ⟨1, 2⟩]
    let m := ((start Settings.standard Store.refusing).after ops).session
    let box : Bounds Float := ⟨0, 46, 4, 50⟩
    (m.load lines).2 = 2 ∧ (m.load lines).1.board.boxStart = some ⟨1, 2⟩ ∧
      box.Hugs [⟨0, 50⟩, ⟨4, 46⟩] ∧ m.view.fit box = ((m.load lines).1.view, true) ∧
      m.view.zoom = 6 ∧ (m.load lines).1.view = ⟨⟨2, 48⟩, 8, 1024, 768⟩ ∧
      (m.load (collection [empty])).1.view = m.view := by
  intro position line empty points collection lines ops m box
  have hlines : lines.Spellable := by
    have hnumbers : lines.numbers = [.int 0, .int 50, .int 4, .int 46] := rfl
    intro n hn
    simp only [hnumbers, List.mem_cons, List.not_mem_nil, or_false] at hn
    rcases hn with rfl | rfl | rfl | rfl
    all_goals exact ⟨by decide, by decide⟩
  have hempty : (collection [empty]).Spellable := fun n hn => by cases hn
  have h := imports_load Settings.standard Store.refusing ops hlines
  have h' := imports_load Settings.standard Store.refusing ops hempty
  obtain ⟨hugged, hbounds, hhugs, hfit, -⟩ := h.moves ⟨_, List.mem_cons_self, Option.some_ne_none _⟩
  obtain rfl : box = hugged := Option.some.inj hbounds
  have hview : m.view.fit box = (⟨⟨2, 48⟩, 8, 1024, 768⟩, true) := by decide +kernel
  refine ⟨h.counted, h.drawing.2.2, hhugs, hfit, rfl, congrArg Prod.fst (hfit.symm.trans hview),
    (h'.stays fun f hf => ?_).1⟩
  rw [List.mem_singleton.1 hf]
  rfl

end Run
end Session
end Atlas
