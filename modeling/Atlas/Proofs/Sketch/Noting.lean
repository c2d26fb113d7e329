import Atlas.Sketch.Board

/-!
# The notes of a drawing board

Whoever reads all notes of a board knows its current selection: an operation changes the selection
only if it notes it, and where it notes several selections the last of them is the current one. A
board also keeps to geometries that can be drawn.

## Main statements

* `Board.Noted` — what every operation keeps to
* `Board.noted_sketch`, `Board.noted_endBox`, `Board.noted_replace` — the operations that bring
  features
-/

namespace Atlas

/-- The selection that is known after some notes, if another one was known before. -/
def lastNoted (known : Option Geometry) (notes : List (Option Geometry)) : Option Geometry :=
  notes.getLast?.getD known

theorem lastNoted_nil (known : Option Geometry) : lastNoted known [] = known := rfl

theorem lastNoted_concat (known note : Option Geometry) (notes : List (Option Geometry)) :
    lastNoted known (notes ++ [note]) = note := by
  rw [lastNoted, List.getLast?_concat, Option.getD_some]

theorem lastNoted_append (known : Option Geometry) (notes notes' : List (Option Geometry)) :
    lastNoted known (notes ++ notes') = lastNoted (lastNoted known notes) notes' := by
  rcases List.eq_nil_or_concat notes' with rfl | ⟨init, note, rfl⟩
  · rw [List.append_nil, lastNoted_nil]
  · rw [List.concat_eq_append, ← List.append_assoc, lastNoted_concat, lastNoted_concat]

namespace Board

/-- All features of a board can be drawn. -/
def Drawable (b : Board) : Prop := ∀ f ∈ b.features, f.geometry.kind?.isSome = true

theorem Drawable.of_features_eq {b b' : Board} (h : b.Drawable) (he : b'.features = b.features) :
    b'.Drawable := by
  intro f hf
  rw [he] at hf
  exact h f hf

/-- One board has become another one, and noted all that happened to the selection. -/
structure Noted (b b' : Board) : Prop where
  told : ∃ notes, b'.changes = b.changes ++ notes ∧ b'.current? = lastNoted b.current? notes
  drawable : b.Drawable → b'.Drawable

theorem Noted.refl (b : Board) : b.Noted b := ⟨⟨[], by rw [List.append_nil], rfl⟩, id⟩

theorem Noted.trans {a b c : Board} (hab : a.Noted b) (hbc : b.Noted c) : a.Noted c := by
  obtain ⟨⟨notes, hnotes, hcurrent⟩, hdrawable⟩ := hab
  obtain ⟨⟨notes', hnotes', hcurrent'⟩, hdrawable'⟩ := hbc
  refine ⟨⟨notes ++ notes', ?_, ?_⟩, fun h => hdrawable' (hdrawable h)⟩
  · rw [hnotes', hnotes, List.append_assoc]
  · rw [hcurrent', hcurrent, lastNoted_append]

/-- The tool, the mode and a box that was begun are no matter of the notes. -/
theorem Noted.of_eq {b b' : Board} (hf : b'.features = b.features)
    (hc : b'.changes = b.changes) : b.Noted b' := by
  refine ⟨⟨[], by rw [hc, List.append_nil], ?_⟩, fun h => h.of_features_eq hf⟩
  rw [current?, hf]
  rfl

/-- Features are noted when they are put on the board. -/
theorem noted_put {b : Board} {fs : List Feature}
    (hfs : b.Drawable → ∀ f ∈ fs, f.geometry.kind?.isSome = true) : b.Noted (b.put fs) := by
  refine ⟨⟨[fs.getLast?.map Feature.geometry], changes_put b fs, ?_⟩, hfs⟩
  rw [← List.nil_append [_], lastNoted_concat]
  rfl

theorem noted_clear (b : Board) : b.Noted b.clear := by
  refine noted_put ?_
  intro _ f hf
  cases hf

theorem noted_activate (b : Board) (tool : Tool) (mode : DrawMode) :
    b.Noted (b.activate tool mode) :=
  (noted_clear b).trans (.of_eq rfl rfl)

theorem noted_deactivate (b : Board) : b.Noted b.deactivate :=
  (noted_clear b).trans (.of_eq rfl rfl)

/-- A drawing is noted, and in single mode the empty board before it. -/
theorem noted_add (b : Board) {f : Feature} (hf : f.geometry.kind?.isSome = true) :
    b.Noted (b.add f) := by
  have hput : ∀ b : Board, b.Noted (b.put (b.features ++ [f])) := by
    intro b
    refine noted_put ?_
    intro hb g hg
    rcases List.mem_append.1 hg with hg | hg
    · exact hb g hg
    · rw [List.mem_singleton.1 hg]
      exact hf
  rw [add]
  split
  · exact (noted_clear b).trans (hput b.clear)
  · exact hput b

/-- A sketch is accepted only if the tool can draw it. -/
theorem noted_sketch (b : Board) (g : Geometry) : b.Noted (b.sketch g).1 := by
  rw [sketch]
  split
  · next kind hkind =>
    split
    · next hmatches =>
      refine noted_add b ?_
      rw [GeometryKind.matches, beq_iff_eq] at hmatches
      show g.kind?.isSome = true
      rw [hmatches]
      rfl
    · exact .refl b
  · exact .refl b

theorem noted_startBox (b : Board) (corner : Coord) : b.Noted (b.startBox corner).1 := by
  rw [startBox]
  split
  · exact .of_eq rfl rfl
  · exact .refl b

theorem noted_endBox (b : Board) (corner : Coord) : b.Noted (b.endBox corner).1 := by
  rw [endBox]
  split
  · split
    · next start hstart =>
      have hbegun : b.Noted { b with boxStart := none } := .of_eq rfl rfl
      exact hbegun.trans (noted_add _ rfl)
    · exact .refl b
  · exact .refl b

/-- Imported features are noted after the empty board. -/
theorem noted_replace (b : Board) {fs : List Feature}
    (hfs : ∀ f ∈ fs, f.geometry.kind?.isSome = true) : b.Noted (b.replace fs) := by
  rw [replace]
  split
  · exact noted_clear b
  · exact (noted_clear b).trans (noted_put (fun _ => hfs))

end Board
end Atlas
