import Atlas.Proofs.Layer.Permanence
import Atlas.Proofs.Layer.Repeating

/-!
# At most one visible base specification

The base specifications may be edited in any way, and then several of them can be visible. Letting
the base layers mirror them, or sorting the layers, brings them in order: the first visible one
stays, and the others are hidden. Choosing a base map makes all specifications with its id visible
and then keeps the first of them. What is shown is in all three cases the first specification that
satisfies a condition, and nothing else changes in the list.

A run catches up with its edits if each edit of the base specifications is followed by one of the
two operations that bring them in order. Nothing else in a run makes a second one visible, so after
every such run at most one is visible, and the catalog names it. This is about the specifications
alone: ids may stand several times, and layers may be missing or have lost their specifications.

## Main statements

* `showsFirst_showFirst` — what is shown is the first specification that satisfies a condition
* `Catalog.caughtUp_concat` — when a run has caught up with its edits
* `Catalog.one_visible_base_spec` — the visible base specification after every run
-/

namespace Atlas

/-! ## Showing the first specification that satisfies a condition -/

/-- A place of the list is the first one whose specification satisfies a condition. -/
def IsFirstPlace (p : LayerSpec → Bool) (specs : List LayerSpec) (i : Nat) : Prop :=
  specs[i]?.any p = true ∧ ∀ j < i, specs[j]?.any p = false

/-- The specifications of one list stand in the other one at the same places, and the first of
those that satisfy a condition is the only visible one. -/
structure ShowsFirst (p : LayerSpec → Bool) (specs specs' : List LayerSpec) : Prop where
  same : specs'.map LayerSpec.hide = specs.map LayerSpec.hide
  visible : ∀ i, specs'[i]?.any LayerSpec.visible = true ↔ IsFirstPlace p specs i

/-- Shows the first specification that satisfies a condition, and hides all others. -/
def showFirst (p : LayerSpec → Bool) : List LayerSpec → List LayerSpec
  | [] => []
  | spec :: specs =>
    if p spec then spec.setVisible true :: specs.map LayerSpec.hide
    else spec.hide :: showFirst p specs

section
variable {p : LayerSpec → Bool} {spec : LayerSpec} {specs : List LayerSpec}

theorem isFirstPlace_zero : IsFirstPlace p (spec :: specs) 0 ↔ p spec = true := by
  simp [IsFirstPlace]

theorem isFirstPlace_succ {i : Nat} :
    IsFirstPlace p (spec :: specs) (i + 1) ↔ p spec = false ∧ IsFirstPlace p specs i := by
  simp only [IsFirstPlace, List.getElem?_cons_succ]
  constructor
  · rintro ⟨hfound, hbefore⟩
    exact ⟨hbefore 0 (Nat.zero_lt_succ i), hfound,
      fun j hj => hbefore (j + 1) (Nat.succ_lt_succ hj)⟩
  · rintro ⟨hspec, hfound, hbefore⟩
    refine ⟨hfound, fun j hj => ?_⟩
    cases j with
    | zero => exact hspec
    | succ j => exact hbefore j (Nat.lt_of_succ_lt_succ hj)

theorem any_visible_map_hide (specs : List LayerSpec) (i : Nat) :
    (specs.map LayerSpec.hide)[i]?.any LayerSpec.visible = false := by
  rw [List.getElem?_map]
  cases specs[i]? with
  | none | some => rfl

/-- **What is shown is the first specification that satisfies the condition.** -/
theorem showsFirst_showFirst (p : LayerSpec → Bool) (specs : List LayerSpec) :
    ShowsFirst p specs (showFirst p specs) := by
  induction specs with
  | nil => exact ⟨rfl, fun i => by simp [showFirst, IsFirstPlace]⟩
  | cons spec specs ih =>
    rw [showFirst]
    split
    · next hspec =>
      refine ⟨?_, fun i => ?_⟩
      · rw [List.map_cons, List.map_cons, List.map_map]
        rfl
      · cases i with
        | zero => exact iff_of_true rfl (isFirstPlace_zero.2 hspec)
        | succ i =>
          rw [List.getElem?_cons_succ, any_visible_map_hide, isFirstPlace_succ, hspec]
          simp
    · next hspec =>
      refine ⟨congrArg (List.cons spec.hide) ih.same, fun i => ?_⟩
      cases i with
      | zero => exact iff_of_false Bool.noConfusion fun hfirst => hspec (isFirstPlace_zero.1 hfirst)
      | succ i =>
        rw [List.getElem?_cons_succ, ih.visible i, isFirstPlace_succ]
        exact (and_iff_right (Bool.eq_false_iff.2 hspec)).symm

end

/-! ## What is shown of the base specifications -/

theorem keepFirstVisible_eq_showFirst (specs : List LayerSpec) :
    keepFirstVisible specs = showFirst LayerSpec.visible specs := by
  induction specs with
  | nil => rfl
  | cons spec specs ih =>
    rw [keepFirstVisible, showFirst]
    split
    · next hspec => rw [LayerSpec.setVisible, ← hspec]
    · next hspec => rw [LayerSpec.hide, ← Bool.eq_false_iff.2 hspec, ih]

/-- Choosing a base map shows the first specification with its id; hiding one shows none. -/
theorem settle_setSpecVisible (id : String) (visible : Bool) (specs : List LayerSpec) :
    settle .base (specs.map (Shelf.setSpecVisible .base id visible)) =
      showFirst (fun spec => visible && spec.id == id) specs := by
  cases visible with
  | false =>
    rw [settle_hideSpec]
    induction specs with
    | nil => rfl
    | cons spec specs ih => exact congrArg (List.cons spec.hide) ih
  | true =>
    rw [settle_showSpec]
    induction specs with
    | nil => rfl
    | cons spec specs ih =>
      rw [List.map_cons, updateFirst, showFirst, id_hide, Bool.true_and]
      split
      · rfl
      · rw [ih]

theorem Shelf.specs_setVisible_base {s : Shelf} {id : String} {visible : Bool}
    (h : (s.setVisible .base id visible).2 = true) : (s.setVisible .base id visible).1.specs =
      showFirst (fun spec => visible && spec.id == id) s.specs := by
  rw [setVisible] at h ⊢
  split at h
  · next hid =>
    rw [if_pos hid, ← settle_setSpecVisible]
    rfl
  · cases h

namespace Catalog

/-! ## Catching up with edits -/

/-- Whether an operation brings the base specifications in order. -/
def Operation.settlesBase : Operation → Bool
  | .sync role => role = .base
  | .reorder role => role = .base
  | .setVisible .. | .setOpacity .. | .setPeriod _ => false

/-- Whether a change is an operation that brings the base specifications in order. -/
def Change.settlesBase : Change → Bool
  | .operation op => op.settlesBase
  | .edit .. => false

/-- Whether a change is an edit of the base specifications. -/
def Change.editsBase : Change → Bool
  | .operation _ => false
  | .edit role _ => role = .base

/-- Whether each edit of the base specifications is followed by an operation that brings them in
order. -/
def caughtUp : List Change → Bool
  | [] => true
  | ch :: later => (!ch.editsBase || later.any Change.settlesBase) && caughtUp later

/-- **When a run has caught up with its edits:** it brings the base specifications in order last, or
it had caught up before and does not edit them. -/
theorem caughtUp_concat (changes : List Change) (ch : Change) :
    caughtUp (changes ++ [ch]) = (ch.settlesBase || (caughtUp changes && !ch.editsBase)) := by
  induction changes with
  | nil =>
    cases ch with
    | operation op => simp [caughtUp, Change.editsBase]
    | edit role edit => simp [caughtUp, Change.settlesBase]
  | cons ch' changes ih =>
    rw [List.cons_append, caughtUp, caughtUp, ih, List.any_append]
    cases hch : ch.settlesBase with
    | true => simp [hch]
    | false => simp [hch, Bool.and_assoc]

theorem specs_apply_of_settlesBase {op : Operation} (h : op.settlesBase = true) (c : Catalog) :
    (c.apply op).specs .base = settle .base (c.specs .base) := by
  cases op with
  | sync role | reorder role =>
    obtain rfl : role = .base := of_decide_eq_true h
    rfl
  | setVisible | setOpacity | setPeriod => cases h

/-- At most one base specification is visible, and the catalog names it. -/
def NamesVisible (c : Catalog) : Prop :=
  ∃ shown : Option LayerSpec, (c.specs .base).filter LayerSpec.visible = shown.toList ∧
    c.visibleBase? = shown.map LayerSpec.id

theorem namesVisible_iff {c : Catalog} :
    c.NamesVisible ↔ (c.specs .base).countP LayerSpec.visible ≤ 1 := by
  rw [List.countP_eq_length_filter]
  constructor
  · rintro ⟨shown, hshown, -⟩
    rw [hshown]
    cases shown with
    | none => exact Nat.zero_le 1
    | some spec => exact Nat.le_refl 1
  · intro hone
    refine ⟨((c.specs .base).filter LayerSpec.visible).head?, ?_, ?_⟩
    · cases hvisible : (c.specs .base).filter LayerSpec.visible with
      | nil => rfl
      | cons spec rest =>
        rw [hvisible, List.length_cons] at hone
        rw [List.eq_nil_of_length_eq_zero (by omega : rest.length = 0)]
        rfl
    · rw [List.head?_filter]
      rfl

theorem namesVisible_of_settle {c : Catalog} {specs : List LayerSpec}
    (h : c.specs .base = settle .base specs) : c.NamesVisible := by
  rw [namesVisible_iff, h]
  exact countP_visible_settle specs

/-- **A change that does not edit the base specifications shows no second one.** -/
theorem NamesVisible.change {c : Catalog} (h : c.NamesVisible) {ch : Change}
    (hch : ch.editsBase = false) : (c.change ch).NamesVisible := by
  rw [namesVisible_iff] at h ⊢
  cases ch with
  | edit role edit =>
    cases role with
    | base => cases hch
    | product | overlay => exact h
  | operation op =>
    show ((c.apply op).shelf .base).specs.countP LayerSpec.visible ≤ 1
    rw [shelf_apply]
    refine op.onShelf_cases (P := fun s => s.specs.countP LayerSpec.visible ≤ 1) h ?_ ?_ ?_ ?_ ?_
    · intro id visible _
      rw [Shelf.setVisible]
      split
      · exact countP_visible_settle _
      · exact h
    · intro id opacity _
      rw [Shelf.setOpacity]
      split
      · exact h
      · rw [countP_eq_of_map_eq (map_updateFirst (LayerSpec.visible_setOpacity _) _)]
        exact h
    · exact fun _ _ => h
    · exact fun _ => countP_visible_settle _
    · exact fun _ => countP_visible_settle _

theorem NamesVisible.changeAll {c : Catalog} (h : c.NamesVisible) {changes : List Change}
    (hchanges : caughtUp changes = true) : (c.changeAll changes).NamesVisible := by
  induction changes using List.reverseRecOn with
  | nil => exact h
  | append_singleton changes ch ih =>
    rw [Catalog.changeAll, List.foldl_append]
    show ((c.changeAll changes).change ch).NamesVisible
    rw [caughtUp_concat, Bool.or_eq_true, Bool.and_eq_true] at hchanges
    rcases hchanges with hsettles | ⟨hcaught, hedits⟩
    · -- whatever was visible before, only the first one stays
      cases ch with
      | edit => cases hsettles
      | operation op => exact namesVisible_of_settle (specs_apply_of_settlesBase hsettles _)
    · exact (ih hcaught).change (by simpa using hedits)

/-- **At most one base specification is visible, and the catalog names it,** in every new catalog
and after every run that catches up with its edits. Bringing the base specifications in order keeps
the first visible one, hides the others and does nothing else; it does nothing at all where at most
one is visible, and a second time. Choosing a base map shows the first specification with its id,
and hiding one shows none. -/
theorem one_visible_base_spec :
    (∀ base product overlay, (create base product overlay).NamesVisible) ∧
      (∀ (c : Catalog) (changes : List Change), c.NamesVisible → caughtUp changes = true →
        (c.changeAll changes).NamesVisible) ∧
      (∀ (c : Catalog) (op : Operation), op.settlesBase = true →
        ShowsFirst LayerSpec.visible (c.specs .base) ((c.apply op).specs .base) ∧
          ((c.specs .base).countP LayerSpec.visible ≤ 1 →
            (c.apply op).specs .base = c.specs .base) ∧
          ∀ op' : Operation, op'.settlesBase = true →
            ((c.apply op).apply op').specs .base = (c.apply op).specs .base) ∧
      ∀ (c : Catalog) (id : String) (visible : Bool), (c.setVisible .base id visible).2 = true →
        ShowsFirst (fun spec => visible && spec.id == id) (c.specs .base)
          ((c.setVisible .base id visible).1.specs .base) := by
  refine ⟨fun base product overlay => ?_, fun c changes h hchanges => h.changeAll hchanges,
    fun c op hop => ⟨?_, fun hone => ?_, ?_⟩, fun c id visible hfound => ?_⟩
  · have hbuilt : (create base product overlay).specs .base = settle .base base := rfl
    exact namesVisible_of_settle hbuilt
  · rw [specs_apply_of_settlesBase hop]
    show ShowsFirst _ _ (keepFirstVisible _)
    rw [keepFirstVisible_eq_showFirst]
    exact showsFirst_showFirst _ _
  · rw [specs_apply_of_settlesBase hop]
    exact settle_eq_self fun _ => hone
  · intro op' hop'
    rw [specs_apply_of_settlesBase hop', specs_apply_of_settlesBase hop, settle_settle]
  · have hspecs : (c.setVisible .base id visible).1.specs .base =
        showFirst (fun spec => visible && spec.id == id) (c.specs .base) :=
      Shelf.specs_setVisible_base hfound
    rw [hspecs]
    exact showsFirst_showFirst _ _

/-- One id stands twice, and a specification without a layer stands in between. An edit takes away
the first specification, so that its layer has none of its own any more, and shows the other two. -/
theorem one_visible_base_spec_of_edited :
    let terrain := { LayerSpec.create "terrain" .wmts ["t"] with visible := true }
    let c := create [terrain, .create "grid" (.unsupported "XYZ") ["g"], terrain] [] []
    let edit := fun specs : List LayerSpec => (specs.drop 1).map (LayerSpec.setVisible true)
    let changes : List Change :=
      [.edit .base edit, .operation (.setOpacity "grid" 0.5), .operation (.reorder .base)]
    let edited := c.editSpecs .base edit
    let settled := edited.apply (.sync .base)
    c.NamesVisible ∧ caughtUp changes = true ∧ (c.changeAll changes).NamesVisible ∧
      (edited.specs .base).countP LayerSpec.visible = 2 ∧
      ShowsFirst LayerSpec.visible (edited.specs .base) (settled.specs .base) ∧
      (settled.specs .base).countP LayerSpec.visible ≤ 1 ∧
      (settled.apply (.reorder .base)).specs .base = settled.specs .base ∧
      (edited.setVisible .base "terrain" true).2 = true ∧
      ShowsFirst (fun spec => true && spec.id == "terrain") (edited.specs .base)
        ((edited.setVisible .base "terrain" true).1.specs .base) := by
  intro terrain c edit changes edited settled
  obtain ⟨hnew, hrun, hsettle, hchoose⟩ := one_visible_base_spec
  have hcaught : caughtUp changes = true := by decide
  have hsettled : (settled.specs .base).countP LayerSpec.visible ≤ 1 := by decide +kernel
  have hfound : (edited.setVisible .base "terrain" true).2 = true := by decide +kernel
  exact ⟨hnew _ _ _, hcaught, hrun c changes (hnew _ _ _) hcaught, by decide +kernel,
    (hsettle edited (.sync .base) rfl).1, hsettled,
    (hsettle settled (.reorder .base) rfl).2.1 hsettled, hfound, hchoose edited _ _ hfound⟩

end Catalog
end Atlas
