import Atlas.Proofs.Session.Run
import Atlas.Proofs.Sketch.History

/-!
# Calls that miss

Some calls say whether they found what they were asked for: a box that can be shown, a layer with an
id, a tool that accepts a drawing. A call that says no has left no trace, with one exception. The
opacity of a product is written into its specification before its layer is looked for, and a product
with an unknown protocol has no layer. The call then says no, but the specification is another one.

## Main statements

* `Shelf.setOpacity_eq_iff` — when a change of the opacity that misses leaves the shelf as it is
* `Session.call_of_missed` — what a call that says no leaves behind
-/

namespace Atlas

/-! ## Opacities -/

/-- Changing the first element that satisfies a condition changes nothing if that element is what it
would become. -/
theorem updateFirst_eq_self_iff {α : Type} {p : α → Bool} {f : α → α} {xs : List α} :
    updateFirst p f xs = xs ↔ ∀ x, xs.find? p = some x → f x = x := by
  induction xs with
  | nil => simp [updateFirst]
  | cons y ys ih =>
    rw [updateFirst, List.find?_cons]
    cases hy : p y with
    | true => simp
    | false => simpa using ih

/-- A change of the opacity overwrites the specification of a product that has no layer. -/
def Shelf.Overwrites (s : Shelf) (id : String) (opacity : Float) : Prop :=
  opacity.isNaN = false ∧ s.layer? id = none ∧
    ∃ spec, s.specs.find? (fun spec => spec.id == id) = some spec ∧
      spec.opacity ≠ clampOpacity opacity

theorem LayerSpec.setOpacity_eq_self_iff {spec : LayerSpec} {x : Float} :
    spec.setOpacity x = spec ↔ spec.opacity = x := by
  constructor
  · intro h
    exact (congrArg LayerSpec.opacity h).symm
  · rintro rfl
    rfl

namespace Shelf

variable {s : Shelf} {id : String} {opacity : Float}

/-- A change of the opacity that misses finds no specification, or no layer, and then the layers
stay. -/
theorem setOpacity_of_missed (h : (s.setOpacity id opacity).2 = false) :
    (opacity.isNaN || !s.hasSpec id) = true ∧ (s.setOpacity id opacity).1 = s ∨
      (opacity.isNaN || !s.hasSpec id) = false ∧ s.layer? id = none ∧
        (s.setOpacity id opacity).1 = ⟨updateFirst (fun spec => spec.id == id)
          (LayerSpec.setOpacity (clampOpacity opacity)) s.specs, s.layers⟩ := by
  rw [setOpacity] at h ⊢
  by_cases hmissing : (opacity.isNaN || !s.hasSpec id) = true
  · rw [if_pos hmissing]
    exact .inl ⟨hmissing, rfl⟩
  · rw [if_neg hmissing] at h ⊢
    have hnone : s.layer? id = none := Option.not_isSome_iff_eq_none.1 (Bool.eq_false_iff.1 h)
    have hlayers : updateFirst (fun l => l.id == id) (Layer.setOpacity (clampOpacity opacity))
        s.layers = s.layers := by
      refine updateFirst_eq_self_iff.2 (fun l hl => ?_)
      rw [layer?] at hnone
      rw [hnone] at hl
      cases hl
    exact .inr ⟨Bool.eq_false_iff.2 hmissing, hnone, congrArg (Shelf.mk _) hlayers⟩

/-- **A change of the opacity that misses leaves the shelf as it is** if and only if it does not
overwrite a specification. -/
theorem setOpacity_eq_iff (h : (s.setOpacity id opacity).2 = false) :
    (s.setOpacity id opacity).1 = s ↔ ¬ s.Overwrites id opacity := by
  rcases setOpacity_of_missed h with ⟨hmissing, hsame⟩ | ⟨hfound, hnone, hchanged⟩
  · refine iff_of_true hsame ?_
    rintro ⟨hnumber, -, spec, hfind, -⟩
    have hid : (spec.id == id) = true :=
      List.find?_some (p := fun spec : LayerSpec => spec.id == id) hfind
    have hspec : s.hasSpec id = true :=
      List.any_eq_true.2 ⟨spec, List.mem_of_find?_eq_some hfind, hid⟩
    rw [hnumber, hspec] at hmissing
    cases hmissing
  · have hnumber : opacity.isNaN = false := (Bool.or_eq_false_iff.1 hfound).1
    have hspecs : (s.setOpacity id opacity).1 = s ↔ updateFirst (fun spec => spec.id == id)
        (LayerSpec.setOpacity (clampOpacity opacity)) s.specs = s.specs := by
      rw [hchanged]
      exact ⟨fun heq => congrArg specs heq, fun heq => by rw [heq]⟩
    rw [hspecs, updateFirst_eq_self_iff, Overwrites]
    simp only [LayerSpec.setOpacity_eq_self_iff, hnumber, hnone, true_and, not_exists, not_and,
      not_not]

end Shelf

namespace Session

variable {σ : Type}

/-! ## Calls -/

/-- The calls that say whether they found what they were asked for. -/
inductive Call where
  | setExtent (box : Bounds Float)
  | changeLayer (change : LayerChange)
  | updateOpacity (update : OpacityUpdate)
  | sketch (g : Geometry)
  | startBox (corner : Coord)
  | endBox (corner : Coord)

/-- The session after a call, and what the call says. -/
def call (m : Session σ) : Call → Session σ × Bool
  | .setExtent box => m.fit box
  | .changeLayer change => m.changeLayer change
  | .updateOpacity update => m.updateOpacity update
  | .sketch g => m.sketch g
  | .startBox corner => m.startBox corner
  | .endBox corner => m.endBox corner

/-- A call overwrites the specification of a product that has no layer. -/
def Overwrites (m : Session σ) : Call → Prop
  | .updateOpacity update => m.catalog.product.Overwrites update.product update.value
  | _ => False

/-- The session with other specifications of products. -/
def withProductSpecs (m : Session σ) (specs : List LayerSpec) : Session σ :=
  { m with catalog := { m.catalog with product := { m.catalog.product with specs := specs } } }

theorem withProductSpecs_self (m : Session σ) :
    m.withProductSpecs m.catalog.product.specs = m := rfl

theorem fit_of_missed {m : Session σ} {box : Bounds Float} (h : (m.fit box).2 = false) :
    (m.fit box).1 = m := by
  rw [Session.fit] at h ⊢
  split
  · next hfits =>
    rw [hfits] at h
    cases h
  · rfl

theorem changeLayer_of_missed {m : Session σ} {change : LayerChange}
    (h : (m.changeLayer change).2 = false) : (m.changeLayer change).1 = m := by
  rw [changeLayer] at h ⊢
  cases hrole : m.roleOfChange? change with
  | none => rfl
  | some role =>
    rw [hrole] at h
    have hmissed : ((m.catalog.shelf role).setVisible role change.id change.visible).2 = false := h
    have hshelf : ((m.catalog.shelf role).setVisible role change.id change.visible).1 =
        m.catalog.shelf role := by
      rw [Shelf.setVisible] at hmissed ⊢
      split
      · next hspec =>
        rw [if_pos hspec] at hmissed
        cases hmissed
      · rfl
    have hcatalog : m.catalog.withShelf role
        ((m.catalog.shelf role).setVisible role change.id change.visible).1 = m.catalog := by
      rw [hshelf, Catalog.withShelf_shelf]
    exact congrArg (fun catalog => { m with catalog := catalog }) hcatalog

theorem startBox_of_missed {m : Session σ} {corner : Coord} (h : (m.startBox corner).2 = false) :
    (m.startBox corner).1 = m := by
  have hmissed : (m.board.startBox corner).2 = false := h
  have hboard : (m.board.startBox corner).1 = m.board := by
    rw [Board.startBox] at hmissed ⊢
    split
    · next hbox =>
      rw [if_pos hbox] at hmissed
      cases hmissed
    · rfl
  show { m with board := (m.board.startBox corner).1 } = m
  rw [hboard]

/-- A change of the opacity that misses touches the specifications of the products at most. -/
theorem updateOpacity_of_missed {m : Session σ} {update : OpacityUpdate}
    (h : (m.updateOpacity update).2 = false) :
    ((m.updateOpacity update).1 = m ↔ ¬ m.Overwrites (.updateOpacity update)) ∧
      ∃ specs, (m.updateOpacity update).1 = m.withProductSpecs specs := by
  have hmissed : (m.catalog.product.setOpacity update.product update.value).2 = false := h
  have hsession : (m.updateOpacity update).1 = { m with catalog := { m.catalog with
      product := (m.catalog.product.setOpacity update.product update.value).1 } } := rfl
  constructor
  · rw [Overwrites, ← Shelf.setOpacity_eq_iff hmissed, hsession]
    constructor
    · intro hsame
      exact congrArg (fun m : Session σ => m.catalog.product) hsame
    · intro hsame
      rw [hsame]
  · rw [hsession]
    rcases Shelf.setOpacity_of_missed hmissed with ⟨-, hsame⟩ | ⟨-, -, hchanged⟩
    · rw [hsame]
      exact ⟨_, rfl⟩
    · rw [hchanged]
      exact ⟨_, rfl⟩

/-- **A call that says no leaves everything as it was** unless it overwrites the specification of a
product, and nothing but the specifications of the products is ever touched. -/
theorem call_of_missed [FileSaver σ] (s : Settings) (store : σ) (ops : List Operation)
    (c : Call) :
    let m := ((Run.start s store).after ops).session
    (m.call c).2 = false →
      ((m.call c).1 = m ↔ ¬ m.Overwrites c) ∧ ∃ specs, (m.call c).1 = m.withProductSpecs specs := by
  intro m h
  have hquiet : m.board.changes = [] :=
    Run.induction (P := fun r => r.session.board.changes = []) rfl (fun hstep => hstep.quiet) ops
  clear_value m
  have hsame : ∀ {m' : Session σ}, m' = m → ¬ m.Overwrites c →
      (m' = m ↔ ¬ m.Overwrites c) ∧ ∃ specs, m' = m.withProductSpecs specs := by
    rintro m' rfl hnot
    exact ⟨iff_of_true rfl hnot, _, (withProductSpecs_self m').symm⟩
  cases c with
  | setExtent box => exact hsame (fit_of_missed h) id
  | changeLayer change => exact hsame (changeLayer_of_missed h) id
  | updateOpacity update => exact updateOpacity_of_missed h
  | startBox corner => exact hsame (startBox_of_missed h) id
  | sketch g =>
    refine hsame ?_ id
    show m.withBoard (m.board.sketch g).1 = m
    rw [Board.sketch_eq_of_refused h]
    exact withBoard_of_quiet m hquiet
  | endBox corner =>
    refine hsame ?_ id
    show m.withBoard (m.board.endBox corner).1 = m
    rw [Board.endBox_eq_of_refused h]
    exact withBoard_of_quiet m hquiet

/-- A product without a layer is as opaque as it can be, so a greater opacity overwrites nothing. -/
theorem call_updateOpacity_opaque :
    let bathymetry := LayerSpec.create "bathymetry" (.unsupported "XYZ") ["https://b.example/tiles"]
    let m := mount { Settings.standard with products := [bathymetry] } Store.refusing
    let c := Call.updateOpacity ⟨"bathymetry", 7.5⟩
    (m.call c).2 = false ∧ (m.call c).1 = m := by
  intro bathymetry m c
  have hmissed : (m.call c).2 = false := by decide +kernel
  have hfound : m.catalog.product.specs.find? (fun spec => spec.id == "bathymetry") =
      some bathymetry := by
    decide +kernel
  have hnot : ¬ m.Overwrites c := by
    rintro ⟨-, -, spec, hfind, hother⟩
    obtain rfl := Option.some.inj (hfound.symm.trans hfind)
    exact hother (by decide +kernel)
  exact ⟨hmissed, (call_of_missed _ Store.refusing [] c hmissed).1.2 hnot⟩

/-- A product whose protocol is not known has no layer. The call says that it found nothing, and the
specification has another opacity all the same. -/
theorem call_updateOpacity_overwrites :
    let bathymetry := LayerSpec.create "bathymetry" (.unsupported "XYZ") ["https://b.example/tiles"]
    let m := mount { Settings.standard with products := [bathymetry] } Store.refusing
    let c := Call.updateOpacity ⟨"bathymetry", 0.25⟩
    (m.call c).2 = false ∧ m.catalog.specs .product = [bathymetry] ∧
      (m.call c).1.catalog.specs .product = [{ bathymetry with opacity := 0.25 }] ∧
      (m.call c).1 ≠ m := by
  intro bathymetry m c
  have hbefore : m.catalog.specs .product = [bathymetry] := by decide +kernel
  have hafter : (m.call c).1.catalog.specs .product = [{ bathymetry with opacity := 0.25 }] := by
    decide +kernel
  refine ⟨by decide +kernel, hbefore, hafter, ?_⟩
  intro hsame
  rw [hsame, hbefore] at hafter
  exact absurd hafter (by decide +kernel)

end Session
end Atlas
