import Atlas.Proofs.Json.Records
import Atlas.Proofs.Session.Messages
import Atlas.Proofs.Session.Moves
import Atlas.Proofs.View.Showing

/-!
# Settings that are read, and the views that come of them

The settings of a map are read from a JSON value. Their center is finite, since the numbers of a
value are, and the sides of the view have at most 32 bits. A view that is mounted with them is
allowed, and messages keep it so.

## Main statements

* `Settings.isFinite_center` — the center that is read is finite
* `Session.allowed_receiveAll` — the view is allowed after any messages
-/

namespace Atlas

/-! ## Settings -/

namespace Settings

/-- What holds of the two default values and of whatever is decoded, holds of a pair that is
read. -/
theorem pair_of_withDefault {α : Type} {P : α → Prop} {decode : Json → Option α} {default : α × α}
    {found : Option Json} {p : α × α} (hdefault : P default.1 ∧ P default.2)
    (hdecode : ∀ w, found = some w → ∀ x, w.HasPart x → ∀ a, decode x = some a → P a)
    (h : Json.withDefault default (pair? decode) found = some p) : P p.1 ∧ P p.2 := by
  cases found with
  | none =>
    cases h
    exact hdefault
  | some w =>
    have hw := hdecode w rfl
    rw [Json.withDefault, pair?.eq_def] at h
    split at h
    · next x y =>
      split at h
      · next a b ha hb =>
        cases h
        exact ⟨hw x (Json.HasPart.whole.item List.mem_cons_self) a ha,
          hw y (Json.HasPart.whole.item (List.mem_cons_of_mem _ List.mem_cons_self)) b hb⟩
      · cases h
    · cases h

/-- The center and the size are read from parts of the value. -/
theorem exists_of_ofJson? {v : Json} {s : Settings} (h : ofJson? v = some s) :
    ∃ center size : Option Json,
      (∀ w, center = some w → v.HasPart w) ∧ (∀ w, size = some w → v.HasPart w) ∧
      Json.withDefault standard.center (pair? Json.float?) center = some s.center ∧
      Json.withDefault standard.size (pair? Json.nat32?) size = some s.size := by
  obtain ⟨found, hfound, h⟩ := Option.bind_eq_some_iff.1 h
  have hpart := fun {w} => Json.hasPart_of_mem_fields? (w := w) hfound
  split at h
  · next center zoom size base products overlays style =>
    obtain ⟨c, hc, h⟩ := Option.bind_eq_some_iff.1 h
    obtain ⟨z, -, h⟩ := Option.bind_eq_some_iff.1 h
    obtain ⟨n, hn, h⟩ := Option.bind_eq_some_iff.1 h
    obtain ⟨b, -, h⟩ := Option.bind_eq_some_iff.1 h
    obtain ⟨p, -, h⟩ := Option.bind_eq_some_iff.1 h
    obtain ⟨o, -, h⟩ := Option.bind_eq_some_iff.1 h
    obtain ⟨st, -, h⟩ := Option.bind_eq_some_iff.1 h
    cases h
    refine ⟨center, size, ?_, ?_, hc, hn⟩
    · rintro w rfl
      exact hpart (by simp)
    · rintro w rfl
      exact hpart (by simp)
  · cases h

/-- **The center that is read is finite.** -/
theorem isFinite_center {v : Json} {s : Settings} (hv : v.Spellable) (h : ofJson? v = some s) :
    s.center.1.isFinite = true ∧ s.center.2.isFinite = true := by
  obtain ⟨center, -, hpart, -, hcenter, -⟩ := exists_of_ofJson? h
  have hstandard : standard.center.1.isFinite = true ∧ standard.center.2.isFinite = true := by
    decide +kernel
  refine pair_of_withDefault (P := fun x => x.isFinite = true) hstandard ?_ hcenter
  intro w hw x hx a ha
  exact Json.isFinite_of_float? ((hv.part (hpart w hw)).part hx) ha

/-- The sides of the view have at most 32 bits. -/
theorem size_lt {v : Json} {s : Settings} (h : ofJson? v = some s) :
    s.size.1 < 2 ^ 32 ∧ s.size.2 < 2 ^ 32 := by
  obtain ⟨-, size, -, -, -, hsize⟩ := exists_of_ofJson? h
  refine pair_of_withDefault (P := fun n => n < 2 ^ 32) (by decide) ?_ hsize
  intro w hw x hx a ha
  exact Json.lt_of_nat32? ha

end Settings

/-! ## Views of a run -/

namespace Session

variable {σ : Type}

theorem allowed_mount {v : Json} {s : Settings} (h : Settings.ofJson? v = some s) (store : σ) :
    (mount s store).view.Allowed := by
  obtain ⟨hwidth, hheight⟩ := Settings.size_lt h
  have hside : ∀ {n : Nat}, n < 2 ^ 32 → 1 ≤ Nat.max n 1 ∧ Nat.max n 1 < 2 ^ 32 := by
    intro n hn
    exact ⟨Nat.le_max_right _ _, Nat.max_lt.2 ⟨hn, by decide⟩⟩
  exact ⟨clampZoom_le s.zoom, hside hwidth, hside hheight⟩

/-- A step keeps the view allowed. -/
theorem Step.allowed {m m' : Session σ} {ns : List Notice} (hstep : m.Step m' ns)
    (h : m.view.Allowed) : m'.view.Allowed := by
  obtain ⟨hwidth, hheight, hzoom⟩ := hstep.view_size
  refine ⟨hzoom h.zoom, ?_, ?_⟩
  · rw [hwidth]
    exact h.width
  · rw [hheight]
    exact h.height

/-- **The view is allowed after any messages.** -/
theorem allowed_receiveAll [FileSaver σ] {m : Session σ} (h : m.view.Allowed)
    (msgs : List Message) :
    (m.receiveAll msgs).view.Allowed := by
  refine List.foldlRecOn (motive := fun m : Session σ => m.view.Allowed) msgs receive h ?_
  intro m hm msg _
  obtain ⟨ns, hstep⟩ := step_handle m msg.topic msg.payload
  exact hstep.allowed hm

end Session
end Atlas
