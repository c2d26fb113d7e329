import Atlas.Proofs.Layer.Patching

/-!
# Operations that may be swapped

Two operations of a catalog lead to the same catalog in both orders, and give the same answers,
unless the later one overwrites what the earlier one wrote. This holds of every catalog in which
no id stands twice on a shelf, whether or not its layers are in step with their specifications.

On each shelf an operation either ends with mirroring, after some preparation, or it is a patch, or
it does nothing. So four cases are left of the pairs of operations. Answers are about ids and about
which specifications follow the time, and no operation changes these.

## Main statements

* `Catalog.Operation.onShelf_onShelf` — operations may be swapped on each shelf
* `Catalog.answer_apply` — no operation changes the answer of another one
* `Catalog.apply_comm` — operations that do not override each other may be swapped
-/

namespace Atlas

namespace Catalog

/-! ## Operations on a shelf -/

/-- An operation overrides another one: they choose a base map, or write the visibility or the
opacity of the same layer, or tell a period. -/
inductive Operation.Overrides : Operation → Operation → Prop where
  | base (id id' : String) (visible visible' : Bool) :
      Overrides (.setVisible .base id visible) (.setVisible .base id' visible')
  | visible (role : Role) (id : String) (visible visible' : Bool) :
      Overrides (.setVisible role id visible) (.setVisible role id visible')
  | opacity (id : String) (opacity opacity' : Float) :
      Overrides (.setOpacity id opacity) (.setOpacity id opacity')
  | period (p p' : Period) : Overrides (.setPeriod p) (.setPeriod p')

/-- Whether an operation ends with mirroring. -/
def Operation.mirrors : Operation → Bool
  | .setVisible .. | .reorder _ | .sync _ => true
  | .setOpacity .. | .setPeriod _ => false

/-- Whether an operation that ends with mirroring has to do with a shelf. -/
def Operation.reaches (role : Role) (s : Shelf) : Operation → Bool
  | .setVisible role' id _ => role' = role && s.hasSpec id
  | .reorder role' | .sync role' => role' = role
  | .setOpacity .. | .setPeriod _ => false

/-- What an operation does to a shelf before mirroring. -/
def Operation.prepare (role : Role) : Operation → Shelf → Shelf
  | .setVisible _ id visible => Shelf.showSpecs role id visible
  | .reorder _ => Shelf.sort
  | .sync _ | .setOpacity .. | .setPeriod _ => id

section

variable {role : Role} {a b op : Operation} {s : Shelf}

theorem Operation.preparation (op : Operation) (role : Role) :
    Shelf.Preparation role (op.prepare role) := by
  cases op with
  | setVisible role' id visible => exact Shelf.preparation_showSpecs role id visible
  | reorder role' => exact Shelf.preparation_sort role
  | setOpacity | setPeriod | sync => exact Shelf.preparation_id role

theorem Operation.onShelf_of_mirrors (hop : op.mirrors = true) (s : Shelf) :
    op.onShelf role s = if op.reaches role s then (op.prepare role s).sync role else s := by
  cases op with
  | setVisible role' id visible =>
    rw [onShelf, reaches, prepare, Shelf.setVisible_eq]
    by_cases hrole : role' = role
    · simp [hrole]
    · simp [hrole]
  | reorder role' | sync role' => simp [onShelf, reaches, prepare, Shelf.reorder]
  | setOpacity | setPeriod => cases hop

theorem Operation.reaches_congr {s' : Shelf} (h : s.Alike s') (op : Operation) (role : Role) :
    op.reaches role s' = op.reaches role s := by
  cases op with
  | setVisible role' id visible => rw [reaches, reaches, h.hasSpec]
  | reorder | sync | setOpacity | setPeriod => rfl

theorem Operation.alike_onShelf (op : Operation) (role : Role) (s : Shelf) :
    s.Alike (op.onShelf role s) := by
  cases op with
  | setPeriod p => exact Shelf.alike_setTime p.interval s
  | setVisible | setOpacity | reorder | sync => exact (relooks_onShelf rfl role s).alike

/-- Showing two specifications may be swapped if they are not the same one, and neither of them
hides the other one. -/
theorem showSpecs_showSpecs (hrole : role ≠ .base) {id id' : String} (hid : id ≠ id')
    (visible visible' : Bool) (s : Shelf) :
    (s.showSpecs role id visible).showSpecs role id' visible' =
      (s.showSpecs role id' visible').showSpecs role id visible := by
  simp only [Shelf.showSpecs, List.map_map]
  refine congrArg (Shelf.mk · _) (List.map_congr_left fun spec _ => ?_)
  simp only [Function.comp_apply, Shelf.setSpecVisible, if_neg hrole]
  by_cases h : spec.id = id
  · simp [h, hid]
  · by_cases h' : spec.id = id'
    · simp [h', Ne.symm hid]
    · simp [h, h']

theorem sort_showSpecs (id : String) (visible : Bool) (s : Shelf) :
    (s.showSpecs role id visible).sort = s.sort.showSpecs role id visible := by
  have hids := (Shelf.alike_showSpecs role id visible s).map_specs (g := LayerSpec.id) fun _ => rfl
  have hsort := Shelf.mergeSort_map hids (f := fun l => l) (fun _ => rfl) s.layers
  rw [List.map_id', List.map_id'] at hsort
  exact congrArg (Shelf.mk _) hsort

theorem Operation.prepare_prepare (hab : ¬ a.Overrides b) (ha : a.reaches role s = true)
    (hb : b.reaches role s = true) :
    b.prepare role (a.prepare role s) = a.prepare role (b.prepare role s) := by
  cases a with
  | setOpacity | setPeriod => cases ha
  | sync => rfl
  | reorder =>
    cases b with
    | setOpacity | setPeriod => cases hb
    | sync | reorder => rfl
    | setVisible role' id visible => exact (sort_showSpecs id visible s).symm
  | setVisible role' id visible =>
    cases b with
    | setOpacity | setPeriod => cases hb
    | sync => rfl
    | reorder => exact sort_showSpecs id visible s
    | setVisible role'' id' visible' =>
      obtain rfl : role' = role := of_decide_eq_true (Bool.and_eq_true_iff.1 ha).1
      obtain rfl : role'' = role' := of_decide_eq_true (Bool.and_eq_true_iff.1 hb).1
      have hrole : role'' ≠ .base := by
        rintro rfl
        exact hab (.base id id' visible visible')
      have hid : id ≠ id' := by
        rintro rfl
        exact hab (.visible role'' id visible visible')
      exact showSpecs_showSpecs hrole hid visible visible' s

/-- Two operations that end with mirroring may be swapped. -/
theorem Operation.onShelf_onShelf_of_mirrors (h : s.Distinct) (hab : ¬ a.Overrides b)
    (ha : a.mirrors = true) (hb : b.mirrors = true) :
    b.onShelf role (a.onShelf role s) = a.onShelf role (b.onShelf role s) := by
  have halike := reaches_congr (a.alike_onShelf role s) b role
  have halike' := reaches_congr (b.alike_onShelf role s) a role
  rw [onShelf_of_mirrors hb, halike, onShelf_of_mirrors ha (b.onShelf role s), halike',
    onShelf_of_mirrors ha, onShelf_of_mirrors hb]
  by_cases hra : a.reaches role s = true
  · by_cases hrb : b.reaches role s = true
    · simp only [if_pos hra, if_pos hrb]
      exact (a.preparation role).swap (b.preparation role) h (prepare_prepare hab hra hrb)
    · simp only [if_pos hra, if_neg hrb]
  · simp only [if_neg hra]

/-- A change of an opacity writes one by one, or it leaves the shelf alone. -/
theorem Operation.onShelf_setOpacity (id : String) (opacity : Float) (role : Role) :
    (setOpacity id opacity).onShelf role = (fun s => s) ∨ opacity.isNaN = false ∧
      (setOpacity id opacity).onShelf role = fun s => (s.setOpacity id opacity).1 := by
  by_cases hrole : role = .product
  · have hon : (setOpacity id opacity).onShelf role = fun s => (s.setOpacity id opacity).1 :=
      funext fun s => if_pos hrole
    cases hnumber : opacity.isNaN with
    | false => exact .inr ⟨rfl, hon⟩
    | true =>
      left
      rw [hon]
      funext s
      rw [Shelf.setOpacity, hnumber]
      rfl
  · exact .inl (funext fun s => if_neg hrole)

theorem Operation.patch_onShelf (hop : op.mirrors = false) (role : Role) :
    Shelf.Patch role (op.onShelf role) := by
  cases op with
  | setVisible | reorder | sync => cases hop
  | setPeriod p => exact (Shelf.pointwise_setTime p.interval).patch role
  | setOpacity id opacity =>
    rcases onShelf_setOpacity id opacity role with hon | ⟨hnumber, hon⟩
    · rw [hon]
      exact Shelf.patch_id role
    · rw [hon]
      exact (Shelf.pointwise_setOpacity hnumber id).patch role

/-- A patch and an operation that ends with mirroring may be swapped. -/
theorem onShelf_patch {f : Shelf → Shelf} (hf : Shelf.Patch role f) (h : s.Distinct)
    (hop : op.mirrors = true) : op.onShelf role (f s) = f (op.onShelf role s) := by
  cases op with
  | setOpacity | setPeriod => cases hop
  | setVisible role' id visible =>
    rw [Operation.onShelf, Operation.onShelf]
    split
    · exact hf.setVisible h id visible
    · rfl
  | reorder role' =>
    rw [Operation.onShelf, Operation.onShelf]
    split
    · exact hf.reorder h
    · rfl
  | sync role' =>
    rw [Operation.onShelf, Operation.onShelf]
    split
    · exact hf.sync s h
    · rfl

theorem Operation.setPeriod_setOpacity (h : s.Distinct) (p : Period) (id : String)
    (opacity : Float) : (setPeriod p).onShelf role ((setOpacity id opacity).onShelf role s) =
      (setOpacity id opacity).onShelf role ((setPeriod p).onShelf role s) := by
  rcases onShelf_setOpacity id opacity role with hon | ⟨hnumber, hon⟩
  · rw [hon]
  · rw [hon]
    refine (Shelf.pointwise_setOpacity hnumber id).swap (Shelf.pointwise_setTime p.interval) h
      (fun spec => rfl) fun l => ?_
    -- the source and the opacity of a layer are two fields of it
    have htimed : ∀ l : Layer, s.isTimed (l.setOpacity (Shelf.clampOpacity opacity)) =
        s.isTimed l := fun l => rfl
    have hsame : (l.setOpacity (Shelf.clampOpacity opacity)).setTime p.interval =
        (l.setTime p.interval).setOpacity (Shelf.clampOpacity opacity) := rfl
    grind [Layer.id_setTime]

theorem Operation.setOpacity_setOpacity (h : s.Distinct) {id id' : String} (hid : id ≠ id')
    (opacity opacity' : Float) :
    (setOpacity id' opacity').onShelf role ((setOpacity id opacity).onShelf role s) =
      (setOpacity id opacity).onShelf role ((setOpacity id' opacity').onShelf role s) := by
  rcases onShelf_setOpacity id opacity role with hon | ⟨hnumber, hon⟩
  · rw [hon]
  · rcases onShelf_setOpacity id' opacity' role with hon' | ⟨hnumber', hon'⟩
    · rw [hon']
    · rw [hon, hon']
      refine (Shelf.pointwise_setOpacity hnumber id).swap
        (Shelf.pointwise_setOpacity hnumber' id') h (fun spec => ?_) fun l => ?_
      · grind [LayerSpec.id_setOpacity]
      · grind [Layer.id_setOpacity]

/-- Two operations that do not end with mirroring may be swapped. -/
theorem Operation.onShelf_onShelf_of_not_mirrors (h : s.Distinct) (hab : ¬ a.Overrides b)
    (ha : a.mirrors = false) (hb : b.mirrors = false) :
    b.onShelf role (a.onShelf role s) = a.onShelf role (b.onShelf role s) := by
  cases a with
  | setVisible | reorder | sync => cases ha
  | setPeriod p =>
    cases b with
    | setVisible | reorder | sync => cases hb
    | setPeriod p' => exact absurd (.period p p') hab
    | setOpacity id opacity => exact (setPeriod_setOpacity h p id opacity).symm
  | setOpacity id opacity =>
    cases b with
    | setVisible | reorder | sync => cases hb
    | setPeriod p => exact setPeriod_setOpacity h p id opacity
    | setOpacity id' opacity' =>
      have hid : id ≠ id' := by
        rintro rfl
        exact hab (.opacity id opacity opacity')
      exact setOpacity_setOpacity h hid opacity opacity'

/-- **Operations that do not override each other may be swapped on a shelf.** -/
theorem Operation.onShelf_onShelf (h : s.Distinct) (hab : ¬ a.Overrides b) :
    b.onShelf role (a.onShelf role s) = a.onShelf role (b.onShelf role s) := by
  cases ha : a.mirrors with
  | true =>
    cases hb : b.mirrors with
    | true => exact onShelf_onShelf_of_mirrors h hab ha hb
    | false => exact (onShelf_patch (patch_onShelf hb role) h ha).symm
  | false =>
    cases hb : b.mirrors with
    | true => exact onShelf_patch (patch_onShelf ha role) h hb
    | false => exact onShelf_onShelf_of_not_mirrors h hab ha hb

end

/-! ## Operations on a catalog -/

/-- No id stands twice on a shelf. -/
def Distinct (c : Catalog) : Prop := ∀ role, (c.shelf role).Distinct

/-- What an operation answers. -/
inductive Answer where
  /-- Whether there was such a layer. -/
  | found (b : Bool)
  /-- How many layers were told. -/
  | told (n : Nat)
  | nothing
  deriving DecidableEq

/-- The answer of an operation. -/
def answer (c : Catalog) : Operation → Answer
  | .setVisible role id visible => .found (c.setVisible role id visible).2
  | .setOpacity id opacity => .found (c.setOpacity id opacity).2
  | .setPeriod p => .told (c.setPeriod p).2
  | .reorder _ | .sync _ => .nothing

/-- **No operation changes the answer of another one.** -/
theorem answer_apply (c : Catalog) (a b : Operation) : (c.apply a).answer b = c.answer b := by
  have halike : ∀ role, (c.shelf role).Alike ((c.apply a).shelf role) := by
    intro role
    rw [shelf_apply]
    exact a.alike_onShelf role _
  cases b with
  | setVisible role id visible =>
    have hfound : ∀ c : Catalog, (c.setVisible role id visible).2 = (c.shelf role).hasSpec id :=
      fun c => Shelf.setVisible_snd role id visible _
    rw [answer, answer, hfound, hfound, (halike role).hasSpec]
  | setOpacity id opacity =>
    exact congrArg Answer.found ((halike .product).setOpacity_snd id opacity)
  | setPeriod p =>
    have htold : ∀ c : Catalog, (c.setPeriod p).2 = ((c.shelf .base).setTime p.interval).2 +
        ((c.shelf .product).setTime p.interval).2 + ((c.shelf .overlay).setTime p.interval).2 :=
      fun c => rfl
    rw [answer, answer, htold, htold, (halike .base).setTime_snd, (halike .product).setTime_snd,
      (halike .overlay).setTime_snd]
  | reorder | sync => rfl

/-- **Operations that do not override each other may be swapped:** both orders lead to the same
catalog, and each of the two gives the same answer in both. -/
theorem apply_comm {c : Catalog} (h : c.Distinct) {a b : Operation} (hab : ¬ a.Overrides b) :
    (c.apply a).apply b = (c.apply b).apply a ∧ (c.apply a).answer b = c.answer b ∧
      (c.apply b).answer a = c.answer a := by
  refine ⟨ext_shelf fun role => ?_, c.answer_apply a b, c.answer_apply b a⟩
  simp only [shelf_apply]
  exact Operation.onShelf_onShelf (h role) hab

/-- The specification of one layer is gone, and the others are shown without their layers having
caught up. -/
theorem apply_comm_with_orphan :
    let start := create [] [.create "ndvi" .wms ["n"], .create "sst" .wmts ["s"],
      .create "wind" .wms ["w"]] []
    let c := start.editSpecs .product fun specs => (specs.drop 1).map (LayerSpec.setVisible true)
    let fade : Operation := .setOpacity "sst" 0.25
    let sort : Operation := .reorder .product
    c.Distinct ∧ ¬ fade.Overrides sort ∧ (c.apply fade).apply sort = (c.apply sort).apply fade ∧
      (c.apply fade).answer sort = c.answer sort ∧ (c.apply sort).answer fade = c.answer fade := by
  intro start c fade sort
  have hdistinct : c.Distinct := by
    intro role
    cases role with
    | base | product | overlay => exact ⟨by decide +kernel, by decide +kernel⟩
  have hswap : ¬ (Operation.setOpacity "sst" 0.25).Overrides (.reorder .product) := nofun
  exact ⟨hdistinct, hswap, apply_comm hdistinct hswap⟩

end Catalog
end Atlas
