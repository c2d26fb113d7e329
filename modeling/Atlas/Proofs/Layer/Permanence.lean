import Atlas.Proofs.Layer.Timing
import Mathlib.Data.List.Forall2
import Mathlib.Data.List.Perm.Basic

/-!
# Layers stay

The layers of a catalog are built once. After that none is lost, none is added, and none changes
its role, whatever the catalog goes through: its operations, and edits of its specifications of any
kind, with which the layers may never catch up. Ids may stand several times.

A layer keeps its id, its attribution, and its source but for the time and the revision; this is
its core. The revision goes one further with each time that the layer is told, and grows until its
64 bits are used up; then it starts again. The layers of a role change their order only when the
role is sorted.

Each change writes into layers at their places, or sorts them. So it relates the layers before and
after it one by one, after a rearrangement if it sorts, and this goes on along a run. The number of
times that a layer may have been told a time since is part of the relation, and adds up.

## Main statements

* `Catalog.advance_change`, `Catalog.rearrange_change` — what a change does to the layers
* `Catalog.lasting` — the layers of every run are those that were built
* `Catalog.revision_starts_again` — a layer that was told 2^64 times has revision zero again
-/

namespace Atlas

/-! ## The core of a layer -/

/-- What a layer keeps: its id and its attribution, the service of its source, and the table of the
source without the time. -/
structure Layer.Core where
  id : String
  attribution : Option String
  service : Service
  params : List (String × String)
  deriving DecidableEq

/-- The core of a layer. -/
def Layer.core (l : Layer) : Core :=
  ⟨l.id, l.attribution, l.source.service, l.source.params.filter (·.1 ≠ TileSource.timeKey)⟩

/-- The core of the layer that is built for a specification, if one is. -/
def LayerSpec.core? (spec : LayerSpec) : Option Layer.Core :=
  (Layer.ofSpec? .geographic spec).map Layer.core

/-- Whether a specification has a known protocol and an address. -/
def LayerSpec.isDrawable (spec : LayerSpec) : Bool :=
  spec.protocol.isSupported && !spec.urls.isEmpty

/-- A layer is the same one as before: it has kept its core, and if it has an id of a certain kind,
its revision has not decreased. -/
structure Layer.Persists (few : String → Prop) (l l' : Layer) : Prop where
  core : l'.core = l.core
  revision : few l.id → l.source.revision ≤ l'.source.revision

/-- A layer is the same one as before, and was told a time since, at most as often as a number for
its id says. -/
structure Layer.Advances (n : String → Nat) (l l' : Layer) : Prop where
  core : l'.core = l.core
  revision : ∃ k ≤ n l.id, l'.source.revision = (l.source.revision + k) % UInt64.size

/-- Writing a row leaves the rows of other keys alone. -/
theorem Keyed.filter_insert {β : Type} (k : String) (v : β) (t : Keyed β) :
    (Keyed.insert k v t).filter (·.1 ≠ k) = t.filter (·.1 ≠ k) := by
  induction t with
  | nil => simp [Keyed.insert]
  | cons row t ih =>
    obtain ⟨k', v'⟩ := row
    rw [Keyed.insert]
    split
    · simp
    · split
      · next h => simp [h]
      · rw [List.filter_cons, List.filter_cons, ih]

namespace Layer

variable {n n' : String → Nat} {l l' l'' : Layer}

theorem Advances.id_eq (h : l.Advances n l') : l'.id = l.id := congrArg Core.id h.core

theorem Advances.refl (l : Layer) : l.Advances (fun _ => 0) l :=
  ⟨rfl, 0, Nat.le_refl 0, (Nat.mod_eq_of_lt l.source.revision_lt).symm⟩

theorem Advances.mono (h : l.Advances n l') (hn : n l.id ≤ n' l.id) : l.Advances n' l' := by
  obtain ⟨k, hk, hrevision⟩ := h.revision
  exact ⟨h.core, k, Nat.le_trans hk hn, hrevision⟩

theorem Advances.trans (h : l.Advances n l') (h' : l'.Advances n' l'') :
    l.Advances (fun id => n id + n' id) l'' := by
  obtain ⟨k, hk, hrevision⟩ := h.revision
  obtain ⟨k', hk', hrevision'⟩ := h'.revision
  rw [h.id_eq] at hk'
  refine ⟨h'.core.trans h.core, k + k', Nat.add_le_add hk hk', ?_⟩
  rw [hrevision', hrevision, Nat.mod_add_mod, Nat.add_assoc]

/-- A layer whose counter has room for what it was told has not gone back. -/
theorem Advances.persists {few : String → Prop} (h : l.Advances n l')
    (hroom : few l.id → l.source.revision + n l.id < UInt64.size) : l.Persists few l' := by
  refine ⟨h.core, fun hfew => ?_⟩
  obtain ⟨k, hk, hrevision⟩ := h.revision
  rw [hrevision, Nat.mod_eq_of_lt (Nat.lt_of_le_of_lt (Nat.add_le_add_left hk _) (hroom hfew))]
  exact Nat.le_add_right _ k

theorem advances_mirror (spec : LayerSpec) (l : Layer) : l.Advances (fun _ => 0) (l.mirror spec) :=
  ⟨rfl, (Advances.refl l).revision⟩

theorem advances_setOpacity (opacity : Float) (l : Layer) :
    l.Advances (fun _ => 0) (l.setOpacity opacity) := ⟨rfl, (Advances.refl l).revision⟩

/-- Telling a layer a time takes it one revision further and writes nothing but the time. -/
theorem advances_setTime (interval : String) (l : Layer) :
    l.Advances (fun _ => 1) (l.setTime interval) where
  core := congrArg (Core.mk l.id l.attribution l.source.service)
    (Keyed.filter_insert TileSource.timeKey interval l.source.params)
  revision := ⟨1, Nat.le_refl 1, TileSource.revision_setTime l.source interval⟩

/-- A layer is built for exactly the specifications with a known protocol and an address. -/
theorem isSome_ofSpec? (grid : TileGrid) (spec : LayerSpec) :
    (ofSpec? grid spec).isSome = spec.isDrawable := by
  rw [ofSpec?, Option.isSome_map, TileSource.isSome_ofSpec?]
  rfl

end Layer

/-- Hiding a specification does not change the core of its layer. -/
theorem LayerSpec.core?_hide (spec : LayerSpec) : spec.hide.core? = spec.core? := by
  rw [core?, core?, Layer.ofSpec?, Layer.ofSpec?, Option.map_map, Option.map_map]
  rfl

/-- Bringing specifications in order changes neither which of them satisfy a condition nor what they
are, as far as hiding one does not. -/
theorem map_filter_settle {β : Type} {p : LayerSpec → Bool} {g : LayerSpec → β}
    (hp : ∀ spec, p spec.hide = p spec) (hg : ∀ spec, g spec.hide = g spec) (role : Role)
    (specs : List LayerSpec) :
    ((settle role specs).filter p).map g = (specs.filter p).map g := by
  have hrows : ∀ specs : List LayerSpec, (specs.filter p).map g =
      ((specs.map (fun spec => (p spec, g spec))).filter Prod.fst).map Prod.snd := by
    intro specs
    rw [List.filter_map, List.map_map]
    rfl
  rw [hrows, map_settle (fun spec => Prod.ext (hp spec) (hg spec)), ← hrows]

/-! ## Layers one by one -/

/-- The layers are the same as before and stand in the same order. They have been told a time at
most as often as a number for each id says. -/
def Advance (n : String → Nat) (layers layers' : List Layer) : Prop :=
  List.Forall₂ (Layer.Advances n) layers layers'

/-- After a rearrangement the layers are related to those before, one by one. -/
def Rearrange (R : Layer → Layer → Prop) (layers layers' : List Layer) : Prop :=
  ∃ arranged, arranged.Perm layers' ∧ List.Forall₂ R layers arranged

section
variable {n n' : String → Nat} {layers layers' layers'' : List Layer}

theorem Advance.refl (layers : List Layer) : Advance (fun _ => 0) layers layers :=
  List.forall₂_same.2 fun l _ => .refl l

theorem Advance.mono (h : Advance n layers layers') (hn : ∀ id, n id ≤ n' id) :
    Advance n' layers layers' := List.Forall₂.imp (fun _ _ hl => hl.mono (hn _)) h

theorem Advance.trans (h : Advance n layers layers') (h' : Advance n' layers' layers'') :
    Advance (fun id => n id + n' id) layers layers'' := by
  induction h generalizing layers'' with
  | nil =>
    cases h'
    exact .nil
  | cons hl _ ih =>
    cases h' with
    | cons hl' hls' => exact .cons (hl.trans hl') (ih hls')

theorem Advance.imp_of_mem {R : Layer → Layer → Prop} (h : Advance n layers layers')
    (hR : ∀ l ∈ layers, ∀ l', l.Advances n l' → R l l') : List.Forall₂ R layers layers' := by
  induction h with
  | nil => exact .nil
  | cons hl _ ih =>
    obtain ⟨hhead, htail⟩ := List.forall_mem_cons.1 hR
    exact .cons (hhead _ hl) (ih htail)

theorem Advance.rearrange (h : Advance n layers layers') :
    Rearrange (Layer.Advances n) layers layers' := ⟨layers', .refl _, h⟩

theorem Rearrange.trans (h : Rearrange (Layer.Advances n) layers layers')
    (h' : Rearrange (Layer.Advances n') layers' layers'') :
    Rearrange (Layer.Advances fun id => n id + n' id) layers layers'' := by
  obtain ⟨arranged, hperm, hlayers⟩ := h
  obtain ⟨arranged', hperm', hlayers'⟩ := h'
  -- the second arrangement is made of the first one, and not of what stands behind it
  obtain ⟨arranged'', hlayers'', hperm''⟩ := List.perm_comp_forall₂ hperm hlayers'
  exact ⟨arranged'', hperm''.trans hperm', Advance.trans hlayers hlayers''⟩

theorem Advance.map_core (h : Advance n layers layers') :
    layers'.map Layer.core = layers.map Layer.core := by
  induction h with
  | nil => rfl
  | cons hl _ ih => rw [List.map_cons, List.map_cons, hl.core, ih]

theorem Rearrange.map_core (h : Rearrange (Layer.Advances n) layers layers') :
    (layers'.map Layer.core).Perm (layers.map Layer.core) := by
  obtain ⟨arranged, hperm, hlayers⟩ := h
  rw [← Advance.map_core hlayers]
  exact (hperm.map Layer.core).symm

/-- Each of the rearranged layers comes from one before. -/
theorem Rearrange.exists_of_mem {R : Layer → Layer → Prop} (h : Rearrange R layers layers')
    {l' : Layer} (hl' : l' ∈ layers') : ∃ l ∈ layers, R l l' := by
  obtain ⟨arranged, hperm, hlayers⟩ := h
  replace hl' := hperm.mem_iff.2 hl'
  clear hperm
  induction hlayers with
  | nil => cases hl'
  | cons hl _ ih =>
    rcases List.mem_cons.1 hl' with rfl | hl'
    · exact ⟨_, List.mem_cons_self, hl⟩
    · obtain ⟨l, hmem, hR⟩ := ih hl'
      exact ⟨l, List.mem_cons_of_mem _ hmem, hR⟩

/-- Changing the first layer with an id reaches no layer with another one. -/
theorem advance_updateFirst {id : String} {f : Layer → Layer} {m : Nat}
    (hf : ∀ l : Layer, l.Advances (fun _ => m) (f l)) (layers : List Layer) :
    Advance (fun id' => if id' = id then m else 0) layers
      (updateFirst (fun l => l.id == id) f layers) := by
  induction layers with
  | nil => exact .nil
  | cons l ls ih =>
    rw [updateFirst]
    split
    · next hid =>
      have hl : (if l.id = id then m else 0) = m := if_pos (beq_iff_eq.1 hid)
      exact .cons ((hf l).mono (Nat.le_of_eq hl.symm))
        ((Advance.refl ls).mono fun _ => Nat.zero_le _)
    · exact .cons ((Layer.Advances.refl l).mono (Nat.zero_le _)) ih

/-- What one specification after the other does to the layers with its id adds up. -/
theorem advance_foldl {f : List Layer → LayerSpec → List Layer} {m : Nat}
    (hf : ∀ layers spec, Advance (fun id => if id = spec.id then m else 0) layers (f layers spec))
    (specs : List LayerSpec) (layers : List Layer) :
    Advance (fun id => m * specs.countP (fun spec => spec.id == id)) layers
      (specs.foldl f layers) := by
  induction specs generalizing layers with
  | nil => exact Advance.refl layers
  | cons spec specs ih =>
    refine ((hf layers spec).trans (ih (f layers spec))).mono fun id => ?_
    rw [List.countP_cons, Nat.mul_add, Nat.add_comm]
    refine Nat.add_le_add_left ?_ _
    split
    · next hid => simp [hid]
    · exact Nat.zero_le _

end

namespace Shelf

theorem advance_sync (role : Role) (s : Shelf) :
    Advance (fun _ => 0) s.layers (s.sync role).layers :=
  (advance_foldl (fun _ spec => advance_updateFirst (Layer.advances_mirror spec) _) _ _).mono
    fun _ => Nat.le_of_eq (Nat.zero_mul _)

/-- A time is told to the layers with an id once for each specification that follows the time. -/
theorem advance_setTime (interval : String) (s : Shelf) :
    Advance (fun id => (s.specs.filter LayerSpec.timeEnabled).countP (fun spec => spec.id == id))
      s.layers (s.setTime interval).1.layers :=
  (advance_foldl (fun _ _ => advance_updateFirst (Layer.advances_setTime interval) _) _ _).mono
    fun _ => Nat.le_of_eq (Nat.one_mul _)

theorem advance_setVisible (role : Role) (id : String) (visible : Bool) (s : Shelf) :
    Advance (fun _ => 0) s.layers (s.setVisible role id visible).1.layers := by
  rw [setVisible]
  split
  · exact advance_sync role { s with specs := s.specs.map (setSpecVisible role id visible) }
  · exact .refl _

theorem advance_setOpacity (id : String) (opacity : Float) (s : Shelf) :
    Advance (fun _ => 0) s.layers (s.setOpacity id opacity).1.layers := by
  rw [setOpacity]
  split
  · exact .refl _
  · exact (advance_updateFirst (Layer.advances_setOpacity _) _).mono
      fun _ => Nat.le_of_eq (ite_self 0)

theorem rearrange_reorder (role : Role) (s : Shelf) :
    Rearrange (Layer.Advances fun _ => 0) s.layers (s.reorder role).layers :=
  Rearrange.trans ⟨s.layers, (layers_sort_perm s).symm, Advance.refl _⟩
    (advance_sync role s.sort).rearrange

/-- A new shelf has a layer for each specification with a known protocol and an address, in the
order of the specifications. -/
theorem map_core_build (role : Role) (specs : List LayerSpec) :
    (build role .geographic specs).layers.map (fun l => some l.core) =
      (specs.filter LayerSpec.isDrawable).map LayerSpec.core? := by
  have hlayers : ∀ specs : List LayerSpec,
      (specs.filterMap (Layer.ofSpec? .geographic)).map (fun l => some l.core) =
        (specs.filter LayerSpec.isDrawable).map LayerSpec.core? := by
    intro specs
    induction specs with
    | nil => rfl
    | cons spec specs ih =>
      rw [List.filterMap_cons, List.filter_cons, ← Layer.isSome_ofSpec? .geographic]
      cases hl : Layer.ofSpec? .geographic spec with
      | none => exact ih
      | some l =>
        have hcore : spec.core? = some l.core := congrArg (Option.map Layer.core) hl
        show some l.core :: _ = List.map LayerSpec.core? (spec :: _)
        rw [ih, List.map_cons, hcore]
  rw [build, hlayers]
  exact map_filter_settle (fun _ => rfl) LayerSpec.core?_hide role specs

end Shelf

namespace Catalog

/-! ## Runs -/

/-- What a catalog can go through: an operation, or any edit of the specifications of a role. -/
inductive Change where
  | operation (op : Operation)
  | edit (role : Role) (edit : List LayerSpec → List LayerSpec)

/-- The catalog after a change. -/
def change (c : Catalog) : Change → Catalog
  | .operation op => c.apply op
  | .edit role edit => c.editSpecs role edit

/-- The catalog after some changes, one after the other. -/
def changeAll (c : Catalog) (changes : List Change) : Catalog := changes.foldl change c

/-- Whether a change sorts the layers of a role. -/
def Change.sorts (role : Role) : Change → Bool
  | .operation (.reorder role') => role' = role
  | .operation (.setVisible ..) | .operation (.setOpacity ..) | .operation (.setPeriod _)
  | .operation (.sync _) | .edit .. => false

/-- How often a change tells a time to a layer of a role with an id: a period is told once for each
specification with the id that follows the time. -/
def tells (c : Catalog) (role : Role) : Change → String → Nat
  | .operation (.setPeriod _), id =>
    ((c.specs role).filter LayerSpec.timeEnabled).countP (fun spec => spec.id == id)
  | .operation (.setVisible ..), _ | .operation (.setOpacity ..), _ | .operation (.reorder _), _
  | .operation (.sync _), _ | .edit .., _ => 0

/-- How often some changes, one after the other, tell a time to a layer of a role with an id. -/
def told (c : Catalog) (role : Role) : List Change → String → Nat
  | [], _ => 0
  | ch :: changes, id => c.tells role ch id + (c.change ch).told role changes id

theorem told_append (role : Role) (c : Catalog) (changes later : List Change) (id : String) :
    c.told role (changes ++ later) id =
      c.told role changes id + (c.changeAll changes).told role later id := by
  induction changes generalizing c with
  | nil => exact (Nat.zero_add _).symm
  | cons ch changes ih =>
    rw [List.cons_append, told, told, ih (c.change ch), Nat.add_assoc]
    rfl

theorem layers_editSpecs (c : Catalog) (role role' : Role)
    (edit : List LayerSpec → List LayerSpec) :
    (c.editSpecs role' edit).layers role = c.layers role := by
  cases role' with
  | base | product | overlay => cases role <;> rfl

/-- **A change that does not sort the layers of a role leaves each of them at its place,** and tells
it a time as often as its specifications ask for. -/
theorem advance_change {role : Role} {ch : Change} (h : ch.sorts role = false) (c : Catalog) :
    Advance (c.tells role ch) (c.layers role) ((c.change ch).layers role) := by
  cases ch with
  | edit role' edit =>
    rw [change, layers_editSpecs]
    exact Advance.refl _
  | operation op =>
    rw [change, layers, layers, shelf_apply]
    refine op.onShelf_cases
      (P := fun s => Advance (c.tells role (.operation op)) (c.layers role) s.layers)
      ((Advance.refl _).mono fun _ => Nat.zero_le _) ?_ ?_ ?_ ?_ ?_
    · exact fun id visible _ => (Shelf.advance_setVisible role id visible _).mono
        fun _ => Nat.zero_le _
    · exact fun id opacity _ => (Shelf.advance_setOpacity id opacity _).mono fun _ => Nat.zero_le _
    · rintro period rfl
      exact Shelf.advance_setTime period.interval _
    · rintro rfl
      exact absurd rfl (of_decide_eq_false h)
    · exact fun _ => (Shelf.advance_sync role _).mono fun _ => Nat.zero_le _

/-- **A change that sorts the layers of a role rearranges them.** -/
theorem rearrange_change (role : Role) (ch : Change) (c : Catalog) :
    Rearrange (Layer.Advances (c.tells role ch)) (c.layers role) ((c.change ch).layers role) := by
  cases h : ch.sorts role with
  | false => exact (advance_change h c).rearrange
  | true =>
    cases ch with
    | edit => cases h
    | operation op =>
      cases op with
      | setPeriod | setVisible | setOpacity | sync => cases h
      | reorder role' =>
        obtain rfl : role' = role := of_decide_eq_true h
        rw [change, layers, layers, shelf_apply, Operation.onShelf, if_pos rfl]
        exact Shelf.rearrange_reorder role' _

theorem rearrange_changeAll (role : Role) (changes : List Change) (c : Catalog) :
    Rearrange (Layer.Advances (c.told role changes)) (c.layers role)
      ((c.changeAll changes).layers role) := by
  induction changes generalizing c with
  | nil => exact (Advance.refl _).rearrange
  | cons ch changes ih => exact (rearrange_change role ch c).trans (ih (c.change ch))

theorem advance_changeAll {role : Role} {changes : List Change}
    (h : ∀ ch ∈ changes, ch.sorts role = false) (c : Catalog) :
    Advance (c.told role changes) (c.layers role) ((c.changeAll changes).layers role) := by
  induction changes generalizing c with
  | nil => exact Advance.refl _
  | cons ch changes ih =>
    obtain ⟨hch, hchanges⟩ := List.forall_mem_cons.1 h
    exact (advance_change hch c).trans (ih hchanges (c.change ch))

/-- Operations lose no layer of a role and add none. -/
theorem ids_foldl_perm (c : Catalog) (ops : List Operation) (role : Role) :
    ((ops.foldl apply c).shelf role).ids.Perm (c.shelf role).ids := by
  have hrun : c.changeAll (ops.map .operation) = ops.foldl apply c := List.foldl_map ..
  have hids : ∀ s : Shelf, s.ids = (s.layers.map Layer.core).map Layer.Core.id := by
    intro s
    rw [List.map_map]
    rfl
  rw [hids, hids, ← hrun]
  exact (rearrange_changeAll role _ c).map_core.map Layer.Core.id

theorem map_core_create (specs : Role → List LayerSpec) (role : Role) :
    ((create (specs .base) (specs .product) (specs .overlay)).layers role).map
        (fun l => some l.core) =
      ((specs role).filter LayerSpec.isDrawable).map LayerSpec.core? := by
  cases role with
  | base => exact Shelf.map_core_build .base (specs .base)
  | product => exact Shelf.map_core_build .product (specs .product)
  | overlay => exact Shelf.map_core_build .overlay (specs .overlay)

theorem revision_create {base product overlay : List LayerSpec} {role : Role} {l : Layer}
    (hl : l ∈ (create base product overlay).layers role) : l.source.revision = 0 :=
  Nat.le_zero.1 ((upToDate_create base product overlay).revision_le hl)

/-- No layer has gone further than it was told times. -/
theorem revision_le_told {specs : Role → List LayerSpec} {changes : List Change} {role : Role}
    {l : Layer} :
    let c := create (specs .base) (specs .product) (specs .overlay)
    l ∈ (c.changeAll changes).layers role → l.source.revision ≤ c.told role changes l.id := by
  intro c hl
  obtain ⟨built, hbuilt, hadvances⟩ := (rearrange_changeAll role changes c).exists_of_mem hl
  obtain ⟨k, hk, hrevision⟩ := hadvances.revision
  rw [hrevision, revision_create hbuilt, Nat.zero_add, hadvances.id_eq]
  exact Nat.le_trans (Nat.mod_le k _) hk

/-- The only layer, which follows the time, counts the periods it is told, as far as 64 bits go. -/
theorem product_replicate {spec : LayerSpec} (hspec : spec.isDrawable = true)
    (htimed : spec.timeEnabled = true) (p : Period) (n : Nat) :
    ∃ l : Layer, l.id = spec.id ∧ l.source.revision = n % UInt64.size ∧
      ((create [] [spec] []).changeAll (List.replicate n (.operation (.setPeriod p)))).product =
        ⟨[spec], [l]⟩ := by
  induction n with
  | zero =>
    rw [← Layer.isSome_ofSpec? .geographic] at hspec
    obtain ⟨l, hl⟩ := Option.isSome_iff_exists.1 hspec
    have hproduct : (create [] [spec] []).product = ⟨[spec], [l]⟩ := by
      show Shelf.mk [spec] ([spec].filterMap (Layer.ofSpec? .geographic)) = _
      rw [List.filterMap_cons, hl, List.filterMap_nil]
    have hmem : l ∈ (create [] [spec] []).layers .product := by
      rw [layers, shelf, hproduct]
      exact List.mem_singleton_self l
    exact ⟨l, Layer.id_of_ofSpec? hl, revision_create hmem, hproduct⟩
  | succ n ih =>
    obtain ⟨l, hid, hrevision, hproduct⟩ := ih
    refine ⟨l.setTime p.interval, hid, ?_, ?_⟩
    · show (l.source.setTime p.interval).revision = _
      rw [TileSource.revision_setTime, hrevision, Nat.mod_add_mod]
    · rw [List.replicate_succ', changeAll, List.foldl_append]
      show (Shelf.setTime p.interval (changeAll _ _).product).1 = _
      rw [hproduct]
      simp [Shelf.setTime, Shelf.timeInto, updateFirst, htimed, hid]

theorem map_revision_replicate {spec : LayerSpec} (hspec : spec.isDrawable = true)
    (htimed : spec.timeEnabled = true) (p : Period) (n : Nat) :
    let tell := Change.operation (.setPeriod p)
    let c := (create [] [spec] []).changeAll (List.replicate n tell)
    (c.layers .product).map (fun l => l.source.revision) = [n % UInt64.size] ∧
      ((c.change tell).layers .product).map (fun l => l.source.revision) =
        [(n + 1) % UInt64.size] := by
  intro tell c
  have hlayers : ∀ n, (((create [] [spec] []).changeAll (List.replicate n tell)).layers
      .product).map (fun l => l.source.revision) = [n % UInt64.size] := by
    intro n
    obtain ⟨l, -, hrevision, hproduct⟩ := product_replicate hspec htimed p n
    rw [layers, shelf, hproduct, List.map_singleton, hrevision]
  have hnext : c.change tell =
      (create [] [spec] []).changeAll (List.replicate (n + 1) tell) := by
    rw [List.replicate_succ', changeAll, List.foldl_append]
    rfl
  rw [hnext]
  exact ⟨hlayers n, hlayers (n + 1)⟩

/-- **The layers of every run are those that were built,** one for each specification with a known
protocol and an address, and in the order of these specifications as long as their role is not
sorted. From any moment of a run to any later one each of them stays; it keeps its place among the
layers of its role as long as the role is not sorted, and its revision does not decrease unless it
has been told a time 2^64 times since it was built. -/
theorem lasting (specs : Role → List LayerSpec) (changes later : List Change) (role : Role) :
    let start := create (specs .base) (specs .product) (specs .overlay)
    let c := start.changeAll changes
    let c' := c.changeAll later
    let built := ((specs role).filter LayerSpec.isDrawable).map LayerSpec.core?
    let few := fun id => start.told role (changes ++ later) id < UInt64.size
    ((c.layers role).map (fun l => some l.core)).Perm built ∧
      ((∀ ch ∈ changes, ch.sorts role = false) →
        (c.layers role).map (fun l => some l.core) = built) ∧
      Rearrange (Layer.Persists few) (c.layers role) (c'.layers role) ∧
      ((∀ ch ∈ later, ch.sorts role = false) →
        List.Forall₂ (Layer.Persists few) (c.layers role) (c'.layers role)) := by
  intro start c c' built few
  have hcore : ∀ layers : List Layer,
      layers.map (fun l => some l.core) = (layers.map Layer.core).map some :=
    fun layers => (List.map_map ..).symm
  have hbuilt := map_core_create specs role
  rw [hcore] at hbuilt
  -- what was told before and what is told later leave room in the counter together
  have hpersists : ∀ l ∈ c.layers role, ∀ l', l.Advances (c.told role later) l' →
      l.Persists few l' := by
    intro l hl l' hl'
    refine hl'.persists fun hfew => ?_
    have htold : start.told role changes l.id + c.told role later l.id < UInt64.size := by
      rw [← told_append]
      exact hfew
    exact Nat.lt_of_le_of_lt (Nat.add_le_add_right (revision_le_told hl) _) htold
  refine ⟨?_, fun hchanges => ?_, ?_, fun hlater => ?_⟩
  · rw [hcore]
    show List.Perm _ (((specs role).filter LayerSpec.isDrawable).map LayerSpec.core?)
    rw [← hbuilt]
    exact (rearrange_changeAll role changes _).map_core.map some
  · rw [hcore]
    show _ = ((specs role).filter LayerSpec.isDrawable).map LayerSpec.core?
    rw [← hbuilt, (advance_changeAll hchanges _).map_core]
  · obtain ⟨arranged, hperm, hlayers⟩ := rearrange_changeAll role later c
    exact ⟨arranged, hperm, Advance.imp_of_mem hlayers hpersists⟩
  · exact (advance_changeAll hlater c).imp_of_mem hpersists

/-- Two layers with one id are told periods through one specification that stands three times, and
then all specifications are taken away. -/
theorem lasting_twins :
    let ndvi := { LayerSpec.create "ndvi" .wms ["n"] with timeEnabled := true }
    let specs : Role → List LayerSpec
      | .product => [ndvi, .create "grid" (.unsupported "XYZ") ["g"], ndvi]
      | _ => []
    let june : Period := ⟨⟨⟨2024, 6, 1⟩, 0, 0, 0, 0⟩, ⟨⟨2024, 6, 30⟩, 12, 0, 0, 0⟩⟩
    let changes : List Change := [.edit .product (ndvi :: ·), .operation (.setPeriod june)]
    let later : List Change := [.operation (.setPeriod june.reverse), .edit .product fun _ => []]
    let start := create (specs .base) (specs .product) (specs .overlay)
    let c := start.changeAll changes
    let few := fun id => start.told .product (changes ++ later) id < UInt64.size
    (∀ ch ∈ changes, ch.sorts .product = false) ∧ (∀ ch ∈ later, ch.sorts .product = false) ∧
      (c.layers .product).map (fun l => some l.core) = [ndvi.core?, ndvi.core?] ∧
      (c.layers .product).map (fun l => l.source.revision) = [3, 0] ∧
      start.told .product (changes ++ later) "ndvi" = 6 ∧
      List.Forall₂ (Layer.Persists few) (c.layers .product)
        ((c.changeAll later).layers .product) := by
  intro ndvi specs june changes later start c few
  have hchanges : ∀ ch ∈ changes, ch.sorts .product = false := by decide
  have hlater : ∀ ch ∈ later, ch.sorts .product = false := by decide
  obtain ⟨-, hbuilt, -, hstays⟩ := lasting specs changes later .product
  exact ⟨hchanges, hlater, hbuilt hchanges, by decide +kernel, by decide +kernel, hstays hlater⟩

/-- **Revisions start again.** After 2^64 - 1 periods the next one takes the only layer back to
revision zero. -/
theorem revision_starts_again :
    let ndvi := { LayerSpec.create "ndvi" .wms ["n"] with timeEnabled := true }
    let june : Period := ⟨⟨⟨2024, 6, 1⟩, 0, 0, 0, 0⟩, ⟨⟨2024, 6, 30⟩, 12, 0, 0, 0⟩⟩
    let tell := Change.operation (.setPeriod june)
    let c := (create [] [ndvi] []).changeAll (List.replicate (UInt64.size - 1) tell)
    (c.layers .product).map (fun l => l.source.revision) = [18446744073709551615] ∧
      ((c.change tell).layers .product).map (fun l => l.source.revision) = [0] := by
  intro ndvi june
  have hlast : (UInt64.size - 1) % UInt64.size = 18446744073709551615 := by decide
  have hzero : (UInt64.size - 1 + 1) % UInt64.size = 0 := by decide
  rw [← hlast, ← hzero]
  exact @map_revision_replicate ndvi rfl rfl june (UInt64.size - 1)

end Catalog
end Atlas
