import Atlas.Proofs.Layer.CatalogRun
import Mathlib.Data.List.Induction
import Mathlib.Data.Nat.PSub

/-!
# How layers are stacked

Sorting a role puts its layers in the order of the specifications. The specifications come from the
top and the layers from the bottom, so a layer lies the lower, the further behind its id stands in
the list; of an id that stands several times, the last place counts. Layers without a specification
lie on top of the others. Layers that may lie either way keep their order: those with one id, and
those without a specification.

The ranks by which layers are sorted are kept in a table by id. A specification at a place gets the
number of the places behind it, which is a subtraction of whole numbers, and a later specification
takes the row of an earlier one with its id.

## Main statements

* `Shelf.rank?_eq_some_iff` — the rank of an id is the number of places behind its last one
* `Shelf.exists_rankTable?` — the table of ranks can always be made, and holds the ranks
* `Shelf.stacked_sort` — the order of the sorted layers
* `Catalog.reorder_stacks` — how the layers of a role are stacked after it was sorted
-/

namespace Atlas

/-- **Sorting keeps the order of the elements that satisfy a condition,** if each of them may stand
before each other one. -/
theorem filter_mergeSort {α : Type} {le : α → α → Bool}
    (htrans : ∀ a b c, le a b = true → le b c = true → le a c = true)
    (htotal : ∀ a b, (le a b || le b a) = true) {p : α → Bool}
    (h : ∀ a b, p a = true → p b = true → le a b = true) (xs : List α) :
    (xs.mergeSort le).filter p = xs.filter p := by
  have hpairwise : (xs.filter p).Pairwise (fun a b => le a b = true) :=
    List.pairwise_of_forall_mem_list fun a ha b hb =>
      h a b (List.mem_filter.1 ha).2 (List.mem_filter.1 hb).2
  have hsub := (List.sublist_mergeSort htrans htotal hpairwise List.filter_sublist).filter p
  rw [List.filter_filter] at hsub
  simp only [Bool.and_self] at hsub
  exact (hsub.eq_of_length ((List.mergeSort_perm xs le).filter p).length_eq.symm).symm

namespace Shelf

/-! ## Places and ranks -/

/-- A place of the list is the last one at which an id stands. -/
def IsLastPlace (specs : List LayerSpec) (id : String) (i : Nat) : Prop :=
  specs[i]?.map LayerSpec.id = some id ∧ ∀ j, i < j → specs[j]?.map LayerSpec.id ≠ some id

theorem IsLastPlace.lt {specs : List LayerSpec} {id : String} {i : Nat}
    (h : IsLastPlace specs id i) : i < specs.length := by
  obtain ⟨spec, hspec, -⟩ := Option.map_eq_some_iff.1 h.1
  exact (List.getElem?_eq_some_iff.1 hspec).1

theorem isLastPlace_concat {specs : List LayerSpec} {spec : LayerSpec} {id : String} {i : Nat} :
    IsLastPlace (specs ++ [spec]) id i ↔
      if spec.id = id then i = specs.length else IsLastPlace specs id i := by
  have hlast : (specs ++ [spec])[specs.length]?.map LayerSpec.id = some spec.id := by simp
  have hbefore : ∀ j, j ≠ specs.length → (specs ++ [spec])[j]? = specs[j]? := by grind
  split
  · next hid =>
    -- no place before the end is the last one, and no place behind it holds anything
    constructor
    · rintro ⟨hfound, hbehind⟩
      grind
    · rintro rfl
      grind [IsLastPlace]
  · next hid => grind [IsLastPlace]

theorem rank?_concat (specs : List LayerSpec) (spec : LayerSpec) (id : String) :
    rank? (specs ++ [spec]) id = if spec.id = id then some 0 else (rank? specs id).map (· + 1) := by
  rw [rank?, rank?, List.reverse_append, List.reverse_singleton, List.singleton_append,
    List.findIdx?_cons]
  simp only [beq_iff_eq]

theorem rank?_eq_none_iff {specs : List LayerSpec} {id : String} :
    rank? specs id = none ↔ id ∉ specs.map LayerSpec.id := by
  simp [rank?, List.findIdx?_eq_none_iff]

/-- **The rank of an id is the number of places behind its last one.** -/
theorem rank?_eq_some_iff {specs : List LayerSpec} {id : String} {r : Nat} :
    rank? specs id = some r ↔ ∃ i, IsLastPlace specs id i ∧ r + (i + 1) = specs.length := by
  induction specs using List.reverseRecOn generalizing r with
  | nil => simp [rank?, IsLastPlace]
  | append_singleton specs spec ih =>
    rw [rank?_concat, List.length_append, List.length_singleton]
    simp only [isLastPlace_concat]
    split
    · rw [Option.some_inj]
      constructor
      · rintro rfl
        exact ⟨specs.length, rfl, Nat.zero_add _⟩
      · rintro ⟨i, rfl, hsum⟩
        omega
    · rw [Option.map_eq_some_iff]
      constructor
      · rintro ⟨r, hr, rfl⟩
        obtain ⟨i, hi, hsum⟩ := ih.1 hr
        exact ⟨i, hi, by omega⟩
      · rintro ⟨i, hi, hsum⟩
        have hlt := hi.lt
        exact ⟨specs.length - (i + 1), ih.2 ⟨i, hi, by omega⟩, by omega⟩

/-! ## The table of ranks -/

/-- The table of the numbers of places behind each specification, up to the given number of
places. There is none if a specification stands behind these places. -/
def rankTable? (count : Nat) (specs : List LayerSpec) : Option (Keyed Nat) :=
  specs.zipIdx.foldlM
    (fun table row => (count.psub (row.2 + 1)).map (Keyed.insert row.1.id · table)) []

/-- **The table of ranks can always be made, and holds the ranks,** more by the number of places
behind the last specification. -/
theorem exists_rankTable? {count : Nat} {specs : List LayerSpec} (h : specs.length ≤ count) :
    ∃ table, rankTable? count specs = some table ∧ ∀ id,
      Keyed.lookup id table = (rank? specs id).map (· + (count - specs.length)) := by
  induction specs using List.reverseRecOn with
  | nil => exact ⟨[], rfl, fun _ => rfl⟩
  | append_singleton specs spec ih =>
    rw [List.length_append, List.length_singleton] at h
    obtain ⟨table, htable, hlookup⟩ := ih (by omega)
    refine ⟨Keyed.insert spec.id (count - (specs.length + 1)) table, ?_, fun id => ?_⟩
    · have hrow : (specs ++ [spec]).zipIdx = specs.zipIdx ++ [(spec, specs.length)] := by
        rw [List.zipIdx_append, Nat.zero_add]
        rfl
      rw [rankTable?] at htable ⊢
      rw [hrow, List.foldlM_append, htable]
      show Option.map _ (Nat.psub _ _) >>= pure = _
      rw [bind_pure, Nat.psub_eq_sub h]
      rfl
    · rw [Keyed.lookup_insert, rank?_concat, hlookup, List.length_append, List.length_singleton]
      by_cases hid : spec.id = id
      · rw [if_pos hid.symm, if_pos hid, Option.map_some, Nat.zero_add]
      · rw [if_neg (Ne.symm hid), if_neg hid, Option.map_map]
        refine congrArg (fun f => Option.map f (rank? specs id)) (funext fun r => ?_)
        show r + (count - specs.length) = r + 1 + (count - (specs.length + 1))
        omega

/-! ## The order of the layers -/

/-- A layer with one id has to lie below a layer with another one: only the former has a
specification, or the last specification with the former id stands behind the last one with the
latter. -/
def MustLieBelow (specs : List LayerSpec) (id id' : String) : Prop :=
  id ∈ specs.map LayerSpec.id ∧ id' ∉ specs.map LayerSpec.id ∨
    ∃ i j : Nat, IsLastPlace specs id i ∧ IsLastPlace specs id' j ∧ j < i

/-- How specifications stack the layers of a role, bottom to top. The layers are those from before,
but for what they take over from their specifications. The layers with one id have kept their
order, and so have the layers without a specification. -/
structure Stacked (specs : List LayerSpec) (before after : List Layer) : Prop where
  perm : (after.map Layer.unshown).Perm (before.map Layer.unshown)
  ordered : ∀ (p q : Nat) (a b : Layer), after[p]? = some a → after[q]? = some b →
    MustLieBelow specs a.id b.id → p < q
  same_id : ∀ id, (after.filter (fun l => l.id = id)).map Layer.unshown =
    (before.filter (fun l => l.id = id)).map Layer.unshown
  unknown : (after.filter (fun l => l.id ∉ specs.map LayerSpec.id)).map Layer.unshown =
    (before.filter (fun l => l.id ∉ specs.map LayerSpec.id)).map Layer.unshown

section
variable {specs : List LayerSpec}

theorem rankLE_self (r : Option Nat) : rankLE r r = true := by
  simpa using rankLE_total r r

theorem IsLastPlace.eq {id : String} {i j : Nat} (hi : IsLastPlace specs id i)
    (hj : IsLastPlace specs id j) : i = j :=
  Nat.le_antisymm (not_lt.1 fun hlt => hj.2 i hlt hi.1) (not_lt.1 fun hlt => hi.2 j hlt hj.1)

/-- A layer has to lie below another one if its rank is the lower one. -/
theorem mustLieBelow_iff {id id' : String} :
    MustLieBelow specs id id' ↔ rankLE (rank? specs id') (rank? specs id) = false := by
  cases hr : rank? specs id with
  | none =>
    have hid := rank?_eq_none_iff.1 hr
    have hlow : rankLE (rank? specs id') none = true := by cases rank? specs id' <;> rfl
    rw [hlow]
    refine iff_of_false ?_ Bool.noConfusion
    rintro (⟨hknown, -⟩ | ⟨i, j, hi, -⟩)
    · exact hid hknown
    · have hlt := hi.lt
      rw [rank?_eq_some_iff.2 ⟨i, hi, (by omega : specs.length - (i + 1) + (i + 1) = _)⟩] at hr
      cases hr
  | some r =>
    obtain ⟨i, hi, hsum⟩ := rank?_eq_some_iff.1 hr
    have hid : id ∈ specs.map LayerSpec.id := by
      by_contra hid
      rw [rank?_eq_none_iff.2 hid] at hr
      cases hr
    cases hr' : rank? specs id' with
    | none => exact iff_of_true (.inl ⟨hid, rank?_eq_none_iff.1 hr'⟩) rfl
    | some r' =>
      obtain ⟨j, hj, hsum'⟩ := rank?_eq_some_iff.1 hr'
      rw [rankLE, decide_eq_false_iff_not]
      constructor
      · rintro (⟨-, hid'⟩ | ⟨i', j', hi', hj', hlt⟩)
        · rw [rank?_eq_none_iff.2 hid'] at hr'
          cases hr'
        · obtain rfl := hi.eq hi'
          obtain rfl := hj.eq hj'
          omega
      · intro hlt
        exact .inr ⟨i, j, hi, hj, by omega⟩

theorem getElem?_lt_of_pairwise {α : Type} {le : α → α → Bool}
    (htotal : ∀ a b, (le a b || le b a) = true) {xs : List α}
    (hxs : xs.Pairwise (fun a b => le a b = true)) {p q : Nat} {a b : α} (ha : xs[p]? = some a)
    (hb : xs[q]? = some b) (hab : le b a = false) : p < q := by
  obtain ⟨hp, rfl⟩ := List.getElem?_eq_some_iff.1 ha
  obtain ⟨hq, rfl⟩ := List.getElem?_eq_some_iff.1 hb
  by_contra hge
  rcases Nat.lt_or_eq_of_le (not_lt.1 hge) with hlt | rfl
  · rw [List.pairwise_iff_getElem.1 hxs q p hq hp hlt] at hab
    cases hab
  · have hself := htotal xs[q] xs[q]
    rw [Bool.or_self, hab] at hself
    cases hself

/-- Sorting keeps the order of the layers with one id. -/
theorem filter_id_sort (s : Shelf) (id : String) :
    s.sort.layers.filter (fun l => l.id = id) = s.layers.filter (fun l => l.id = id) := by
  refine filter_mergeSort (mayLieBelow_trans s.specs) (mayLieBelow_total s.specs) ?_ s.layers
  intro a b ha hb
  rw [mayLieBelow, of_decide_eq_true ha, of_decide_eq_true hb]
  exact rankLE_self _

/-- **The order of the sorted layers.** -/
theorem stacked_sort (s : Shelf) : Stacked s.specs s.layers s.sort.layers where
  perm := (layers_sort_perm s).map Layer.unshown
  ordered p q a b ha hb hbelow :=
    getElem?_lt_of_pairwise (mayLieBelow_total s.specs) (layers_sort_pairwise s) ha hb
      (mustLieBelow_iff.1 hbelow)
  same_id id := congrArg (List.map Layer.unshown) (filter_id_sort s id)
  unknown := by
    refine congrArg (List.map Layer.unshown) ?_
    refine filter_mergeSort (mayLieBelow_trans s.specs) (mayLieBelow_total s.specs) ?_ s.layers
    intro a b ha hb
    rw [mayLieBelow, rank?_eq_none_iff.2 (of_decide_eq_true ha),
      rank?_eq_none_iff.2 (of_decide_eq_true hb)]
    rfl

theorem map_filter_unshown (p : String → Bool) {layers layers' : List Layer}
    (h : layers'.map Layer.unshown = layers.map Layer.unshown) :
    (layers'.filter (fun l => p l.id)).map Layer.unshown =
      (layers.filter (fun l => p l.id)).map Layer.unshown := by
  have hfilter : ∀ ls : List Layer, (ls.filter (fun l => p l.id)).map Layer.unshown =
      (ls.map Layer.unshown).filter (fun l => p l.id) := by
    intro ls
    rw [List.filter_map]
    rfl
  rw [hfilter, hfilter, h]

/-- What layers take over from their specifications does not matter for how they are stacked. -/
theorem Stacked.of_unshown {before after after' : List Layer} (h : Stacked specs before after)
    (hsame : after'.map Layer.unshown = after.map Layer.unshown) :
    Stacked specs before after' where
  perm := hsame ▸ h.perm
  ordered := by
    have hid : ∀ {p : Nat} {a' : Layer}, after'[p]? = some a' →
        ∃ a, after[p]? = some a ∧ a.id = a'.id := by
      intro p a' ha'
      have hplace := congrArg (fun ls => ls[p]?) hsame
      simp only [List.getElem?_map, ha'] at hplace
      obtain ⟨a, ha, hunshown⟩ := Option.map_eq_some_iff.1 hplace.symm
      exact ⟨a, ha, (congrArg Layer.id hunshown :)⟩
    intro p q a' b' ha' hb' hbelow
    obtain ⟨a, ha, hida⟩ := hid ha'
    obtain ⟨b, hb, hidb⟩ := hid hb'
    rw [← hida, ← hidb] at hbelow
    exact h.ordered p q a b ha hb hbelow
  same_id id := (map_filter_unshown (fun id' => id' = id) hsame).trans (h.same_id id)
  unknown := (map_filter_unshown (fun id => id ∉ specs.map LayerSpec.id) hsame).trans h.unknown

end

/-- **The order of the layers after a role was sorted.** -/
theorem stacked_reorder (role : Role) (s : Shelf) :
    Stacked s.specs s.layers (s.reorder role).layers :=
  (stacked_sort s).of_unshown (map_foldl_mirrorInto (fun _ _ => rfl) _ _)

/-! ## Distinct ids -/

theorem rankLE_antisymm {i j : Option Nat} (hij : rankLE i j = true) (hji : rankLE j i = true) :
    i = j := by
  cases i with
  | none =>
    cases j with
    | none => rfl
    | some j => cases hij
  | some i =>
    cases j with
    | none => cases hji
    | some j =>
      exact congrArg some (Nat.le_antisymm (of_decide_eq_true hij) (of_decide_eq_true hji))

/-- An id that stands in the list is known by its rank. -/
theorem eq_of_rank?_eq {specs : List LayerSpec} {id id' : String}
    (hid : id ∈ specs.map LayerSpec.id) (h : rank? specs id = rank? specs id') : id = id' := by
  cases hr : rank? specs id with
  | none => exact absurd hid (rank?_eq_none_iff.1 hr)
  | some r =>
    obtain ⟨i, hi, hsum⟩ := rank?_eq_some_iff.1 hr
    obtain ⟨j, hj, hsum'⟩ := rank?_eq_some_iff.1 (h ▸ hr)
    obtain rfl : i = j := by omega
    exact Option.some_inj.1 (hi.1.symm.trans hj.1)

/-- Where ids are distinct, the ranks fall along the list of specifications. -/
theorem pairwise_rank {specs : List LayerSpec} (h : (specs.map LayerSpec.id).Nodup) :
    (specs.map LayerSpec.id).Pairwise
      (fun id id' => rankLE (rank? specs id') (rank? specs id) = true) := by
  induction specs using List.reverseRecOn with
  | nil => exact .nil
  | append_singleton specs spec ih =>
    rw [List.map_append, List.map_singleton] at h ⊢
    obtain ⟨hspecs, -, hlast⟩ := List.nodup_append.1 h
    have hrank : ∀ id ∈ specs.map LayerSpec.id,
        rank? (specs ++ [spec]) id = (rank? specs id).map (· + 1) := by
      intro id hid
      rw [rank?_concat, if_neg (hlast id hid spec.id List.mem_cons_self).symm]
    refine List.pairwise_append.2 ⟨(ih hspecs).imp_of_mem ?_, List.pairwise_singleton _ _, ?_⟩
    · intro id id' hid hid' hle
      rw [hrank id hid, hrank id' hid']
      cases hr : rank? specs id <;> cases hr' : rank? specs id' <;> simp_all [rankLE]
    · intro id hid id' hid'
      rw [List.mem_singleton.1 hid', rank?_concat, if_pos rfl, hrank id hid]
      cases rank? specs id with
      | none => rfl
      | some r => exact decide_eq_true (Nat.zero_le (r + 1))

/-- **Where ids are distinct and every layer has a specification, the layers lie in the order of
the specifications,** the first one on top. -/
theorem Paired.ids_reorder {s : Shelf} (h : s.Paired) (role : Role) : (s.reorder role).ids =
    ((s.specs.map LayerSpec.id).filter (fun id => id ∈ s.ids)).reverse := by
  have hperm : s.sort.ids.Perm s.ids := (layers_sort_perm s).map Layer.id
  have hsorted : s.sort.ids.Pairwise
      (fun id id' => rankLE (rank? s.specs id) (rank? s.specs id') = true) :=
    List.pairwise_map.2 (layers_sort_pairwise s)
  have hlisted := List.pairwise_reverse.2
    ((pairwise_rank h.specs_nodup).filter (fun id => id ∈ s.ids))
  have hsame : s.sort.ids.Perm
      ((s.specs.map LayerSpec.id).filter (fun id => id ∈ s.ids)).reverse := by
    refine hperm.trans ((List.perm_ext_iff_of_nodup h.layers_nodup ?_).2 fun id => ?_)
    · exact List.nodup_reverse.2 (h.specs_nodup.filter _)
    · rw [List.mem_reverse, List.mem_filter, decide_eq_true_iff]
      exact ⟨fun hid => ⟨h.known hid, hid⟩, And.right⟩
  show (s.sort.sync role).ids = _
  rw [ids_sync]
  refine hsame.eq_of_pairwise (fun id id' hid _ hle hge => ?_) hsorted hlisted
  exact eq_of_rank?_eq (h.known (hperm.mem_iff.1 hid)) (rankLE_antisymm hle hge)

end Shelf

namespace Catalog

/-- **How the layers of a role are stacked after it was sorted.** Where no id stands twice and every
layer has a specification, their ids from bottom to top are those of the specifications that have
a layer, from the last one to the first. The ranks can always be computed, and the table holds those
by which the layers were sorted. -/
theorem reorder_stacks (c : Catalog) (role : Role) :
    Shelf.Stacked (c.specs role) (c.layers role) ((c.reorder role).layers role) ∧
      ((c.shelf role).Paired → ((c.reorder role).shelf role).ids =
        (((c.specs role).map LayerSpec.id).filter (fun id => id ∈ (c.shelf role).ids)).reverse) ∧
      ∃ table, Shelf.rankTable? (c.specs role).length (c.specs role) = some table ∧
        ∀ id, Keyed.lookup id table = Shelf.rank? (c.specs role) id := by
  have hshelf : (c.reorder role).shelf role = (c.shelf role).reorder role :=
    shelf_withShelf_self c role _
  obtain ⟨table, htable, hlookup⟩ :=
    Shelf.exists_rankTable? (Nat.le_refl (c.specs role).length)
  refine ⟨?_, fun hpaired => ?_, table, htable, fun id => ?_⟩
  · rw [layers, layers, hshelf]
    exact Shelf.stacked_reorder role (c.shelf role)
  · rw [hshelf]
    exact hpaired.ids_reorder role
  · rw [hlookup, Nat.sub_self]
    exact congrFun Option.map_id _

/-- The product in the middle has no layer. -/
theorem reorder_stacks_three :
    let products := [.create "ndvi" .wms ["n"], .create "grid" (.unsupported "XYZ") ["g"],
      LayerSpec.create "sst" .wmts ["s"]]
    let c := create [] products []
    (c.shelf .product).Paired ∧ (c.shelf .product).ids = ["ndvi", "sst"] ∧
      ((c.reorder .product).shelf .product).ids = ["sst", "ndvi"] := by
  intro products c
  have hpaired : (c.shelf .product).Paired :=
    (Shelf.inStep_build .product .geographic (by decide)).toPaired
  exact ⟨hpaired, by decide +kernel,
    ((reorder_stacks c .product).2.1 hpaired).trans (by decide +kernel)⟩

end Catalog
end Atlas
