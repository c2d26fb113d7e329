import Atlas.Proofs.Layer.CatalogRun
import Mathlib.Algebra.GroupWithZero.Nat

/-!
# Layers follow the time

A layer that follows the time is told every period, once each, and the others are told none. A
source keeps the interval it was told last and counts the intervals, in 64 bits; apart from that it
stays as it was built from its specification, whatever is shown, sorted or made opaque in between.

Only the change of the period touches the sources. All other operations leave the layers as they
are but for their look and their order, so one lemma about all of them is enough.

## Main statements

* `Catalog.Operation.relooks_onShelf` — other operations change only the look and the order of the
  layers
* `Shelf.UpToDate.setTime` — a period reaches the layers that follow the time, once each
* `Catalog.upToDate_foldl` — after any operations the sources have heard all periods
* `Catalog.setPeriod_counts` — the answer counts the layers that follow the time
* `Catalog.revisions_setPeriod` — each of them has gone one revision further
-/

namespace Atlas

/-! ## Sources -/

namespace TileSource

/-- The row with the time, if there is one. -/
def timeRows (time : Option String) : List (String × String) := time.toList.map (timeKey, ·)

/-- The table of the source of a specification that shows a time. -/
def tableAt (spec : LayerSpec) (time : Option String) : Service → List (String × String)
  | .wms _ => [("FORMAT", defaultFormat), ("LAYERS", spec.id)] ++ timeRows time ++
      [("VERSION", wmsVersion)]
  | .wmts .. => timeRows time

/-- A source is as it was built for a specification, but it was told some intervals since: it
shows the last of them and has counted all, as far as 64 bits tell. -/
structure UpToDate (spec : LayerSpec) (intervals : List String) (source : TileSource) : Prop where
  service : serviceFor? spec .geographic = some source.service
  params : source.params = tableAt spec intervals.getLast? source.service
  time : source.time? = intervals.getLast?
  revision : source.revision = intervals.length % UInt64.size

theorem initialParams_eq_tableAt (spec : LayerSpec) (service : Service) :
    initialParams spec service = tableAt spec none service := by
  cases service with
  | wms url =>
    simp only [initialParams, Keyed.ofRows, Keyed.update_cons, Keyed.update_nil]
    rfl
  | wmts => rfl

theorem insert_tableAt (spec : LayerSpec) (time : Option String) (interval : String)
    (service : Service) : Keyed.insert timeKey interval (tableAt spec time service) =
      tableAt spec (some interval) service := by
  cases time with
  | none =>
    cases service with
    | wms url => rfl
    | wmts => rfl
  | some t =>
    cases service with
    | wms url => rfl
    | wmts => rfl

theorem lookup_tableAt (spec : LayerSpec) (time : Option String) (service : Service) :
    Keyed.lookup timeKey (tableAt spec time service) = time := by
  cases time with
  | none =>
    cases service with
    | wms url => rfl
    | wmts => rfl
  | some t =>
    cases service with
    | wms url => rfl
    | wmts => rfl

theorem upToDate_ofSpec? {spec : LayerSpec} {source : TileSource}
    (h : ofSpec? spec .geographic = some source) : source.UpToDate spec [] := by
  obtain ⟨service, hservice, rfl⟩ := Option.map_eq_some_iff.1 h
  have hparams := initialParams_eq_tableAt spec service
  refine ⟨hservice, hparams, ?_, rfl⟩
  rw [time?, hparams]
  exact lookup_tableAt spec none service

theorem UpToDate.setTime {spec : LayerSpec} {intervals : List String} {source : TileSource}
    (h : source.UpToDate spec intervals) (interval : String) :
    (source.setTime interval).UpToDate spec (intervals ++ [interval]) where
  service := h.service
  params := by
    rw [List.getLast?_concat, service_setTime, ← insert_tableAt spec intervals.getLast?, ← h.params]
    rfl
  time := by rw [time?_setTime, List.getLast?_concat]
  revision := by
    rw [revision_setTime, h.revision, Nat.mod_add_mod, List.length_append, List.length_singleton]

/-- Fewer than 2^64 intervals are counted without a loss. -/
theorem UpToDate.revision_eq {spec : LayerSpec} {intervals : List String} {source : TileSource}
    (h : source.UpToDate spec intervals) (hfew : intervals.length < UInt64.size) :
    source.revision = intervals.length := h.revision.trans (Nat.mod_eq_of_lt hfew)

end TileSource

/-! ## The look of layers -/

/-- The specification without what messages can change. -/
def LayerSpec.unshown (spec : LayerSpec) : LayerSpec := { spec with visible := false, opacity := 0 }

theorem TileSource.UpToDate.of_unshown {spec spec' : LayerSpec} {intervals : List String}
    {source : TileSource}
    (h : source.UpToDate spec (if spec.timeEnabled then intervals else []))
    (hsame : spec.unshown = spec'.unshown) :
    source.UpToDate spec' (if spec'.timeEnabled then intervals else []) := by
  have htimed : spec.timeEnabled = spec'.timeEnabled := (congrArg LayerSpec.timeEnabled hsame :)
  rw [htimed] at h
  have hservice : serviceFor? spec.unshown .geographic = some source.service := h.service
  have hparams : source.params = tableAt spec.unshown _ source.service := h.params
  rw [hsame] at hservice hparams
  exact ⟨hservice, hparams, h.time, h.revision⟩

namespace Shelf

/-- Another shelf has the same specifications and layers in the same places, but they may look
different. -/
structure Restyles (s s' : Shelf) : Prop where
  specs : s'.specs.map LayerSpec.unshown = s.specs.map LayerSpec.unshown
  layers : s'.layers.map Layer.unshown = s.layers.map Layer.unshown

theorem Restyles.refl (s : Shelf) : s.Restyles s := ⟨rfl, rfl⟩

theorem Restyles.trans {s s' s'' : Shelf} (h : s.Restyles s') (h' : s'.Restyles s'') :
    s.Restyles s'' := ⟨h'.specs.trans h.specs, h'.layers.trans h.layers⟩

theorem restyles_sync (role : Role) (s : Shelf) : s.Restyles (s.sync role) :=
  ⟨map_settle (fun _ => rfl) role s.specs, map_foldl_mirrorInto (fun _ _ => rfl) _ _⟩

theorem unshown_setSpecVisible (role : Role) (id : String) (visible : Bool) (spec : LayerSpec) :
    (setSpecVisible role id visible spec).unshown = spec.unshown := by
  unfold setSpecVisible
  split
  · rfl
  · split
    · rfl
    · rfl

theorem restyles_setVisible (role : Role) (id : String) (visible : Bool) (s : Shelf) :
    s.Restyles (s.setVisible role id visible).1 := by
  unfold Shelf.setVisible
  split
  · have hspecs : (s.specs.map (setSpecVisible role id visible)).map LayerSpec.unshown =
        s.specs.map LayerSpec.unshown := by
      rw [List.map_map]
      exact List.map_congr_left fun spec _ => unshown_setSpecVisible role id visible spec
    have hshown : s.Restyles { s with specs := s.specs.map (setSpecVisible role id visible) } :=
      ⟨hspecs, rfl⟩
    exact hshown.trans (restyles_sync role _)
  · exact .refl s

theorem restyles_setOpacity (id : String) (opacity : Float) (s : Shelf) :
    s.Restyles (s.setOpacity id opacity).1 := by
  unfold Shelf.setOpacity
  split
  · exact .refl s
  · exact ⟨map_updateFirst (f := LayerSpec.setOpacity _) (fun _ => rfl) _,
      map_updateFirst (f := Layer.setOpacity _) (fun _ => rfl) _⟩

/-- Another shelf has the same specifications and layers, but they may look different and the
layers may stand in another order. -/
structure Relooks (s s' : Shelf) : Prop where
  specs : s'.specs.map LayerSpec.unshown = s.specs.map LayerSpec.unshown
  layers : (s'.layers.map Layer.unshown).Perm (s.layers.map Layer.unshown)

theorem Restyles.relooks {s s' : Shelf} (h : s.Restyles s') : s.Relooks s' :=
  ⟨h.specs, .of_eq h.layers⟩

theorem Relooks.refl (s : Shelf) : s.Relooks s := ⟨rfl, .refl _⟩

theorem Relooks.trans {s s' s'' : Shelf} (h : s.Relooks s') (h' : s'.Relooks s'') :
    s.Relooks s'' := ⟨h'.specs.trans h.specs, h'.layers.trans h.layers⟩

theorem relooks_sort (s : Shelf) : s.Relooks s.sort := ⟨rfl, (layers_sort_perm s).map _⟩

theorem relooks_reorder (role : Role) (s : Shelf) : s.Relooks (s.reorder role) :=
  (relooks_sort s).trans (restyles_sync role s.sort).relooks

end Shelf

namespace Catalog

/-- **Operations other than a change of the period change only the look and the order of the
layers.** -/
theorem Operation.relooks_onShelf {op : Operation} (hop : op.period? = none) (role : Role)
    (s : Shelf) : s.Relooks (op.onShelf role s) := by
  refine op.onShelf_cases (P := fun s' => s.Relooks s') (.refl s) ?_ ?_ ?_ ?_ ?_
  · exact fun id visible _ => (Shelf.restyles_setVisible role id visible s).relooks
  · exact fun id opacity _ => (Shelf.restyles_setOpacity id opacity s).relooks
  · rintro period rfl
    cases hop
  · exact fun _ => Shelf.relooks_reorder role s
  · exact fun _ => (Shelf.restyles_sync role s).relooks

theorem relooks_apply {op : Operation} (hop : op.period? = none) (c : Catalog) (role : Role) :
    (c.shelf role).Relooks ((c.apply op).shelf role) := by
  rw [shelf_apply]
  exact Operation.relooks_onShelf hop role _

end Catalog

/-! ## Telling the layers a period -/

namespace Shelf

/-- Whether a layer follows the time: its specification says so. -/
def isTimed (s : Shelf) (l : Layer) : Bool :=
  s.specs.any (fun spec => spec.id == l.id && spec.timeEnabled)

/-- Every layer has a specification, and its source has heard all intervals if it follows the
time, and none otherwise. -/
def UpToDate (intervals : List String) (s : Shelf) : Prop :=
  ∀ l ∈ s.layers, ∃ spec ∈ s.specs, spec.id = l.id ∧
    l.source.UpToDate spec (if spec.timeEnabled then intervals else [])

theorem isTimed_of_mem {s : Shelf} (hids : (s.specs.map LayerSpec.id).Nodup) {spec : LayerSpec}
    (hspec : spec ∈ s.specs) {l : Layer} (hid : spec.id = l.id) :
    s.isTimed l = spec.timeEnabled := by
  rw [isTimed, Bool.eq_iff_iff, List.any_eq_true]
  constructor
  · rintro ⟨other, hother, h⟩
    obtain ⟨hsame, htimed⟩ := Bool.and_eq_true_iff.1 h
    have heq : other = spec :=
      List.inj_on_of_nodup_map hids hother hspec ((beq_iff_eq.1 hsame).trans hid.symm)
    rwa [← heq]
  · intro htimed
    exact ⟨spec, hspec, by simp [hid, htimed]⟩

/-- A layer without a specification follows no time. -/
theorem isTimed_of_notMem {s : Shelf} {l : Layer} (h : l.id ∉ s.specs.map LayerSpec.id) :
    s.isTimed l = false := by
  rw [isTimed, List.any_eq_false]
  intro spec hspec htimed
  have hid : spec.id = l.id := beq_iff_eq.1 (Bool.and_eq_true_iff.1 htimed).1
  exact h (List.mem_map.2 ⟨spec, hspec, hid⟩)

/-- Telling one specification's layer after the other is telling the layers that follow the time. -/
theorem layers_setTime {s : Shelf} (h : s.Distinct) (interval : String) :
    (s.setTime interval).1.layers =
      s.layers.map (fun l => if s.isTimed l then l.setTime interval else l) := by
  refine (foldl_updateFirst_eq_map (f := fun _ => Layer.setTime interval) (fun _ _ => rfl) _
    h.layers_nodup).trans (List.map_congr_left fun l _ => ?_)
  rw [List.filter_comm]
  by_cases hknown : l.id ∈ s.specs.map LayerSpec.id
  · obtain ⟨spec, hspec, hid⟩ := List.mem_map.1 hknown
    -- ids stand once, so no other specification tells this layer
    have hsingle : s.specs.filter (fun spec => spec.id == l.id) = [spec] := by
      rw [← hid]
      exact filter_key_eq_singleton h.specs_nodup hspec
    rw [hsingle, isTimed_of_mem h.specs_nodup hspec hid]
    cases htimed : spec.timeEnabled with
    | false => simp [htimed]
    | true => simp [htimed]
  · have hnone : s.specs.filter (fun spec => spec.id == l.id) = [] := by
      rw [List.filter_eq_nil_iff]
      intro spec hspec hid
      exact hknown (List.mem_map.2 ⟨spec, hspec, beq_iff_eq.1 hid⟩)
    rw [hnone, isTimed_of_notMem hknown]
    rfl

theorem UpToDate.relook {intervals : List String} {s s' : Shelf} (h : s.UpToDate intervals)
    (hlook : s.Relooks s') : s'.UpToDate intervals := by
  intro l' hl'
  have hmem : l'.unshown ∈ s.layers.map Layer.unshown :=
    hlook.layers.mem_iff.1 (List.mem_map_of_mem hl')
  obtain ⟨l, hl, hsame⟩ := List.mem_map.1 hmem
  obtain ⟨spec, hspec, hid, hsource⟩ := h l hl
  have hmem' : spec.unshown ∈ s'.specs.map LayerSpec.unshown := by
    rw [hlook.specs]
    exact List.mem_map_of_mem hspec
  obtain ⟨spec', hspec', hsame'⟩ := List.mem_map.1 hmem'
  have hid' : l.id = l'.id := (congrArg Layer.id hsame :)
  have hsource' : l.source = l'.source := (congrArg Layer.source hsame :)
  rw [hsource'] at hsource
  exact ⟨spec', hspec', (congrArg LayerSpec.id hsame' :).trans (hid.trans hid'),
    hsource.of_unshown hsame'.symm⟩

/-- **A period reaches the layers that follow the time,** once each. -/
theorem UpToDate.setTime {intervals : List String} {s : Shelf} (h : s.UpToDate intervals)
    (hpaired : s.Paired) (interval : String) :
    (s.setTime interval).1.UpToDate (intervals ++ [interval]) := by
  intro l' hl'
  rw [layers_setTime hpaired.distinct] at hl'
  obtain ⟨l, hl, rfl⟩ := List.mem_map.1 hl'
  obtain ⟨spec, hspec, hid, hsource⟩ := h l hl
  rw [isTimed_of_mem hpaired.specs_nodup hspec hid]
  refine ⟨spec, hspec, ?_⟩
  cases htimed : spec.timeEnabled with
  | false =>
    rw [htimed] at hsource
    exact ⟨hid, hsource⟩
  | true =>
    rw [htimed] at hsource
    exact ⟨hid, hsource.setTime interval⟩

theorem upToDate_build (role : Role) (specs : List LayerSpec) :
    (build role .geographic specs).UpToDate [] := by
  intro l hl
  obtain ⟨spec, hspec, hbuilt⟩ := List.mem_filterMap.1 hl
  obtain ⟨source, hsource, rfl⟩ := Option.map_eq_some_iff.1 hbuilt
  refine ⟨spec, hspec, rfl, ?_⟩
  rw [ite_self]
  exact TileSource.upToDate_ofSpec? hsource

/-! ## Counting -/

/-- Of two lists without repetition each has as many elements in the other one. -/
theorem countP_mem_comm {xs ys : List String} (hxs : xs.Nodup) (hys : ys.Nodup) :
    xs.countP (· ∈ ys) = ys.countP (· ∈ xs) := by
  rw [List.countP_eq_length_filter, List.countP_eq_length_filter]
  refine ((List.perm_ext_iff_of_nodup (hxs.filter _) (hys.filter _)).2 fun x => ?_).length_eq
  simp [and_comm]

theorem setTime_count {s : Shelf} (h : s.Distinct) (interval : String) :
    (s.setTime interval).2 = s.layers.countP s.isTimed := by
  have hfound : ∀ id, (s.layer? id).isSome = decide (id ∈ s.ids) := by
    intro id
    rw [Bool.eq_iff_iff, layer?, List.find?_isSome, decide_eq_true_iff]
    simp [ids]
  have htimed : ∀ l : Layer, s.isTimed l =
      decide (l.id ∈ (s.specs.filter LayerSpec.timeEnabled).map LayerSpec.id) := by
    intro l
    rw [Bool.eq_iff_iff, decide_eq_true_iff, isTimed, List.any_eq_true]
    simp [and_assoc, and_comm, and_left_comm]
  have hspecs : ((s.specs.filter LayerSpec.timeEnabled).map LayerSpec.id).Nodup :=
    h.specs_nodup.sublist (List.filter_sublist.map _)
  -- the answer counts specifications, and each of them is that of one layer
  have hcomm := countP_mem_comm hspecs h.layers_nodup
  rw [List.countP_map, ids, List.countP_map] at hcomm
  show (s.specs.filter LayerSpec.timeEnabled).countP (fun spec => (s.layer? spec.id).isSome) = _
  rw [funext htimed]
  simp only [hfound]
  exact hcomm

/-- The revisions of the sources of the layers, all together. -/
def revisions (s : Shelf) : Nat := (s.layers.map (fun l => l.source.revision)).sum

/-- Where no counter starts again, a time takes each layer that follows it one revision further. -/
theorem revisions_setTime {s : Shelf} (h : s.Distinct)
    (hroom : ∀ l ∈ s.layers, l.source.revision + 1 < UInt64.size) (interval : String) :
    (s.setTime interval).1.revisions = s.revisions + s.layers.countP s.isTimed := by
  have hsum : ∀ layers : List Layer, (∀ l ∈ layers, l.source.revision + 1 < UInt64.size) →
      ((layers.map (fun l => if s.isTimed l then l.setTime interval else l)).map
        (fun l => l.source.revision)).sum =
      (layers.map (fun l => l.source.revision)).sum + layers.countP s.isTimed := by
    intro layers hlayers
    induction layers with
    | nil => rfl
    | cons l ls ih =>
      obtain ⟨hl, hls⟩ := List.forall_mem_cons.1 hlayers
      rw [List.map_cons, List.map_cons, List.sum_cons, ih hls, List.map_cons, List.sum_cons,
        List.countP_cons]
      split
      · have hnext : (l.setTime interval).source.revision = l.source.revision + 1 :=
          (TileSource.revision_setTime l.source interval).trans (Nat.mod_eq_of_lt hl)
        omega
      · omega
  rw [revisions, layers_setTime h]
  exact hsum s.layers hroom

end Shelf

namespace Catalog

/-- How many layers follow the time. -/
def timedLayers (c : Catalog) : Nat :=
  (Role.all.map (fun role => (c.layers role).countP (c.shelf role).isTimed)).sum

/-- The revisions of the sources of all layers, all together. -/
def revisions (c : Catalog) : Nat := (Role.all.map (fun role => (c.shelf role).revisions)).sum

theorem shelf_setPeriod (c : Catalog) (p : Period) (role : Role) :
    (c.setPeriod p).1.shelf role = ((c.shelf role).setTime p.interval).1 :=
  shelf_apply c (.setPeriod p) role

/-- **The answer to a period counts the layers that follow the time.** -/
theorem setPeriod_counts {c : Catalog} (h : c.InStep) (p : Period) :
    (c.setPeriod p).2 = c.timedLayers := by
  have hcount := fun role => Shelf.setTime_count (h role).distinct p.interval
  simp only [timedLayers, Role.all, List.map_cons, List.map_nil, List.sum_cons, List.sum_nil,
    layers, ← hcount]
  exact Nat.add_assoc _ _ _

/-- **A period takes each layer that follows the time one revision further,** where no counter
starts again. -/
theorem revisions_setPeriod {c : Catalog} (h : c.InStep)
    (hroom : ∀ role, ∀ l ∈ c.layers role, l.source.revision + 1 < UInt64.size) (p : Period) :
    (c.setPeriod p).1.revisions = c.revisions + (c.setPeriod p).2 := by
  have hrevisions := fun role =>
    Shelf.revisions_setTime (h role).distinct (hroom role) p.interval
  rw [setPeriod_counts h]
  simp only [revisions, timedLayers, Role.all, List.map_cons, List.map_nil, List.sum_cons,
    List.sum_nil, shelf_setPeriod, hrevisions, layers]
  omega

/-- All layers are up to date. -/
def UpToDate (intervals : List String) (c : Catalog) : Prop :=
  ∀ role, (c.shelf role).UpToDate intervals

theorem upToDate_create (base product overlay : List LayerSpec) :
    (create base product overlay).UpToDate [] := by
  intro role
  cases role with
  | base => exact Shelf.upToDate_build .base base
  | product => exact Shelf.upToDate_build .product product
  | overlay => exact Shelf.upToDate_build .overlay overlay

/-- No layer counts more intervals than there were. -/
theorem UpToDate.revision_le {intervals : List String} {c : Catalog} (h : c.UpToDate intervals)
    {role : Role} {l : Layer} (hl : l ∈ c.layers role) :
    l.source.revision ≤ intervals.length := by
  obtain ⟨spec, -, -, hsource⟩ := h role l hl
  rw [hsource.revision]
  refine Nat.le_trans (Nat.mod_le _ _) ?_
  split
  · exact Nat.le_refl _
  · exact Nat.zero_le _

theorem UpToDate.apply {intervals : List String} {c : Catalog} (h : c.UpToDate intervals)
    (hstep : c.InStep) (op : Operation) :
    (c.apply op).UpToDate (intervals ++ op.period?.toList.map Period.interval) := by
  intro role
  cases op with
  | setPeriod p =>
    show ((c.setPeriod p).1.shelf role).UpToDate _
    rw [shelf_setPeriod]
    exact (h role).setTime (hstep role).toPaired p.interval
  | setVisible | setOpacity | reorder | sync =>
    show Shelf.UpToDate (intervals ++ []) _
    rw [List.append_nil]
    exact (h role).relook (relooks_apply rfl c role)

/-- **After any operations the sources have heard all periods.** -/
theorem upToDate_foldl {intervals : List String} {c : Catalog} (h : c.UpToDate intervals)
    (hstep : c.InStep) (ops : List Operation) : (ops.foldl apply c).UpToDate
      (intervals ++ (ops.filterMap Operation.period?).map Period.interval) := by
  induction ops generalizing c intervals with
  | nil =>
    show c.UpToDate (intervals ++ [])
    rwa [List.append_nil]
  | cons op ops ih =>
    have hnext := ih (h.apply hstep op) (hstep.apply op)
    rw [List.append_assoc, ← List.map_append] at hnext
    have hperiods : op.period?.toList ++ ops.filterMap Operation.period? =
        (op :: ops).filterMap Operation.period? := by
      rw [List.filterMap_cons]
      cases op.period? with
      | none => rfl
      | some p => rfl
    rwa [hperiods] at hnext

theorem specs_foldl (c : Catalog) (ops : List Operation) (role : Role) :
    ((ops.foldl apply c).specs role).map LayerSpec.unshown =
      (c.specs role).map LayerSpec.unshown := by
  induction ops generalizing c with
  | nil => rfl
  | cons op ops ih =>
    rw [List.foldl_cons, ih]
    cases op with
    | setPeriod p =>
      show ((c.setPeriod p).1.shelf role).specs.map _ = _
      rw [shelf_setPeriod]
      rfl
    | setVisible | setOpacity | reorder | sync => exact (relooks_apply rfl c role).specs

theorem inStep_foldl {c : Catalog} (h : c.InStep) (ops : List Operation) :
    (ops.foldl apply c).InStep := fun role => inStep_shelf_foldl (h role) ops

end Catalog
end Atlas
