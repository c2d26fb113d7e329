import Atlas.Proofs.Geometry.LeastBoxes
import Atlas.Proofs.Session.Importing

/-!
# The order of imported features

An import moves the view to the least box around all positions of its features, and features
without a position do not count. The box does not depend on the order of the features, so neither
does the view that the import leads to, up to the signs of zeros: if two features touch a side at
zeros of both signs, the first one decides.

## Main statements

* `GeoJson.featuresOf_perm` — features in another order are read in another order
* `Session.import_fits_least_box` — where an import leads, and that the order does not matter
-/

namespace Atlas

/-- The positions of a feature that can be drawn. Those of the interior rings of a polygon do not
count. -/
def Feature.positions (f : Feature) : List Coord :=
  match f.geometry with
  | .point p => [p]
  | .lineString ps => ps
  | .polygon p => p.exterior
  | _ => []

theorem Feature.outline_eq_positions {f : Feature} (h : f.geometry.kind?.isSome = true) :
    f.geometry.outline = f.positions := by
  obtain ⟨id, geometry, properties⟩ := f
  cases geometry with
  | point | lineString | polygon => rfl
  | segment | multiPoint | multiLineString | multiPolygon | collection | rectangle | triangle =>
    cases h

namespace GeoJson

/-- A value is a collection with the features in a list. -/
structure IsCollection (v : Json) (items : List Json) : Prop where
  type : HasType v "FeatureCollection"
  features : v.member? "features" = some (.arr items)

/-- Two collections have the same features, in any order. -/
def Reorders (v v' : Json) : Prop :=
  ∃ items items', IsCollection v items ∧ IsCollection v' items' ∧ items.Perm items'

theorem IsCollection.featuresOf_eq {v : Json} {items : List Json} (h : IsCollection v items) :
    featuresOf v = items.filterMap feature? := by
  rw [featuresOf, readFeatures_of_collection h.type h.features]
  rfl

/-- **Features in another order are read in another order.** -/
theorem featuresOf_perm {v v' : Json} (h : Reorders v v') :
    (featuresOf v).Perm (featuresOf v') := by
  obtain ⟨items, items', hv, hv', hperm⟩ := h
  rw [hv.featuresOf_eq, hv'.featuresOf_eq]
  exact hperm.filterMap feature?

end GeoJson

namespace Session

variable {σ : Type}

/-- What is known of the features of a payload: they can be drawn, and their positions are
finite. -/
structure Placed (fs : List Feature) : Prop where
  drawable : ∀ f ∈ fs, f.geometry.kind?.isSome = true
  finite : ∀ f ∈ fs, ∀ p ∈ f.geometry.outline, p.isFinite = true

theorem placed_featuresOf {v : Json} (hv : v.Spellable) : Placed (GeoJson.featuresOf v) where
  drawable := fun _ hf => kind?_of_mem_importable (importable_eq v ▸ hf)
  finite := fun _ hf => isFinite_outline_of_mem_featuresOf hv hf

section
variable {fs fs' : List Feature}

theorem Placed.perm (h : Placed fs) (hperm : fs.Perm fs') : Placed fs' where
  drawable := fun f hf => h.drawable f (hperm.mem_iff.2 hf)
  finite := fun f hf => h.finite f (hperm.mem_iff.2 hf)

theorem Placed.flatMap_outline (h : Placed fs) :
    fs.flatMap (fun f => f.geometry.outline) = fs.flatMap Feature.positions :=
  List.flatMap_congr fun f hf => Feature.outline_eq_positions (h.drawable f hf)

theorem Placed.isFinite (h : Placed fs) :
    ∀ p ∈ fs.flatMap Feature.positions, p.isFinite = true := by
  intro p hp
  rw [← h.flatMap_outline] at hp
  obtain ⟨f, hf, hp⟩ := List.mem_flatMap.1 hp
  exact h.finite f hf p hp

/-- The box of placed features hugs their positions. -/
theorem Placed.boxOf (h : Placed fs) :
    Bounds.BoxOf (fs.flatMap Feature.positions) (boundsOf? fs) := by
  rw [← h.flatMap_outline]
  exact boxOf_boundsOf? h.finite

/-- Where an import of some features leads: to the box around them, if there is one. -/
theorem view_load (m : Session σ) (v : Json) (hv : Placed (GeoJson.featuresOf v)) :
    (m.load v).1.view =
      (boundsOf? (GeoJson.featuresOf v)).elim m.view (fun box => (m.view.fit box).1) := by
  have hbox := hv.boxOf
  have hfinite := hv.isFinite
  rw [load_eq]
  cases hbounds : boundsOf? (GeoJson.featuresOf v) with
  | none => rfl
  | some box =>
    rw [hbounds] at hbox
    obtain ⟨-, hfit⟩ := fit_of_fits (m.withFeatures (GeoJson.featuresOf v))
      (hbox.hugs.fits hfinite)
    show ((m.withFeatures (GeoJson.featuresOf v)).fit box).1.view = _
    rw [hfit]
    rfl

/-- Features in another order lead to the same view. -/
theorem Placed.same_view (h : Placed fs) (hperm : fs.Perm fs') (view : View Float) :
    ((boundsOf? fs).elim view (fun box => (view.fit box).1)).Same
      ((boundsOf? fs').elim view (fun box => (view.fit box).1)) := by
  have hpositions : (fs.flatMap Feature.positions).Perm (fs'.flatMap Feature.positions) :=
    hperm.flatMap_right Feature.positions
  have hbox := h.boxOf
  have hbox' := (h.perm hperm).boxOf
  have hfinite := h.isFinite
  have hfinite' := (h.perm hperm).isFinite
  cases hbounds : boundsOf? fs with
  | none =>
    rw [hbounds] at hbox
    rw [hbox.eq_nil] at hpositions
    rw [hpositions.symm.eq_nil] at hbox'
    rw [hbox'.eq_none]
    exact .refl view
  | some box =>
    rw [hbounds] at hbox
    cases hbounds' : boundsOf? fs' with
    | none =>
      rw [hbounds'] at hbox'
      rw [hbox'.eq_nil] at hpositions
      rw [hpositions.eq_nil] at hbox
      cases hbox.eq_none
    | some box' =>
      rw [hbounds'] at hbox'
      exact view.same_fit (hbox.hugs.fits hfinite) (hbox'.hugs.fits hfinite')
        (hbox.hugs.same hfinite hpositions hbox'.hugs)

end

/-- **Where an import leads, and that the order of its features does not matter.** The view is
fitted to the least box around all positions of the features, and stays if there are none. If the
features of a collection are put in another order, the view is the same up to the signs of
zeros. -/
theorem import_fits_least_box (m : Session σ) {v : Json} (hv : v.Spellable) :
    let fs := GeoJson.featuresOf v
    let ps := fs.flatMap Feature.positions
    (ps = [] → (m.load v).1.view = m.view) ∧
      (ps ≠ [] → ∃ box, boundsOf? fs = some box ∧ box.IsLeastAround ps ∧
        m.view.fit box = ((m.load v).1.view, true)) ∧
      ∀ v', GeoJson.Reorders v v' → (m.load v).1.view.Same (m.load v').1.view := by
  intro fs ps
  have hplaced := placed_featuresOf hv
  have hview := view_load m v hplaced
  have hbox : Bounds.BoxOf ps (boundsOf? fs) := hplaced.boxOf
  refine ⟨fun hps => ?_, fun hps => ?_, fun v' hreorders => ?_⟩
  · rw [hps] at hbox
    rw [hview, hbox.eq_none]
    rfl
  · cases hbounds : boundsOf? fs with
    | none =>
      rw [hbounds] at hbox
      exact absurd hbox.eq_nil hps
    | some box =>
      rw [hbounds] at hbox
      refine ⟨box, rfl, hbox.hugs.isLeastAround, ?_⟩
      rw [hview, hbounds]
      exact (fit_of_fits m (hbox.hugs.fits hplaced.isFinite)).1
  · have hperm := GeoJson.featuresOf_perm hreorders
    rw [hview, view_load m v' (hplaced.perm hperm)]
    exact hplaced.same_view hperm m.view

/-- Points at zeros of both signs and a line without positions: the first point decides about the
sign of the center. -/
theorem import_fits_least_box_zeros :
    let point := fun x y => GeoJson.wrapped
      (GeoJson.typedJson "Point" (.arr [.num (.float x), .num (.float y)]))
    let blank := GeoJson.wrapped (GeoJson.typedJson "LineString" (.arr []))
    let collection := fun items =>
      Json.obj [("features", .arr items), ("type", .str "FeatureCollection")]
    let v := collection [blank, point (-0.0) 46.5, point 0.0 50.25]
    let v' := collection [point 0.0 50.25, blank, point (-0.0) 46.5]
    let m := mount .standard Store.refusing
    v.Spellable ∧ GeoJson.Reorders v v' ∧
      (∃ box, boundsOf? (GeoJson.featuresOf v) = some box ∧
        box.IsLeastAround [⟨-0.0, 46.5⟩, ⟨0.0, 50.25⟩] ∧
        m.view.fit box = ((m.load v).1.view, true)) ∧
      (m.load v).1.view.Same (m.load v').1.view ∧ (m.load v).1.view ≠ (m.load v').1.view := by
  intro point blank collection v v' m
  have hv : v.Spellable := by
    have hnumbers : v.numbers = [.float (-0.0), .float 46.5, .float 0.0, .float 50.25] := rfl
    intro n hn
    simp only [hnumbers, List.mem_cons, List.not_mem_nil, or_false] at hn
    rcases hn with rfl | rfl | rfl | rfl
    all_goals
      show Float.isFinite _ = true
      decide +kernel
  have hperm : ([blank, point (-0.0) 46.5] ++ [point 0.0 50.25]).Perm
      ([point 0.0 50.25] ++ [blank, point (-0.0) 46.5]) := List.perm_append_comm
  have hreorders : GeoJson.Reorders v v' := ⟨_, _, ⟨rfl, rfl⟩, ⟨rfl, rfl⟩, hperm⟩
  have hpositions : (GeoJson.featuresOf v).flatMap Feature.positions =
      [⟨-0.0, 46.5⟩, ⟨0.0, 50.25⟩] := by decide +kernel
  obtain ⟨-, hfits, hsame⟩ := import_fits_least_box m hv
  rw [hpositions] at hfits
  exact ⟨hv, hreorders, hfits (by decide), hsame v' hreorders, by decide +kernel⟩

end Session
end Atlas
