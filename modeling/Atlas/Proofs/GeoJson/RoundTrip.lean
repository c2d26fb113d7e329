import Atlas.GeoJson.Writer
import Atlas.Proofs.GeoJson.Reading
import Atlas.Proofs.Json.Numbers

/-!
# Writing features and reading them again

What has been written is read again without loss, except for the features that GeoJSON cannot hold
here: those with another geometry than a point, a line string or a polygon, which are written with
the geometry null, and those with a coordinate that is not finite, which is written as null. Such a
feature is skipped by the reader, and the others are not affected.

Everything that is read can be written and read again. The reader closes the rings of polygons, and
on a ring with finite coordinates closing once more does nothing.

## Main statements

* `GeoJson.readGeometry_ofGeometryOrNull` — the geometries that are read again
* `GeoJson.feature?_ofFeature` — the features that are read again
* `GeoJson.readFeatures_ofFeatures` — the round trip of a list of features, and of an import
-/

namespace Atlas

/-! ## Portable features -/

/-- Whether a geometry can be written without loss: it is a point, a line string or a polygon with
finite coordinates only. -/
def Geometry.isPortable : Geometry → Bool
  | .point p => p.isFinite
  | .lineString ps => ps.all Coord.isFinite
  | .polygon p => p.rings.all (fun ring => ring.all Coord.isFinite)
  | _ => false

/-- Whether a feature can be written without loss. -/
def Feature.isPortable (f : Feature) : Bool := f.geometry.isPortable

/-! ## Rings -/

theorem Coord.agrees_self {p : Coord} (h : p.isFinite = true) : p.agrees p = true := by
  rw [Coord.isFinite, Bool.and_eq_true] at h
  rw [Coord.agrees, Double.beq_self_of_isFinite h.1, Double.beq_self_of_isFinite h.2]
  rfl

/-- A closed ring with finite coordinates is not closed once more. -/
theorem closeRing_eq_self {ring : List Coord} (hclosed : IsClosedRing ring)
    (hfinite : ring.all Coord.isFinite = true) : closeRing ring = ring := by
  rw [closeRing]
  split
  · next first last hfirst hlast =>
    have hagrees : first.agrees last = true := by
      rcases hclosed first hfirst last hlast with hagrees | rfl
      · exact hagrees
      · exact Coord.agrees_self (List.all_eq_true.1 hfinite first (List.mem_of_head? hfirst))
    rw [if_pos hagrees]
  · rfl

theorem all_isFinite_closeRing {ring : List Coord} (h : ring.all Coord.isFinite = true) :
    (closeRing ring).all Coord.isFinite = true := by
  rw [closeRing]
  split
  · next first last hfirst _ =>
    have hfinite : first.isFinite = true :=
      List.all_eq_true.1 h first (List.mem_of_head? hfirst)
    split
    · exact h
    · rw [List.all_append, h, List.all_cons, hfinite]
      rfl
  · exact h

/-- A polygon with finite coordinates is made of its rings. -/
theorem Polygon.ofRings_rings {p : Polygon}
    (h : p.rings.all (fun ring => ring.all Coord.isFinite) = true) :
    Polygon.ofRings p.exterior p.interiors = p := by
  obtain ⟨exterior, interiors, hexterior, hinteriors⟩ := p
  rw [Polygon.rings, List.all_cons, Bool.and_eq_true] at h
  have hmap : interiors.map closeRing = interiors := by
    have hid : ∀ ring ∈ interiors, closeRing ring = id ring := by
      intro ring hring
      exact closeRing_eq_self (hinteriors ring hring) (List.all_eq_true.1 h.2 ring hring)
    rw [List.map_congr_left hid, List.map_id]
  simp only [Polygon.ofRings, closeRing_eq_self hexterior h.1, hmap]

namespace GeoJson

/-! ## Coordinates -/

theorem position?_positionJson (p : Coord) :
    position? (positionJson p) = if p.isFinite then some p else none := by
  obtain ⟨x, y⟩ := p
  rw [positionJson, Json.ofFloat, Json.ofFloat, Coord.isFinite]
  cases x.isFinite with
  | false => rfl
  | true =>
    cases y.isFinite with
    | false => rfl
    | true => rfl

/-- A list is read again if all its elements are. -/
theorem arrayOf?_map {α : Type} {read : Json → Option α} {write : α → Json} {keep : α → Bool}
    (h : ∀ a, read (write a) = if keep a then some a else none) (as : List α) :
    arrayOf? read (.arr (as.map write)) = if as.all keep then some as else none := by
  show (as.map write).mapM read = _
  induction as with
  | nil => rfl
  | cons a as ih =>
    rw [List.map_cons, List.mapM_cons, h, ih, List.all_cons]
    cases keep a with
    | false => rfl
    | true =>
      cases as.all keep with
      | false => rfl
      | true => rfl

theorem positions?_positionsJson (ps : List Coord) :
    positions? (positionsJson ps) = if ps.all Coord.isFinite then some ps else none :=
  arrayOf?_map position?_positionJson ps

theorem rings?_map_positionsJson (rings : List (List Coord)) :
    rings? (.arr (rings.map positionsJson)) =
      if rings.all (fun ring => ring.all Coord.isFinite) then some rings else none :=
  arrayOf?_map positions?_positionsJson rings

/-! ## Geometries -/

/-- The shape of a written geometry is that of its type and coordinates. -/
theorem shape?_typedJson {type : String} {coordinates : Json} (h : type ≠ "GeometryCollection") :
    shape? (typedJson type coordinates) = shapeOf? type coordinates := by
  have hbox : hasGoodBox [("coordinates", coordinates), ("type", .str type)] = true := rfl
  have htype : type? [("coordinates", coordinates), ("type", .str type)] = some type := rfl
  have hlookup : Keyed.lookup "coordinates" [("coordinates", coordinates), ("type", .str type)] =
      some coordinates := rfl
  rw [typedJson, shape?, hbox, htype, hlookup]
  simp only [Bool.not_true, Bool.false_eq_true, if_false, Option.bind_some]

/-- An object whose shape is there on a condition is read on this condition. -/
theorem readGeometry_of_shape? {v : Json} {shape : Shape} {keep : Bool} {g g' : Geometry}
    (hshape : shape? v = if keep then some shape else none)
    (hg : keep = true → shape.toGeometry = .ok g) :
    readGeometry v = .ok g' ↔ keep = true ∧ g' = g := by
  rw [readGeometry_eq_ok_iff, hshape]
  cases keep with
  | false =>
    constructor
    · rintro ⟨shape, hs, -⟩
      cases hs
    · rintro ⟨hkeep, -⟩
      cases hkeep
  | true =>
    constructor
    · rintro ⟨shape', hs, hg'⟩
      cases hs
      rw [hg rfl] at hg'
      cases hg'
      exact ⟨rfl, rfl⟩
    · rintro ⟨-, rfl⟩
      exact ⟨shape, rfl, hg rfl⟩

/-- **The geometries that are read again.** -/
theorem readGeometry_ofGeometryOrNull {g g' : Geometry} :
    readGeometry (ofGeometryOrNull (some g)) = .ok g' ↔ g.isPortable = true ∧ g' = g := by
  cases g with
  | point p =>
    have hshape : shape? (typedJson "Point" (positionJson p)) =
        if p.isFinite then some (.point p) else none := by
      rw [shape?_typedJson (by decide), shapeOf?, position?_positionJson]
      split <;> rfl
    exact readGeometry_of_shape? hshape (fun _ => rfl)
  | lineString ps =>
    have hshape : shape? (typedJson "LineString" (positionsJson ps)) =
        if ps.all Coord.isFinite then some (.lineString ps) else none := by
      rw [shape?_typedJson (by decide), shapeOf?, positions?_positionsJson]
      split <;> rfl
    exact readGeometry_of_shape? hshape (fun _ => rfl)
  | polygon p =>
    have hshape : shape? (typedJson "Polygon" (.arr (p.rings.map positionsJson))) =
        if p.rings.all (fun ring => ring.all Coord.isFinite) then some (.polygon p.rings)
        else none := by
      rw [shape?_typedJson (by decide), shapeOf?, rings?_map_positionsJson]
      split <;> rfl
    refine readGeometry_of_shape? hshape ?_
    intro hfinite
    show Except.ok (Geometry.polygon (Polygon.ofRings p.exterior p.interiors)) = _
    rw [Polygon.ofRings_rings hfinite]
  | segment | multiPoint | multiLineString | multiPolygon | collection | rectangle | triangle =>
    -- any other geometry is written as null
    have hshape : shape? .null = if false then some .other else none := rfl
    refine readGeometry_of_shape? hshape ?_
    intro h
    cases h

/-! ## Features -/

/-- The members of a written feature, as the reader finds them. -/
theorem ofFeature_eq_obj (f : Feature) :
    ∃ members, ofFeature f = .obj members ∧ type? members = some "Feature" ∧
      hasGoodBox members = true ∧
      Keyed.lookup "geometry" members = some (ofGeometryOrNull (some f.geometry)) ∧
      id? (Keyed.lookup "id" members) = some f.id ∧
      properties? (Keyed.lookup "properties" members) = some f.properties := by
  obtain ⟨id, geometry, properties⟩ := f
  refine ⟨_, rfl, ?_, ?_, rfl, ?_, ?_⟩
  · cases id <;> rfl
  · cases id <;> rfl
  · rcases id with _ | ⟨s⟩ | ⟨n⟩ <;> rfl
  · cases id <;> cases properties <;> rfl

/-- **The features that are read again,** with their ids and properties. -/
theorem feature?_ofFeature (f : Feature) :
    feature? (ofFeature f) = if f.isPortable then some f else none := by
  obtain ⟨members, hobj, htype, hbox, hgeometry, hid, hproperties⟩ := ofFeature_eq_obj f
  have hiff : ∀ f', feature? (ofFeature f) = some f' ↔ f.isPortable = true ∧ f' = f := by
    intro f'
    rw [hobj, feature?_eq_some_iff, hgeometry, hid, hproperties]
    constructor
    · rintro ⟨-, -, ⟨g, hg, hread⟩, hid', hproperties'⟩
      cases hg
      obtain ⟨hportable, hg'⟩ := readGeometry_ofGeometryOrNull.1 hread
      refine ⟨hportable, ?_⟩
      obtain ⟨id', geometry', properties'⟩ := f'
      cases hid'
      cases hproperties'
      cases hg'
      rfl
    · rintro ⟨hportable, rfl⟩
      exact ⟨htype, hbox, ⟨_, rfl, readGeometry_ofGeometryOrNull.2 ⟨hportable, rfl⟩⟩, rfl, rfl⟩
  split
  · next hportable => exact (hiff f).2 ⟨hportable, rfl⟩
  · next hportable =>
    refine Option.eq_none_iff_forall_ne_some.2 ?_
    intro f' hf'
    exact hportable ((hiff f').1 hf').1

theorem readFeatures_ofFeatures_eq_filter (fs : List Feature) :
    readFeatures (ofFeatures fs) = .ok (fs.filter Feature.isPortable) := by
  show Except.ok ((fs.map ofFeature).filterMap feature?) = _
  rw [List.filterMap_map, ← List.filterMap_eq_filter]
  congr 2
  funext f
  exact feature?_ofFeature f

/-! ## What has been read -/

/-- A position that is read from spellable numbers is finite. -/
theorem isFinite_of_position? {v : Json} {p : Coord} (hv : v.Spellable) (h : position? v = some p) :
    p.isFinite = true := by
  unfold position? at h
  split at h
  · next x y rest =>
    split at h
    · cases h
      have hx : (Json.num x).Spellable := hv.item List.mem_cons_self
      have hy : (Json.num y).Spellable := hv.item (List.mem_cons_of_mem _ List.mem_cons_self)
      rw [Coord.isFinite, hx.num.isFinite, hy.num.isFinite]
      rfl
    · cases h
  · cases h

/-- Every value of a list that was read stands for an element. -/
theorem mem_of_mapM_eq_some {α β : Type} {read : α → Option β} {xs : List α} {ys : List β}
    (h : xs.mapM read = some ys) {y : β} (hy : y ∈ ys) : ∃ x ∈ xs, read x = some y := by
  induction xs generalizing ys with
  | nil =>
    cases h
    cases hy
  | cons x xs ih =>
    rw [List.mapM_cons] at h
    obtain ⟨z, hz, h⟩ := Option.bind_eq_some_iff.1 h
    obtain ⟨zs, hzs, h⟩ := Option.bind_eq_some_iff.1 h
    cases h
    rcases List.mem_cons.1 hy with rfl | hy
    · exact ⟨x, List.mem_cons_self, hz⟩
    · obtain ⟨x', hx', hread⟩ := ih hzs hy
      exact ⟨x', List.mem_cons_of_mem _ hx', hread⟩

/-- What holds of everything that is read from an element holds of all that an array holds. -/
theorem all_of_arrayOf? {α : Type} {read : Json → Option α} {keep : α → Bool}
    (hread : ∀ {v : Json} {a : α}, v.Spellable → read v = some a → keep a = true) {v : Json}
    {as : List α} (hv : v.Spellable) (h : arrayOf? read v = some as) : as.all keep = true := by
  cases v with
  | arr items =>
    refine List.all_eq_true.2 ?_
    intro a ha
    obtain ⟨item, hitem, hia⟩ := mem_of_mapM_eq_some h ha
    exact hread (hv.item hitem) hia
  | null | bool | num | str | obj => cases h

theorem all_isFinite_of_positions? {v : Json} {ps : List Coord} (hv : v.Spellable)
    (h : positions? v = some ps) : ps.all Coord.isFinite = true :=
  all_of_arrayOf? isFinite_of_position? hv h

theorem all_isFinite_of_rings? {v : Json} {rings : List (List Coord)} (hv : v.Spellable)
    (h : rings? v = some rings) : rings.all (fun ring => ring.all Coord.isFinite) = true :=
  all_of_arrayOf? all_isFinite_of_positions? hv h

/-- Closing the rings of a polygon leaves them finite. -/
theorem isPortable_ofRings {exterior : List Coord} {interiors : List (List Coord)}
    (h : (exterior :: interiors).all (fun ring => ring.all Coord.isFinite) = true) :
    (Geometry.polygon (Polygon.ofRings exterior interiors)).isPortable = true := by
  show ((exterior :: interiors).map closeRing).all (fun ring => ring.all Coord.isFinite) = true
  refine List.all_eq_true.2 ?_
  intro ring hring
  obtain ⟨positions, hpositions, rfl⟩ := List.mem_map.1 hring
  exact all_isFinite_closeRing (List.all_eq_true.1 h positions hpositions)

/-- A geometry that is read from spellable numbers is portable. -/
theorem isPortable_of_readGeometry {v : Json} {g : Geometry} (hv : v.Spellable)
    (h : readGeometry v = .ok g) : g.isPortable = true := by
  obtain ⟨shape, hshape, hg⟩ := readGeometry_eq_ok_iff.1 h
  rcases shape?_cases hshape with rfl | ⟨type, coordinates, hpart, hs⟩
  · cases hg
  · have hc : coordinates.Spellable := hv.part hpart
    unfold shapeOf? at hs
    split at hs
    · obtain ⟨p, hp, rfl⟩ := Option.map_eq_some_iff.1 hs
      cases hg
      exact isFinite_of_position? hc hp
    · obtain ⟨ps, hps, rfl⟩ := Option.map_eq_some_iff.1 hs
      cases hg
      exact all_isFinite_of_positions? hc hps
    · obtain ⟨rings, hrings, rfl⟩ := Option.map_eq_some_iff.1 hs
      cases rings with
      | nil => cases hg
      | cons exterior interiors =>
        cases hg
        exact isPortable_ofRings (all_isFinite_of_rings? hc hrings)
    -- the other kinds of geometries are not supported
    · obtain ⟨ps, -, rfl⟩ := Option.map_eq_some_iff.1 hs
      cases hg
    · obtain ⟨lines, -, rfl⟩ := Option.map_eq_some_iff.1 hs
      cases hg
    · obtain ⟨polygons, -, rfl⟩ := Option.map_eq_some_iff.1 hs
      cases hg
    · cases hs

theorem isPortable_of_mem_readFeatures {v : Json} {fs : List Feature} {f : Feature}
    (hv : v.Spellable) (h : readFeatures v = .ok fs) (hf : f ∈ fs) : f.isPortable = true := by
  obtain ⟨w, hpart, hw⟩ := readGeometry_of_mem_readFeatures h hf
  exact isPortable_of_readGeometry (hv.part hpart) hw

/-- **Reading what has been written gives the portable features, as they were and in their order.**
So the features of an import are read again without loss. -/
theorem readFeatures_ofFeatures (fs : List Feature) :
    readFeatures (ofFeatures fs) = .ok (fs.filter Feature.isPortable) ∧
      ∀ v : Json, v.Spellable → readFeatures v = .ok fs →
        readFeatures (ofFeatures fs) = .ok fs := by
  refine ⟨readFeatures_ofFeatures_eq_filter fs, ?_⟩
  intro v hv hread
  have hall : fs.filter Feature.isPortable = fs :=
    List.filter_eq_self.2 (fun f hf => isPortable_of_mem_readFeatures hv hread hf)
  rw [readFeatures_ofFeatures_eq_filter, hall]

/-- A triangle whose ring is not closed, and a feature without a geometry. -/
theorem readFeatures_ofFeatures_triangle :
    let position := fun x y => Json.arr [.ofInt x, .ofInt y]
    let triangle := typedJson "Polygon" (.arr [.arr [position 0 0, position 4 0, position 0 3]])
    let v := Json.obj [("features", .arr [.obj [("geometry", triangle), ("type", .str "Feature")],
      .obj [("geometry", .null), ("type", .str "Feature")]]), ("type", .str "FeatureCollection")]
    ∃ f : Feature, v.Spellable ∧ readFeatures v = .ok [f] ∧
      readFeatures (ofFeatures [f]) = .ok [f] := by
  intro position triangle v
  have hnumbers : v.numbers = [.int 0, .int 0, .int 4, .int 0, .int 0, .int 3] := rfl
  have hv : v.Spellable := by
    intro n hn
    simp only [hnumbers, List.mem_cons, List.not_mem_nil, or_false] at hn
    rcases hn with rfl | rfl | rfl | rfl | rfl | rfl
    all_goals exact ⟨by decide, by decide⟩
  have hread : readFeatures v = .ok [_] := rfl
  exact ⟨_, hv, hread, (readFeatures_ofFeatures _).2 v hv hread⟩

end GeoJson
end Atlas
