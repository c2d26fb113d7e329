import Atlas.GeoJson.Reader
import Atlas.GeoJson.Writer
import Atlas.Proofs.Json.Numbers

/-!
# What is read from GeoJSON

Every geometry that is read can be drawn, also as the geometry of a feature or of a member of a
collection, and it is read from a part of the value.

## Main statements

* `GeoJson.feature?_eq_some_iff` — the objects that are features
* `GeoJson.readGeometry_of_mem_readFeatures` — where the geometries of an import stand
* `GeoJson.kind?_of_mem_readFeatures` — the features of an import can be drawn
-/

namespace Atlas.GeoJson

/-- A geometry is read from a shape, and only from a well-formed value. -/
theorem readGeometry_eq_ok_iff {v : Json} {g : Geometry} :
    readGeometry v = .ok g ↔ ∃ shape, shape? v = some shape ∧ shape.toGeometry = .ok g := by
  unfold readGeometry
  cases shape? v with
  | none => simp [orFault, during]
  | some shape => simp [orFault, during]

/-- A shape is read from coordinates, or it is none that has a geometry. -/
theorem shape?_cases {v : Json} {shape : Shape} (h : shape? v = some shape) :
    shape = .other ∨ ∃ type coordinates, v.HasPart coordinates ∧
      shapeOf? type coordinates = some shape := by
  cases v with
  | obj members =>
    rw [shape?] at h
    split at h
    · cases h
    · split at h
      · cases h
      · split at h
        · cases h
          exact .inl rfl
        · cases h
      · next type _ _ =>
        obtain ⟨coordinates, hl, hs⟩ := Option.bind_eq_some_iff.1 h
        exact .inr ⟨type, coordinates, Json.HasPart.whole.member hl, hs⟩
  | null | bool | num | str | arr => cases h

/-- The shapes that have a geometry are those that can be drawn. -/
theorem kind?_of_toGeometry {shape : Shape} {g : Geometry} (h : shape.toGeometry = .ok g) :
    g.kind?.isSome = true := by
  cases shape with
  | point p =>
    cases h
    rfl
  | lineString ps =>
    cases h
    rfl
  | polygon rings =>
    cases rings with
    | nil => cases h
    | cons exterior interiors =>
      cases h
      rfl
  | other => cases h

theorem kind?_of_readGeometry {v : Json} {g : Geometry} (h : readGeometry v = .ok g) :
    g.kind?.isSome = true := by
  obtain ⟨shape, -, hg⟩ := readGeometry_eq_ok_iff.1 h
  exact kind?_of_toGeometry hg

/-- An id is read from its value. -/
theorem eq_idJson_of_id? {v : Option Json} {id : FeatureId} (h : id? v = some (some id)) :
    v = some (idJson id) := by
  unfold id? at h
  split at h
  · cases h
  · cases h
    rfl
  · cases h
    rfl
  · cases h

/-- Properties are read from an object. -/
theorem eq_obj_of_properties? {v : Option Json} {members : List (String × Json)}
    (h : properties? v = some (some members)) : v = some (.obj members) := by
  unfold properties? at h
  split at h
  · cases h
  · cases h
  · cases h
    rfl
  · cases h

/-- A feature is read from an object with a readable geometry, an id and properties. -/
theorem feature?_eq_some_iff {members : List (String × Json)} {f : Feature} :
    feature? (.obj members) = some f ↔
      type? members = some "Feature" ∧ hasGoodBox members = true ∧
        (∃ g, Keyed.lookup "geometry" members = some g ∧ readGeometry g = .ok f.geometry) ∧
        id? (Keyed.lookup "id" members) = some f.id ∧
        properties? (Keyed.lookup "properties" members) = some f.properties := by
  obtain ⟨fid, fgeometry, fproperties⟩ := f
  rw [feature?]
  by_cases ht : type? members = some "Feature" ∧ hasGoodBox members = true
  · obtain ⟨ht, hbox⟩ := ht
    rw [if_pos (by rw [ht, hbox]; rfl)]
    cases Keyed.lookup "geometry" members with
    | none => simp
    | some g =>
      cases id? (Keyed.lookup "id" members) with
      | none => simp
      | some id =>
        cases properties? (Keyed.lookup "properties" members) with
        | none => simp
        | some properties =>
          cases hg : readGeometry g with
          | error fault => simp [hg]
          | ok geometry =>
            simp only [hg, Option.some.injEq, Feature.mk.injEq]
            constructor
            · rintro ⟨rfl, rfl, rfl⟩
              exact ⟨ht, hbox, ⟨g, rfl, hg⟩, rfl, rfl⟩
            · rintro ⟨-, -, ⟨g', rfl, hg'⟩, rfl, rfl⟩
              rw [hg] at hg'
              exact ⟨rfl, Except.ok.inj hg', rfl⟩
  · rw [if_neg (by simpa using ht)]
    constructor
    · intro h
      cases h
    · rintro ⟨ht', hbox', -⟩
      exact absurd ⟨ht', hbox'⟩ ht

/-- The geometry of a feature that is read is a readable member of its object. -/
theorem readGeometry_of_feature? {v : Json} {f : Feature} (h : feature? v = some f) :
    ∃ members g, v = .obj members ∧ Keyed.lookup "geometry" members = some g ∧
      readGeometry g = .ok f.geometry := by
  cases v with
  | obj members =>
    obtain ⟨-, -, ⟨g, hl, hg⟩, -, -⟩ := feature?_eq_some_iff.1 h
    exact ⟨members, g, rfl, hl, hg⟩
  | null | bool | num | str | arr => cases h

/-- The three ways in which a value has features. -/
theorem readFeatures_eq_ok_cases {v : Json} {fs : List Feature} (h : readFeatures v = .ok fs) :
    (∃ items, (v.member? "features").bind Json.arr? = some items ∧ fs = items.filterMap feature?) ∨
      fs = (feature? v).toList ∨ ∃ g, readGeometry v = .ok g ∧ fs = [Feature.ofGeometry g] := by
  unfold readFeatures at h
  split at h
  · cases h
  · split at h
    · cases h
    · next items hi =>
      cases h
      exact .inl ⟨items, hi, rfl⟩
  · cases h
    exact .inr (.inl rfl)
  · split at h
    · next g hg =>
      cases h
      exact .inr (.inr ⟨g, hg, rfl⟩)
    · cases h

/-- A list under a key is that of a member. -/
theorem exists_lookup_of_member? {v : Json} {k : String} {items : List Json}
    (h : (v.member? k).bind Json.arr? = some items) :
    ∃ members, v = .obj members ∧ Keyed.lookup k members = some (.arr items) := by
  obtain ⟨x, hx, hitems⟩ := Option.bind_eq_some_iff.1 h
  cases v with
  | obj members =>
    cases x with
    | arr items' =>
      cases hitems
      exact ⟨members, rfl, hx⟩
    | null | bool | num | str | obj => cases hitems
  | null | bool | num | str | arr => cases hx

/-- Each feature of an import is read from a part of the value, or is a geometry on its own. -/
theorem mem_readFeatures_cases {v : Json} {fs : List Feature} {f : Feature}
    (h : readFeatures v = .ok fs) (hf : f ∈ fs) :
    (∃ w, v.HasPart w ∧ feature? w = some f) ∨
      ∃ g, readGeometry v = .ok g ∧ f = Feature.ofGeometry g := by
  rcases readFeatures_eq_ok_cases h with ⟨items, hitems, rfl⟩ | rfl | ⟨g, hg, rfl⟩
  · obtain ⟨item, hmem, hitem⟩ := List.mem_filterMap.1 hf
    obtain ⟨members, rfl, hlookup⟩ := exists_lookup_of_member? hitems
    exact .inl ⟨item, (Json.HasPart.whole.member hlookup).item hmem, hitem⟩
  · exact .inl ⟨v, .whole, Option.mem_toList.1 hf⟩
  · exact .inr ⟨g, hg, List.mem_singleton.1 hf⟩

/-- The geometry of an imported feature is read from a part of the value. -/
theorem readGeometry_of_mem_readFeatures {v : Json} {fs : List Feature} {f : Feature}
    (h : readFeatures v = .ok fs) (hf : f ∈ fs) :
    ∃ w, v.HasPart w ∧ readGeometry w = .ok f.geometry := by
  rcases mem_readFeatures_cases h hf with ⟨w, hw, hfeature⟩ | ⟨g, hg, rfl⟩
  · obtain ⟨members, g, rfl, hl, hg⟩ := readGeometry_of_feature? hfeature
    exact ⟨g, hw.member hl, hg⟩
  · exact ⟨v, .whole, hg⟩

/-- **The features of an import can be drawn.** -/
theorem kind?_of_mem_readFeatures {v : Json} {fs : List Feature} {f : Feature}
    (h : readFeatures v = .ok fs) (hf : f ∈ fs) : f.geometry.kind?.isSome = true := by
  obtain ⟨w, -, hw⟩ := readGeometry_of_mem_readFeatures h hf
  exact kind?_of_readGeometry hw

end Atlas.GeoJson
