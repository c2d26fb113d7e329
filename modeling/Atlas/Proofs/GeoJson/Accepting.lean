import Atlas.Proofs.GeoJson.Reading
import Mathlib.Data.List.Forall2

/-!
# Which values are read from GeoJSON

What a value has to look like is said here by relations between values and what they stand for,
piece by piece as the format has its pieces: positions, lists of them, geometries, features. The
reader finds what a value stands for, and fails or skips a member exactly where there is nothing.

## Main statements

* `GeoJson.readGeometry_eq_ok_iff_isGeometry` — the values that are read as a geometry
* `GeoJson.feature?_eq_some_iff_isFeature` — the values that are read as a feature
* `GeoJson.accepts` — when reading fails, and what the three forms of an import have in common
-/

namespace Atlas.GeoJson

/-! ## What values stand for -/

/-- A position is an array of at least two numbers, of which the first two count. -/
inductive IsPosition : Json → Coord → Prop where
  | numbers (x y : Number) (more : List Number) :
    IsPosition (.arr (.num x :: .num y :: more.map .num)) ⟨x.toFloat, y.toFloat⟩

/-- An array whose items stand for the elements of a list, one by one. -/
inductive IsArrayOf {α : Type} (R : Json → α → Prop) : Json → List α → Prop where
  | items {items : List Json} {xs : List α} (h : List.Forall₂ R items xs) :
    IsArrayOf R (.arr items) xs

/-- A ring is closed by its first position at the end, unless it ends with an equal one. -/
inductive IsClosingOf : List Coord → List Coord → Prop where
  | empty : IsClosingOf [] []
  | closed {ring : List Coord} {first last : Coord} (hfirst : ring.head? = some first)
    (hlast : ring.getLast? = some last) (h : first.agrees last = true) : IsClosingOf ring ring
  | opened {ring : List Coord} {first last : Coord} (hfirst : ring.head? = some first)
    (hlast : ring.getLast? = some last) (h : first.agrees last = false) :
    IsClosingOf ring (ring ++ [first])

/-- Coordinates of a type stand for a geometry. The first ring of a polygon is the exterior. -/
inductive HasCoordinates : String → Json → Geometry → Prop where
  | point {v : Json} {p : Coord} (h : IsPosition v p) : HasCoordinates "Point" v (.point p)
  | lineString {v : Json} {ps : List Coord} (h : IsArrayOf IsPosition v ps) :
    HasCoordinates "LineString" v (.lineString ps)
  | polygon {v : Json} {exterior : List Coord} {interiors : List (List Coord)} {p : Polygon}
    (h : IsArrayOf (IsArrayOf IsPosition) v (exterior :: interiors))
    (hexterior : IsClosingOf exterior p.exterior)
    (hinteriors : List.Forall₂ IsClosingOf interiors p.interiors) :
    HasCoordinates "Polygon" v (.polygon p)

/-- A bounding box that is given is null or an array of numbers. -/
def GoodBox (members : List (String × Json)) : Prop :=
  ∀ box, Keyed.lookup "bbox" members = some box →
    box = .null ∨ ∃ ns : List Number, box = .arr (ns.map .num)

/-- A geometry object has a type and coordinates. -/
inductive IsGeometry : Json → Geometry → Prop where
  | object {members : List (String × Json)} {type : String} {coordinates : Json} {g : Geometry}
    (hbox : GoodBox members) (htype : Keyed.lookup "type" members = some (.str type))
    (hcoordinates : Keyed.lookup "coordinates" members = some coordinates)
    (h : HasCoordinates type coordinates g) : IsGeometry (.obj members) g

/-- An id is missing, a number or a text. -/
inductive IsId : Option Json → Option FeatureId → Prop where
  | missing : IsId none none
  | number (n : Number) : IsId (some (.num n)) (some (.number n))
  | text (s : String) : IsId (some (.str s)) (some (.text s))

/-- Properties are missing, null or an object. -/
inductive IsProperties : Option Json → Option (List (String × Json)) → Prop where
  | missing : IsProperties none none
  | null : IsProperties (some .null) none
  | object (members : List (String × Json)) : IsProperties (some (.obj members)) (some members)

/-- A feature object has a geometry object, and perhaps an id and properties. -/
inductive IsFeature : Json → Feature → Prop where
  | object {members : List (String × Json)} {v : Json} {f : Feature} (hbox : GoodBox members)
    (htype : Keyed.lookup "type" members = some (.str "Feature"))
    (hgeometry : Keyed.lookup "geometry" members = some v) (h : IsGeometry v f.geometry)
    (hid : IsId (Keyed.lookup "id" members) f.id)
    (hproperties : IsProperties (Keyed.lookup "properties" members) f.properties) :
    IsFeature (.obj members) f

/-! ## Positions and lists -/

theorem isNumberArray_iff {v : Json} :
    isNumberArray v = true ↔ ∃ ns : List Number, v = .arr (ns.map .num) := by
  constructor
  · intro h
    cases v with
    | arr items =>
      refine ⟨items.filterMap Json.num?, congrArg Json.arr ?_⟩
      have hall : ∀ x ∈ items, (Json.num? x).isSome = true := List.all_eq_true.1 h
      clear h
      induction items with
      | nil => rfl
      | cons x xs ih =>
        obtain ⟨hx, hxs⟩ := List.forall_mem_cons.1 hall
        cases x with
        | num n => exact congrArg (List.cons (Json.num n)) (ih hxs)
        | null | bool | str | arr | obj => cases hx
    | null | bool | num | str | obj => cases h
  · rintro ⟨ns, rfl⟩
    refine List.all_eq_true.2 fun x hx => ?_
    obtain ⟨n, -, rfl⟩ := List.mem_map.1 hx
    rfl

theorem position?_eq_some_iff {v : Json} {p : Coord} : position? v = some p ↔ IsPosition v p := by
  constructor
  · intro h
    unfold position? at h
    split at h
    · next x y rest =>
      split at h
      · next hrest =>
        cases h
        obtain ⟨more, hmore⟩ := isNumberArray_iff.1 hrest
        cases hmore
        exact .numbers x y more
      · cases h
    · cases h
  · rintro ⟨x, y, more⟩
    exact if_pos (isNumberArray_iff.2 ⟨more, rfl⟩)

/-- A list is read item by item. -/
theorem mapM_eq_some_iff {α β : Type} {read : α → Option β} {items : List α} {xs : List β} :
    items.mapM read = some xs ↔ List.Forall₂ (fun item x => read item = some x) items xs := by
  induction items generalizing xs with
  | nil => simp [List.mapM_nil, eq_comm]
  | cons item items ih =>
    rw [List.mapM_cons, List.forall₂_cons_left_iff]
    constructor
    · intro h
      obtain ⟨x, hx, h⟩ := Option.bind_eq_some_iff.1 h
      obtain ⟨rest, hrest, h⟩ := Option.bind_eq_some_iff.1 h
      exact ⟨x, rest, hx, ih.1 hrest, (Option.some_inj.1 h).symm⟩
    · rintro ⟨x, rest, hx, hrest, rfl⟩
      rw [hx, ih.2 hrest]
      rfl

theorem arrayOf?_eq_some_iff {α : Type} {read : Json → Option α} {R : Json → α → Prop}
    (h : ∀ {v x}, read v = some x ↔ R v x) {v : Json} {xs : List α} :
    arrayOf? read v = some xs ↔ IsArrayOf R v xs := by
  have hR : (fun v x => read v = some x) = R := funext fun v => funext fun x => propext h
  constructor
  · intro hread
    cases v with
    | arr items => exact .items (hR ▸ mapM_eq_some_iff.1 hread)
    | null | bool | num | str | obj => cases hread
  · rintro ⟨hitems⟩
    exact mapM_eq_some_iff.2 (hR ▸ hitems)

theorem positions?_eq_some_iff {v : Json} {ps : List Coord} :
    positions? v = some ps ↔ IsArrayOf IsPosition v ps :=
  arrayOf?_eq_some_iff position?_eq_some_iff

theorem rings?_eq_some_iff {v : Json} {rings : List (List Coord)} :
    rings? v = some rings ↔ IsArrayOf (IsArrayOf IsPosition) v rings :=
  arrayOf?_eq_some_iff positions?_eq_some_iff

/-! ## Geometries -/

theorem closeRing_eq_iff {ring ring' : List Coord} :
    closeRing ring = ring' ↔ IsClosingOf ring ring' := by
  constructor
  · rintro rfl
    unfold closeRing
    split
    · next first last hfirst hlast =>
      split
      · next h => exact .closed hfirst hlast h
      · next h => exact .opened hfirst hlast (Bool.eq_false_iff.2 h)
    · next hnone =>
      cases ring with
      | nil => exact .empty
      | cons p ps => exact absurd List.getLast?_cons (hnone p _ List.head?_cons)
  · intro h
    cases h with
    | empty => rfl
    | closed hfirst hlast h => simp only [closeRing, hfirst, hlast, h, if_true]
    | opened hfirst hlast h => simp [closeRing, hfirst, hlast, h]

theorem hasGoodBox_iff {members : List (String × Json)} :
    hasGoodBox members = true ↔ GoodBox members := by
  unfold hasGoodBox GoodBox
  split
  · next hnone => simp [hnone]
  · next hnull => simp [hnull]
  · next box hne hbox =>
    have hne : box ≠ .null := hne
    rw [isNumberArray_iff, hbox]
    simp [hne]

theorem type?_eq_some_iff {members : List (String × Json)} {type : String} :
    type? members = some type ↔ Keyed.lookup "type" members = some (.str type) := by
  rw [type?, Option.bind_eq_some_iff]
  constructor
  · rintro ⟨v, hv, htype⟩
    cases v with
    | str s =>
      cases htype
      exact hv
    | null | bool | num | arr | obj => cases htype
  · intro h
    exact ⟨_, h, rfl⟩

theorem ofRings_eq_iff {exterior : List Coord} {interiors : List (List Coord)} {p : Polygon} :
    Polygon.ofRings exterior interiors = p ↔
      IsClosingOf exterior p.exterior ∧ List.Forall₂ IsClosingOf interiors p.interiors := by
  have hinteriors : interiors.map closeRing = p.interiors ↔
      List.Forall₂ IsClosingOf interiors p.interiors := by
    rw [← List.forall₂_eq_eq_eq, List.forall₂_map_left_iff]
    simp only [closeRing_eq_iff]
  rw [← hinteriors, ← closeRing_eq_iff]
  obtain ⟨_, _, _, _⟩ := p
  exact Polygon.mk.injEq _ _ _ _ _ _ _ _ ▸ Iff.rfl

/-- Coordinates are read as what they stand for; the kinds that are not supported stand for
nothing. -/
theorem toGeometry_shapeOf?_iff {type : String} {v : Json} {g : Geometry} :
    (∃ shape, shapeOf? type v = some shape ∧ shape.toGeometry = .ok g) ↔
      HasCoordinates type v g := by
  constructor
  · rintro ⟨shape, hshape, hg⟩
    unfold shapeOf? at hshape
    split at hshape
    · obtain ⟨p, hp, rfl⟩ := Option.map_eq_some_iff.1 hshape
      cases hg
      exact .point (position?_eq_some_iff.1 hp)
    · obtain ⟨ps, hps, rfl⟩ := Option.map_eq_some_iff.1 hshape
      cases hg
      exact .lineString (positions?_eq_some_iff.1 hps)
    · obtain ⟨rings, hrings, rfl⟩ := Option.map_eq_some_iff.1 hshape
      cases rings with
      | nil => cases hg
      | cons exterior interiors =>
        cases hg
        obtain ⟨hexterior, hinteriors⟩ := ofRings_eq_iff.1 rfl
        exact .polygon (rings?_eq_some_iff.1 hrings) hexterior hinteriors
    -- the other kinds are all of one shape
    · obtain ⟨-, -, rfl⟩ := Option.map_eq_some_iff.1 hshape
      cases hg
    · obtain ⟨-, -, rfl⟩ := Option.map_eq_some_iff.1 hshape
      cases hg
    · obtain ⟨-, -, rfl⟩ := Option.map_eq_some_iff.1 hshape
      cases hg
    · cases hshape
  · intro h
    cases h with
    | point h => exact ⟨_, congrArg (Option.map _) (position?_eq_some_iff.2 h), rfl⟩
    | lineString h => exact ⟨_, congrArg (Option.map _) (positions?_eq_some_iff.2 h), rfl⟩
    | polygon h hexterior hinteriors =>
      refine ⟨_, congrArg (Option.map _) (rings?_eq_some_iff.2 h), ?_⟩
      rw [Shape.toGeometry, ofRings_eq_iff.2 ⟨hexterior, hinteriors⟩]

theorem HasCoordinates.ne_collection {type : String} {v : Json} {g : Geometry}
    (h : HasCoordinates type v g) : type ≠ "GeometryCollection" := by
  cases h with
  | point | lineString | polygon => decide

/-- **A value is read as a geometry exactly if it stands for it.** -/
theorem readGeometry_eq_ok_iff_isGeometry {v : Json} {g : Geometry} :
    readGeometry v = .ok g ↔ IsGeometry v g := by
  rw [readGeometry_eq_ok_iff]
  constructor
  · rintro ⟨shape, hshape, hg⟩
    cases v with
    | obj members =>
      rw [shape?] at hshape
      split at hshape
      · cases hshape
      · next hbox =>
        have hbox : GoodBox members := hasGoodBox_iff.1 (by simpa using hbox)
        split at hshape
        · cases hshape
        · -- a collection has no geometry
          split at hshape
          · cases hshape
            cases hg
          · cases hshape
        · next type _ htype =>
          obtain ⟨coordinates, hlookup, hshape⟩ := Option.bind_eq_some_iff.1 hshape
          exact .object hbox (type?_eq_some_iff.1 htype) hlookup
            (toGeometry_shapeOf?_iff.1 ⟨shape, hshape, hg⟩)
    | null | bool | num | str | arr => cases hshape
  · rintro ⟨hbox, htype, hlookup, h⟩
    obtain ⟨shape, hshape, hg⟩ := toGeometry_shapeOf?_iff.2 h
    refine ⟨shape, ?_, hg⟩
    rw [shape?, if_neg (by simpa using hasGoodBox_iff.2 hbox), type?_eq_some_iff.2 htype]
    split
    · next hnone => cases hnone
    · next hcollection => exact absurd (Option.some_inj.1 hcollection) h.ne_collection
    · next heq =>
      cases heq
      rw [hlookup]
      exact hshape

/-! ## Features -/

theorem id?_eq_some_iff {v : Option Json} {id : Option FeatureId} :
    id? v = some id ↔ IsId v id := by
  constructor
  · intro h
    unfold id? at h
    split at h
    · cases h
      exact .missing
    · cases h
      exact .number _
    · cases h
      exact .text _
    · cases h
  · intro h
    cases h with
    | missing | number | text => rfl

theorem properties?_eq_some_iff {v : Option Json} {properties : Option (List (String × Json))} :
    properties? v = some properties ↔ IsProperties v properties := by
  constructor
  · intro h
    unfold properties? at h
    split at h
    · cases h
      exact .missing
    · cases h
      exact .null
    · cases h
      exact .object _
    · cases h
  · intro h
    cases h with
    | missing | null | object => rfl

/-- **A value is read as a feature exactly if it stands for it.** -/
theorem feature?_eq_some_iff_isFeature {v : Json} {f : Feature} :
    feature? v = some f ↔ IsFeature v f := by
  constructor
  · intro h
    cases v with
    | obj members =>
      obtain ⟨htype, hbox, ⟨g, hgeometry, hg⟩, hid, hproperties⟩ := feature?_eq_some_iff.1 h
      exact .object (hasGoodBox_iff.1 hbox) (type?_eq_some_iff.1 htype) hgeometry
        (readGeometry_eq_ok_iff_isGeometry.1 hg) (id?_eq_some_iff.1 hid)
        (properties?_eq_some_iff.1 hproperties)
    | null | bool | num | str | arr => cases h
  · rintro ⟨hbox, htype, hgeometry, h, hid, hproperties⟩
    exact feature?_eq_some_iff.2 ⟨type?_eq_some_iff.2 htype, hasGoodBox_iff.2 hbox,
      ⟨_, hgeometry, readGeometry_eq_ok_iff_isGeometry.2 h⟩, id?_eq_some_iff.2 hid,
      properties?_eq_some_iff.2 hproperties⟩

/-! ## The three forms of an import -/

/-- A value has a type if it is an object with a text under that name. -/
def HasType (v : Json) (type : String) : Prop := v.member? "type" = some (.str type)

/-- A value has no features to be read: it has no type, or it is a collection without a list, or
it is neither a collection nor a feature, and stands for no geometry. -/
inductive Unreadable (v : Json) : Prop where
  | untyped (h : ∀ type, ¬ HasType v type)
  | unlisted (htype : HasType v "FeatureCollection")
    (h : ∀ items, v.member? "features" ≠ some (.arr items))
  | noGeometry {type : String} (htype : HasType v type) (hcollection : type ≠ "FeatureCollection")
    (hfeature : type ≠ "Feature") (h : ∀ g, ¬ IsGeometry v g)

/-- A feature object around a geometry, with null for properties. -/
def wrapped (geometry : Json) : Json :=
  .obj [("geometry", geometry), ("properties", .null), ("type", .str "Feature")]

/-- What is read, and when. Reading fails exactly if there is nothing to be read. A collection
gives what each of its members stands for, in their order, and nothing for the members that stand
for no feature. A feature is read as a collection that has only it. A geometry is read as a
feature around it, and where it cannot be read the feature is skipped. -/
structure Accepts (v : Json) : Prop where
  fails : (∃ fault, readFeatures v = .error fault) ↔ Unreadable v
  collection : ∀ items, HasType v "FeatureCollection" → v.member? "features" = some (.arr items) →
    ∃ rows : List (Option Feature),
      List.Forall₂ (fun item row => ∀ f, row = some f ↔ IsFeature item f) items rows ∧
      readFeatures v = .ok rows.reduceOption
  single : ∀ w, HasType v "Feature" → HasType w "FeatureCollection" →
    w.member? "features" = some (.arr [v]) → readFeatures v = readFeatures w
  bare : ∀ type, HasType v type → type ≠ "FeatureCollection" → type ≠ "Feature" →
    (∀ fs, readFeatures v = .ok fs → readFeatures (wrapped v) = .ok fs ∧
      ∃ g, IsGeometry v g ∧ fs = [⟨none, g, none⟩]) ∧
    ((∃ fault, readFeatures v = .error fault) → readFeatures (wrapped v) = .ok [])

section
variable {v : Json}

/-- The type of a value is the text under that name. -/
theorem member?_type_eq_some_iff {type : String} :
    (v.member? "type").bind Json.str? = some type ↔ HasType v type := by
  rw [Option.bind_eq_some_iff, HasType]
  constructor
  · rintro ⟨w, hw, htype⟩
    cases w with
    | str s =>
      cases htype
      exact hw
    | null | bool | num | arr | obj => cases htype
  · intro h
    exact ⟨_, h, rfl⟩

theorem readFeatures_of_untyped (h : ∀ type, ¬ HasType v type) :
    readFeatures v = .error (Fault.of .untyped) := by
  have hnone : (v.member? "type").bind Json.str? = none :=
    Option.eq_none_iff_forall_ne_some.2 fun type htype => h type (member?_type_eq_some_iff.1 htype)
  rw [readFeatures, hnone]

theorem readFeatures_of_collection (htype : HasType v "FeatureCollection") {items : List Json}
    (hitems : v.member? "features" = some (.arr items)) :
    readFeatures v = .ok (items.filterMap feature?) := by
  rw [readFeatures, member?_type_eq_some_iff.2 htype, hitems]
  rfl

theorem readFeatures_of_unlisted (htype : HasType v "FeatureCollection")
    (h : ∀ items, v.member? "features" ≠ some (.arr items)) :
    readFeatures v = .error (Fault.of .noFeatureList) := by
  have hnone : (v.member? "features").bind Json.arr? = none := by
    refine Option.eq_none_iff_forall_ne_some.2 fun items hitems => ?_
    obtain ⟨members, rfl, hlookup⟩ := exists_lookup_of_member? hitems
    exact h items hlookup
  rw [readFeatures, member?_type_eq_some_iff.2 htype]
  simp only [hnone]

theorem readFeatures_of_feature (htype : HasType v "Feature") :
    readFeatures v = .ok (feature? v).toList := by
  rw [readFeatures, member?_type_eq_some_iff.2 htype]
  rfl

theorem readFeatures_of_other {type : String} (htype : HasType v type)
    (hcollection : type ≠ "FeatureCollection") (hfeature : type ≠ "Feature") :
    readFeatures v = (readGeometry v).map (fun g => [Feature.ofGeometry g]) := by
  rw [readFeatures, member?_type_eq_some_iff.2 htype]
  split
  · next h => cases h
  · next h => exact absurd (Option.some_inj.1 h) hcollection
  · next h => exact absurd (Option.some_inj.1 h) hfeature
  · cases readGeometry v with
    | ok | error => rfl

end

/-- The forms that a value can have. -/
theorem form_cases (v : Json) :
    (∀ type, ¬ HasType v type) ∨
    (∃ items, HasType v "FeatureCollection" ∧ v.member? "features" = some (.arr items)) ∨
    (HasType v "FeatureCollection" ∧ ∀ items, v.member? "features" ≠ some (.arr items)) ∨
    HasType v "Feature" ∨
    ∃ type, HasType v type ∧ type ≠ "FeatureCollection" ∧ type ≠ "Feature" := by
  by_cases htyped : ∃ type, HasType v type
  · obtain ⟨type, htype⟩ := htyped
    by_cases hcollection : type = "FeatureCollection"
    · subst hcollection
      by_cases hlisted : ∃ items, v.member? "features" = some (.arr items)
      · obtain ⟨items, hitems⟩ := hlisted
        exact .inr (.inl ⟨items, htype, hitems⟩)
      · exact .inr (.inr (.inl ⟨htype, not_exists.1 hlisted⟩))
    · by_cases hfeature : type = "Feature"
      · exact .inr (.inr (.inr (.inl (hfeature ▸ htype))))
      · exact .inr (.inr (.inr (.inr ⟨type, htype, hcollection, hfeature⟩)))
  · exact .inl (not_exists.1 htyped)

/-- Reading fails exactly if there is nothing to be read. -/
theorem readFeatures_fails_iff {v : Json} :
    (∃ fault, readFeatures v = .error fault) ↔ Unreadable v := by
  constructor
  · rintro ⟨fault, hfault⟩
    rcases form_cases v with huntyped | ⟨items, htype, hitems⟩ | ⟨htype, hunlisted⟩ | htype |
      ⟨type, htype, hcollection, hfeature⟩
    · exact .untyped huntyped
    · rw [readFeatures_of_collection htype hitems] at hfault
      cases hfault
    · exact .unlisted htype hunlisted
    · rw [readFeatures_of_feature htype] at hfault
      cases hfault
    · refine .noGeometry htype hcollection hfeature fun g hg => ?_
      rw [readFeatures_of_other htype hcollection hfeature,
        readGeometry_eq_ok_iff_isGeometry.2 hg] at hfault
      cases hfault
  · rintro (huntyped | ⟨htype, hunlisted⟩ | ⟨htype, hcollection, hfeature, hnone⟩)
    · exact ⟨_, readFeatures_of_untyped huntyped⟩
    · exact ⟨_, readFeatures_of_unlisted htype hunlisted⟩
    · rw [readFeatures_of_other htype hcollection hfeature]
      cases hg : readGeometry v with
      | ok g => exact absurd (readGeometry_eq_ok_iff_isGeometry.1 hg) (hnone g)
      | error fault => exact ⟨fault, rfl⟩

/-- A feature with readable surroundings is read as its geometry is, or not at all. -/
theorem feature?_obj {members : List (String × Json)} {g : Json} {id : Option FeatureId}
    {properties : Option (Keyed Json)}
    (htype : (type? members = some "Feature" && hasGoodBox members) = true)
    (hgeometry : Keyed.lookup "geometry" members = some g)
    (hid : id? (Keyed.lookup "id" members) = some id)
    (hproperties : properties? (Keyed.lookup "properties" members) = some properties) :
    feature? (.obj members) =
      (readGeometry g).toOption.map (fun geometry => ⟨id, geometry, properties⟩) := by
  rw [feature?, if_pos htype]
  simp only [hgeometry, hid, hproperties]
  cases readGeometry g with
  | ok | error => rfl

/-- A feature around a geometry is read as the geometry is, or not at all. -/
theorem feature?_wrapped {v : Json} :
    feature? (wrapped v) = (readGeometry v).toOption.map Feature.ofGeometry :=
  feature?_obj (by simp [type?, hasGoodBox, Keyed.lookup, Json.str?]) rfl rfl rfl

/-- **When reading fails, and what the three forms of an import have in common.** -/
theorem accepts (v : Json) : Accepts v where
  fails := readFeatures_fails_iff
  collection := by
    intro items htype hitems
    refine ⟨items.map feature?, ?_, ?_⟩
    · rw [List.forall₂_map_right_iff]
      exact List.forall₂_same.2 fun item _ f => feature?_eq_some_iff_isFeature
    · rw [readFeatures_of_collection htype hitems, List.reduceOption, List.filterMap_map]
      rfl
  single := by
    intro w htype hw hitems
    rw [readFeatures_of_feature htype, readFeatures_of_collection hw hitems]
    cases h : feature? v with
    | none | some => simp [h]
  bare := by
    intro type htype hcollection hfeature
    have hwrapped : readFeatures (wrapped v) = .ok (feature? (wrapped v)).toList :=
      readFeatures_of_feature rfl
    rw [readFeatures_of_other htype hcollection hfeature, hwrapped, feature?_wrapped]
    cases hg : readGeometry v with
    | ok g =>
      refine ⟨fun fs hfs => ?_, fun ⟨_, h⟩ => nomatch h⟩
      cases hfs
      exact ⟨rfl, g, readGeometry_eq_ok_iff_isGeometry.1 hg, rfl⟩
    | error fault => exact ⟨fun _ h => (nomatch h), fun _ => rfl⟩

/-- A collection with a point between two members that stand for no feature, the point as a
feature, and the point on its own. -/
theorem accepts_point :
    let point := typedJson "Point" (.arr [.num (.int 3), .num (.int 4)])
    let points := typedJson "MultiPoint" (.arr [])
    let members := [wrapped points, wrapped point, .null]
    let collection := Json.obj [("features", .arr members), ("type", .str "FeatureCollection")]
    let single := Json.obj [("features", .arr [wrapped point]), ("type", .str "FeatureCollection")]
    (∃ rows : List (Option Feature),
      List.Forall₂ (fun item row => ∀ f, row = some f ↔ IsFeature item f) members rows ∧
      readFeatures collection = .ok rows.reduceOption) ∧
    readFeatures (wrapped point) = readFeatures single ∧
    readFeatures points = .error (Fault.of .unsupportedGeometry) ∧
    readFeatures (wrapped points) = .ok [] := by
  intro point points members collection single
  have hfails : readFeatures points = .error (Fault.of .unsupportedGeometry) := rfl
  refine ⟨?_, ?_, hfails, ?_⟩
  · exact (accepts collection).collection members rfl rfl
  · exact (accepts (wrapped point)).single single rfl rfl rfl
  · exact ((accepts points).bare "MultiPoint" rfl (by decide) (by decide)).2 ⟨_, hfails⟩

end Atlas.GeoJson
