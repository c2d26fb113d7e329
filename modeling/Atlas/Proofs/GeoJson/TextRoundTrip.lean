import Atlas.GeoJson.Text
import Atlas.Proofs.GeoJson.RoundTrip
import Atlas.Proofs.Json.WellFormed

/-!
# Exporting an import as text

Features that were read from a text are written as the text of a collection, whatever they were
read from. In this text their properties stand inside three other arrays and objects: the
collection, the list of its features and the feature. So the text can be read again exactly if the
properties leave room for three more. Then nothing is lost; otherwise the whole text is refused.

The properties of a collection that was read leave this room. Those of a feature that was read on
its own have been inside one object only, and may be nested too deeply for the collection.

## Main statements

* `GeoJson.readText_writeText_eq` — what reading an export again gives
* `GeoJson.readText_writeText_iff` — the imports that are read again from their export
* `GeoJson.readText_writeText_of_ne_feature` — all imports but those of a feature on its own
-/

namespace Atlas

/-- How many arrays and objects are open at once in the properties of a feature. -/
def Feature.depth (f : Feature) : Nat :=
  match f.properties with
  | some members => (Json.obj members).depth
  | none => 0

/-- What a feature keeps of its text as it is, the id and the properties, can stand in a text where
`d` more arrays and objects may be opened. -/
structure Feature.WellFormed (d : Nat) (f : Feature) : Prop where
  id : ∀ id, f.id = some id → (GeoJson.idJson id).WellFormed d
  properties : ∀ members, f.properties = some members → (Json.obj members).WellFormed d

theorem Feature.WellFormed.mono {d d' : Nat} {f : Feature} (h : f.WellFormed d) (hd : d ≤ d') :
    f.WellFormed d' :=
  ⟨fun id hid => (h.id id hid).mono hd, fun members hp => (h.properties members hp).mono hd⟩

theorem Feature.WellFormed.depth_le {d : Nat} {f : Feature} (h : f.WellFormed d) : f.depth ≤ d := by
  obtain ⟨id, geometry, properties⟩ := f
  cases properties with
  | none => exact Nat.zero_le d
  | some members => exact (h.properties members rfl).depth_le

theorem Feature.WellFormed.of_depth_le {d d' : Nat} {f : Feature} (h : f.WellFormed d)
    (hd : f.depth ≤ d') : f.WellFormed d' := by
  obtain ⟨id, geometry, properties⟩ := f
  refine ⟨fun fid hid => ?_, fun members hp => ?_⟩
  · have hscalar := h.id fid hid
    cases fid with
    | text s => exact Json.wellFormed_str s
    | number n => exact Json.wellFormed_num hscalar.spellable.num
  · have hmembers := h.properties members hp
    cases hp
    exact ⟨hmembers.spellable, hmembers.ordered, hd⟩

theorem Feature.wellFormed_ofGeometry (d : Nat) (g : Geometry) :
    (Feature.ofGeometry g).WellFormed d where
  id := by
    intro id hid
    cases hid
  properties := by
    intro members hp
    cases hp

/-- Rows are sorted if their keys are. -/
theorem Keyed.sorted_of_keys {β : Type} {t : Keyed β} (h : (t.map Prod.fst).Pairwise (· < ·)) :
    Sorted t := List.pairwise_map.1 h

namespace GeoJson

open Json (wellFormed_null wellFormed_str wellFormed_arr wellFormed_obj wellFormed_ofFloat)

/-! ## What has been read -/

/-- The id and the properties of a feature are members of its object. -/
theorem wellFormed_of_feature? {d : Nat} {v : Json} {f : Feature} (hv : v.WellFormed (d + 1))
    (h : feature? v = some f) : f.WellFormed d := by
  cases v with
  | obj members =>
    obtain ⟨-, -, -, hid, hproperties⟩ := feature?_eq_some_iff.1 h
    refine ⟨fun id hsome => ?_, fun rows hsome => ?_⟩
    · rw [hsome] at hid
      exact hv.member (eq_idJson_of_id? hid)
    · rw [hsome] at hproperties
      exact hv.member (eq_obj_of_properties? hproperties)
  | null | bool | num | str | arr => cases h

/-- The features of a list stand inside three arrays and objects. -/
theorem wellFormed_of_mem_filterMap {d : Nat} {v : Json} {items : List Json} {f : Feature}
    (hv : v.WellFormed (d + 3)) (hitems : (v.member? "features").bind Json.arr? = some items)
    (hf : f ∈ items.filterMap feature?) : f.WellFormed d := by
  obtain ⟨item, hmem, hitem⟩ := List.mem_filterMap.1 hf
  obtain ⟨members, rfl, hlookup⟩ := exists_lookup_of_member? hitems
  exact wellFormed_of_feature? ((hv.member hlookup).item hmem) hitem

/-- The features of an import stand inside one object at least. -/
theorem wellFormed_of_mem_readFeatures {d : Nat} {v : Json} {fs : List Feature} {f : Feature}
    (hv : v.WellFormed (d + 3)) (h : readFeatures v = .ok fs) (hf : f ∈ fs) :
    f.WellFormed (d + 2) := by
  rcases readFeatures_eq_ok_cases h with ⟨items, hitems, rfl⟩ | rfl | ⟨g, -, rfl⟩
  · exact (wellFormed_of_mem_filterMap hv hitems hf).mono (Nat.le_add_right d 2)
  · exact wellFormed_of_feature? hv (Option.mem_toList.1 hf)
  · rw [List.mem_singleton] at hf
    rw [hf]
    exact Feature.wellFormed_ofGeometry _ g

/-- The features of an import that is no feature on its own stand inside three arrays and
objects. -/
theorem wellFormed_of_mem_readFeatures_of_ne {d : Nat} {v : Json} {fs : List Feature} {f : Feature}
    (hv : v.WellFormed (d + 3)) (htype : (v.member? "type").bind Json.str? ≠ some "Feature")
    (h : readFeatures v = .ok fs) (hf : f ∈ fs) : f.WellFormed d := by
  rcases readFeatures_eq_ok_cases h with ⟨items, hitems, rfl⟩ | rfl | ⟨g, -, rfl⟩
  · exact wellFormed_of_mem_filterMap hv hitems hf
  · have hfeature : feature? v = some f := Option.mem_toList.1 hf
    cases v with
    | obj members => exact absurd (feature?_eq_some_iff.1 hfeature).1 htype
    | null | bool | num | str | arr => cases hfeature
  · rw [List.mem_singleton] at hf
    rw [hf]
    exact Feature.wellFormed_ofGeometry _ g

/-! ## What is written -/

theorem wellFormed_positionJson (p : Coord) : (positionJson p).WellFormed 1 := by
  refine wellFormed_arr Nat.zero_lt_one fun x hx => ?_
  simp only [List.mem_cons, List.not_mem_nil, or_false] at hx
  rcases hx with rfl | rfl
  all_goals exact wellFormed_ofFloat 0 _

theorem wellFormed_positionsJson (ps : List Coord) : (positionsJson ps).WellFormed 2 := by
  refine wellFormed_arr (Nat.lt_succ_self 1) fun x hx => ?_
  obtain ⟨p, -, rfl⟩ := List.mem_map.1 hx
  exact wellFormed_positionJson p

theorem wellFormed_typedJson {type : String} {coordinates : Json} (h : coordinates.WellFormed 3) :
    (typedJson type coordinates).WellFormed 4 := by
  have hkeys : ["coordinates", "type"].Pairwise (· < ·) := by decide
  refine wellFormed_obj (Nat.lt_succ_self 3) (Keyed.sorted_of_keys hkeys) fun row hrow => ?_
  simp only [List.mem_cons, List.not_mem_nil, or_false] at hrow
  rcases hrow with rfl | rfl
  · exact h
  · exact wellFormed_str type

/-- The deepest geometry that is written is a polygon: an object with a list of rings, each a list
of positions. -/
theorem wellFormed_ofGeometryOrNull (g : Geometry) :
    (ofGeometryOrNull (some g)).WellFormed 4 := by
  cases g with
  | point p => exact wellFormed_typedJson ((wellFormed_positionJson p).mono (by decide))
  | lineString ps => exact wellFormed_typedJson ((wellFormed_positionsJson ps).mono (by decide))
  | polygon p =>
    refine wellFormed_typedJson (wellFormed_arr (Nat.lt_succ_self 2) fun x hx => ?_)
    obtain ⟨ring, -, rfl⟩ := List.mem_map.1 hx
    exact wellFormed_positionsJson ring
  | segment | multiPoint | multiLineString | multiPolygon | collection | rectangle | triangle =>
    exact wellFormed_null

theorem wellFormed_ofFeature {d : Nat} {f : Feature} (hd : 4 ≤ d) (h : f.WellFormed d) :
    (ofFeature f).WellFormed (d + 1) := by
  obtain ⟨id, geometry, properties⟩ := f
  have hgeometry := (wellFormed_ofGeometryOrNull geometry).mono hd
  have hproperties : (match properties with
      | some members => Json.obj members
      | none => .null).WellFormed d := by
    cases properties with
    | none => exact wellFormed_null
    | some members => exact h.properties members rfl
  cases id with
  | none =>
    have hkeys : ["geometry", "properties", "type"].Pairwise (· < ·) := by decide
    refine wellFormed_obj (Nat.lt_succ_self d) (Keyed.sorted_of_keys hkeys) ?_
    exact List.forall_mem_cons.2 ⟨hgeometry, List.forall_mem_cons.2 ⟨hproperties,
      List.forall_mem_singleton.2 (wellFormed_str _)⟩⟩
  | some id =>
    have hkeys : ["geometry", "id", "properties", "type"].Pairwise (· < ·) := by decide
    refine wellFormed_obj (Nat.lt_succ_self d) (Keyed.sorted_of_keys hkeys) ?_
    exact List.forall_mem_cons.2 ⟨hgeometry, List.forall_mem_cons.2 ⟨h.id id rfl,
      List.forall_mem_cons.2 ⟨hproperties, List.forall_mem_singleton.2 (wellFormed_str _)⟩⟩⟩

/-- A collection is three deeper than what its features keep. -/
theorem wellFormed_ofFeatures {d : Nat} {fs : List Feature} (hd : 4 ≤ d)
    (h : ∀ f ∈ fs, f.WellFormed d) : (ofFeatures fs).WellFormed (d + 3) := by
  have hkeys : ["features", "type"].Pairwise (· < ·) := by decide
  refine wellFormed_obj (Nat.lt_succ_self (d + 2)) (Keyed.sorted_of_keys hkeys) fun row hrow => ?_
  simp only [List.mem_cons, List.not_mem_nil, or_false] at hrow
  rcases hrow with rfl | rfl
  · refine wellFormed_arr (Nat.lt_succ_self (d + 1)) fun x hx => ?_
    obtain ⟨f, hf, rfl⟩ := List.mem_map.1 hx
    exact wellFormed_ofFeature hd (h f hf)
  · exact wellFormed_str _

theorem depth_lt_depth_ofFeature (f : Feature) : f.depth < (ofFeature f).depth := by
  obtain ⟨id, geometry, properties⟩ := f
  cases properties with
  | none => exact Nat.succ_pos _
  | some members =>
    exact Nat.lt_succ_of_le (Json.memberDepth_le_iff.1 (Nat.le_refl _) ("properties", .obj members)
      (List.mem_append_right _ List.mem_cons_self))

theorem depth_add_three_le {fs : List Feature} {f : Feature} (hf : f ∈ fs) :
    f.depth + 3 ≤ (ofFeatures fs).depth := by
  have hitem : (ofFeature f).depth ≤ Json.itemDepth (fs.map ofFeature) :=
    Json.itemDepth_le_iff.1 (Nat.le_refl _) _ (List.mem_map_of_mem hf)
  have hlt := depth_lt_depth_ofFeature f
  simp only [ofFeatures, Json.depth, Json.memberDepth]
  omega

/-! ## Reading an export -/

/-- The text of an export is read as the collection, or not at all. -/
theorem parse?_writeText {d : Nat} {fs : List Feature} (h : ∀ f ∈ fs, f.WellFormed d) :
    Json.parse? (writeText fs) =
      if ∀ f ∈ fs, f.depth + 3 ≤ Json.maxDepth then some (ofFeatures fs) else none := by
  have hwritten : (ofFeatures fs).WellFormed (max 4 d + 3) :=
    wellFormed_ofFeatures (Nat.le_max_left 4 d) fun f hf => (h f hf).mono (Nat.le_max_right 4 d)
  rw [writeText, Json.parse?_render hwritten.spellable hwritten.ordered]
  by_cases hdepth : ∀ f ∈ fs, f.depth + 3 ≤ Json.maxDepth
  · have hshallow : (ofFeatures fs).WellFormed Json.maxDepth := by
      refine wellFormed_ofFeatures (d := Json.maxDepth - 3) (by decide) fun f hf => ?_
      exact (h f hf).of_depth_le (Nat.le_sub_of_add_le (hdepth f hf))
    rw [if_pos hdepth, if_pos hshallow.depth_le]
  · have hdeep : ¬ (ofFeatures fs).depth ≤ Json.maxDepth := fun hle =>
      hdepth fun f hf => Nat.le_trans (depth_add_three_le hf) hle
    rw [if_neg hdepth, if_neg hdeep]

/-- A text that is read is one of a well-formed value. -/
theorem readText_eq_ok {text : String} {fs : List Feature} (h : readText text = .ok fs) :
    ∃ v, Json.parse? text = some v ∧ v.WellFormed Json.maxDepth ∧ readFeatures v = .ok fs := by
  unfold readText at h
  cases hparse : Json.parse? text with
  | none =>
    rw [hparse] at h
    cases h
  | some v =>
    rw [hparse] at h
    exact ⟨v, rfl, Json.wellFormed_of_parse? hparse, h⟩

/-- What reading an export again gives: all features, or that the text is no JSON text that can be
read. -/
theorem readText_writeText_eq {text : String} {fs : List Feature} (h : readText text = .ok fs) :
    readText (writeText fs) =
      if ∀ f ∈ fs, f.depth + 3 ≤ Json.maxDepth then .ok fs
      else .error ⟨[.readingText], .shape⟩ := by
  obtain ⟨v, -, hv, hread⟩ := readText_eq_ok h
  have hparse := parse?_writeText fun f hf =>
    wellFormed_of_mem_readFeatures (d := Json.maxDepth - 3) hv hread hf
  have hportable : fs.filter Feature.isPortable = fs :=
    List.filter_eq_self.2 fun f hf => isPortable_of_mem_readFeatures hv.spellable hread hf
  unfold readText
  by_cases hdepth : ∀ f ∈ fs, f.depth + 3 ≤ Json.maxDepth
  · rw [hparse, if_pos hdepth, if_pos hdepth]
    show readFeatures (ofFeatures fs) = _
    rw [readFeatures_ofFeatures_eq_filter, hportable]
  · rw [hparse, if_neg hdepth, if_neg hdepth]
    rfl

/-- A feature on its own is read from its text, where its properties have room for one more. -/
theorem readText_render_ofFeature {d : Nat} {f : Feature} (hd : 4 ≤ d) (hroom : d < Json.maxDepth)
    (h : f.WellFormed d) (hportable : f.isPortable = true) :
    readText (ofFeature f).render = .ok [f] := by
  have hwritten : (ofFeature f).WellFormed Json.maxDepth := (wellFormed_ofFeature hd h).mono hroom
  have htype : ((ofFeature f).member? "type").bind Json.str? = some "Feature" := by
    obtain ⟨members, hobj, htype, -⟩ := ofFeature_eq_obj f
    rw [hobj]
    exact htype
  unfold readText
  rw [hwritten.parse?_render]
  show readFeatures (ofFeature f) = _
  unfold readFeatures
  rw [htype]
  show Except.ok (feature? (ofFeature f)).toList = _
  rw [feature?_ofFeature, if_pos hportable]
  rfl

/-! ## The imports that survive -/

/-- **A collection, or a geometry on its own, is always read again from its export.** -/
theorem readText_writeText_of_ne_feature {text : String} {v : Json} {fs : List Feature}
    (hv : Json.parse? text = some v) (htype : (v.member? "type").bind Json.str? ≠ some "Feature")
    (h : readText text = .ok fs) : readText (writeText fs) = .ok fs := by
  obtain ⟨w, hw, hwell, hread⟩ := readText_eq_ok h
  obtain rfl : v = w := Option.some.inj (hv.symm.trans hw)
  have hdepth : ∀ f ∈ fs, f.depth + 3 ≤ Json.maxDepth := fun f hf =>
    Nat.add_le_of_le_sub (by decide)
      (wellFormed_of_mem_readFeatures_of_ne (d := Json.maxDepth - 3) hwell htype hread hf).depth_le
  rw [readText_writeText_eq h, if_pos hdepth]

/-- Objects one inside the other: the members of an object with `n` more in it. -/
def nested : Nat → List (String × Json)
  | 0 => []
  | n + 1 => [("a", .obj (nested n))]

/-- A point whose properties are `n + 1` deep. -/
def nestedFeature (n : Nat) : Feature := ⟨none, .point ⟨1, 2⟩, some (nested n)⟩

theorem depth_nestedFeature (n : Nat) : (nestedFeature n).depth = n + 1 := by
  show (Json.obj (nested n)).depth = n + 1
  induction n with
  | zero => rfl
  | succ n ih =>
    show max (Json.obj (nested n)).depth 0 + 1 = n + 1 + 1
    rw [ih, Nat.max_zero]

theorem wellFormed_nestedFeature (n : Nat) : (nestedFeature n).WellFormed (n + 1) := by
  have hnested : (Json.obj (nested n)).WellFormed (n + 1) := by
    induction n with
    | zero => exact wellFormed_obj Nat.zero_lt_one List.Pairwise.nil (List.forall_mem_nil _)
    | succ n ih =>
      exact wellFormed_obj (Nat.lt_succ_self (n + 1)) (List.pairwise_singleton _ _)
        (List.forall_mem_singleton.2 ih)
  refine ⟨fun id hid => ?_, fun members hp => ?_⟩
  · cases hid
  · cases hp
    exact hnested

/-- A feature on its own is read from its text, if it is not nested too deeply itself. -/
theorem readText_render_nestedFeature {n : Nat} (hlow : 3 ≤ n) (hhigh : n + 1 < Json.maxDepth) :
    readText (ofFeature (nestedFeature n)).render = .ok [nestedFeature n] :=
  readText_render_ofFeature (Nat.succ_le_succ hlow) hhigh (wellFormed_nestedFeature n) rfl

/-- **The imports that are read again from their export:** those whose properties leave room for
the collection, its list and the feature around them. -/
theorem readText_writeText_iff {text : String} {fs : List Feature} (h : readText text = .ok fs) :
    readText (writeText fs) = .ok fs ↔ ∀ f ∈ fs, f.depth + 3 ≤ Json.maxDepth := by
  rw [readText_writeText_eq h]
  by_cases hdepth : ∀ f ∈ fs, f.depth + 3 ≤ Json.maxDepth
  · rw [if_pos hdepth]
    exact ⟨fun _ => hdepth, fun _ => rfl⟩
  · rw [if_neg hdepth]
    refine ⟨fun hok => ?_, fun hall => absurd hall hdepth⟩
    cases hok

/-- The deepest properties that survive. -/
theorem readText_writeText_nestedFeature :
    readText (ofFeature (nestedFeature 123)).render = .ok [nestedFeature 123] ∧
      readText (writeText [nestedFeature 123]) = .ok [nestedFeature 123] := by
  have hread := readText_render_nestedFeature (n := 123) (by decide) (by decide)
  refine ⟨hread, (readText_writeText_iff hread).2 (List.forall_mem_singleton.2 ?_)⟩
  rw [depth_nestedFeature]
  decide

/-- One object more, and the feature is read, but not its export. -/
theorem readText_writeText_nestedFeature_deeper :
    readText (ofFeature (nestedFeature 124)).render = .ok [nestedFeature 124] ∧
      readText (writeText [nestedFeature 124]) = .error ⟨[.readingText], .shape⟩ := by
  have hread := readText_render_nestedFeature (n := 124) (by decide) (by decide)
  refine ⟨hread, (readText_writeText_eq hread).trans (if_neg fun hdepth => ?_)⟩
  have hle := List.forall_mem_singleton.1 hdepth
  rw [depth_nestedFeature] at hle
  exact absurd hle (by decide)

end GeoJson
end Atlas
