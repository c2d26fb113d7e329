import Atlas.Layer.Spec
import Atlas.Proofs.Json.WellFormed
import Atlas.Proofs.Message.Payloads

/-!
# Specifications are read back

A specification that was read is written with all its fields, and reads as itself again. This is
not true of every specification: an opacity that is no number is written as null, and a protocol
of unknown kind may have a known name. Neither comes from reading.

The protocol is written by its name. A known name is written in capitals, however it was given,
and any other name as it was given.

## Main statements

* `LayerSpec.ofJson?_toJson_iff` — which specifications are read back
* `LayerSpec.read_back` — what was read is read back, with the name of the protocol in capitals
-/

namespace Atlas

/-! ## Letter case -/

namespace Protocol

/-- The texts are the same but for the case of their ASCII letters. -/
def SameLetters (s t : String) : Prop := s.toList.map Char.toLower = t.toList.map Char.toLower

instance (s t : String) : Decidable (SameLetters s t) := inferInstanceAs (Decidable (_ = _))

theorem sameLetters_iff {s t : String} : SameLetters s t ↔ upper s = upper t := by
  have hupper : Char.toUpper ∘ Char.toLower = Char.toUpper :=
    funext Char.toUpper_toLower_eq_toUpper
  have hlower : Char.toLower ∘ Char.toUpper = Char.toLower :=
    funext Char.toLower_toUpper_eq_toLower
  constructor
  · intro h
    have hmap := congrArg (List.map Char.toUpper) h
    rwa [List.map_map, List.map_map, hupper] at hmap
  · intro h
    have hmap := congrArg (List.map Char.toLower) h
    rwa [upper, upper, List.map_map, List.map_map, hlower] at hmap

/-- **A known name is written in capitals if it was given in any letter case,** and only then. Every
other name stays as it is. -/
theorem name_ofName (given : String) :
    ((ofName given).name = "WMS" ↔ SameLetters given "WMS") ∧
      ((ofName given).name = "WMTS" ↔ SameLetters given "WMTS") ∧
      (¬ SameLetters given "WMS" → ¬ SameLetters given "WMTS" → (ofName given).name = given) := by
  have hwms : SameLetters given "WMS" ↔ upper given = ['W', 'M', 'S'] := sameLetters_iff
  have hwmts : SameLetters given "WMTS" ↔ upper given = ['W', 'M', 'T', 'S'] := sameLetters_iff
  rw [hwms, hwmts, ofName]
  split
  · next h => simp [h, name]
  · next h =>
    split
    · next h' => simp [h', name]
    · next h' =>
      -- a name that is not known in any letter case is not one of the known names either
      have hne : ∀ known : String, upper given ≠ upper known → given ≠ known :=
        fun _ h heq => h (congrArg upper heq)
      exact ⟨iff_of_false (hne "WMS" h) h, iff_of_false (hne "WMTS" h') h', fun _ _ => rfl⟩

end Protocol

namespace LayerSpec

/-! ## Writing -/

/-- What a specification that is read has: the opacity is a number, and the kind of the protocol
is the one that its name has. -/
structure Readable (spec : LayerSpec) : Prop where
  opacity : spec.opacity.isFinite = true
  protocol : Protocol.ofName spec.protocol.name = spec.protocol

/-- The members of the record of a specification, in the order of the fields. -/
def rows (spec : LayerSpec) : List (String × Json) :=
  [("id", .str spec.id), ("protocol", .str spec.protocol.name), ("urls", .arr (spec.urls.map .str)),
    ("visible", .bool spec.visible), ("opacity", Json.ofFloat spec.opacity),
    ("style", Json.ofString? spec.style), ("matrixSet", Json.ofString? spec.matrixSet),
    ("format", Json.ofString? spec.format), ("projection", Json.ofString? spec.projection),
    ("attribution", Json.ofString? spec.attribution), ("timeEnabled", .bool spec.timeEnabled)]

theorem nodup_map_fst_rows (spec : LayerSpec) : (spec.rows.map Prod.fst).Nodup :=
  (by decide : fieldNames.Nodup)

theorem fields?_toJson (spec : LayerSpec) :
    Json.fields? fieldNames spec.toJson = some (spec.rows.map (fun row => some row.2)) :=
  Json.fields?_ofMembers spec.nodup_map_fst_rows

theorem mapM_str? (texts : List String) : (texts.map Json.str).mapM Json.str? = some texts := by
  rw [List.mapM_map]
  exact (List.mapM_pure (f := fun text => text)).trans (congrArg some (List.map_id' texts))

theorem optional?_ofString? (text : Option String) :
    Json.optional? (Json.ofString? text) = some text := by
  cases text with
  | none => rfl
  | some text => rfl

/-- What the record of a specification is read as. -/
theorem ofJson?_toJson_eq (spec : LayerSpec) : ofJson? spec.toJson =
    (Json.float? (Json.ofFloat spec.opacity)).map (fun opacity =>
      { spec with opacity := opacity, protocol := Protocol.ofName spec.protocol.name }) := by
  rw [ofJson?, fields?_toJson]
  simp only [rows, List.map_cons, List.map_nil, Option.bind_eq_bind, Option.bind_some,
    Json.required, Json.withDefault, Json.str?, Json.list?, Json.bool?, mapM_str?,
    optional?_ofString?]
  cases Json.float? (Json.ofFloat spec.opacity) with
  | none => rfl
  | some opacity => rfl

/-- **Which specifications are read back:** those that can have been read. -/
theorem ofJson?_toJson_iff {spec : LayerSpec} :
    ofJson? spec.toJson = some spec ↔ spec.Readable := by
  rw [ofJson?_toJson_eq]
  constructor
  · intro h
    obtain ⟨opacity, hopacity, hspec⟩ := Option.map_eq_some_iff.1 h
    refine ⟨?_, congrArg LayerSpec.protocol hspec⟩
    by_contra hfinite
    rw [Json.ofFloat_eq_null_iff.2 hfinite] at hopacity
    cases hopacity
  · intro h
    rw [Json.ofFloat_of_isFinite h.opacity, h.protocol]
    rfl

/-- The text of a specification can be read, as the record that was written. -/
theorem parse?_render_toJson (spec : LayerSpec) :
    Json.parse? spec.toJson.render = some spec.toJson := by
  have htext : ∀ text, (Json.ofString? text).WellFormed 1 := by
    intro text
    cases text with
    | none => exact Json.wellFormed_null
    | some text => exact Json.wellFormed_str text
  have hurls : (Json.arr (spec.urls.map .str)).WellFormed 1 := by
    refine Json.wellFormed_arr Nat.zero_lt_one fun x hx => ?_
    obtain ⟨url, -, rfl⟩ := List.mem_map.1 hx
    exact Json.wellFormed_str url
  have hrows : ∀ row ∈ spec.rows, row.2.WellFormed 1 := by
    simp only [rows, List.forall_mem_cons]
    exact ⟨Json.wellFormed_str _, Json.wellFormed_str _, hurls, Json.wellFormed_bool _,
      Json.wellFormed_ofFloat 1 _, htext _, htext _, htext _, htext _, htext _,
      Json.wellFormed_bool _, List.forall_mem_nil _⟩
  have hwritten : spec.toJson.WellFormed Json.maxDepth :=
    Json.wellFormed_ofMembers (by decide : 1 < Json.maxDepth) hrows
  exact hwritten.parse?_render

/-! ## Reading -/

/-- The text that is given as the protocol: in an object by its name, in an array as the second
element. -/
def protocolText? : Json → Option String
  | .obj members => (Keyed.lookup "protocol" members).bind Json.str?
  | .arr items => items[1]?.bind Json.str?
  | _ => none

theorem protocolText?_of_fields? {v : Json} {id protocol : Option Json}
    {others : List (Option Json)}
    (h : Json.fields? fieldNames v = some (id :: protocol :: others)) :
    protocolText? v = protocol.bind Json.str? := by
  cases v with
  | obj members =>
    cases h
    rfl
  | arr items => rw [protocolText?, Json.getElem?_of_align? h (i := 1) rfl]
  | null | bool | num | str => cases h

/-- **What a specification is read from:** its protocol is the one with the given name, and its
opacity is a number. -/
theorem readable_of_ofJson? {v : Json} {spec : LayerSpec} (hv : v.Spellable)
    (h : ofJson? v = some spec) :
    spec.Readable ∧
      ∃ given, protocolText? v = some given ∧ spec.protocol = Protocol.ofName given := by
  obtain ⟨found, hfound, h⟩ := Option.bind_eq_some_iff.1 h
  split at h
  · next id protocol urls visible opacity style matrixSet format projection attribution time =>
    obtain ⟨id', -, h⟩ := Option.bind_eq_some_iff.1 h
    obtain ⟨given, hgiven, h⟩ := Option.bind_eq_some_iff.1 h
    obtain ⟨urls', -, h⟩ := Option.bind_eq_some_iff.1 h
    obtain ⟨visible', -, h⟩ := Option.bind_eq_some_iff.1 h
    obtain ⟨opacity', hopacity, h⟩ := Option.bind_eq_some_iff.1 h
    obtain ⟨style', -, h⟩ := Option.bind_eq_some_iff.1 h
    obtain ⟨matrixSet', -, h⟩ := Option.bind_eq_some_iff.1 h
    obtain ⟨format', -, h⟩ := Option.bind_eq_some_iff.1 h
    obtain ⟨projection', -, h⟩ := Option.bind_eq_some_iff.1 h
    obtain ⟨attribution', -, h⟩ := Option.bind_eq_some_iff.1 h
    obtain ⟨time', -, h⟩ := Option.bind_eq_some_iff.1 h
    cases h
    refine ⟨⟨?_, Protocol.ofName_name_ofName given⟩, given, ?_, rfl⟩
    · cases opacity with
      | none =>
        have hdefault : Float.isFinite 1.0 = true := by decide +kernel
        cases hopacity
        exact hdefault
      | some w =>
        have hpart : v.HasPart w := Json.hasPart_of_mem_fields? hfound (by simp)
        exact Json.isFinite_of_float? (hv.part hpart) hopacity
    · rw [protocolText?_of_fields? hfound]
      cases protocol with
      | none => cases hgiven
      | some w => exact hgiven
  · cases h

/-- **What was read is read back, with the name of the protocol in capitals.** The record of a
specification that was read, and the text of this record, are read as the specification. The record
names the protocol `WMS` or `WMTS` if this name was given in any letter case, and only then; any
other name is the given one. -/
theorem read_back {v : Json} {spec : LayerSpec} (hv : v.Spellable) (h : ofJson? v = some spec) :
    ofJson? spec.toJson = some spec ∧
      (Json.parse? spec.toJson.render).bind ofJson? = some spec ∧
      ∃ given written, protocolText? v = some given ∧
        spec.toJson.member? "protocol" = some (.str written) ∧
        (written = "WMS" ↔ Protocol.SameLetters given "WMS") ∧
        (written = "WMTS" ↔ Protocol.SameLetters given "WMTS") ∧
        (¬ Protocol.SameLetters given "WMS" → ¬ Protocol.SameLetters given "WMTS" →
          written = given) := by
  obtain ⟨hreadable, given, hgiven, hprotocol⟩ := readable_of_ofJson? hv h
  have hread := ofJson?_toJson_iff.2 hreadable
  have hmember : spec.toJson.member? "protocol" = some (.str spec.protocol.name) :=
    Keyed.lookup_update_of_mem spec.nodup_map_fst_rows
      (List.mem_cons_of_mem _ List.mem_cons_self) []
  refine ⟨hread, Option.bind_eq_some_iff.2 ⟨_, parse?_render_toJson spec, hread⟩, given,
    spec.protocol.name, hgiven, hmember, ?_⟩
  rw [hprotocol]
  exact Protocol.name_ofName given

/-- An object with a known name in mixed case, a member that is no field and a whole number as its
opacity, and an array that ends with the name of another protocol. -/
theorem read_back_mixed_case :
    let object := Json.ofMembers [("protocol", .str "wMtS"), ("id", .str "sst"),
      ("legend", .bool true), ("opacity", .ofInt 0), ("visible", .bool true)]
    let sst := { LayerSpec.create "sst" .wmts [] with visible := true, opacity := 0 }
    let array := Json.arr [.str "cities", .str "Wms "]
    let cities := LayerSpec.create "cities" (.unsupported "Wms ") []
    (object.Spellable ∧ ofJson? object = some sst ∧ ofJson? sst.toJson = some sst ∧
        sst.toJson.member? "protocol" = some (.str "WMTS")) ∧
      (array.Spellable ∧ ofJson? array = some cities ∧ ofJson? cities.toJson = some cities ∧
        cities.toJson.member? "protocol" = some (.str "Wms ")) := by
  intro object sst array cities
  have hobject : object.Spellable := by
    have hnumbers : object.numbers = [.int 0] := rfl
    intro n hn
    rw [hnumbers, List.mem_singleton] at hn
    subst hn
    exact ⟨by decide, by decide⟩
  have harray : array.Spellable := fun n hn => by cases hn
  have hsst : ofJson? object = some sst := by decide +kernel
  have hcities : ofJson? array = some cities := by decide +kernel
  obtain ⟨hback, -, given, written, hgiven, hwritten, -, hwmts, -⟩ := read_back hobject hsst
  obtain rfl : "wMtS" = given := Option.some_inj.1 hgiven
  rw [hwmts.2 (by decide)] at hwritten
  obtain ⟨hback', -, given', written', hgiven', hwritten', -, -, hother⟩ := read_back harray hcities
  obtain rfl : "Wms " = given' := Option.some_inj.1 hgiven'
  rw [hother (by decide) (by decide)] at hwritten'
  exact ⟨⟨hobject, hsst, hback, hwritten⟩, harray, hcities, hback', hwritten'⟩

end LayerSpec
end Atlas
