import Atlas.Proofs.Json.Parsing
import Atlas.Proofs.Json.Records

/-!
# What is read from a text

Every value that is read from a text has only numbers that a text can spell, its objects are
sorted, and it is not nested too deeply. So it is read again from its own text.

What has been opened and not yet closed is well-formed at the depth where it stands, and every
token keeps this.

## Main statements

* `Json.spellable_of_scan?` — the numbers among the tokens of a text can be spelled
* `Json.wellFormed_of_parse?` — what is read from a text is well-formed
-/

namespace Atlas.Json

/-! ## The tokens of a text -/

/-- What every step preserves holds in the end. -/
theorem foldlM_induction {α σ : Type} {f : σ → α → Option σ} {P : σ → Prop} {as : List α}
    (hstep : ∀ a ∈ as, ∀ s s', P s → f s a = some s' → P s') {s s' : σ} (hs : P s)
    (h : as.foldlM f s = some s') : P s' := by
  induction as generalizing s with
  | nil =>
    cases h
    exact hs
  | cons a as ih =>
    obtain ⟨ha, has⟩ := List.forall_mem_cons.1 hstep
    rw [List.foldlM_cons] at h
    obtain ⟨s₁, hs₁, hrest⟩ := Option.bind_eq_some_iff.1 h
    exact ih has (ha s s₁ hs hs₁) hrest

/-- The number of a numeral is one that a text can spell. -/
theorem spellable_of_numberOf? {m : Numeral} {n : Number} (h : numberOf? m = some n) :
    n.Spellable := by
  unfold numberOf? at h
  dsimp only at h
  split at h
  · next hwhole =>
    cases h
    simp only [Bool.and_eq_true, decide_eq_true_eq] at hwhole
    exact ⟨hwhole.1.2, hwhole.2⟩
  · split at h
    · next hfinite =>
      cases h
      exact hfinite
    · cases h

theorem spellable_of_numeralToken? {cs : List Char} {t : Token} (h : numeralToken? cs = some t) :
    t.Spellable := by
  unfold numeralToken? at h
  split at h
  · cases h
  · split at h
    · obtain ⟨n, hn, rfl⟩ := Option.map_eq_some_iff.1 h
      exact spellable_of_numberOf? hn
    · cases h

theorem spellable_of_wordToken? {cs : List Char} {t : Token} (h : wordToken? cs = some t) :
    t.Spellable := by
  unfold wordToken? at h
  split at h
  · cases h
    trivial
  · split at h
    · cases h
      trivial
    · split at h
      · cases h
        trivial
      · cases h

theorem spellable_of_readGap {ts : List Token} {c : Char} {l : Lexer}
    (hts : ∀ t ∈ ts, t.Spellable) (h : Lexer.readGap ts c = some l) :
    ∀ t ∈ l.tokens, t.Spellable := by
  unfold Lexer.readGap at h
  split at h
  -- a mark is a token
  case h_1 | h_2 | h_3 | h_4 | h_5 | h_6 =>
    cases h
    exact List.forall_mem_cons.2 ⟨trivial, hts⟩
  -- a quote, a blank
  case h_7 | h_8 | h_9 | h_10 | h_11 =>
    cases h
    exact hts
  case h_12 =>
    split at h
    · cases h
      exact hts
    · split at h
      · cases h
        exact hts
      · cases h

/-- A word or a numeral that ends where the next character is read in a gap. -/
theorem spellable_of_bind_readGap {t? : Option Token} {ts : List Token} {c : Char} {l : Lexer}
    (ht : ∀ t, t? = some t → t.Spellable) (hts : ∀ t ∈ ts, t.Spellable)
    (h : t?.bind (fun t => Lexer.readGap (t :: ts) c) = some l) : ∀ t ∈ l.tokens, t.Spellable := by
  obtain ⟨t, heq, hgap⟩ := Option.bind_eq_some_iff.1 h
  exact spellable_of_readGap (List.forall_mem_cons.2 ⟨ht t heq, hts⟩) hgap

theorem spellable_of_read {l l' : Lexer} {c : Char} (hl : ∀ t ∈ l.tokens, t.Spellable)
    (h : l.read c = some l') : ∀ t ∈ l'.tokens, t.Spellable := by
  obtain ⟨place, ts⟩ := l
  cases place with
  | gap => exact spellable_of_readGap hl h
  | numeral rev =>
    rw [Lexer.read] at h
    dsimp only at h
    split at h
    · cases h
      exact hl
    · exact spellable_of_bind_readGap (fun _ => spellable_of_numeralToken?) hl h
  | word rev =>
    rw [Lexer.read] at h
    dsimp only at h
    split at h
    · cases h
      exact hl
    · exact spellable_of_bind_readGap (fun _ => spellable_of_wordToken?) hl h
  | string rev =>
    rw [Lexer.read] at h
    dsimp only at h
    split at h
    · cases h
      exact List.forall_mem_cons.2 ⟨trivial, hl⟩
    · split at h
      · cases h
        exact hl
      · split at h
        · cases h
        · cases h
          exact hl
  | escape rev =>
    rw [Lexer.read] at h
    dsimp only at h
    split at h
    · cases h
      exact hl
    · obtain ⟨e, -, rfl⟩ := Option.map_eq_some_iff.1 h
      exact hl
  | unit rev high missing value =>
    rw [Lexer.read] at h
    dsimp only at h
    split at h
    · cases h
    · split at h
      · obtain ⟨place, -, rfl⟩ := Option.map_eq_some_iff.1 h
        exact hl
      · cases h
        exact hl
  | pairBackslash rev high | pairMark rev high =>
    rw [Lexer.read] at h
    dsimp only at h
    split at h
    · cases h
      exact hl
    · cases h

/-- **The numbers among the tokens of a text can be spelled.** -/
theorem spellable_of_scan? {cs : List Char} {ts : List Token} (h : scan? cs = some ts) :
    ∀ t ∈ ts, t.Spellable := by
  obtain ⟨l, hread, hfinish⟩ := Option.bind_eq_some_iff.1 h
  have hl : ∀ t ∈ l.tokens, t.Spellable :=
    foldlM_induction (fun _ _ _ _ hs => spellable_of_read hs) (by simp) hread
  unfold Lexer.finish at hfinish
  split at hfinish
  · cases hfinish
    exact fun t ht => hl t (List.mem_reverse.1 ht)
  · obtain ⟨t, ht, rfl⟩ := Option.map_eq_some_iff.1 hfinish
    have hts := List.forall_mem_cons.2 ⟨spellable_of_numeralToken? ht, hl⟩
    exact fun u hu => hts u (List.mem_reverse.1 hu)
  · obtain ⟨t, ht, rfl⟩ := Option.map_eq_some_iff.1 hfinish
    have hts := List.forall_mem_cons.2 ⟨spellable_of_wordToken? ht, hl⟩
    exact fun u hu => hts u (List.mem_reverse.1 hu)
  · cases hfinish

/-! ## Well-formed values -/

/-- A value that can stand in a text where `d` more arrays and objects may be opened. -/
structure WellFormed (d : Nat) (v : Json) : Prop where
  spellable : v.Spellable
  ordered : v.Ordered
  depth_le : v.depth ≤ d

section

variable {d d' : Nat}

theorem wellFormed_null : WellFormed d .null := ⟨List.forall_mem_nil _, .null, Nat.zero_le d⟩

theorem wellFormed_bool (b : Bool) : WellFormed d (.bool b) :=
  ⟨List.forall_mem_nil _, .bool b, Nat.zero_le d⟩

theorem wellFormed_str (s : String) : WellFormed d (.str s) :=
  ⟨List.forall_mem_nil _, .str s, Nat.zero_le d⟩

theorem wellFormed_num {n : Number} (hn : n.Spellable) : WellFormed d (.num n) :=
  ⟨List.forall_mem_singleton.2 hn, .num n, Nat.zero_le d⟩

theorem wellFormed_arr {items : List Json} (hd : d < d') (h : ∀ x ∈ items, WellFormed d x) :
    WellFormed d' (.arr items) where
  spellable := spellable_arr fun x hx => (h x hx).spellable
  ordered := .arr fun x hx => (h x hx).ordered
  depth_le := Nat.lt_of_le_of_lt (itemDepth_le_iff.2 fun x hx => (h x hx).depth_le) hd

theorem wellFormed_obj {members : List (String × Json)} (hd : d < d')
    (hsorted : Keyed.Sorted members) (h : ∀ row ∈ members, WellFormed d row.2) :
    WellFormed d' (.obj members) where
  spellable := spellable_obj fun row hrow => (h row hrow).spellable
  ordered := .obj hsorted fun row hrow => (h row hrow).ordered
  depth_le := Nat.lt_of_le_of_lt (memberDepth_le_iff.2 fun row hrow => (h row hrow).depth_le) hd

/-- A double is written as a number, or as null. -/
theorem wellFormed_ofFloat (d : Nat) (x : Float) : WellFormed d (ofFloat x) := by
  rw [ofFloat]
  split
  · next hx => exact wellFormed_num hx
  · exact wellFormed_null

/-- An object may be made of its members in any order. -/
theorem wellFormed_ofMembers {rows : List (String × Json)} (hd : d < d')
    (h : ∀ row ∈ rows, WellFormed d row.2) : WellFormed d' (ofMembers rows) := by
  refine wellFormed_obj hd (Keyed.sorted_ofRows rows) fun row hrow => ?_
  rcases Keyed.mem_of_mem_update hrow with hrow | hnil
  · exact h row hrow
  · cases hnil

theorem WellFormed.mono {v : Json} (h : WellFormed d v) (hd : d ≤ d') : WellFormed d' v :=
  ⟨h.spellable, h.ordered, Nat.le_trans h.depth_le hd⟩

theorem WellFormed.item {items : List Json} {x : Json} (h : WellFormed (d + 1) (.arr items))
    (hx : x ∈ items) : WellFormed d x :=
  ⟨h.spellable.item hx, h.ordered.item hx,
    itemDepth_le_iff.1 (Nat.le_of_succ_le_succ h.depth_le) x hx⟩

theorem WellFormed.member {members : List (String × Json)} {k : String} {v : Json}
    (h : WellFormed (d + 1) (.obj members)) (hv : Keyed.lookup k members = some v) :
    WellFormed d v :=
  ⟨h.spellable.lookup hv, h.ordered.member (Keyed.mem_of_lookup hv),
    memberDepth_le_iff.1 (Nat.le_of_succ_le_succ h.depth_le) _ (Keyed.mem_of_lookup hv)⟩

end

/-- A well-formed value that is not nested too deeply is read again from its text. -/
theorem WellFormed.parse?_render {v : Json} (h : WellFormed maxDepth v) :
    parse? v.render = some v := by
  rw [Json.parse?_render h.spellable h.ordered, if_pos h.depth_le]

/-! ## Open arrays and objects -/

/-- What stands so far in an open array or object, where `d` more may be opened. -/
def Frame.WellFormed (d : Nat) : Frame → Prop
  | .item items => ∀ x ∈ items, Json.WellFormed d x
  | .member members _ => Keyed.Sorted members ∧ ∀ row ∈ members, Json.WellFormed d row.2

/-- The open arrays and objects are well-formed, each at its depth, and not too many. -/
def Stacked : List Frame → Prop
  | [] => True
  | frame :: stack =>
    frame.WellFormed (maxDepth - (stack.length + 1)) ∧ stack.length < maxDepth ∧ Stacked stack

/-- Everything that the reader has read so far is well-formed. An array or object whose first part
is still missing counts as open with nothing in it. -/
def Parser.WellFormed : Parser → Prop
  | .value stack => Stacked stack
  | .firstItem stack => Stacked (.item [] :: stack)
  | .afterItem items stack => Stacked (.item items :: stack)
  | .firstKey stack => Stacked (.member [] "" :: stack)
  | .nextKey members stack => Stacked (.member members "" :: stack)
  | .colon members key stack => Stacked (.member members key :: stack)
  | .afterMember members stack => Stacked (.member members "" :: stack)
  | .complete v => Json.WellFormed maxDepth v

namespace Parser

/-- A well-formed value is handed on to what waits for it. -/
theorem wellFormed_deliver {v : Json} {stack : List Frame} (hstack : Stacked stack)
    (hv : Json.WellFormed (maxDepth - stack.length) v) : (deliver v stack).WellFormed := by
  cases stack with
  | nil => exact hv
  | cons frame stack =>
    obtain ⟨hframe, hdeep, hrest⟩ := hstack
    cases frame with
    | item items => exact ⟨List.forall_mem_cons.2 ⟨hv, hframe⟩, hdeep, hrest⟩
    | member members key =>
      obtain ⟨hsorted, hmembers⟩ := hframe
      refine ⟨⟨hsorted.insert key v, fun row hrow => ?_⟩, hdeep, hrest⟩
      rcases Keyed.mem_keys_insert hrow with rfl | hrow
      · exact hv
      · exact hmembers row hrow

/-- An array that is closed is handed on. -/
theorem wellFormed_deliver_arr {items : List Json} {stack : List Frame}
    (h : Stacked (.item items :: stack)) : (deliver (.arr items.reverse) stack).WellFormed := by
  obtain ⟨hitems, hdeep, hrest⟩ := h
  have hone : maxDepth - (stack.length + 1) < maxDepth - stack.length := by omega
  exact wellFormed_deliver hrest
    (wellFormed_arr hone fun x hx => hitems x (List.mem_reverse.1 hx))

/-- An object that is closed is handed on. -/
theorem wellFormed_deliver_obj {members : List (String × Json)} {key : String}
    {stack : List Frame} (h : Stacked (.member members key :: stack)) :
    (deliver (.obj members) stack).WellFormed := by
  obtain ⟨⟨hsorted, hmembers⟩, hdeep, hrest⟩ := h
  have hone : maxDepth - (stack.length + 1) < maxDepth - stack.length := by omega
  exact wellFormed_deliver hrest (wellFormed_obj hone hsorted hmembers)

/-- The first token of a value opens an array or object, or is the value. -/
theorem wellFormed_of_readValue {stack : List Frame} {t : Token} {p : Parser}
    (hstack : Stacked stack) (ht : t.Spellable) (h : readValue stack t = some p) :
    p.WellFormed := by
  unfold readValue at h
  split at h
  · split at h
    · next hdeep =>
      cases h
      exact ⟨List.forall_mem_nil _, hdeep, hstack⟩
    · cases h
  · split at h
    · next hdeep =>
      cases h
      exact ⟨⟨List.Pairwise.nil, List.forall_mem_nil _⟩, hdeep, hstack⟩
    · cases h
  · cases h
    exact wellFormed_deliver hstack wellFormed_null
  · cases h
    exact wellFormed_deliver hstack (wellFormed_bool _)
  · cases h
    exact wellFormed_deliver hstack (wellFormed_num ht)
  · cases h
    exact wellFormed_deliver hstack (wellFormed_str _)
  · cases h

/-- **A token keeps what has been read well-formed.** -/
theorem wellFormed_of_read {p p' : Parser} {t : Token} (hp : p.WellFormed) (ht : t.Spellable)
    (h : p.read t = some p') : p'.WellFormed := by
  cases p with
  | value stack => exact wellFormed_of_readValue hp ht h
  | firstItem stack =>
    unfold read at h
    dsimp only at h
    split at h
    · cases h
      exact wellFormed_deliver_arr hp
    · exact wellFormed_of_readValue hp ht h
  | afterItem items stack =>
    unfold read at h
    dsimp only at h
    split at h
    · cases h
      exact hp
    · cases h
      exact wellFormed_deliver_arr hp
    · cases h
  | firstKey stack =>
    unfold read at h
    dsimp only at h
    split at h
    · cases h
      exact wellFormed_deliver_obj hp
    · cases h
      exact hp
    · cases h
  | nextKey members stack | colon members key stack =>
    unfold read at h
    dsimp only at h
    split at h
    · cases h
      exact hp
    · cases h
  | afterMember members stack =>
    unfold read at h
    dsimp only at h
    split at h
    · cases h
      exact hp
    · cases h
      exact wellFormed_deliver_obj hp
    · cases h
  | complete v => cases h

end Parser

/-- **What is read from a text is well-formed.** -/
theorem wellFormed_of_parse? {text : String} {v : Json} (h : parse? text = some v) :
    WellFormed maxDepth v := by
  obtain ⟨ts, hts, hread⟩ := Option.bind_eq_some_iff.1 h
  obtain ⟨p, hp, hresult⟩ := Option.bind_eq_some_iff.1 hread
  have hstart : (Parser.value []).WellFormed := trivial
  have hwell : p.WellFormed :=
    foldlM_induction (fun t ht _ _ hq => Parser.wellFormed_of_read hq (spellable_of_scan? hts t ht))
      hstart hp
  cases p with
  | complete w =>
    cases hresult
    exact hwell
  | value | firstItem | afterItem | firstKey | nextKey | colon | afterMember => cases hresult

end Atlas.Json
