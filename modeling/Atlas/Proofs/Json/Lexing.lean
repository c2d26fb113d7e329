import Atlas.Proofs.Json.Numerals

/-!
# Tokens are spelled and read again

Reading the spelled tokens one character after the other leads back to the tokens. A mark and a
string are complete with their last character. A word and a numeral are complete only when the
next character does not belong to them, so no two of them may stand next to each other.

## Main statements

* `Json.foldlM_spellChar` — a character that is spelled between quotes is read as itself
* `Json.scan?_flatMap_spell` — the tokens that are spelled are read again
* `Json.scan?_render` — the text of a value is read as its tokens
-/

namespace Atlas.Json

/-- A step of a fold that succeeds. -/
theorem foldlM_cons_of_eq {α σ : Type} {f : σ → α → Option σ} {s s' : σ} {a : α}
    (h : f s a = some s') (as : List α) : (a :: as).foldlM f s = as.foldlM f s' := by
  rw [List.foldlM_cons, h]
  rfl

/-! ## Places -/

/-- Where a reader stands that has read some tokens, latest first: in a gap behind them, or behind
the last character of a numeral or word that is the latest of them. -/
inductive Behind : List Token → Lexer → Prop where
  | gap (ts : List Token) : Behind ts ⟨.gap, ts⟩
  | numeral {rev : List Char} {t : Token} (h : numeralToken? rev.reverse = some t)
      (ts : List Token) : Behind (t :: ts) ⟨.numeral rev, ts⟩
  | word {rev : List Char} {t : Token} (h : wordToken? rev.reverse = some t)
      (ts : List Token) : Behind (t :: ts) ⟨.word rev, ts⟩

/-- What belongs to no numeral and to no word is read as in a gap. -/
theorem Behind.read {ts : List Token} {l : Lexer} (h : Behind ts l) {c : Char}
    (hnumeral : Lexer.inNumeral c = false) (hword : c.isLower = false) :
    l.read c = Lexer.readGap ts c := by
  cases h with
  | gap => rfl
  | numeral h =>
    rw [Lexer.read]
    simp only [hnumeral, h]
    rfl
  | word h =>
    rw [Lexer.read]
    simp only [hword, h]
    rfl

theorem Behind.finish {ts : List Token} {l : Lexer} (h : Behind ts l) :
    l.finish = some ts.reverse := by
  cases h with
  | gap => rfl
  | numeral h | word h =>
    rw [Lexer.finish]
    simp only [h]
    rfl

/-! ## Strings -/

theorem hexValue?_hexDigit {n : Nat} (h : n < 16) : hexValue? (hexDigit n) = some n := by
  have hall : ∀ n ∈ List.range 16, hexValue? (hexDigit n) = some n := by decide
  exact hall n (List.mem_range.2 h)

theorem charOfCode?_toNat (c : Char) : charOfCode? c.toNat = some c := by
  have hvalid : c.toNat.isValidChar := c.valid
  rw [charOfCode?, dif_pos hvalid]
  rfl

theorem read_unit {rev : List Char} {missing value d : Nat} {ts : List Token} {c : Char}
    (hc : hexValue? c = some d) (hmissing : ¬ missing ≤ 1) :
    Lexer.read ⟨.unit rev none missing value, ts⟩ c =
      some ⟨.unit rev none (missing - 1) (16 * value + d), ts⟩ := by
  rw [Lexer.read]
  simp only [hc]
  rw [if_neg hmissing]

/-- The last digit of a unit that is no surrogate completes a character. -/
theorem read_unit_last {rev : List Char} {value d : Nat} {ts : List Token} {c : Char} (c' : Char)
    (hc : hexValue? c = some d) (hvalue : 16 * value + d = c'.toNat) (hlow : c'.toNat < 0xD800) :
    Lexer.read ⟨.unit rev none 1 value, ts⟩ c = some ⟨.string (c' :: rev), ts⟩ := by
  have hsurrogate : ¬ (decide (0xD800 ≤ c'.toNat) && decide (c'.toNat < 0xDC00)) = true := by
    rw [decide_eq_false (by omega), Bool.false_and]
    decide
  have hend : Lexer.endUnit rev none c'.toNat = some (.string (c' :: rev)) := by
    rw [Lexer.endUnit, charOfCode?_toNat]
    exact if_neg hsurrogate
  rw [Lexer.read]
  simp only [hc]
  rw [if_pos (Nat.le_refl 1), hvalue, hend]
  rfl

/-- A control character is read from the four digits of its unit. -/
theorem foldlM_unit {c : Char} (h : c.toNat < 32) (rev : List Char) (ts : List Token) :
    ['\\', 'u', '0', '0', hexDigit (c.toNat / 16), hexDigit (c.toNat % 16)].foldlM Lexer.read
      ⟨.string rev, ts⟩ = some ⟨.string (c :: rev), ts⟩ := by
  have hhigh := hexValue?_hexDigit (n := c.toNat / 16) (by omega)
  have hlow := hexValue?_hexDigit (n := c.toNat % 16) (by omega)
  have hzero : hexValue? '0' = some 0 := rfl
  have hbackslash : Lexer.read ⟨.string rev, ts⟩ '\\' = some ⟨.escape rev, ts⟩ := rfl
  have hmark : Lexer.read ⟨.escape rev, ts⟩ 'u' = some ⟨.unit rev none 4 0, ts⟩ := rfl
  rw [foldlM_cons_of_eq hbackslash, foldlM_cons_of_eq hmark,
    foldlM_cons_of_eq (read_unit hzero (by decide)),
    foldlM_cons_of_eq (read_unit hzero (by decide)),
    foldlM_cons_of_eq (read_unit hhigh (by decide)),
    foldlM_cons_of_eq (read_unit_last c hlow (by omega) (by omega))]
  rfl

/-- **A character that is spelled between quotes is read as itself.** -/
theorem foldlM_spellChar (c : Char) (rev : List Char) (ts : List Token) :
    (spellChar c).foldlM Lexer.read ⟨.string rev, ts⟩ = some ⟨.string (c :: rev), ts⟩ := by
  unfold spellChar
  split
  · rfl
  · rfl
  · rfl
  · rfl
  · rfl
  · next hquote hbackslash hnewline hreturn htab =>
    split
    · next h =>
      obtain rfl : c = '\x08' := Char.toNat_inj.1 h
      rfl
    · split
      · next h =>
        obtain rfl : c = '\x0c' := Char.toNat_inj.1 h
        rfl
      · split
        · next h => exact foldlM_unit h rev ts
        · next h =>
          have hread : Lexer.read ⟨.string rev, ts⟩ c = some ⟨.string (c :: rev), ts⟩ := by
            rw [Lexer.read]
            simp only
            rw [if_neg hquote, if_neg hbackslash, if_neg h]
          rw [foldlM_cons_of_eq hread]
          rfl

theorem foldlM_flatMap_spellChar (cs rev : List Char) (ts : List Token) :
    (cs.flatMap spellChar).foldlM Lexer.read ⟨.string rev, ts⟩ =
      some ⟨.string (cs.reverse ++ rev), ts⟩ := by
  induction cs generalizing rev with
  | nil => rfl
  | cons c cs ih =>
    rw [List.flatMap_cons, List.foldlM_append, foldlM_spellChar, Option.bind_eq_bind,
      Option.bind_some, ih, List.reverse_cons, List.append_assoc]
    rfl

/-- A string is read behind any tokens, and the reader is in a gap again. -/
theorem Behind.foldlM_spellString {ts : List Token} {l : Lexer} (h : Behind ts l) (s : String) :
    (spellString s).foldlM Lexer.read l = some ⟨.gap, .str s :: ts⟩ := by
  have hopen : l.read '"' = some ⟨.string [], ts⟩ := h.read (by decide) (by decide)
  have hclose : Lexer.read ⟨.string (s.toList.reverse ++ []), ts⟩ '"' =
      some ⟨.gap, .str s :: ts⟩ := by
    rw [Lexer.read]
    simp
  rw [spellString, foldlM_cons_of_eq hopen, List.foldlM_append, foldlM_flatMap_spellChar,
    Option.bind_eq_bind, Option.bind_some, foldlM_cons_of_eq hclose]
  rfl

/-! ## Numerals -/

theorem inNumeral_of_isDigit {c : Char} (h : isDigit c = true) : Lexer.inNumeral c = true := by
  simp [Lexer.inNumeral, h]

/-- A numeral has only characters that continue one. -/
theorem inNumeral_of_mem_spell {m : Numeral} (h : m.WellSpelled) {c : Char} (hc : c ∈ m.spell) :
    Lexer.inNumeral c = true := by
  obtain ⟨sign, whole, fraction, exponent⟩ := m
  rcases List.mem_append.1 hc with hc | hc
  · cases sign with
    | absent => cases hc
    | plus | minus =>
      obtain rfl := List.mem_singleton.1 hc
      decide
  · rcases List.mem_append.1 hc with hc | hc
    · exact inNumeral_of_isDigit (h.whole c hc)
    · rcases List.mem_append.1 hc with hc | hc
      · cases fraction with
        | none => cases hc
        | some ds =>
          rcases List.mem_cons.1 hc with rfl | hc
          · decide
          · exact inNumeral_of_isDigit (h.fraction ds rfl c hc)
      · cases exponent with
        | none => cases hc
        | some n =>
          rcases List.mem_cons.1 hc with rfl | hc
          · decide
          · rcases List.mem_cons.1 hc with rfl | hc
            · split <;> decide
            · exact inNumeral_of_isDigit (isDigit_of_mem_digits hc)

/-- A strict numeral begins with a minus sign or a digit. -/
theorem exists_spell_eq_cons {m : Numeral} (h : m.WellSpelled) (hstrict : m.isStrict = true) :
    ∃ c cs, m.spell = c :: cs ∧ (c = '-' ∨ isDigit c = true) := by
  obtain ⟨sign, whole, fraction, exponent⟩ := m
  cases sign with
  | plus => cases hstrict
  | minus => exact ⟨'-', _, rfl, .inl rfl⟩
  | absent =>
    cases whole with
    | nil =>
      rw [Numeral.isStrict, Bool.and_false] at hstrict
      cases hstrict
    | cons c cs => exact ⟨c, _, rfl, .inr (h.whole c List.mem_cons_self)⟩

theorem foldlM_inNumeral {cs : List Char} (h : ∀ c ∈ cs, Lexer.inNumeral c = true)
    (rev : List Char) (ts : List Token) :
    cs.foldlM Lexer.read ⟨.numeral rev, ts⟩ = some ⟨.numeral (cs.reverse ++ rev), ts⟩ := by
  induction cs generalizing rev with
  | nil => rfl
  | cons c cs ih =>
    obtain ⟨hc, hcs⟩ := List.forall_mem_cons.1 h
    have hread : Lexer.read ⟨.numeral rev, ts⟩ c = some ⟨.numeral (c :: rev), ts⟩ := by
      rw [Lexer.read]
      exact if_pos hc
    rw [foldlM_cons_of_eq hread, ih hcs, List.reverse_cons, List.append_assoc]
    rfl

/-- A numeral begins in a gap. -/
theorem readGap_numeral {c : Char} (h : c = '-' ∨ isDigit c = true) (ts : List Token) :
    Lexer.readGap ts c = some ⟨.numeral [c], ts⟩ := by
  unfold Lexer.readGap
  split
  case h_12 => exact if_pos h
  all_goals exact absurd h (by decide)

/-- The characters of a strict numeral are read up to the last one. -/
theorem foldlM_spell_numeral {m : Numeral} (h : m.WellSpelled) (hstrict : m.isStrict = true)
    (ts : List Token) :
    m.spell.foldlM Lexer.read ⟨.gap, ts⟩ = some ⟨.numeral m.spell.reverse, ts⟩ := by
  obtain ⟨c, cs, hcons, hc⟩ := exists_spell_eq_cons h hstrict
  have hin : ∀ c ∈ m.spell, Lexer.inNumeral c = true := fun _ => inNumeral_of_mem_spell h
  rw [hcons] at hin ⊢
  rw [foldlM_cons_of_eq (readGap_numeral hc ts), foldlM_inNumeral (List.forall_mem_cons.1 hin).2,
    List.reverse_cons]

/-- A number is read in a gap, and the reader is behind it. -/
theorem foldlM_spellNumber {n : Number} (h : n.Spellable) (ts : List Token) :
    ∃ l, (spellNumber n).foldlM Lexer.read ⟨.gap, ts⟩ = some l ∧ Behind (.num n :: ts) l := by
  obtain ⟨m, hspell, hm⟩ := exists_readAs h
  refine ⟨⟨.numeral m.spell.reverse, ts⟩, ?_, .numeral ?_ ts⟩
  · rw [hspell]
    exact foldlM_spell_numeral hm.wellSpelled hm.isStrict ts
  · rw [List.reverse_reverse]
    exact numeralToken?_spell hm

/-! ## Tokens -/

/-- A token is complete with its last character: it is a mark or a string. -/
def Token.isClosed : Token → Bool
  | .null | .bool _ | .num _ => false
  | _ => true

/-- A text can spell a token. -/
def Token.Spellable : Token → Prop
  | .num n => n.Spellable
  | _ => True

/-- A mark or a string is read behind any tokens, and the reader is in a gap again. -/
theorem Behind.foldlM_spell {ts : List Token} {l : Lexer} (h : Behind ts l) {t : Token}
    (ht : t.isClosed = true) : t.spell.foldlM Lexer.read l = some ⟨.gap, t :: ts⟩ := by
  cases t with
  | null | bool | num => cases ht
  | str s => exact h.foldlM_spellString s
  | openArray | closeArray | openObject | closeObject | colon | comma =>
    rw [Token.spell, List.foldlM_cons, h.read (by decide) (by decide)]
    rfl

/-- Every token is read in a gap, and the reader is behind it. -/
theorem foldlM_spell_gap {t : Token} (ht : t.Spellable) (ts : List Token) :
    ∃ l, t.spell.foldlM Lexer.read ⟨.gap, ts⟩ = some l ∧ Behind (t :: ts) l := by
  cases t with
  | num n => exact foldlM_spellNumber ht ts
  | null => exact ⟨⟨.word ['l', 'l', 'u', 'n'], ts⟩, rfl, .word rfl ts⟩
  | bool b =>
    cases b with
    | true => exact ⟨⟨.word ['e', 'u', 'r', 't'], ts⟩, rfl, .word rfl ts⟩
    | false => exact ⟨⟨.word ['e', 's', 'l', 'a', 'f'], ts⟩, rfl, .word rfl ts⟩
  | str | openArray | closeArray | openObject | closeObject | colon | comma =>
    exact ⟨_, (Behind.gap ts).foldlM_spell rfl, .gap _⟩

/-- A text can spell some tokens, of which no two words or numerals stand next to each other. -/
structure Readable (ts : List Token) : Prop where
  spellable : ∀ t ∈ ts, t.Spellable
  apart : ts.IsChain (fun s t => s.isClosed = true ∨ t.isClosed = true)

/-- Tokens are read behind others. Where these end in a word or numeral, the first token has to be
a mark or a string. -/
theorem Readable.foldlM_flatMap_spell {ts : List Token} (hts : Readable ts) {done : List Token}
    {l : Lexer} (h : Behind done l)
    (hfirst : l = ⟨.gap, done⟩ ∨ ∀ t ∈ ts.head?, t.isClosed = true) :
    ∃ l', (ts.flatMap Token.spell).foldlM Lexer.read l = some l' ∧
      Behind (ts.reverse ++ done) l' := by
  induction ts generalizing done l with
  | nil => exact ⟨l, rfl, h⟩
  | cons t ts ih =>
    obtain ⟨hspellable, hapart⟩ := hts
    obtain ⟨ht, hrest⟩ := List.forall_mem_cons.1 hspellable
    obtain ⟨hnext, hchain⟩ := List.isChain_cons.1 hapart
    -- a token that is not closed is read in a gap, and a closed one comes behind it
    have hstep : ∃ l', t.spell.foldlM Lexer.read l = some l' ∧ Behind (t :: done) l' ∧
        (l' = ⟨.gap, t :: done⟩ ∨ ∀ t ∈ ts.head?, t.isClosed = true) := by
      by_cases hclosed : t.isClosed = true
      · exact ⟨_, h.foldlM_spell hclosed, .gap _, .inl rfl⟩
      · obtain rfl : l = ⟨.gap, done⟩ := hfirst.resolve_right fun hall => hclosed (hall t rfl)
        obtain ⟨l', hread, hbehind⟩ := foldlM_spell_gap ht done
        exact ⟨l', hread, hbehind, .inr fun y hy => (hnext y hy).resolve_left hclosed⟩
    obtain ⟨l', hread, hbehind, hfirst'⟩ := hstep
    obtain ⟨l'', hreads, hbehind'⟩ := ih ⟨hrest, hchain⟩ hbehind hfirst'
    refine ⟨l'', ?_, ?_⟩
    · rw [List.flatMap_cons, List.foldlM_append, hread]
      exact hreads
    · rw [List.reverse_cons, List.append_assoc]
      exact hbehind'

/-- **The tokens that are spelled are read again.** -/
theorem scan?_flatMap_spell {ts : List Token} (h : Readable ts) :
    scan? (ts.flatMap Token.spell) = some ts := by
  obtain ⟨l, hread, hbehind⟩ := h.foldlM_flatMap_spell (.gap []) (.inl rfl)
  rw [scan?, hread, Option.bind_some, hbehind.finish, List.append_nil, List.reverse_reverse]

/-! ## The tokens of a value -/

theorem Readable.cons {t : Token} {ts : List Token} (h : Readable ts) (ht : t.isClosed = true) :
    Readable (t :: ts) where
  spellable := by
    refine List.forall_mem_cons.2 ⟨?_, h.spellable⟩
    cases t with
    | num => cases ht
    | _ => trivial
  apart := List.isChain_cons.2 ⟨fun _ _ => .inl ht, h.apart⟩

theorem Readable.append {ts us : List Token} (h : Readable ts) (h' : Readable us)
    (hus : ∀ u ∈ us.head?, u.isClosed = true) : Readable (ts ++ us) where
  spellable := List.forall_mem_append.2 ⟨h.spellable, h'.spellable⟩
  apart := List.isChain_append.2 ⟨h.apart, h'.apart, fun _ _ u hu => .inr (hus u hu)⟩

theorem readable_singleton {t : Token} (h : t.Spellable) : Readable [t] where
  spellable := List.forall_mem_singleton.2 h
  apart := List.isChain_singleton t

/-- The end of an element is followed by a mark. -/
theorem isClosed_of_head?_itemTokens {xs : List Json} {t : Token}
    (h : t ∈ (itemTokens xs).head?) : t.isClosed = true := by
  cases xs with
  | nil | cons =>
    cases h
    rfl

/-- The end of a member is followed by a mark. -/
theorem isClosed_of_head?_memberTokens {members : List (String × Json)} {t : Token}
    (h : t ∈ (memberTokens members).head?) : t.isClosed = true := by
  cases members with
  | nil | cons =>
    cases h
    rfl

mutual
/-- **A text can spell the tokens of a value with spellable numbers.** -/
theorem readable_tokens : (v : Json) → v.Spellable → Readable (tokens v)
  | .null, _ => readable_singleton trivial
  | .bool _, _ => readable_singleton trivial
  | .str _, _ => readable_singleton trivial
  | .num _, h => readable_singleton h.num
  | .arr [], _ => (readable_singleton (t := .closeArray) trivial).cons rfl
  | .obj [], _ => (readable_singleton (t := .closeObject) trivial).cons rfl
  | .arr (x :: xs), h =>
    ((readable_tokens x (h.item List.mem_cons_self)).append
      (readable_itemTokens xs fun _ hx => h.item (List.mem_cons_of_mem _ hx))
      fun _ => isClosed_of_head?_itemTokens).cons rfl
  | .obj ((_, x) :: members), h =>
    ((((readable_tokens x (h.member List.mem_cons_self)).append
      (readable_memberTokens members fun _ hrow => h.member (List.mem_cons_of_mem _ hrow))
      fun _ => isClosed_of_head?_memberTokens).cons rfl).cons rfl).cons rfl

theorem readable_itemTokens : (xs : List Json) → (∀ x ∈ xs, x.Spellable) →
    Readable (itemTokens xs)
  | [], _ => readable_singleton trivial
  | x :: xs, h =>
    ((readable_tokens x (h x List.mem_cons_self)).append
      (readable_itemTokens xs fun y hy => h y (List.mem_cons_of_mem _ hy))
      fun _ => isClosed_of_head?_itemTokens).cons rfl

theorem readable_memberTokens : (members : List (String × Json)) →
    (∀ row ∈ members, row.2.Spellable) → Readable (memberTokens members)
  | [], _ => readable_singleton trivial
  | (_, x) :: members, h =>
    ((((readable_tokens x (h _ List.mem_cons_self)).append
      (readable_memberTokens members fun row hrow => h row (List.mem_cons_of_mem _ hrow))
      fun _ => isClosed_of_head?_memberTokens).cons rfl).cons rfl).cons rfl
end

/-- The text of a value with spellable numbers is read as its tokens. -/
theorem scan?_render {v : Json} (h : v.Spellable) : scan? v.render.toList = some (tokens v) := by
  rw [render, String.toList_ofList]
  exact scan?_flatMap_spell (readable_tokens v h)

end Atlas.Json
