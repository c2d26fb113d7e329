import Atlas.Decimal.Shortest
import Atlas.Proofs.Decimal.Nearest

/-!
# The shortest decimal reads back

The search for the shortest decimal of a double only accepts what reads back, and the exact decimal
that it falls back on reads back as well, since a number that fits the format is not changed by
rounding. So whatever is found reads back.

It is also found without zeros at the end of its digits. Of such a decimal the digits and the power
of ten are known from any text that spells it, whatever zeros are added to the digits.

## Main statements

* `Decimal.value_ofDigits` — taking zeros off the end of the digits does not change the number
* `Decimal.ofDigits_digits` — a decimal without zeros at the end is read from its own digits
* `Decimal.toFloat_shortest` — the shortest decimal of a double reads back
-/

namespace Atlas

/-! ## Digits -/

theorem digitsValue_append_singleton (ds : List Char) (c : Char) :
    digitsValue (ds ++ [c]) = 10 * digitsValue ds + digitValue c := List.foldl_concat ..

/-- **The digits of a number spell it.** -/
@[simp] theorem digitsValue_digits (n : Nat) : digitsValue (digits n) = n :=
  Nat.ofDigitChars_eq_foldl.symm.trans Nat.ofDigitChars_ten_toDigits

theorem isDigit_of_mem_digits {n : Nat} {c : Char} (h : c ∈ digits n) : isDigit c = true := by
  have hdigit := Nat.isDigit_of_mem_toDigits (by decide) (by decide) h
  rw [Char.isDigit, Bool.and_eq_true, decide_eq_true_eq, decide_eq_true_eq] at hdigit
  rw [isDigit, Bool.and_eq_true, decide_eq_true_eq, decide_eq_true_eq]
  exact hdigit

/-- The last digit of a number is its remainder. -/
theorem exists_digits_eq_append (n : Nat) : ∃ ds, digits n = ds ++ [(n % 10).digitChar] := by
  rw [digits, Nat.toDigits_eq_if (by decide)]
  split
  · next hsmall => exact ⟨[], by rw [Nat.mod_eq_of_lt hsmall]; rfl⟩
  · exact ⟨_, rfl⟩

/-- The first digit of a number is not a zero, unless the number is. -/
theorem exists_digits_eq_cons {n : Nat} (hn : n ≠ 0) : ∃ c ds, digits n = c :: ds ∧ c ≠ '0' := by
  induction n using Nat.strongRecOn with
  | ind n ih =>
    rw [digits, Nat.toDigits_eq_if (by decide)]
    split
    · next hsmall =>
      refine ⟨_, _, rfl, ?_⟩
      rwa [ne_eq, Nat.digitChar_eq_zero]
    · next hlarge =>
      obtain ⟨c, ds, hds, hc⟩ := ih (n / 10) (Nat.div_lt_self (by omega) (by decide)) (by omega)
      rw [digits] at hds
      exact ⟨c, ds ++ [(n % 10).digitChar], by rw [hds]; rfl, hc⟩

namespace Decimal

/-! ## Zeros around the digits -/

theorem ofDigits_nil (exp : Int) : ofDigits [] exp = ⟨0, 0⟩ := rfl

/-- Digits that do not end in a zero are taken as they are. -/
theorem ofDigits_append_of_ne (ds : List Char) {c : Char} (hc : c ≠ '0') (exp : Int) :
    ofDigits (ds ++ [c]) exp = ⟨digitsValue (ds ++ [c]), exp⟩ := by
  have hne : (c == '0') = false := by simpa using hc
  simp [ofDigits, hne]

/-- A zero in front of the digits does not count. -/
theorem ofDigits_zero_cons (ds : List Char) (exp : Int) :
    ofDigits ('0' :: ds) exp = ofDigits ds exp := by
  induction ds using List.reverseRecOn generalizing exp with
  | nil => exact ofDigits_append_zero [] exp
  | append_singleton ds c ih =>
    rw [← List.cons_append]
    by_cases hc : c = '0'
    · rw [hc, ofDigits_append_zero, ofDigits_append_zero, ih]
    · rw [ofDigits_append_of_ne _ hc, ofDigits_append_of_ne _ hc]
      congr 1

theorem ofDigits_replicate_zero_append (n : Nat) (ds : List Char) (exp : Int) :
    ofDigits (List.replicate n '0' ++ ds) exp = ofDigits ds exp := by
  induction n with
  | zero => rfl
  | succ n ih => rw [List.replicate_succ, List.cons_append, ofDigits_zero_cons, ih]

/-- **Taking zeros off the end of the digits does not change the number.** -/
theorem value_ofDigits (ds : List Char) (exp : Int) :
    (ofDigits ds exp).value = digitsValue ds * 10 ^ exp := by
  induction ds using List.reverseRecOn generalizing exp with
  | nil => simp [ofDigits_nil, value, digitsValue]
  | append_singleton ds c ih =>
    by_cases hc : c = '0'
    · have hzero : digitValue '0' = 0 := rfl
      rw [hc, ofDigits_append_zero, ih, digitsValue_append_singleton, hzero,
        zpow_add_one₀ (by norm_num)]
      push_cast
      ring
    · rw [ofDigits_append_of_ne _ hc]
      rfl

/-- A decimal has no zeros at the end of its coefficient, and zero has the power 0. -/
def IsTrimmed (d : Decimal) : Prop := d.coeff % 10 ≠ 0 ∨ d = ⟨0, 0⟩

theorem digitValue_mod_ten {c : Char} (hdigit : isDigit c = true) (hc : c ≠ '0') :
    digitValue c % 10 ≠ 0 := by
  rw [isDigit, Bool.and_eq_true, decide_eq_true_eq, decide_eq_true_eq] at hdigit
  have hlow : '0'.toNat ≤ c.toNat := hdigit.1
  have hhigh : c.toNat ≤ '9'.toNat := hdigit.2
  have hne : c.toNat ≠ '0'.toNat := fun h => hc (Char.toNat_inj.1 h)
  have hzero : '0'.toNat = 48 := rfl
  have hnine : '9'.toNat = 57 := rfl
  rw [digitValue]
  omega

theorem isTrimmed_ofDigits {ds : List Char} (h : ∀ c ∈ ds, isDigit c = true) (exp : Int) :
    (ofDigits ds exp).IsTrimmed := by
  induction ds using List.reverseRecOn generalizing exp with
  | nil => exact .inr rfl
  | append_singleton ds c ih =>
    have hds : ∀ c' ∈ ds, isDigit c' = true := fun c' hc' => h c' (List.mem_append_left _ hc')
    by_cases hc : c = '0'
    · rw [hc, ofDigits_append_zero]
      exact ih hds _
    · rw [ofDigits_append_of_ne _ hc]
      left
      have hlast := digitValue_mod_ten (h c (by simp)) hc
      show digitsValue (ds ++ [c]) % 10 ≠ 0
      rw [digitsValue_append_singleton]
      omega

/-- **A decimal without zeros at the end is read from its own digits.** -/
theorem ofDigits_digits {d : Decimal} (h : d.IsTrimmed) : ofDigits (digits d.coeff) d.exp = d := by
  rcases h with hlast | rfl
  · obtain ⟨ds, hds⟩ := exists_digits_eq_append d.coeff
    have hne : (d.coeff % 10).digitChar ≠ '0' := by rwa [ne_eq, Nat.digitChar_eq_zero]
    rw [hds, ofDigits_append_of_ne _ hne, ← hds, digitsValue_digits]
  · exact ofDigits_append_zero [] 0

theorem isTrimmed_trimZeros (d : Decimal) : d.trimZeros.IsTrimmed :=
  isTrimmed_ofDigits (fun _ => isDigit_of_mem_digits) d.exp

theorem value_trimZeros (d : Decimal) : d.trimZeros.value = d.value := by
  rw [trimZeros, value_ofDigits, digitsValue_digits, value]

/-! ## The exact decimal of a double -/

theorem value_exact (m : Nat) (e : Int) : (exact m e).value = m * 2 ^ e := by
  rw [exact, value_trimZeros]
  split
  · next hpositive =>
    obtain ⟨k, rfl⟩ := Int.eq_ofNat_of_zero_le hpositive
    show ((m * Nat.pow 2 k : Nat) : ℚ) * 10 ^ (0 : ℤ) = m * 2 ^ (k : ℤ)
    rw [zpow_zero, mul_one, zpow_natCast, Nat.pow_eq]
    push_cast
    rfl
  · next hnegative =>
    obtain ⟨k, rfl⟩ : ∃ k : Nat, e = -k := ⟨(-e).toNat, by omega⟩
    have hten : (10 : ℚ) ^ k = 2 ^ k * 5 ^ k := by
      rw [← mul_pow]
      norm_num
    rw [value, neg_neg, Int.toNat_natCast, Nat.pow_eq, zpow_neg, zpow_neg, zpow_natCast,
      zpow_natCast, hten]
    push_cast
    field_simp

/-- The exact decimal of a double reads back. -/
theorem toFloat_exact {x : Float} {m : Nat} {e : Int} (hm : m ≠ 0)
    (hx : Double.Is x (m * 2 ^ e)) : (exact m e).toFloat = x := by
  have hpos : (m : ℚ) * 2 ^ e ≠ 0 :=
    mul_ne_zero (by exact_mod_cast hm) (Double.two_zpow_pos e).ne'
  have hvalue := value_exact m e
  have hnear := isNear_toFloat (hvalue ▸ hx.abs_lt_limit)
  rw [hvalue] at hnear
  exact (hnear.is hx.representable).eq hx hpos

/-! ## The shortest decimal of a double -/

theorem eq_of_readsBack {x : Float} {d : Decimal} (h : readsBack x d = true) : d.toFloat = x :=
  Float.toBits_inj.1 (beq_iff_eq.1 h)

/-- A grid only answers with decimals without zeros at the end. -/
theorem isTrimmed_gridHit {x : Float} {tie : Tie} {num den : Nat} {power : Int} {d : Decimal}
    (h : gridHit x tie num den power = some d) : d.IsTrimmed := by
  have hpair : ∀ (aboveFirst : Bool) (below above : Decimal),
      d ∈ (if aboveFirst then [above, below] else [below, above]) → d = below ∨ d = above := by
    intro aboveFirst below above hmem
    cases aboveFirst with
    | false => exact List.mem_pair.1 hmem
    | true => exact (List.mem_pair.1 hmem).symm
  rcases hpair _ _ _ (List.mem_of_find?_eq_some h) with rfl | rfl
  · exact isTrimmed_trimZeros _
  · exact isTrimmed_trimZeros _

/-- The shortest decimal comes from a grid, or it is the exact one. -/
theorem shortest_cases (x : Float) (tie : Tie) {m : Nat} (hm : m ≠ 0) (e : Int) :
    (∃ power, gridHit x tie (Binary64.numerator m e) (Binary64.denominator e) power =
      some (shortest x tie m e)) ∨ shortest x tie m e = exact m e := by
  rw [shortest, if_neg hm]
  cases h : (List.range 17).findSome? (fun (n : Nat) => gridHit x tie (Binary64.numerator m e)
      (Binary64.denominator e)
      (leadingPower (Binary64.numerator m e) (Binary64.denominator e) - (n : Int))) with
  | none => exact .inr rfl
  | some d =>
    obtain ⟨n, -, hhit⟩ := List.exists_of_findSome?_eq_some h
    exact .inl ⟨_, hhit⟩

theorem isTrimmed_shortest (x : Float) (tie : Tie) (m : Nat) (e : Int) :
    (shortest x tie m e).IsTrimmed := by
  by_cases hm : m = 0
  · rw [shortest, if_pos hm]
    exact .inr rfl
  · rcases shortest_cases x tie hm e with ⟨power, hhit⟩ | hexact
    · exact isTrimmed_gridHit hhit
    · rw [hexact]
      exact isTrimmed_trimZeros _

/-- **The shortest decimal of a double reads back.** -/
theorem toFloat_shortest {x : Float} (tie : Tie) {m : Nat} {e : Int} (hm : m ≠ 0)
    (hx : Double.Is x (m * 2 ^ e)) : (shortest x tie m e).toFloat = x := by
  rcases shortest_cases x tie hm e with ⟨power, hhit⟩ | hexact
  · exact eq_of_readsBack (readsBack_gridHit hhit)
  · rw [hexact]
    exact toFloat_exact hm hx

end Decimal
end Atlas
