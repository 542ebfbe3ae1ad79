import TokenScan.Proofs.PlainSpelling

namespace TokenScan

namespace Decimal

open Literal (Digits Plain Power Sign)

theorem digits_toDigits (n : Nat) : Digits (Nat.toDigits 10 n) :=
  ⟨Nat.toDigits_ne_nil, fun _ h => Nat.isDigit_of_mem_toDigits (by decide) (by decide) h⟩

theorem power_toString (e : Int) : Power e ('e' :: (toString e).toList) := by
  rw [Int.toString_eq_repr, Int.repr_eq_if]
  split_ifs with he
  · have hpower := Power.some (.inl rfl) .none (digits_toDigits e.toNat)
    rw [Nat.ofDigitChars_ten_toDigits, if_neg Bool.false_ne_true, Int.toNat_of_nonneg he] at hpower
    rw [Nat.toList_repr]
    exact hpower
  · have hpower := Power.some (.inl rfl) .minus (digits_toDigits (-e).toNat)
    rw [Nat.ofDigitChars_ten_toDigits, if_pos rfl, Int.toNat_of_nonneg (by omega), neg_neg] at hpower
    rw [String.toList_append, Nat.toList_repr]
    exact hpower

theorem exists_scientific {ds : List Char} (hds : Digits ds) (p : Int) :
    ∃ m e, scientific ds p = m ++ e ∧ Plain (ds.take 1) (ds.drop 1) m ∧ Power (p - 1) e ∧
      value ⟨Nat.ofDigitChars 10 (ds.take 1 ++ ds.drop 1) 0, p - 1 - (ds.drop 1).length⟩ =
        Nat.ofDigitChars 10 ds 0 * (10 : ℚ) ^ (p - ds.length) := by
  have hlen := List.length_pos_iff.2 hds.ne_nil
  have hfirst : Digits (ds.take 1) :=
    ⟨fun h => by simp [hds.ne_nil] at h, fun c hc => hds.all c (List.mem_of_mem_take hc)⟩
  have hexp : p - 1 - ((ds.length - 1 : Nat) : Int) = p - ds.length := by omega
  refine ⟨_, _, rfl, plain_joined hfirst fun c hc => hds.all c (List.mem_of_mem_drop hc),
    power_toString (p - 1), ?_⟩
  rw [List.take_append_drop, List.length_drop, value_mk, hexp]

theorem exists_digits (l : Layout) (d : Decimal) (negative : Bool) :
    ∃ whole fraction exponent m p, l.digits d = m ++ p ∧ Plain whole fraction m ∧
      Power exponent p ∧ (Literal.mk negative whole fraction exponent).toDecimal.value = d.value := by
  have hds : ∀ c ∈ significant d, c.isDigit = true := fun _ => isDigit_of_mem_significant
  have hpositional : ∃ whole fraction exponent m p,
      positional l.places (significant d) (pointAt d) = m ++ p ∧ Plain whole fraction m ∧
      Power exponent p ∧ (Literal.mk negative whole fraction exponent).toDecimal.value = d.value := by
    obtain ⟨whole, fraction, hplain, hvalue⟩ := exists_positional hds (pointAt d) l.places
    exact ⟨whole, fraction, 0, _, [], (List.append_nil _).symm, hplain, .none,
      hvalue.trans (value_eq d).symm⟩
  unfold Layout.digits
  split
  next low high _ =>
    dsimp only
    split_ifs with h
    · exact hpositional
    · obtain ⟨hne, -⟩ := not_or.1 h
      obtain ⟨m, p, heq, hplain, hpower, hvalue⟩ := exists_scientific ⟨hne, hds⟩ (pointAt d)
      exact ⟨_, _, _, m, p, heq, hplain, hpower, hvalue.trans (value_eq d).symm⟩
  next => exact hpositional

namespace Literal

theorem Spells.forall_mem {l : Literal} {w : List Char} (h : l.Spells w) :
    ∀ c ∈ w, Word.isNumeral c = true ∨ c ∈ ['+', '-', 'e', 'E'] := by
  obtain ⟨negative, whole, fraction, exponent⟩ := l
  obtain ⟨s, m, p, rfl, hs, hm, hp⟩ := h
  have hsign {b : Bool} {u : List Char} (hu : Sign b u) :
      ∀ c ∈ u, Word.isNumeral c = true ∨ c ∈ ['+', '-', 'e', 'E'] := by
    cases hu <;> simp
  have hpower : ∀ c ∈ p, Word.isNumeral c = true ∨ c ∈ ['+', '-', 'e', 'E'] := by
    cases hp with
    | none => nofun
    | some hletter hminus hds =>
      refine List.forall_mem_cons.2
        ⟨.inr (by obtain rfl | rfl := hletter <;> decide), fun c hc => ?_⟩
      obtain hc | hc := List.mem_append.1 hc
      · exact hsign hminus c hc
      · exact .inl (Word.isNumeral_of_isDigit (hds.all c hc))
  intro c hc
  obtain hc | hc := List.mem_append.1 hc
  · exact hsign hs c hc
  obtain hc | hc := List.mem_append.1 hc
  · exact .inl (Word.isNumeral_of_isPlain ⟨_, _, hm⟩ c hc)
  · exact hpower c hc

end Literal
end Decimal

namespace Binary64

open Decimal (Layout)

variable {x y : Binary64} (l : Layout)

theorem number?_text (hfin : x.IsFinite) : Word.number? (x.text l).toList = some x := by
  obtain ⟨whole, fraction, exponent, m, p, hdigits, hplain, hpower, hvalue⟩ :=
    Decimal.exists_digits l (Decimal.shortest x.magnitude) x.isNegative
  have hspells : Decimal.Literal.Spells ⟨x.isNegative, whole, fraction, exponent⟩
      (x.text l).toList := by
    refine ⟨_, m, p, by rw [text_of_isFinite l hfin, hdigits], ?_, hplain, hpower⟩
    cases x.isNegative
    · exact .none
    · exact .minus
  exact number?_of_spells hfin hspells hvalue

theorem magnitude_of_not_isFinite (hfin : ¬ x.IsFinite) (hnan : ¬ x.isNaN = true) :
    x.magnitude = infinite :=
  Nat.le_antisymm (Nat.le_of_not_lt fun hlt => hnan (decide_eq_true hlt)) (Nat.le_of_not_lt hfin)

theorem text_of_not_isFinite (hfin : ¬ x.IsFinite) :
    x.text l = if x.isNaN then "NaN" else if x.isNegative then "-inf" else "inf" := by
  rw [text]
  split
  · rfl
  next hnan =>
    rw [if_pos (magnitude_of_not_isFinite hfin hnan)]
    split <;> rfl

theorem number?_text_of_not_isFinite (h : ¬ x.IsFinite) :
    Word.number? (x.text l).toList = none := by
  rw [text_of_not_isFinite l h]
  split_ifs <;> decide

theorem isFinite_congr (h : x.text l = y.text l) : x.IsFinite → y.IsFinite := by
  intro hx
  by_contra hy
  have hread := number?_text l hx
  rw [h, number?_text_of_not_isFinite l hy] at hread
  cases hread

/-- Numbers that are written alike are the same, if that holds of those that are no numbers. -/
theorem eq_of_text_eq (hnan : x.isNaN = true → y.isNaN = true → x = y) (h : x.text l = y.text l) :
    x = y := by
  by_cases hx : x.IsFinite
  · have hread := number?_text l hx
    rw [h, number?_text l (isFinite_congr l h hx)] at hread
    exact (Option.some.inj hread).symm
  · have hy : ¬ y.IsFinite := fun hy => hx (isFinite_congr l h.symm hy)
    rw [text_of_not_isFinite l hx, text_of_not_isFinite l hy] at h
    by_cases hxn : x.isNaN = true <;> by_cases hyn : y.isNaN = true
    · exact hnan hxn hyn
    · rw [if_pos hxn, if_neg hyn] at h
      split at h <;> exact absurd h (by decide)
    · rw [if_neg hxn, if_pos hyn] at h
      split at h <;> exact absurd h (by decide)
    · rw [if_neg hxn, if_neg hyn] at h
      have hneg : x.isNegative = y.isNegative := by
        cases hxs : x.isNegative <;> cases hys : y.isNegative <;> simp [hxs, hys] at h <;> rfl
      rw [← ofMagnitude_isNegative x, ← ofMagnitude_isNegative y, hneg,
        magnitude_of_not_isFinite hx hxn, magnitude_of_not_isFinite hy hyn]

theorem not_mem_text {c : Char} (hnumeral : Word.isNumeral c = false)
    (hletter : c ∉ ['+', '-', 'e', 'E', 'N', 'a', 'i', 'n', 'f']) (x : Binary64) :
    c ∉ (x.text l).toList := by
  by_cases hx : x.IsFinite
  · intro hm
    obtain ⟨lit, hparse, -⟩ := Option.map_eq_some_iff.1 (number?_text l hx)
    obtain h | h := (Decimal.Literal.parse?_eq_some_iff.1 hparse).forall_mem c hm
    · rw [hnumeral] at h
      cases h
    · exact hletter (List.mem_append_left ['N', 'a', 'i', 'n', 'f'] h)
  · rw [text_of_not_isFinite l hx]
    have hsub : (if x.isNaN then "NaN" else if x.isNegative then "-inf" else "inf").toList ⊆
        ['+', '-', 'e', 'E', 'N', 'a', 'i', 'n', 'f'] := by
      split_ifs <;> simp
    exact fun hm => hletter (hsub hm)

end Binary64
end TokenScan
