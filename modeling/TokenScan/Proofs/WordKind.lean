import TokenScan.Proofs.Drains
import TokenScan.Proofs.WordOrder

namespace TokenScan

open Text (isBlank)

namespace Binary64

theorem infinite_lt : infinite < Nat.pow 2 63 := by decide

theorem toNat_bits_ofMagnitude (negative : Bool) {k : Nat} (hk : k ≤ infinite) :
    (ofMagnitude negative k).bits.toNat = if negative then Nat.pow 2 63 + k else k := by
  have hinf := infinite_lt
  rw [ofMagnitude, UInt64.toNat_ofNat', Nat.mod_eq_of_lt]
  rw [Nat.pow_eq] at hinf ⊢
  split <;> omega

theorem magnitude_ofMagnitude (negative : Bool) {k : Nat} (hk : k ≤ infinite) :
    (ofMagnitude negative k).magnitude = k := by
  have hlt := hk.trans_lt infinite_lt
  rw [magnitude, toNat_bits_ofMagnitude negative hk]
  cases negative with
  | false => exact Nat.mod_eq_of_lt hlt
  | true => exact (Nat.add_mod_left _ k).trans (Nat.mod_eq_of_lt hlt)

theorem isNaN_ofMagnitude (negative : Bool) {k : Nat} (hk : k ≤ infinite) :
    (ofMagnitude negative k).isNaN = false := by
  rw [isNaN, magnitude_ofMagnitude negative hk, decide_eq_false_iff_not]
  exact Nat.not_lt_of_le hk

theorem isNegative_ofMagnitude (negative : Bool) {k : Nat} (hk : k ≤ infinite) :
    (ofMagnitude negative k).isNegative = negative := by
  rw [isNegative, toNat_bits_ofMagnitude negative hk]
  cases negative with
  | false => exact decide_eq_false (Nat.not_le_of_lt (hk.trans_lt infinite_lt))
  | true => exact decide_eq_true (Nat.le_add_right _ k)

end Binary64

theorem Decimal.magnitude_le (d : Decimal) : d.magnitude ≤ Binary64.infinite := Nat.min_le_left _ _

open Decimal (Literal)

namespace Word

/-- `digits (. digits?)? | . digits` -/
def IsPlain (w : List Char) : Prop := ∃ whole fraction, Literal.Plain whole fraction w

theorem isNumeral_of_isDigit {c : Char} (h : c.isDigit = true) : isNumeral c = true := by
  rw [isNumeral, h, Bool.true_or]

theorem isNumeral_of_isPlain {w : List Char} (h : IsPlain w) : ∀ c ∈ w, isNumeral c = true := by
  obtain ⟨whole, fraction, h⟩ := h
  intro c hc
  cases h with
  | integer hd => exact isNumeral_of_isDigit (hd.all c hc)
  | pointed hd hf =>
    obtain hc | rfl | hc := by simpa using hc
    · exact isNumeral_of_isDigit (hd.all c hc)
    · decide
    · exact isNumeral_of_isDigit (hf c hc)
  | fractional hf =>
    obtain rfl | hc := List.mem_cons.1 hc
    · decide
    · exact isNumeral_of_isDigit (hf.all c hc)

theorem exists_head_of_isPlain {w : List Char} (h : IsPlain w) :
    ∃ c cs, w = c :: cs ∧ isNumeral c = true := by
  have hall := isNumeral_of_isPlain h
  obtain ⟨whole, fraction, h⟩ := h
  obtain ⟨c, cs, rfl, -⟩ := h.exists_head
  exact ⟨c, cs, rfl, hall c List.mem_cons_self⟩

/-- Digits stand only in the run of numerals at the start. -/
def DigitsLead (w : List Char) : Prop :=
  ∀ a c b, w = a ++ c :: b → isNumeral c = false → ∀ d ∈ b, d.isDigit = false

theorem digitsLead_leading (x : Char) (xs : List Char) : DigitsLead (leading (x :: xs)) := by
  intro a c b h hc d hd
  obtain ⟨r, t, hrt, hr, ht⟩ := leading_eq_append x xs
  have hgo : ∀ d ∈ t, d.isDigit = false := fun d hd => (goesOn_iff.1 (ht d hd)).2.2
  -- `c` is in the tail, or it is the one character that stands in place of a run
  obtain ⟨t', rfl, rfl⟩ | ⟨a', -, rfl⟩ := Text.append_cons_eq_append (h.symm.trans hrt)
  · obtain hr | hr := hr
    · have := hr c (by simp)
      rw [hc] at this
      cases this
    · obtain ⟨-, hcons⟩ | ⟨-, hcons⟩ := List.append_eq_singleton_iff.1 hr
      · obtain ⟨-, rfl⟩ := List.cons.inj hcons
        exact hgo d hd
      · cases hcons
  · exact hgo d (by simp [hd])

/-- A literal that is a word of a scan has no sign and no power of ten. -/
theorem plain_of_spells {w : List Char} (h : DigitsLead w) {l : Literal} (hl : l.Spells w) :
    l.negative = false ∧ Literal.Plain l.whole l.fraction w := by
  obtain ⟨negative, whole, fraction, exponent⟩ := l
  obtain ⟨s, m, p, rfl, hs, hm, hp⟩ := hl
  -- the digits of the mantissa would stand behind a sign, those of the power behind its letter
  have hsign (c : Char) (hc : isNumeral c = false) : s ≠ [c] := by
    rintro rfl
    obtain ⟨d, hd, hdigit⟩ := hm.exists_digit
    have := h [] c (m ++ p) rfl hc d (List.mem_append_left p hd)
    rw [hdigit] at this
    cases this
  have hpower : p = [] := by
    cases hp with
    | none => rfl
    | @some e _ s' ds he _ hd =>
      have hen : isNumeral e = false := by obtain rfl | rfl := he <;> decide
      obtain ⟨d, ds, rfl⟩ := List.exists_cons_of_ne_nil hd.ne_nil
      have := h (s ++ m) e (s' ++ d :: ds) (List.append_assoc ..).symm hen d (by simp)
      rw [hd.all d List.mem_cons_self] at this
      cases this
  subst hpower
  rw [List.append_nil]
  cases hs with
  | none => exact ⟨rfl, hm⟩
  | plus => exact absurd rfl (hsign '+' (by decide))
  | minus => exact absurd rfl (hsign '-' (by decide))

theorem exists_spells_of_isPlain {w : List Char} (h : IsPlain w) : ∃ l, Literal.Spells l w := by
  obtain ⟨whole, fraction, h⟩ := h
  exact ⟨⟨false, whole, fraction, 0⟩, [], w, [], (List.append_nil w).symm, .none, h, .none⟩

theorem exists_spells_iff {w : List Char} (h : DigitsLead w) :
    (∃ l, Literal.Spells l w) ↔ IsPlain w :=
  ⟨fun ⟨_, hl⟩ => ⟨_, _, (plain_of_spells h hl).2⟩, exists_spells_of_isPlain⟩

theorem exists_number?_of_isPlain {w : List Char} (h : IsPlain w) : ∃ x, number? w = some x :=
  Option.isSome_iff_exists.1 (isSome_number?_iff.2 (exists_spells_of_isPlain h))

theorem of_number?_eq_some {w : List Char} (h : DigitsLead w) {x : Binary64}
    (hx : number? w = some x) : IsPlain w ∧ x.isNaN = false ∧ x.isNegative = false := by
  obtain ⟨l, hl, rfl⟩ := Option.map_eq_some_iff.1 hx
  obtain ⟨hneg, hplain⟩ := plain_of_spells h (Literal.parse?_eq_some_iff.1 hl)
  have hle := l.toDecimal.magnitude_le
  refine ⟨⟨_, _, hplain⟩, Binary64.isNaN_ofMagnitude _ hle, ?_⟩
  rw [Literal.toBinary64, Binary64.isNegative_ofMagnitude _ hle, hneg]

theorem not_startsName_of_isNumeral {c : Char} (h : isNumeral c = true) : startsName c = false :=
  startsName_eq_false ((toNat_of_isNumeral h).2.trans_lt (by decide))

section
variable {w : List Char} (h : DigitsLead w)
include h

theorem classify?_eq_number_iff : (∃ x, classify? w = some (.number x)) ↔ IsPlain w := by
  constructor
  · rintro ⟨x, hx⟩
    obtain ⟨y, -, hy⟩ | ⟨d, ht, -⟩ | ⟨n, ht, -⟩ := classify?_eq_some hx
    · exact (of_number?_eq_some h hy).1
    · cases ht
    · cases ht
  · intro hw
    obtain ⟨x, hx⟩ := exists_number?_of_isPlain hw
    exact ⟨x, by rw [classify?, hx]; rfl⟩

theorem classify?_eq_none_iff :
    classify? w = none ↔
      ¬ IsPlain w ∧ (∀ c, isWordSymbol c = true → w ≠ [c]) ∧ w.head?.any startsName = false := by
  rw [classify?_eq_none_iff_not_spells, exists_spells_iff h]

end

end Word

namespace Lexeme

theorem head?_of_number {text : List Char} {x : Binary64} (h : meaning text = .ok (.number x)) :
    ∃ c ∈ text.head?, c ≠ ';' ∧ c ≠ '"' := by
  cases text with
  | nil => cases h
  | cons c cs =>
    refine ⟨c, rfl, ?_, ?_⟩
    · rintro rfl
      cases h
    · rintro rfl
      rw [meaning_of_quote] at h
      split at h <;> cases h

end Lexeme

namespace Scanner

/-- A step skips white space and takes the word `text`. -/
structure TakesWord (s : Scanner) (text : List Char) : Prop where
  ahead : s.cursor.rest.dropWhile isBlank = text ++ s.next.2.cursor.rest
  word : ∃ c ∈ text.head?, c ≠ ';' ∧ c ≠ '"'

namespace TakesWord

variable {s : Scanner} {text : List Char} (h : s.TakesWord text)
include h

theorem spec : Word.DigitsLead text ∧ (∃ p, s.next.1 = (Lexeme.located p
    (match Word.classify? text with
      | some t => .ok t
      | none => .error (.invalidWord (String.ofList text)))).map some) := by
  obtain ⟨c, hc, hs, hq⟩ := h.word
  obtain ⟨cs, rfl⟩ := List.head?_eq_some_iff.1 hc
  obtain ⟨hahead, p, hp⟩ := next_of_ahead (s := s) (by rw [h.ahead]; nofun)
  have htext := List.append_cancel_right (hahead.symm.trans h.ahead)
  rw [htext, Lexeme.meaning_of_word hs hq] at hp
  rw [h.ahead, List.cons_append, Lexeme.leading_of_word hs hq] at htext
  exact ⟨htext ▸ Word.digitsLead_leading c _, p, hp⟩

theorem next_eq_ok_iff {t : Token} :
    (∃ p, s.next.1 = .ok (some ⟨t, p⟩)) ↔ Word.classify? text = some t := by
  obtain ⟨-, p, hp⟩ := h.spec
  rw [hp, Lexeme.located_eq_ok_iff]
  split
  next u hu => rw [hu, Except.ok.injEq, Option.some.injEq]
  next hn => rw [hn]; exact ⟨nofun, nofun⟩

theorem next_eq_error_iff {f : Fault} :
    (∃ p, s.next.1 = .error ⟨f, p⟩) ↔
      f = .invalidWord (String.ofList text) ∧ Word.classify? text = none := by
  obtain ⟨-, p, hp⟩ := h.spec
  rw [hp, Lexeme.located_eq_error_iff]
  split
  next u hu => rw [hu]; exact ⟨nofun, nofun⟩
  next hn => rw [hn, Except.error.injEq, eq_comm, and_iff_left rfl]

end TakesWord

theorem number_of_next {s : Scanner} {x : Binary64} {p : Span}
    (h : s.next.1 = .ok (some ⟨.number x, p⟩)) : x.isNaN = false ∧ x.isNegative = false := by
  by_cases ha : s.cursor.rest.dropWhile isBlank = []
  · rw [(next_of_blank ha).1] at h
    cases h
  obtain ⟨hahead, q, hq⟩ := next_of_ahead ha
  have hm := Lexeme.located_eq_ok_iff.1 ⟨p, hq.symm.trans h⟩
  have hw : s.TakesWord _ := ⟨hahead, Lexeme.head?_of_number hm⟩
  obtain ⟨y, hy, hnumber⟩ | ⟨c, hc, -⟩ | ⟨n, hn, -⟩ :=
    Word.classify?_eq_some (hw.next_eq_ok_iff.1 ⟨p, h⟩)
  · cases hy
    exact (Word.of_number?_eq_some hw.spec.1 hnumber).2
  · cases hc
  · cases hn

end Scanner

namespace Word

theorem leading_of_isPlain {w : List Char} (h : IsPlain w) : Lexeme.leading w = w := by
  have hall := isNumeral_of_isPlain h
  obtain ⟨c, cs, rfl, hc⟩ := exists_head_of_isPlain h
  obtain ⟨hs, hq⟩ := ne_of_isNumeral hc
  obtain ⟨ht, hd⟩ := Text.takeWhile_append_run (b := []) hall nofun
  rw [List.append_nil] at ht hd
  rw [Lexeme.leading_of_word hs hq, leading, if_pos hc, ht, hd, List.takeWhile_nil,
    List.append_nil]

theorem solid_of_isPlain {w : List Char} (h : IsPlain w) : ∃ c ∈ w.head?, isBlank c = false := by
  obtain ⟨c, cs, rfl, hc⟩ := exists_head_of_isPlain h
  exact ⟨c, rfl, isBlank_of_isNumeral hc⟩

theorem meaning_of_isPlain {w : List Char} (h : IsPlain w) {x : Binary64}
    (hx : number? w = some x) : Lexeme.meaning w = .ok (.number x) := by
  obtain ⟨c, cs, rfl, hc⟩ := exists_head_of_isPlain h
  obtain ⟨hs, hq⟩ := ne_of_isNumeral hc
  rw [Lexeme.meaning_of_word hs hq, classify?, hx]
  rfl

theorem tokensOf_of_isPlain {w : List Char} (h : IsPlain w) {x : Binary64}
    (hx : number? w = some x) : tokensOf (String.ofList w) = .ok [.number x] := by
  obtain ⟨p, hr⟩ := results_of_leading (solid_of_isPlain h) (leading_of_isPlain h)
  refine (Scanner.readOnto_fst #[] _).trans ?_
  rw [hr, meaning_of_isPlain h hx]
  rfl

end Word

/-- The kinds of words. A step gives a number for digits with at most one point among them, a
symbol for one of three characters alone, a name for what starts with one of `A` to `z`, and a fault
for all else; so no number is a NaN or has a sign. Every plain number is read as one. -/
theorem word_kinds :
    (∀ (s : Scanner) (text : List Char), s.TakesWord text →
      ((∃ x p, s.next.1 = .ok (some ⟨.number x, p⟩)) ↔ Word.IsPlain text) ∧
      (∀ c, (∃ p, s.next.1 = .ok (some ⟨.symbol c, p⟩)) ↔ text = [c] ∧ c ∈ ['-', '=', '+']) ∧
      (∀ n, (∃ p, s.next.1 = .ok (some ⟨.name n, p⟩)) ↔
        n = String.ofList text ∧ ∃ c ∈ text.head?, 'A' ≤ c ∧ c ≤ 'z') ∧
      ∀ f, (∃ p, s.next.1 = .error ⟨f, p⟩) ↔
        f = .invalidWord (String.ofList text) ∧ ¬ Word.IsPlain text ∧
          (∀ c ∈ ['-', '=', '+'], text ≠ [c]) ∧ ¬ ∃ c ∈ text.head?, 'A' ≤ c ∧ c ≤ 'z') ∧
    (∀ (s : Scanner) (x : Binary64) (p : Span), s.next.1 = .ok (some ⟨.number x, p⟩) →
      x.isNaN = false ∧ x.isNegative = false) ∧
    ∀ w, Word.IsPlain w →
      ∃ x, Word.number? w = some x ∧ tokensOf (String.ofList w) = .ok [.number x] := by
  refine ⟨fun s text h => ?_, fun s x p h => Scanner.number_of_next h, fun w h => ?_⟩
  · have hlead := h.spec.1
    have hsymbol (c : Char) : c ∈ ['-', '=', '+'] ↔ isWordSymbol c = true :=
      List.contains_iff_mem.symm
    have hname : (∃ c ∈ text.head?, 'A' ≤ c ∧ c ≤ 'z') ↔ text.head?.any Word.startsName = true := by
      rw [Option.any_eq_true]
      exact exists_congr fun c => and_congr_right' Word.startsName_iff.symm
    refine ⟨?_, fun c => ?_, fun n => ?_, fun f => ?_⟩
    · rw [← Word.classify?_eq_number_iff hlead]
      exact exists_congr fun x => h.next_eq_ok_iff
    · rw [h.next_eq_ok_iff, Word.classify?_eq_symbol_iff, hsymbol]
    · rw [h.next_eq_ok_iff, Word.classify?_eq_name_iff, hname]
    · rw [h.next_eq_error_iff, Word.classify?_eq_none_iff hlead, hname, Bool.not_eq_true]
      simp only [hsymbol]
  · obtain ⟨x, hx⟩ := Word.exists_number?_of_isPlain h
    exact ⟨x, hx, Word.tokensOf_of_isPlain h hx⟩

theorem word_kinds_power :
    (Scanner.start " 1.5e+2").TakesWord ['1', '.', '5', 'e'] ∧
      (∃ p, (Scanner.start " 1.5e+2").next.1 = .error ⟨.invalidWord "1.5e", p⟩) ∧
      (∃ x p, (Scanner.start "1.5").next.1 = .ok (some ⟨.number x, p⟩) ∧ x.isNegative = false) ∧
      ∃ x, Word.number? ['1', '.', '5'] = some x ∧ tokensOf "1.5" = .ok [.number x] := by
  have hfault : (Scanner.start " 1.5e+2").TakesWord ['1', '.', '5', 'e'] :=
    ⟨by decide +kernel, '1', rfl, by decide, by decide⟩
  have hnot : ¬ Word.IsPlain ['1', '.', '5', 'e'] := fun h =>
    absurd (Word.isNumeral_of_isPlain h 'e' (by decide)) (by decide)
  have hname : ¬ ∃ c ∈ ['1', '.', '5', 'e'].head?, 'A' ≤ c ∧ c ≤ 'z' := by
    rintro ⟨c, hc, hlo, -⟩
    cases hc
    exact absurd hlo (by decide)
  have hnumber : (Scanner.start "1.5").TakesWord ['1', '.', '5'] :=
    ⟨by decide +kernel, '1', rfl, by decide, by decide⟩
  have hplain : Word.IsPlain ['1', '.', '5'] :=
    ⟨['1'], ['5'], .pointed ⟨by decide, List.all_eq_true.1 rfl⟩ (List.all_eq_true.1 rfl)⟩
  obtain ⟨x, p, hx⟩ := (word_kinds.1 _ _ hnumber).1.2 hplain
  exact ⟨hfault,
    ((word_kinds.1 _ _ hfault).2.2.2 (.invalidWord "1.5e")).2 ⟨rfl, hnot, by simp, hname⟩,
    ⟨x, p, hx, (word_kinds.2.1 _ x p hx).2⟩, word_kinds.2.2 _ hplain⟩

end TokenScan
