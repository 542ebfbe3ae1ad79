import TokenScan.Proofs.PartialScan
import TokenScan.Proofs.PlainSpelling

namespace TokenScan

open Text (byteLength isBlank)

/-- The number past all finite ones, which a decimal too large stands for. -/
def Binary64.infinity : Binary64 := ⟨0x7FF0000000000000⟩

/-- What a source can spell: one of four symbols, a text without quotes, a finite number without a
sign, and a letter with what goes on with a word. -/
def Token.IsPrintable : Token → Prop
  | symbol c => c ∈ [';', '-', '=', '+']
  | stringLiteral t => '"' ∉ t.toList
  | number x => x.IsFinite ∧ x.isNegative = false
  | name t => ∃ c cs, t.toList = c :: cs ∧ 'A' ≤ c ∧ c ≤ 'z' ∧
      ∀ d ∈ cs, isBlank d = false ∧ d ∉ [';', '-', '=', '+'] ∧ d.isDigit = false

namespace Lexeme

/-- The text `w` is one lexeme, and stands for `t`. -/
structure Says (w : List Char) (t : Token) : Prop where
  solid : ∃ c ∈ w.head?, isBlank c = false
  leads : leading w = w
  means : meaning w = .ok t

namespace Says

variable {w rest : List Char} {t : Token}

theorem ne_nil (h : Says w t) : w ≠ [] := by
  obtain ⟨c, hc, -⟩ := h.solid
  exact List.ne_nil_of_mem (List.mem_of_mem_head? hc)

theorem of_split {cs gap : List Char} (h : Split cs gap w rest) (hm : meaning w = .ok t) :
    Says w t :=
  ⟨h.solid, ((leading_append_eq_iff h.text_ne_nil).1 h.leads).1, hm⟩

theorem split (h : Says w t) (hrest : ∀ c ∈ rest.head?, isSeparator c = true) :
    Split (w ++ rest) [] w rest where
  eq := rfl
  blank := nofun
  solid := h.solid
  leads := by
    refine (leading_append_eq_iff h.ne_nil).2 ⟨h.leads, fun c hc => ?_⟩
    refine isOverBefore_of_isSeparator h.ne_nil ?_ (hrest c hc)
    rw [h.means]
    nofun

theorem lexes_behind (h : Says w t) {gap : List Char} (hgap : ∀ c ∈ gap, isBlank c = true) {n : Nat}
    {rs : List (Except ScanError LocatedToken)} (hrest : ∀ c ∈ rest.head?, isSeparator c = true)
    (hmore : Lexes (n + byteLength gap + byteLength w) rest rs) :
    Lexes n (gap ++ (w ++ rest)) (.ok ⟨t, .clamp (n + byteLength gap)
      (n + byteLength gap + byteLength w)⟩ :: rs) := by
  have hs := h.split hrest
  have hlex := Lexes.lexeme (n := n) ⟨rfl, hgap, hs.solid, hs.leads⟩ hmore
  rw [h.means] at hlex
  exact hlex

theorem lexes (h : Says w t) {n : Nat} {rs : List (Except ScanError LocatedToken)}
    (hrest : ∀ c ∈ rest.head?, isSeparator c = true) (hmore : Lexes (n + byteLength w) rest rs) :
    ∃ p, Lexes n (w ++ rest) (.ok ⟨t, p⟩ :: rs) := by
  have hgap : ∀ c ∈ ([] : List Char), isBlank c = true := nofun
  exact ⟨_, h.lexes_behind hgap hrest hmore⟩

end Says
end Lexeme

open Lexeme (Says leading meaning)

theorem toNat_of_letter {c : Char} (hlo : 'A' ≤ c) (hhi : c ≤ 'z') :
    65 ≤ c.toNat ∧ c.toNat ≤ 122 :=
  ⟨UInt32.le_iff_toNat_le.1 hlo, UInt32.le_iff_toNat_le.1 hhi⟩

namespace Token

theorem says_symbol {c : Char} (h : c ∈ [';', '-', '=', '+']) :
    Says (symbol c).spelling.toList (symbol c) := by
  simp only [List.mem_cons, List.not_mem_nil, or_false] at h
  obtain rfl | rfl | rfl | rfl := h <;> exact ⟨⟨_, rfl, by decide⟩, by decide, rfl⟩

theorem says_stringLiteral {t : String} (h : '"' ∉ t.toList) :
    Says (stringLiteral t).spelling.toList (stringLiteral t) := by
  have hlist : (stringLiteral t).spelling.toList = '"' :: (t.toList ++ ['"']) := by
    simp [spelling]
  rw [hlist]
  refine ⟨⟨'"', rfl, by decide⟩, Lexeme.leading_of_closed h [], ?_⟩
  rw [Lexeme.meaning_of_quote, List.getLast?_concat, if_pos rfl, List.dropLast_concat,
    String.ofList_toList]

theorem says_number {x : Binary64} (hfin : x.IsFinite) (hneg : x.isNegative = false) :
    Says (number x).spelling.toList (number x) := by
  obtain ⟨hplain, hread⟩ := Binary64.text_plain_reads hfin hneg
  exact ⟨Word.solid_of_isPlain hplain, Word.leading_of_isPlain hplain,
    Word.meaning_of_isPlain hplain hread⟩

theorem says_name {t : String} {c : Char} {cs : List Char} (ht : t.toList = c :: cs)
    (hlo : 'A' ≤ c) (hhi : c ≤ 'z') (hcs : ∀ d ∈ cs, Word.goesOn d = true) :
    Says (name t).spelling.toList (name t) := by
  obtain ⟨hlo', hhi'⟩ := toNat_of_letter hlo hhi
  have hs : c ≠ ';' := by
    rintro rfl
    exact absurd hlo' (by decide)
  have hq : c ≠ '"' := by
    rintro rfl
    exact absurd hlo' (by decide)
  have hnumeral : Word.isNumeral c = false := by
    rw [← Bool.not_eq_true]
    intro hn
    have := Word.toNat_of_isNumeral hn
    omega
  have hleading : Word.leading (c :: cs) = c :: cs := by
    rw [Word.leading, hnumeral, if_neg Bool.false_ne_true, List.takeWhile_eq_self_iff.2 hcs]
  have hclass : Word.classify? (c :: cs) = some (name t) := by
    rw [Word.classify?_eq_name_iff, ← ht, String.ofList_toList, ht]
    exact ⟨rfl, Word.startsName_iff.2 ⟨hlo, hhi⟩⟩
  rw [spelling, ht]
  refine ⟨⟨c, rfl, Text.isBlank_eq_false (by omega) (by omega)⟩, ?_, ?_⟩
  · rw [Lexeme.leading_of_word hs hq, hleading]
  · rw [Lexeme.meaning_of_word hs hq, hclass]

theorem says_spelling {t : Token} (h : t.IsPrintable) : Says t.spelling.toList t := by
  cases t with
  | symbol c => exact says_symbol h
  | stringLiteral t => exact says_stringLiteral h
  | number x => exact says_number h.1 h.2
  | name t =>
    obtain ⟨c, cs, ht, hlo, hhi, hcs⟩ := h
    exact says_name ht hlo hhi fun d hd => Word.goesOn_iff.2 (hcs d hd)

/-- The spellings of tokens with spaces between them have these tokens as their results. -/
theorem exists_lexes_spellings {ts : List Token} (h : ∀ t ∈ ts, t.IsPrintable) (n : Nat) :
    ∃ us : List LocatedToken, us.map LocatedToken.token = ts ∧
      Lexes n (" ".intercalate (ts.map spelling)).toList (us.map .ok) := by
  induction ts generalizing n with
  | nil => exact ⟨[], rfl, .blank (by simp)⟩
  | cons t ts ih =>
    obtain ⟨ht, hts⟩ := List.forall_mem_cons.1 h
    have hsays := says_spelling ht
    cases ts with
    | nil =>
      have hend : Lexes (n + byteLength t.spelling.toList) [] [] := .blank nofun
      obtain ⟨p, hlex⟩ := hsays.lexes (by simp) hend
      exact ⟨[⟨t, p⟩], rfl, by simpa using hlex⟩
    | cons u ts =>
      obtain ⟨us, hus, hmore⟩ := ih hts (n + byteLength t.spelling.toList + byteLength [' '])
      have hspace : ∀ c ∈ [' '], isBlank c = true := List.forall_mem_singleton.2 (by decide)
      have hgap := hmore.blank_append hspace
      obtain ⟨p, hlex⟩ := hsays.lexes (by simp [isSeparator, hspace]) hgap
      refine ⟨⟨t, p⟩ :: us, by rw [List.map_cons, hus], ?_⟩
      rw [List.map_cons, List.map_cons, String.intercalate_cons_cons, String.toList_append,
        String.toList_append, List.append_assoc]
      exact hlex

end Token

theorem Binary64.finite_or_eq_infinity {x : Binary64} (hnan : x.isNaN = false)
    (hneg : x.isNegative = false) : x.IsFinite ∨ x = infinity := by
  have hle : x.magnitude ≤ infinite := by simpa [isNaN] using hnan
  refine hle.lt_or_eq.imp id fun heq => ?_
  rw [← ofMagnitude_magnitude hneg, heq]
  decide

namespace Lexeme.Says

theorem isPrintable_of_quote {xs : List Char} {t : Token} (h : Says ('"' :: xs) t) :
    t.IsPrintable := by
  have hleads := h.leads
  have hmeans := h.means
  rw [meaning_of_quote] at hmeans
  split at hmeans
  next hl =>
    cases hmeans
    obtain ⟨ys, rfl⟩ := List.getLast?_eq_some_iff.1 hl
    rw [List.dropLast_concat, Token.IsPrintable, String.toList_ofList]
    -- an earlier quote would close the string there
    intro hm
    obtain ⟨a, b, rfl, ha⟩ := List.eq_append_cons_of_mem hm
    rw [List.append_assoc, List.cons_append, leading_of_closed ha] at hleads
    simp at hleads
  next => cases hmeans

theorem isPrintable_or_of_word {x : Char} {xs : List Char} {t : Token} (h : Says (x :: xs) t)
    (hs : x ≠ ';') (hq : x ≠ '"') : t.IsPrintable ∨ t = .number .infinity := by
  have hleads := h.leads
  have hmeans := h.means
  rw [leading_of_word hs hq] at hleads
  rw [meaning_of_word hs hq] at hmeans
  have hdigits : Word.DigitsLead (x :: xs) := hleads ▸ Word.digitsLead_leading x xs
  have hclass : Word.classify? (x :: xs) = some t := by
    split at hmeans
    next u hu =>
      cases hmeans
      exact hu
    next => cases hmeans
  obtain ⟨v, rfl, hv⟩ | ⟨c, rfl, -, hc⟩ | ⟨n, rfl, -, -, hn⟩ := Word.classify?_eq_some hclass
  · obtain ⟨-, hnan, hneg⟩ := Word.of_number?_eq_some hdigits hv
    obtain hfin | rfl := Binary64.finite_or_eq_infinity hnan hneg
    · exact .inl ⟨hfin, hneg⟩
    · exact .inr rfl
  · have hsymbol : c ∈ wordSymbols := List.contains_iff_mem.1 (Word.symbol?_eq_some_iff.1 hc).2
    exact .inl (List.mem_cons_of_mem _ hsymbol)
  · obtain ⟨rfl, hx⟩ := Word.name?_eq_some_iff.1 hn
    obtain ⟨hlo, hhi⟩ := Word.startsName_iff.1 hx
    have hnumeral : Word.isNumeral x = false := by
      rw [← Bool.not_eq_true]
      intro hn
      rw [List.head?_cons, Option.any_some, Word.not_startsName_of_isNumeral hn] at hx
      cases hx
    rw [Word.leading, hnumeral, if_neg Bool.false_ne_true] at hleads
    have hall := List.takeWhile_eq_self_iff.1 (List.tail_eq_of_cons_eq hleads)
    exact .inl ⟨x, xs, String.toList_ofList, hlo, hhi, fun d hd => Word.goesOn_iff.1 (hall d hd)⟩

theorem isPrintable_or {w : List Char} {t : Token} (h : Says w t) :
    t.IsPrintable ∨ t = .number .infinity := by
  obtain ⟨x, xs, rfl⟩ := List.exists_cons_of_ne_nil h.ne_nil
  by_cases hs : x = ';'
  · subst hs
    obtain rfl := Except.ok.inj h.means
    exact .inl List.mem_cons_self
  by_cases hq : x = '"'
  · subst hq
    exact .inl h.isPrintable_of_quote
  exact h.isPrintable_or_of_word hs hq

end Lexeme.Says

theorem Binary64.not_isFinite_infinity : ¬ infinity.IsFinite :=
  Nat.lt_irrefl infinite

theorem Scanner.isPrintable_or_of_next {s : Scanner} {t : Token} {p : Span}
    (h : s.next.1 = .ok (some ⟨t, p⟩)) : t.IsPrintable ∨ t = .number .infinity := by
  by_cases ha : s.cursor.rest.dropWhile isBlank = []
  · rw [(next_of_blank ha).1] at h
    cases h
  · have hs := Split.of_dropWhile ha
    have hm := Lexeme.located_eq_ok_iff.1 ⟨p, (takes_of_split hs).result.symm.trans h⟩
    exact (Says.of_split hs hm).isPrintable_or

theorem exists_tokensOf_eq_infinity : ∃ source, tokensOf source = .ok [.number .infinity] := by
  let w := '1' :: List.replicate 309 '0'
  have hdigits : ∀ c ∈ w, c.isDigit = true :=
    List.forall_mem_cons.2 ⟨by decide, fun c hc => Decimal.isDigit_of_mem_replicate hc⟩
  have hread : Word.number? w = some .infinity := by decide +kernel
  exact ⟨String.ofList w,
    Word.tokensOf_of_isPlain ⟨w, [], .integer ⟨List.cons_ne_nil _ _, hdigits⟩⟩ hread⟩

/-- Printable tokens are read back from their spellings. They are all that any source gives, but for
the infinite number, and that is spelled like a name. -/
theorem tokensOf_spellings :
    (∀ ts : List Token, (∀ t ∈ ts, t.IsPrintable) →
      tokensOf (" ".intercalate (ts.map Token.spelling)) = .ok ts) ∧
    (∀ (s : Scanner) (t : Token) (p : Span), s.next.1 = .ok (some ⟨t, p⟩) →
      t.IsPrintable ∨ t = .number .infinity) ∧
    (∃ source, tokensOf source = .ok [.number .infinity]) ∧
    ¬ (Token.number .infinity).IsPrintable ∧
    (Token.number .infinity).spelling = "inf" ∧ tokensOf "inf" = .ok [.name "inf"] := by
  refine ⟨fun ts h => ?_, fun s t p h => Scanner.isPrintable_or_of_next h,
    exists_tokensOf_eq_infinity, fun h => Binary64.not_isFinite_infinity h.1, by decide +kernel,
    by decide +kernel⟩
  obtain ⟨us, rfl, hlex⟩ := Token.exists_lexes_spellings h 0
  exact tokensOf_of_lexes hlex

theorem tokensOf_spellings_mixed :
    let ts : List Token := [.stringLiteral "a;\n", .name "x\"é", .number ⟨0x7FEFFFFFFFFFFFFF⟩,
      .number ⟨0x3FB999999999999A⟩, .symbol ';', .number ⟨1⟩, .symbol '-']
    (∀ t ∈ ts, t.IsPrintable) ∧
      tokensOf (" ".intercalate (ts.map Token.spelling)) = .ok ts ∧
      (Scanner.start " 1").next.1 = .ok (some ⟨.number ⟨0x3FF0000000000000⟩, ⟨1, 2⟩⟩) ∧
      ((Token.number ⟨0x3FF0000000000000⟩).IsPrintable ∨
        Token.number ⟨0x3FF0000000000000⟩ = .number .infinity) := by
  intro ts
  have hprintable : ∀ t ∈ ts, t.IsPrintable := by
    have hname : (Token.name "x\"é").IsPrintable :=
      ⟨'x', ['"', 'é'], by decide, by decide, by decide,
        List.forall_mem_cons.2 ⟨by decide, List.forall_mem_singleton.2 (by decide)⟩⟩
    simp only [ts, List.forall_mem_cons, Token.IsPrintable, Binary64.IsFinite]
    refine ⟨by decide, hname, by decide, by decide, by decide, by decide, by decide, nofun⟩
  have hnext : (Scanner.start " 1").next.1 =
      .ok (some ⟨.number ⟨0x3FF0000000000000⟩, ⟨1, 2⟩⟩) := by decide +kernel
  exact ⟨hprintable, tokensOf_spellings.1 ts hprintable, hnext,
    tokensOf_spellings.2.1 _ _ _ hnext⟩

end TokenScan
