import TokenScan.Lexeme
import TokenScan.Proofs.TextCuts

namespace TokenScan

namespace Word

/-- The characters of a numeric run. -/
def isNumeral (c : Char) : Bool := c.isDigit || c = '.'

/-- What ends every word. -/
def isBoundary (c : Char) : Bool := Text.isBlank c || c = ';' || isWordSymbol c

/-- What goes on with a word that is no numeric run. -/
def goesOn (c : Char) : Bool := !isBoundary c && !c.isDigit

/-- The word that leads a text: its longest numeric run, or else its first character whatever that
is, and then the longest run of what goes on. -/
def leading : List Char → List Char
  | [] => []
  | c :: cs =>
    if isNumeral c then
      (c :: cs).takeWhile isNumeral ++ ((c :: cs).dropWhile isNumeral).takeWhile goesOn
    else c :: cs.takeWhile goesOn

theorem toNat_of_isNumeral {c : Char} (h : isNumeral c = true) : 46 ≤ c.toNat ∧ c.toNat ≤ 57 := by
  rw [isNumeral, Bool.or_eq_true, decide_eq_true_eq] at h
  rcases h with h | rfl
  · have ⟨hlo, hhi⟩ := Char.isDigit_iff_toNat.1 h
    exact ⟨Nat.le_trans (by decide) hlo, Nat.le_trans hhi (by decide)⟩
  · decide

theorem isBlank_of_isNumeral {c : Char} (h : isNumeral c = true) : Text.isBlank c = false := by
  have hc := toNat_of_isNumeral h
  exact Text.isBlank_eq_false (by omega) (by omega)

theorem isBoundary_of_isNumeral {c : Char} (h : isNumeral c = true) : isBoundary c = false := by
  have hc := toNat_of_isNumeral h
  have hb := isBlank_of_isNumeral h
  have hne (d : Char) (hd : d.toNat < 46 ∨ 57 < d.toNat) : c ≠ d := fun h => by subst h; omega
  simp [isBoundary, hb, isWordSymbol, wordSymbols, hne ';', hne '-', hne '=', hne '+']

theorem ne_of_isNumeral {c : Char} (h : isNumeral c = true) : c ≠ ';' ∧ c ≠ '"' := by
  constructor
  · rintro rfl
    cases h
  · rintro rfl
    cases h

theorem goesOn_iff {c : Char} :
    goesOn c = true ↔
      Text.isBlank c = false ∧ c ∉ [';', '-', '=', '+'] ∧ c.isDigit = false := by
  simp [goesOn, isBoundary, isWordSymbol, wordSymbols, and_assoc]

theorem isDigit_eq_false {c : Char} (h : isNumeral c = false) : c.isDigit = false :=
  (Bool.or_eq_false_iff.1 h).1

theorem isNumeric_iff {w : List Char} :
    isNumeric w = true ↔ w ≠ [] ∧ ∀ c ∈ w, isNumeral c = true := by
  simp [isNumeric, isNumeral]

theorem endsAt_of_isNumeric {w : List Char} (h : isNumeric w = true) (c : Char) :
    endsAt w c = isBoundary c := by
  simp [endsAt, isBoundary, h]

theorem endsAt_of_not_isNumeric {w : List Char} (h : isNumeric w = false) (c : Char) :
    endsAt w c = !goesOn c := by
  simp [endsAt, goesOn, isBoundary, h]

theorem grow_of_not_isNumeric {w : List Char} {x : Char} (hx : x ∈ w) (hn : isNumeral x = false)
    (cs : List Char) : (grow w cs).1 = w.reverse ++ cs.takeWhile goesOn := by
  induction cs generalizing w with
  | nil => simp [grow]
  | cons c cs ih =>
    have hw : isNumeric w = false := by
      rw [← Bool.not_eq_true, isNumeric_iff]
      exact fun h => Bool.false_ne_true (hn.symm.trans (h.2 x hx))
    rw [grow, endsAt_of_not_isNumeric hw]
    cases hc : goesOn c with
    | false => simp [hc]
    | true => simp [hc, ih (List.mem_cons_of_mem c hx)]

theorem grow_of_isNumeric {w : List Char} (hw : isNumeric w = true) (cs : List Char) :
    (grow w cs).1 =
      w.reverse ++ (cs.takeWhile isNumeral ++ (cs.dropWhile isNumeral).takeWhile goesOn) := by
  induction cs generalizing w with
  | nil => simp [grow]
  | cons c cs ih =>
    rw [grow, endsAt_of_isNumeric hw]
    cases hn : isNumeral c with
    | true =>
      have hcons : isNumeric (c :: w) = true :=
        isNumeric_iff.2 ⟨List.cons_ne_nil c w, List.forall_mem_cons.2 ⟨hn, (isNumeric_iff.1 hw).2⟩⟩
      simp [isBoundary_of_isNumeral hn, ih hcons, hn]
    | false =>
      -- no digit: `c` ends the word as a boundary, or else the run is over for good
      have hd := isDigit_eq_false hn
      cases hb : isBoundary c with
      | true => simp [hn, goesOn, hb]
      | false => simp [hn, goesOn, hb, hd, grow_of_not_isNumeric List.mem_cons_self hn]

theorem leading_cons (c : Char) (cs : List Char) : ∃ w, leading (c :: cs) = c :: w := by
  rw [leading]
  split
  next h => exact ⟨_, by rw [List.takeWhile_cons_of_pos h, List.cons_append]⟩
  next => exact ⟨_, rfl⟩

/-- A word is a run of numerals or one character, and then what goes on with it. -/
theorem leading_eq_append (c : Char) (cs : List Char) :
    ∃ r t, leading (c :: cs) = r ++ t ∧ ((∀ d ∈ r, isNumeral d = true) ∨ r = [c]) ∧
      ∀ d ∈ t, goesOn d = true := by
  rw [leading]
  split_ifs
  · exact ⟨_, _, rfl, .inl (List.all_eq_true.1 List.all_takeWhile),
      List.all_eq_true.1 List.all_takeWhile⟩
  · exact ⟨[c], _, rfl, .inr rfl, List.all_eq_true.1 List.all_takeWhile⟩

theorem forall_mem_leading (p : Char → Prop) {x : Char} {xs : List Char} (hx : p x)
    (hnumeral : ∀ c, isNumeral c = true → p c) (hgoesOn : ∀ c, goesOn c = true → p c) :
    ∀ c ∈ leading (x :: xs), p c := by
  obtain ⟨r, t, hrt, hr, ht⟩ := leading_eq_append x xs
  intro c hc
  rw [hrt, List.mem_append] at hc
  obtain hc | hc := hc
  · obtain hr | rfl := hr
    · exact hnumeral c (hr c hc)
    · obtain rfl := List.mem_singleton.1 hc
      exact hx
  · exact hgoesOn c (ht c hc)

theorem extent_fst (cs : List Char) : (extent [] cs).1 = leading cs := by
  cases cs with
  | nil => rfl
  | cons c cs =>
    rw [extent, leading, List.reverse_nil]
    cases hn : isNumeral c with
    | true =>
      have hc : isNumeric [c] = true := isNumeric_iff.2 ⟨List.cons_ne_nil c [], by simpa using hn⟩
      simp [grow_of_isNumeric hc, hn]
    | false => simp [grow_of_not_isNumeric List.mem_cons_self hn]

end Word

namespace Lexeme

/-- The lexeme that leads a text: a semicolon, a string from quote to quote or to the end where
there is no second quote, or a word. -/
def leading : List Char → List Char
  | [] => []
  | c :: cs =>
    if c = ';' then [c]
    else if c = '"' then c :: (cs.takeWhile (· != '"') ++ (cs.dropWhile (· != '"')).take 1)
    else Word.leading (c :: cs)

/-- What a whole lexeme stands for. -/
def meaning : List Char → Except Fault Token
  | [] => .error .unexpectedEnd
  | c :: cs =>
    if c = ';' then .ok (.symbol c)
    else if c = '"' then
      if cs.getLast? = some '"' then .ok (.stringLiteral (String.ofList cs.dropLast))
      else .error .unterminatedString
    else
      match Word.classify? (c :: cs) with
      | some t => .ok t
      | none => .error (.invalidWord (String.ofList (c :: cs)))

/-- Reading `text` gives its meaning and stops behind it. -/
structure Reads (c : Cursor) (text : List Char) (x : Lexeme) : Prop where
  result : x.result = meaning text
  source : x.stop.source = c.source
  rest : text ++ x.stop.rest = c.rest

theorem bne_quote {a : List Char} (h : '"' ∉ a) : ∀ c ∈ a, (c != '"') = true :=
  fun _ hc => bne_iff_ne.2 fun he => h (he ▸ hc)

theorem leading_of_closed {a : List Char} (ha : '"' ∉ a) (b : List Char) :
    leading ('"' :: (a ++ '"' :: b)) = '"' :: (a ++ ['"']) := by
  have hrun := Text.takeWhile_append_run (b := '"' :: b) (bne_quote ha) (by simp)
  rw [leading, hrun.1, hrun.2]
  rfl

theorem leading_of_open {cs : List Char} (h : '"' ∉ cs) : leading ('"' :: cs) = '"' :: cs := by
  have hrun := Text.takeWhile_append_run (b := []) (bne_quote h) (by simp)
  rw [List.append_nil] at hrun
  simp [leading, hrun]

theorem meaning_of_quote (xs : List Char) :
    meaning ('"' :: xs) =
      if xs.getLast? = some '"' then .ok (.stringLiteral (String.ofList xs.dropLast))
      else .error .unterminatedString := by
  rw [meaning, if_neg (by decide), if_pos rfl]

theorem quoted_reads {c : Cursor} {cs : List Char} (h : c.rest = '"' :: cs) (scratch : Scratch) :
    Reads c (leading c.rest) (quoted scratch c) := by
  have hb : c.advance.2.rest = cs := by rw [Cursor.rest_advance, h, List.tail_cons]
  -- the search is for the byte of the quote, the closed form for the character
  have hq := c.advance.2.find?_of_lt (d := '"') (x := quoteByte) (by decide) rfl
  rw [hb] at hq
  rw [quoted, hq, h]
  by_cases hm : '"' ∈ cs
  · obtain ⟨a, b, rfl, ha⟩ := List.eq_append_cons_of_mem hm
    have hrun := Text.takeWhile_append_run (b := '"' :: b) (bne_quote ha) (by simp)
    rw [if_pos hm, leading_of_closed ha]
    constructor
    · simp [meaning_of_quote, hrun]
    · simp
    · simp [hb, h, hrun, Cursor.rest_advance]
  · have hlast : cs.getLast? ≠ some '"' := fun hl => hm (List.mem_of_getLast? hl)
    rw [if_neg hm, leading_of_open hm]
    constructor
    · simp [meaning_of_quote, hlast]
    · simp [Cursor.toEnd]
    · simp [h]

theorem leading_of_word {x : Char} (hs : x ≠ ';') (hq : x ≠ '"') (xs : List Char) :
    leading (x :: xs) = Word.leading (x :: xs) := by
  rw [leading, if_neg hs, if_neg hq]

theorem meaning_of_word {x : Char} (hs : x ≠ ';') (hq : x ≠ '"') (xs : List Char) :
    meaning (x :: xs) =
      match Word.classify? (x :: xs) with
      | some t => .ok t
      | none => .error (.invalidWord (String.ofList (x :: xs))) := by
  rw [meaning, if_neg hs, if_neg hq]

theorem word_reads {c : Cursor} {x : Char} {xs : List Char} (h : c.rest = x :: xs) (hs : x ≠ ';')
    (hq : x ≠ '"') (scratch : Scratch) : Reads c (leading c.rest) (word scratch c) := by
  have hl : (Word.extent [] c.rest).1 = leading c.rest := by
    rw [Word.extent_fst, h, leading_of_word hs hq]
  have hm : meaning (leading c.rest) =
      match Word.classify? (Word.extent [] c.rest).1 with
      | some t => .ok t
      | none => .error (.invalidWord (String.ofList (Word.extent [] c.rest).1)) := by
    obtain ⟨w, hw⟩ := Word.leading_cons x xs
    rw [hl, h, leading_of_word hs hq, hw, meaning_of_word hs hq]
  -- the buffer is empty again, so all that it holds in the end is taken from the text
  have hr := Word.extent_append [] c.rest
  simp only [word, Scratch.clear_eq_nil]
  split
  next t ht => exact ⟨by rw [hm, ht], rfl, hl ▸ hr⟩
  next hn => exact ⟨by rw [hm, hn], rfl, hl ▸ hr⟩

theorem semicolon_reads {c : Cursor} {cs : List Char} (h : c.rest = ';' :: cs)
    (scratch : Scratch) : Reads c (leading c.rest) ⟨.ok (.symbol ';'), c.advance.2, scratch⟩ := by
  rw [h]
  exact ⟨rfl, c.source_advance, by rw [Cursor.rest_advance, h]; rfl⟩

theorem read_reads {c : Cursor} (h : c.rest ≠ []) (scratch : Scratch) :
    Reads c (leading c.rest) (read scratch c) := by
  obtain ⟨x, xs, hx⟩ := List.exists_cons_of_ne_nil h
  have hc : c.current = some x := by rw [Cursor.current, hx, List.head?_cons]
  rw [read, hc]
  split
  next he => cases he
  next he =>
    obtain rfl := Option.some.inj he
    exact semicolon_reads hx scratch
  next he =>
    obtain rfl := Option.some.inj he
    exact quoted_reads hx scratch
  next hs hq he =>
    obtain rfl := Option.some.inj he
    exact word_reads hx (fun h => hs (h ▸ rfl)) (fun h => hq (h ▸ rfl)) scratch

end Lexeme
end TokenScan
