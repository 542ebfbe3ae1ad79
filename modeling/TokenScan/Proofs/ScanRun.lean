import TokenScan.Proofs.ScanStep
import TokenScan.Proofs.WordClass

namespace TokenScan

open Text (byteLength isBlank)

def spanOf : Except ScanError LocatedToken → Span
  | .ok t => t.span
  | .error e => e.span

@[simp] theorem spanOf_located (p : Span) (r : Except Fault Token) :
    spanOf (Lexeme.located p r) = p := by
  cases r <;> rfl

/-- The results `rs` of the text `cs` that starts at byte `n`. -/
inductive Lexes : Nat → List Char → List (Except ScanError LocatedToken) → Prop
  | blank {n : Nat} {cs : List Char} (h : ∀ c ∈ cs, isBlank c = true) : Lexes n cs []
  | lexeme {n : Nat} {cs gap text rest : List Char} {rs : List (Except ScanError LocatedToken)}
      (h : Split cs gap text rest) (more : Lexes (n + byteLength gap + byteLength text) rest rs) :
      Lexes n cs (Lexeme.located
        (.clamp (n + byteLength gap) (n + byteLength gap + byteLength text))
        (Lexeme.meaning text) :: rs)

namespace Scanner

/-- The results of all steps up to the end, past every fault. -/
def results (s : Scanner) : List (Except ScanError LocatedToken) :=
  match h : s.next with
  | (.ok none, _) => []
  | (.ok (some t), s') =>
    have := left_lt_of_next h nofun
    .ok t :: results s'
  | (.error e, s') =>
    have := left_lt_of_next h nofun
    .error e :: results s'
termination_by s.left

theorem results_of_end {s : Scanner} (h : s.next.1 = .ok none) : s.results = [] := by
  rw [results]
  split
  next => rfl
  next hn => rw [hn] at h; cases h
  next hn => rw [hn] at h; cases h

theorem results_of_next {s : Scanner} {r : Except ScanError LocatedToken}
    (h : s.next.1 = r.map some) : s.results = r :: s.next.2.results := by
  rw [results]
  split
  next hn => rw [hn] at h; cases r <;> cases h
  next t s' hn =>
    rw [show s.next.2 = s' from congrArg Prod.snd hn]
    rw [hn] at h
    cases r <;> cases h
    rfl
  next e s' hn =>
    rw [show s.next.2 = s' from congrArg Prod.snd hn]
    rw [hn] at h
    cases r <;> cases h
    rfl

/-- A step gives the first of the results, or the end where there is none. -/
theorem next_fst (s : Scanner) : s.next.1 = s.results.head?.elim (.ok none) (·.map some) := by
  by_cases h : s.cursor.rest.dropWhile isBlank = []
  · have hn := (next_of_blank h).1
    rw [results_of_end hn, hn]
    rfl
  · have hr := (takes_of_split (.of_dropWhile h)).result
    rw [results_of_next hr, hr]
    rfl

theorem results_next (s : Scanner) : s.next.2.results = s.results.tail := by
  by_cases h : s.cursor.rest.dropWhile isBlank = []
  · obtain ⟨hn, hc⟩ := next_of_blank h
    have hrest : s.next.2.cursor.rest = [] := by rw [hc, Cursor.rest_skipWhile, h]
    have hend : s.next.2.next.1 = .ok none := (next_of_blank (by rw [hrest]; rfl)).1
    rw [results_of_end hn, results_of_end hend]
    rfl
  · rw [results_of_next (takes_of_split (.of_dropWhile h)).result]
    rfl

theorem lexes_results (s : Scanner) : Lexes s.pos s.cursor.rest s.results := by
  by_cases h : s.cursor.rest.dropWhile isBlank = []
  · rw [results_of_end (next_of_blank h).1]
    exact .blank (List.dropWhile_eq_nil_iff.1 h)
  · have hs := Split.of_dropWhile h
    have ht := takes_of_split hs
    -- the recursion is on the characters left, and a step that gives a result leaves fewer
    have hlt : s.next.2.left < s.left := by
      apply left_next_lt
      rw [ht.result]
      cases Lexeme.meaning _ <;> nofun
    have hmore := lexes_results s.next.2
    rw [ht.pos, ht.rest] at hmore
    rw [results_of_next ht.result]
    exact .lexeme hs hmore
termination_by s.left

end Scanner

theorem results_of_leading {w : List Char} (hb : ∃ c ∈ w.head?, isBlank c = false)
    (h : Lexeme.leading w = w) :
    ∃ p, (Scanner.start (String.ofList w)).results = [Lexeme.located p (Lexeme.meaning w)] := by
  have hs : Split (Scanner.start (String.ofList w)).cursor.rest [] w [] :=
    ⟨by simp [Scanner.start, Cursor.start], nofun, hb, by rw [List.append_nil, h]⟩
  have ht := Scanner.takes_of_split hs
  have hend : (Scanner.start (String.ofList w)).next.2.results = [] :=
    Scanner.results_of_end (Scanner.next_of_blank (by rw [ht.rest]; rfl)).1
  exact ⟨_, by rw [Scanner.results_of_next ht.result, hend]⟩

/-- `text`, which the rest `after` follows, is what the result says. -/
def Spells (text after : List Char) : Except ScanError LocatedToken → Prop
  | .ok ⟨.symbol c, _⟩ => text = [c]
  | .ok ⟨.stringLiteral t, _⟩ => text = '"' :: (t.toList ++ ['"'])
  | .ok ⟨.number x, _⟩ => Word.number? text = some x
  | .ok ⟨.name t, _⟩ => text = t.toList
  | .error ⟨.invalidWord w, _⟩ => text = w.toList
  | .error ⟨.unterminatedString, _⟩ => text.head? = some '"' ∧ after = []
  | .error ⟨.unexpectedEnd, _⟩ => False

namespace Lexeme

theorem rest_eq_nil_of_open {xs rest : List Char}
    (h : leading ('"' :: xs ++ rest) = '"' :: xs) (hl : xs.getLast? ≠ some '"') : rest = [] := by
  rw [List.cons_append] at h
  by_cases hm : '"' ∈ xs ++ rest
  · obtain ⟨a, b, hab, ha⟩ := List.eq_append_cons_of_mem hm
    rw [hab, leading_of_closed ha] at h
    obtain rfl := List.tail_eq_of_cons_eq h
    exact absurd (List.getLast?_concat) hl
  · rw [leading_of_open hm] at h
    exact List.append_right_eq_self.1 (List.tail_eq_of_cons_eq h)

theorem spells_meaning {text rest : List Char} (h : leading (text ++ rest) = text)
    (hne : text ≠ []) (p : Span) : Spells text rest (located p (meaning text)) := by
  obtain ⟨x, xs, rfl⟩ := List.exists_cons_of_ne_nil hne
  by_cases hs : x = ';'
  · subst hs
    exact h.symm
  by_cases hq : x = '"'
  · subst hq
    rw [meaning_of_quote]
    split_ifs with hl
    · obtain ⟨ys, rfl⟩ := List.getLast?_eq_some_iff.1 hl
      simp [located, Spells]
    · exact ⟨rfl, rest_eq_nil_of_open h hl⟩
  rw [meaning_of_word hs hq]
  split
  next t ht =>
    obtain ⟨v, rfl, hv⟩ | ⟨c, rfl, -, hc⟩ | ⟨n, rfl, -, -, hn⟩ := Word.classify?_eq_some ht
    · exact hv
    · exact (Word.symbol?_eq_some_iff.1 hc).1
    · obtain ⟨rfl, -⟩ := Word.name?_eq_some_iff.1 hn
      exact String.toList_ofList.symm
  next => exact String.toList_ofList.symm

end Lexeme

namespace Split

variable {cs gap text rest : List Char} (h : Split cs gap text rest)
include h

theorem byteLength_eq : byteLength cs = byteLength gap + byteLength text + byteLength rest := by
  rw [h.eq, Text.byteLength_append, Text.byteLength_append, Nat.add_assoc]

theorem text_ne_nil : text ≠ [] := by
  obtain ⟨c, hc, -⟩ := h.solid
  exact List.ne_nil_of_mem (List.mem_of_mem_head? hc)

theorem clamp_eq {n : Nat} (hn : n + byteLength cs ≤ maxOffset) :
    Span.clamp (n + byteLength gap) (n + byteLength gap + byteLength text) =
      ⟨n + byteLength gap, n + byteLength gap + byteLength text⟩ := by
  rw [h.byteLength_eq] at hn
  exact Span.clamp_eq (by omega) (by omega)

end Split

/-- The stretches from `n` to `stop` between the spans and those that they cover, in order. -/
def tiles (n stop : Nat) : List Span → List Span
  | [] => [⟨n, stop⟩]
  | p :: ps => ⟨n, p.start⟩ :: p :: tiles p.stop stop ps

namespace Lexes

variable {n : Nat} {cs : List Char} {rs : List (Except ScanError LocatedToken)}

/-- Each result is that of one lexeme of the text, at the place of that lexeme. -/
theorem exists_lexeme (h : Lexes n cs rs) (hn : n + byteLength cs ≤ maxOffset) :
    ∀ r ∈ rs, ∃ a text b, cs = a ++ (text ++ b) ∧ Split (text ++ b) [] text b ∧
      r = Lexeme.located ⟨n + byteLength a, n + byteLength a + byteLength text⟩
        (Lexeme.meaning text) := by
  induction h with
  | blank => nofun
  | @lexeme n cs gap text rest rs hs _ ih =>
    intro r hr
    obtain rfl | hr := List.mem_cons.1 hr
    · exact ⟨gap, text, rest, hs.eq, ⟨rfl, nofun, hs.solid, hs.leads⟩, by rw [hs.clamp_eq hn]⟩
    · rw [hs.byteLength_eq] at hn
      obtain ⟨a, t, b, rfl, hsplit, rfl⟩ := ih (by omega) r hr
      exact ⟨gap ++ text ++ a, t, b, by simp [hs.eq], hsplit, by simp [Nat.add_assoc]⟩

theorem exists_text (h : Lexes n cs rs) (hn : n + byteLength cs ≤ maxOffset) :
    ∀ r ∈ rs, ∃ a text b, cs = a ++ (text ++ b) ∧
      spanOf r = ⟨n + byteLength a, n + byteLength a + byteLength text⟩ ∧
      (∃ c ∈ text.head?, isBlank c = false) ∧ Spells text b r := by
  intro r hr
  obtain ⟨a, text, b, hcs, hs, rfl⟩ := h.exists_lexeme hn r hr
  exact ⟨a, text, b, hcs, spanOf_located _ _, hs.solid,
    Lexeme.spells_meaning hs.leads hs.text_ne_nil _⟩

theorem pairwise (h : Lexes n cs rs) (hn : n + byteLength cs ≤ maxOffset) :
    (rs.map spanOf).Pairwise fun p q => p.stop ≤ q.start := by
  induction h with
  | blank => exact .nil
  | @lexeme n cs gap text rest rs hs hmore ih =>
    have hrest : n + byteLength gap + byteLength text + byteLength rest ≤ maxOffset := by
      rw [hs.byteLength_eq] at hn
      omega
    refine List.pairwise_cons.2 ⟨?_, ih hrest⟩
    intro q hq
    obtain ⟨r, hr, rfl⟩ := List.mem_map.1 hq
    obtain ⟨a, t, b, -, hp, -⟩ := hmore.exists_text hrest r hr
    rw [spanOf_located, hs.clamp_eq hn, hp]
    exact Nat.le_add_right _ _

theorem isBlank_of_outside (h : Lexes n cs rs) (hn : n + byteLength cs ≤ maxOffset)
    {a b : List Char} {c : Char} (hc : a ++ c :: b = cs)
    (hout : ∀ r ∈ rs, (spanOf r).contains (n + byteLength a) = false) : isBlank c = true := by
  induction h generalizing a with
  | blank hb => exact hb c (by simp [← hc])
  | @lexeme n cs gap text rest rs hs _ ih =>
    obtain ⟨hhead, hmore⟩ := List.forall_mem_cons.1 hout
    rw [spanOf_located, hs.clamp_eq hn] at hhead
    -- `c` is in the gap, in the text that the first span covers, or behind both
    obtain ⟨t, rfl, -⟩ | ⟨a', rfl, hc'⟩ := Text.append_cons_eq_append (hc.trans hs.eq)
    · exact hs.blank c (by simp)
    obtain ⟨t, rfl, -⟩ | ⟨a'', rfl, hc''⟩ := Text.append_cons_eq_append hc'.symm
    · have := c.utf8Size_pos
      simp only [Span.contains, Text.byteLength_append, Text.byteLength_cons, Bool.and_eq_false_iff,
        decide_eq_false_iff_not] at hhead
      omega
    · rw [hs.byteLength_eq] at hn
      refine ih (by omega) hc''.symm fun r hr => ?_
      simpa [Nat.add_assoc] using hmore r hr

theorem exists_pieces (h : Lexes n cs rs) (hn : n + byteLength cs ≤ maxOffset)
    {full : List Char} (before : List Char) (hfull : full = before ++ cs)
    (hbefore : byteLength before = n) :
    ∃ pieces, (tiles n (n + byteLength cs) (rs.map spanOf)).mapM
      (fun p => Text.slice? full p.start p.stop) = some pieces ∧ pieces.flatten = cs := by
  induction h generalizing before with
  | @blank n cs _ =>
    have hslice : Text.slice? full n (n + byteLength cs) = some cs :=
      Text.slice?_eq_some_iff.2 ⟨before, [], by simpa using hfull, hbefore, by rw [hbefore]⟩
    exact ⟨[cs], by simp [tiles, hslice], by simp⟩
  | @lexeme n cs gap text rest rs hs _ ih =>
    have hlen := hs.byteLength_eq
    have hgap : Text.slice? full n (n + byteLength gap) = some gap :=
      Text.slice?_eq_some_iff.2 ⟨before, text ++ rest, by simp [hfull, hs.eq], hbefore,
        by rw [hbefore]⟩
    have htext : Text.slice? full (n + byteLength gap) (n + byteLength gap + byteLength text) =
        some text :=
      Text.slice?_eq_some_iff.2 ⟨before ++ gap, rest, by simp [hfull, hs.eq], by simp [hbefore],
        by simp [hbefore]⟩
    obtain ⟨pieces, hp, hflat⟩ := ih (by omega) (before ++ gap ++ text)
      (by simp [hfull, hs.eq]) (by simp [hbefore, Nat.add_assoc])
    refine ⟨gap :: text :: pieces, ?_, by rw [List.flatten_cons, List.flatten_cons, hflat, hs.eq]⟩
    rw [List.map_cons, spanOf_located, hs.clamp_eq hn, tiles, List.mapM_cons, hgap,
      List.mapM_cons, htext]
    dsimp only
    rw [hlen, ← Nat.add_assoc, ← Nat.add_assoc, hp]
    rfl

end Lexes

/-- A scan loses nothing. Its results lie over texts that they say, one after another; around them
there is only white space, and with it the texts are the source. -/
theorem results_lossless (source : String) (hsize : source.utf8ByteSize ≤ maxOffset) :
    let rs := (Scanner.start source).results
    let cs := source.toList
    (∀ r ∈ rs, (spanOf r).start < (spanOf r).stop ∧
      ∃ text after, Text.slice? cs (spanOf r).start (spanOf r).stop = some text ∧
        Text.slice? cs (spanOf r).stop source.utf8ByteSize = some after ∧
        (∃ c ∈ text.head?, isBlank c = false) ∧ Spells text after r) ∧
    (rs.map spanOf).Pairwise (fun p q => p.stop ≤ q.start) ∧
    (∀ a c b, cs = a ++ c :: b → (∀ r ∈ rs, (spanOf r).contains (byteLength a) = false) →
      isBlank c = true) ∧
    ∃ pieces, (tiles 0 source.utf8ByteSize (rs.map spanOf)).mapM
      (fun p => Text.slice? cs p.start p.stop) = some pieces ∧ pieces.flatten = cs := by
  intro rs cs
  have hlen : byteLength cs = source.utf8ByteSize := Text.byteLength_toList source
  have hlex : Lexes 0 cs rs := (Scanner.start source).lexes_results
  have hn : 0 + byteLength cs ≤ maxOffset := by omega
  refine ⟨fun r hr => ?_, hlex.pairwise hn, fun a c b hc hout => ?_, ?_⟩
  · obtain ⟨a, text, b, hcs, hp, hsolid, hspell⟩ := hlex.exists_text hn r hr
    have hne : byteLength text ≠ 0 := by
      obtain ⟨c, hc, -⟩ := hsolid
      rw [Ne, Text.byteLength_eq_zero]
      exact List.ne_nil_of_mem (List.mem_of_mem_head? hc)
    have htot : byteLength a + byteLength text + byteLength b = source.utf8ByteSize := by
      rw [← hlen, hcs, Text.byteLength_append, Text.byteLength_append, Nat.add_assoc]
    rw [hp, Nat.zero_add]
    refine ⟨by dsimp only; omega, text, b, ?_, ?_, hsolid, hspell⟩
    · exact Text.slice?_eq_some_iff.2 ⟨a, b, by rw [hcs, List.append_assoc], rfl, rfl⟩
    · exact Text.slice?_eq_some_iff.2 ⟨a ++ text, [], by simp [hcs], by simp, by simp [htot]⟩
  · exact hlex.isBlank_of_outside hn hc.symm (by simpa using hout)
  · have := hlex.exists_pieces hn [] (List.nil_append cs).symm rfl
    rwa [Nat.zero_add, hlen] at this

theorem results_lossless_past_fault :
    let source := "a #é \"b"
    let r : Except ScanError LocatedToken := .error ⟨.invalidWord "#é", ⟨2, 5⟩⟩
    source.utf8ByteSize ≤ maxOffset ∧ r ∈ (Scanner.start source).results ∧
      ∃ text after, Text.slice? source.toList 2 5 = some text ∧
        Text.slice? source.toList 5 source.utf8ByteSize = some after ∧
        (∃ c ∈ text.head?, isBlank c = false) ∧ Spells text after r := by
  intro source r
  have hr : r ∈ (Scanner.start source).results := by decide +kernel
  exact ⟨by decide, hr, ((results_lossless source (by decide)).1 r hr).2⟩

end TokenScan
