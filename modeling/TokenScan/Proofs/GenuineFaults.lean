import TokenScan.Proofs.FaultPlace
import TokenScan.Proofs.MixedSteps

namespace TokenScan

open Text (byteLength isBlank)

namespace Lexeme

theorem meaning_eq_unterminated_iff (cs : List Char) :
    meaning (leading cs) = .error .unterminatedString ↔ ∃ body, cs = '"' :: body ∧ '"' ∉ body := by
  cases cs with
  | nil =>
    constructor
    · nofun
    · rintro ⟨body, h, -⟩
      cases h
  | cons x xs =>
    by_cases hq : x = '"'
    · subst hq
      by_cases hm : '"' ∈ xs
      · obtain ⟨a, b, rfl, ha⟩ := List.eq_append_cons_of_mem hm
        rw [leading_of_closed ha, meaning_of_quote, if_pos List.getLast?_concat]
        constructor
        · nofun
        · rintro ⟨body, h, hbody⟩
          obtain rfl := List.tail_eq_of_cons_eq h
          exact absurd hm hbody
      · have hlast : xs.getLast? ≠ some '"' := fun hl => hm (List.mem_of_getLast? hl)
        rw [leading_of_open hm, meaning_of_quote, if_neg hlast]
        exact ⟨fun _ => ⟨xs, rfl, hm⟩, fun _ => rfl⟩
    · have hne : meaning (leading (x :: xs)) ≠ .error .unterminatedString := by
        by_cases hs : x = ';'
        · subst hs
          nofun
        · obtain ⟨w, hw⟩ := Word.leading_cons x xs
          rw [leading_of_word hs hq, hw, meaning_of_word hs hq]
          split <;> nofun
      constructor
      · exact fun h => absurd h hne
      · rintro ⟨body, h, -⟩
        exact absurd (List.head_eq_of_cons_eq h) hq

end Lexeme

theorem Word.ne_semicolon_of_leading {x : Char} {xs : List Char} (hx : x ≠ ';') :
    ∀ c ∈ leading (x :: xs), c ≠ ';' := by
  apply forall_mem_leading (· ≠ ';') hx
  · exact fun _ hc => (ne_of_isNumeral hc).1
  · intro c hc he
    exact (goesOn_iff.1 hc).2.1 (he ▸ List.mem_cons_self)

/-- The error in a reply. -/
def Reply.error? : Reply → Option ScanError
  | .token (.error e) | .located (.error e) | .tokens (.error e) => some e
  | _ => none

namespace Scanner

theorem mem_results_of_nextToken {s : Scanner} {e : ScanError}
    (h : (Reply.token s.nextToken.1).error? = some e) : .error e ∈ s.results := by
  have hfst := s.next_fst
  rw [nextToken, hfst] at h
  rcases hr : s.results.head? with _ | e' | t <;> rw [hr] at h
  · cases h
  · cases h
    exact List.mem_of_mem_head? hr
  · cases h

theorem mem_results_of_verdict {s : Scanner} {f : List LocatedToken → List Token} {e : ScanError}
    (h : (Reply.tokens (Scan.verdict f (Scan.ofResults s.results))).error? = some e) :
    .error e ∈ s.results := by
  apply Scan.mem_of_error
  unfold Scan.verdict at h
  split at h
  · cases h
  next e' he =>
    cases h
    exact he

theorem mem_results_of_error? {q : Request} {s : Scanner} {e : ScanError}
    (h : (serve q s).1.error? = some e) : .error e ∈ s.results := by
  cases q with
  | token => exact mem_results_of_nextToken h
  | located =>
    change (Reply.located s.next.1).error? = some e at h
    apply mem_results_of_nextToken
    rw [← h, nextToken]
    rcases s.next.1 with e | _ | t <;> rfl
  | sourceToken => exact mem_results_of_nextToken h
  | pull =>
    cases hs : s.stopped with
    | true =>
      rw [serve_pull_of_stopped hs] at h
      cases h
    | false =>
      rw [(serve_pull_of_running hs).1] at h
      exact mem_results_of_nextToken h
  | readAll =>
    change (Reply.tokens (TokenSource.readOnto #[] s).1).error? = some e at h
    rw [readOnto_fst] at h
    exact mem_results_of_verdict h
  | collect =>
    change (Reply.tokens (collectOnto #[] s).1).error? = some e at h
    cases hs : s.stopped with
    | true =>
      rw [collectOnto_of_stopped #[] hs] at h
      cases h
    | false =>
      rw [collectOnto_fst #[] s hs] at h
      exact mem_results_of_verdict h
  | source => cases h

theorem genuine_of_mem_results {s : Scanner} (hsize : s.source.utf8ByteSize ≤ maxOffset)
    {e : ScanError} (h : .error e ∈ s.results) :
    e.fault ≠ .unexpectedEnd ∧ e.fault.isDefect = false ∧ e.fault.advice?.isSome = true := by
  have hn : s.pos + byteLength s.cursor.rest ≤ maxOffset :=
    s.cursor.pos_add_byteLength_rest.trans_le hsize
  obtain ⟨a, text, b, -, -, -, hspell⟩ := s.lexes_results.exists_text hn _ h
  obtain ⟨fault, p⟩ := e
  cases fault with
  | unterminatedString => exact ⟨nofun, rfl, rfl⟩
  | invalidWord w => exact ⟨nofun, rfl, rfl⟩
  | unexpectedEnd => exact hspell.elim

/-- A step that meets a fault takes the lexeme of that fault. -/
theorem exists_split_of_error {s : Scanner} (hsize : s.source.utf8ByteSize ≤ maxOffset) {f : Fault}
    {p : Span} (h : s.next.1 = .error ⟨f, p⟩) :
    ∃ gap text rest, Split s.cursor.rest gap text rest ∧ s.Takes gap text rest ∧
      Lexeme.meaning text = .error f ∧
      p = ⟨s.pos + byteLength gap, s.pos + byteLength gap + byteLength text⟩ := by
  obtain hb | ⟨gap, text, rest, hs⟩ := Split.blank_or_exists s.cursor.rest
  · rw [(next_of_blank hb).1] at h
    cases h
  · have ht := takes_of_split hs
    have hn : s.pos + byteLength s.cursor.rest ≤ maxOffset :=
      s.cursor.pos_add_byteLength_rest.trans_le hsize
    have hresult := ht.result
    rw [hs.clamp_eq hn, h] at hresult
    refine ⟨gap, text, rest, hs, ht, Lexeme.located_eq_error_iff.1 ⟨p, hresult.symm⟩, ?_⟩
    cases hm : Lexeme.meaning text with
    | ok t =>
      rw [hm] at hresult
      cases hresult
    | error f' =>
      rw [hm] at hresult
      cases hresult
      rfl

theorem next_eq_unterminated_iff (s : Scanner) :
    (∃ p, s.next.1 = .error ⟨.unterminatedString, p⟩) ↔
      ∃ body, s.cursor.rest.dropWhile isBlank = '"' :: body ∧ '"' ∉ body := by
  obtain hb | ⟨gap, text, rest, hs⟩ := Split.blank_or_exists s.cursor.rest
  · rw [(next_of_blank hb).1, hb]
    constructor
    · nofun
    · rintro ⟨body, h, -⟩
      cases h
  · rw [(takes_of_split hs).result, Lexeme.located_eq_error_iff, hs.run.2,
      ← Lexeme.meaning_eq_unterminated_iff, hs.leads]

theorem unterminated_spec {s : Scanner} (hsize : s.source.utf8ByteSize ≤ maxOffset) {p : Span}
    (h : s.next.1 = .error ⟨.unterminatedString, p⟩) :
    p = ⟨s.pos + byteLength (s.cursor.rest.takeWhile isBlank), s.source.utf8ByteSize⟩ ∧
      s.next.2.pos = s.source.utf8ByteSize ∧ s.next.2.cursor.rest = [] := by
  obtain ⟨gap, text, rest, hs, ht, hm, rfl⟩ := exists_split_of_error hsize h
  -- no quote closes the lexeme, so it is all that is ahead
  have hnil : rest = [] := by
    have hlead := hs.leads
    rw [← hlead, Lexeme.meaning_eq_unterminated_iff] at hm
    obtain ⟨body, hbody, hquote⟩ := hm
    rw [hbody, Lexeme.leading_of_open hquote, ← hbody] at hlead
    exact List.append_right_eq_self.1 hlead
  have hstop : s.pos + byteLength gap + byteLength text = s.source.utf8ByteSize := by
    have hlen := s.cursor.pos_add_byteLength_rest
    rw [hs.byteLength_eq, hnil, Text.byteLength_nil] at hlen
    rw [Nat.add_assoc]
    exact hlen
  rw [hs.run.1, ht.pos, hstop, ht.rest]
  exact ⟨rfl, rfl, hnil⟩

/-- What an error for the word `w` over the span `p` says of the source, and of the scanner `s`
behind it. -/
structure Rejects (source w : String) (p : Span) (s : Scanner) : Prop where
  nonempty : w ≠ ""
  text : Text.slice? source.toList p.start p.stop = some w.toList
  solid : ∀ c ∈ w.toList, isBlank c = false ∧ c ≠ ';'
  number : Word.number? w.toList = none
  symbol : Word.symbol? w.toList = none
  name : Word.name? w.toList = none
  pos : s.pos = p.stop
  ahead : Text.slice? source.toList p.stop source.utf8ByteSize = some s.cursor.rest
  boundary : ∀ c ∈ s.cursor.rest.head?,
    isBlank c = true ∨ c = ';' ∨ isWordSymbol c = true ∨ c.isDigit = true
  /-- Steps other than pulls give one after another what the rest of the source holds. -/
  goesOn : ∀ qs : List Request, (∀ q ∈ qs, q.isStep = true ∧ q ≠ .pull) →
    given qs s = (((start (String.ofList s.cursor.rest)).results.map (shiftResult p.stop)).map
      (·.map LocatedToken.token)).take qs.length

/-- A word is over where the source is, or before a character that can end a word. -/
theorem boundary_of_invalidWord {text rest : List Char} {w : String}
    (hleads : Lexeme.leading (text ++ rest) = text)
    (hm : Lexeme.meaning text = .error (.invalidWord w)) :
    ∀ c ∈ rest.head?, isBlank c = true ∨ c = ';' ∨ isWordSymbol c = true ∨ c.isDigit = true := by
  obtain ⟨x, xs, rfl, hs, hq, -⟩ := Lexeme.exists_of_invalidWord hm
  intro c hc
  have hover := ((Lexeme.leading_append_eq_iff (List.cons_ne_nil x xs)).1 hleads).2 c hc
  rw [Lexeme.isOverBefore, if_neg hs, if_neg hq, Word.endsAt] at hover
  simp only [Bool.or_eq_true, Bool.and_eq_true, decide_eq_true_eq] at hover
  tauto

theorem rejects_of_next {s : Scanner} (hsize : s.source.utf8ByteSize ≤ maxOffset) {w : String}
    {p : Span} (h : s.next.1 = .error ⟨.invalidWord w, p⟩) : Rejects s.source w p s.next.2 := by
  obtain ⟨gap, text, rest, hs, ht, hm, rfl⟩ := exists_split_of_error hsize h
  have hsplit : Split (text ++ rest) [] text rest := ⟨rfl, nofun, hs.solid, hs.leads⟩
  have hblank := Lexeme.not_blank_of_invalidWord hsplit hm
  have hlead := Lexeme.leading_of_invalidWord hsplit hm
  obtain ⟨x, xs, htext, hsemicolon, -, rfl, hnone⟩ := Lexeme.exists_of_invalidWord hm
  obtain ⟨hnumber, hsymbol, hname⟩ := Word.of_classify?_eq_none hnone
  have hrest : Text.slice? s.source.toList (s.pos + byteLength gap + byteLength text)
      s.source.utf8ByteSize = some s.next.2.cursor.rest := by
    rw [← ht.pos, ← ht.source]
    exact s.next.2.slice?_rest
  constructor
  · intro he
    rw [String.ofList_eq_empty_iff, htext] at he
    cases he
  · rw [String.toList_ofList]
    exact Cursor.slice?_of_rest hs.eq
  · rw [String.toList_ofList]
    intro c hc
    refine ⟨hblank c hc, ?_⟩
    rw [← hlead, htext] at hc
    exact Word.ne_semicolon_of_leading hsemicolon c hc
  · rw [String.toList_ofList, hnumber]
  · rw [String.toList_ofList, hsymbol]
  · rw [String.toList_ofList, hname]
  · exact ht.pos
  · exact hrest
  · rw [ht.rest]
    exact boundary_of_invalidWord hs.leads hm
  · intro qs hqs
    rw [given_eq_take hqs, told, s.next.2.results_eq_shift (ht.source ▸ hsize), ht.pos]

/-- Errors are genuine. After any requests, failed ones too, no request meets an unexpected end, and
there is advice for each error. A step finds an open string if and only if a quote is ahead, behind
white space, and no other quote after it; the error reaches from the quote to the end of the source,
where the scan stays. A word is refused only if it is in no class, and the scan goes on behind it. -/
theorem faults_genuine (source : String) (hsize : source.utf8ByteSize ≤ maxOffset)
    (qs : List Request) :
    let s := (start source).after qs
    let ahead := s.cursor.rest.dropWhile isBlank
    let place := s.pos + byteLength (s.cursor.rest.takeWhile isBlank)
    (∀ q e, (serve q s).1.error? = some e →
      e.fault ≠ .unexpectedEnd ∧ e.fault.isDefect = false ∧ e.fault.advice?.isSome = true) ∧
    ((∃ p, s.next.1 = .error ⟨.unterminatedString, p⟩) ↔
      ∃ body, ahead = '"' :: body ∧ '"' ∉ body) ∧
    (∀ p, s.next.1 = .error ⟨.unterminatedString, p⟩ →
      p = ⟨place, source.utf8ByteSize⟩ ∧ s.next.2.pos = source.utf8ByteSize ∧
      ∀ qs', (s.next.2.after qs').next.1 = .ok none ∧ (s.next.2.after qs').nextToken.1 = .ok none) ∧
    ∀ w p, s.next.1 = .error ⟨.invalidWord w, p⟩ → Rejects source w p s.next.2 := by
  intro s ahead place
  have hsource : s.source = source := source_after source qs
  have hsize' : s.source.utf8ByteSize ≤ maxOffset := by rwa [hsource]
  refine ⟨fun q e he => ?_, s.next_eq_unterminated_iff, fun p hp => ?_, fun w p hp => ?_⟩
  · exact genuine_of_mem_results hsize' (mem_results_of_error? he)
  · obtain ⟨hspan, hpos, hrest⟩ := unterminated_spec hsize' hp
    rw [hsource] at hspan hpos
    refine ⟨hspan, hpos, fun qs' => ?_⟩
    have hend : (s.next.2.after qs').next.1 = .ok none := by
      apply (next_of_blank _).1
      rw [rest_after_of_end hrest, List.dropWhile_nil]
    refine ⟨hend, ?_⟩
    rw [nextToken, hend]
    rfl
  · rw [← hsource]
    exact rejects_of_next hsize' hp

theorem faults_genuine_after_fault :
    let source := "#é; \"a"
    let s := start source
    let s' := s.after [.pull, .token]
    source.utf8ByteSize ≤ maxOffset ∧
      s.next.1 = .error ⟨.invalidWord "#é", ⟨0, 3⟩⟩ ∧ Rejects source "#é" ⟨0, 3⟩ s.next.2 ∧
      s'.next.1 = .error ⟨.unterminatedString, ⟨5, 7⟩⟩ ∧ s'.next.2.pos = 7 ∧
      (s'.next.2.after [.collect, .located]).next.1 = .ok none := by
  intro source s s'
  have hsize : source.utf8ByteSize ≤ maxOffset := by decide
  have hword : s.next.1 = .error ⟨.invalidWord "#é", ⟨0, 3⟩⟩ := by decide +kernel
  have hopen : s'.next.1 = .error ⟨.unterminatedString, ⟨5, 7⟩⟩ := by decide +kernel
  obtain ⟨-, -, -, hrejects⟩ := faults_genuine source hsize []
  obtain ⟨-, -, hend, -⟩ := faults_genuine source hsize [.pull, .token]
  obtain ⟨-, hpos, hlater⟩ := hend _ hopen
  exact ⟨hsize, hword, hrejects _ _ hword, hopen, hpos.trans (by decide), (hlater _).1⟩

end Scanner
end TokenScan
