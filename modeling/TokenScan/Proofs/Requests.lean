import TokenScan.Proofs.Separators
import TokenScan.Session

namespace TokenScan

open Text (byteLength isBlank)

theorem Split.blank_or_exists (cs : List Char) :
    cs.dropWhile isBlank = [] ∨ ∃ gap text rest, Split cs gap text rest := by
  by_cases h : cs.dropWhile isBlank = []
  · exact .inl h
  · exact .inr ⟨_, _, _, .of_dropWhile h⟩

namespace Scanner

/-- The scanner after the requests `qs`. -/
def after (s : Scanner) (qs : List Request) : Scanner := qs.foldl (fun s q => (serve q s).2) s

theorem serve_pull_snd (s : Scanner) : (serve .pull s).2 = s.pull.2 := by
  rcases h : s.pull with ⟨_ | e | t, s'⟩ <;> simp only [serve, h]

section
variable {P : Scanner → Prop} (hnext : ∀ s : Scanner, P s → P s.next.2)
include hnext

theorem of_readOnto (read : Array Token) {s : Scanner} (h : P s.next.2) :
    P (TokenSource.readOnto read s).2 := by
  fun_induction TokenSource.readOnto read s with
  | case1 read s t s' hn _ ih =>
    apply ih
    apply hnext
    rwa [show s.next.2 = s' from congrArg Prod.snd hn] at h
  | case2 read s s' hn => rwa [show s.next.2 = s' from congrArg Prod.snd hn] at h
  | case3 read s e s' hn => rwa [show s.next.2 = s' from congrArg Prod.snd hn] at h

variable (hstop : ∀ s : Scanner, P s → P { s with stopped := true })
include hstop

theorem of_pull {s : Scanner} (h : P s) : P s.pull.2 := by
  have hs := hnext s h
  unfold pull
  split
  · exact h
  · unfold nextToken
    split
    next hn => rwa [congrArg Prod.snd hn] at hs
    next hn => rwa [congrArg Prod.snd hn] at hs
    next hn =>
      apply hstop
      rwa [congrArg Prod.snd hn] at hs

/-- Collecting is at least one pull. -/
theorem of_collectOnto (read : Array Token) {s : Scanner} (h : P s.pull.2) :
    P (collectOnto read s).2 := by
  fun_induction collectOnto read s with
  | case1 read s t s' hn _ ih =>
    apply ih
    apply of_pull hnext hstop
    rwa [hn] at h
  | case2 read s e s' hn => rwa [hn] at h
  | case3 read s s' hn => rwa [hn] at h

theorem of_serve (q : Request) {s : Scanner} (h : P s) : P (serve q s).2 := by
  cases q with
  | token => exact hnext s h
  | located => exact hnext s h
  | sourceToken => exact hnext s h
  | pull =>
    rw [serve_pull_snd]
    exact of_pull hnext hstop h
  | readAll => exact of_readOnto hnext #[] (hnext s h)
  | collect => exact of_collectOnto hnext hstop #[] (of_pull hnext hstop h)
  | source => exact h

/-- What a step keeps, and the mark of a stopped iteration does not touch, all requests keep. -/
theorem of_after (qs : List Request) {s : Scanner} (h : P s) : P (s.after qs) := by
  induction qs generalizing s with
  | nil => exact h
  | cons q qs ih => exact ih (of_serve hnext hstop q h)

end

/-- `s'` is where `s` is, or further on in the same source. -/
structure Precedes (s s' : Scanner) : Prop where
  source : s'.source = s.source
  rest : s'.cursor.rest <:+ s.cursor.rest

namespace Precedes

variable {s s' s'' : Scanner}

theorem refl (s : Scanner) : s.Precedes s := ⟨rfl, List.suffix_rfl⟩

theorem trans (h : s.Precedes s') (h' : s'.Precedes s'') : s.Precedes s'' :=
  ⟨h'.source.trans h.source, h'.rest.trans h.rest⟩

theorem pos_le (h : s.Precedes s') : s.pos ≤ s'.pos := by
  obtain ⟨t, ht⟩ := h.rest
  have hlen := s.cursor.pos_add_byteLength_rest
  have hlen' := s'.cursor.pos_add_byteLength_rest
  rw [← ht, Text.byteLength_append] at hlen
  have hsource : s'.cursor.length = s.cursor.length := congrArg String.utf8ByteSize h.source
  unfold pos
  omega

end Precedes

theorem precedes_next (s : Scanner) : s.Precedes s.next.2 := by
  obtain h | ⟨gap, text, rest, hs⟩ := Split.blank_or_exists s.cursor.rest
  · have hc := (next_of_blank h).2
    constructor
    · unfold source
      rw [hc, Cursor.source_skipWhile]
    · rw [hc]
      exact List.dropWhile_suffix _
  · have ht := takes_of_split hs
    refine ⟨ht.source, ?_⟩
    rw [ht.rest, hs.eq, ← List.append_assoc]
    exact List.suffix_append _ _

theorem precedes_serve (q : Request) (s : Scanner) : s.Precedes (serve q s).2 :=
  of_serve (fun s' h => h.trans s'.precedes_next) (fun _ h => ⟨h.source, h.rest⟩) q (.refl s)

theorem precedes_after (s : Scanner) (qs : List Request) : s.Precedes (s.after qs) :=
  of_after (fun s' h => h.trans s'.precedes_next) (fun _ h => ⟨h.source, h.rest⟩) qs (.refl s)

theorem source_after (source : String) (qs : List Request) :
    ((start source).after qs).source = source := ((start source).precedes_after qs).source

theorem rest_after_of_end {s : Scanner} (h : s.cursor.rest = []) (qs : List Request) :
    (s.after qs).cursor.rest = [] := by
  apply List.suffix_nil.1
  rw [← h]
  exact (s.precedes_after qs).rest

theorem slice?_rest (s : Scanner) :
    Text.slice? s.source.toList s.pos s.source.utf8ByteSize = some s.cursor.rest := by
  obtain ⟨before, hs, hp⟩ := s.cursor.splits
  refine Text.slice?_eq_some_iff.2 ⟨before, [], ?_, hp, ?_⟩
  · rw [List.append_nil]
    exact hs
  · rw [hp]
    exact s.cursor.pos_add_byteLength_rest

/-- The results are those of a new scanner of the text ahead, moved to the place of this one. -/
theorem results_eq_shift (s : Scanner) (hsize : s.source.utf8ByteSize ≤ maxOffset) :
    s.results = (start (String.ofList s.cursor.rest)).results.map (shiftResult s.pos) := by
  have hfresh := lexes_start (String.ofList s.cursor.rest)
  have hlen := s.cursor.pos_add_byteLength_rest
  have hn : 0 + s.pos + byteLength (String.ofList s.cursor.rest).toList ≤ maxOffset := by
    rw [String.toList_ofList, Nat.zero_add]
    exact hlen.trans_le hsize
  have hshift := hfresh.shift hn
  rw [Nat.zero_add, String.toList_ofList] at hshift
  exact s.lexes_results.unique hshift

theorem results_stopped (s : Scanner) (b : Bool) :
    ({ s with stopped := b } : Scanner).results = s.results :=
  (lexes_results { s with stopped := b }).unique s.lexes_results

/-- What a step gives, `k` bytes further on. -/
def shiftNext (k : Nat) :
    Except ScanError (Option LocatedToken) → Except ScanError (Option LocatedToken)
  | .ok t => .ok (t.map (.shift k))
  | .error e => .error (e.shift k)

theorem next_eq_shift (s : Scanner) (hsize : s.source.utf8ByteSize ≤ maxOffset) :
    s.next.1 = shiftNext s.pos (start (String.ofList s.cursor.rest)).next.1 := by
  rw [next_fst, next_fst, s.results_eq_shift hsize, List.head?_map]
  rcases (start (String.ofList s.cursor.rest)).results.head? with _ | e | t <;> rfl

theorem pos_next_of_blank {s : Scanner} (h : s.cursor.rest.dropWhile isBlank = []) :
    s.next.2.pos = s.pos + byteLength (s.cursor.rest.takeWhile isBlank) :=
  congrArg Cursor.pos (next_of_blank h).2

theorem pos_next_eq_add (s : Scanner) :
    s.next.2.pos = s.pos + (start (String.ofList s.cursor.rest)).next.2.pos := by
  have hrest : (start (String.ofList s.cursor.rest)).cursor.rest = s.cursor.rest :=
    String.toList_ofList
  have hpos : (start (String.ofList s.cursor.rest)).pos = 0 := rfl
  obtain h | ⟨gap, text, rest, hs⟩ := Split.blank_or_exists s.cursor.rest
  · rw [pos_next_of_blank h, pos_next_of_blank (by rwa [hrest]), hrest, hpos, Nat.zero_add]
  · -- both have the same text ahead, so they take the same lexeme
    have hfresh := (takes_of_split (s := start (String.ofList s.cursor.rest)) (hrest ▸ hs)).pos
    rw [(takes_of_split hs).pos, hfresh, hpos]
    omega

/-- A step reads its place alone: not the text of earlier lexemes, not the mark of a stopped iteration,
not the log. -/
theorem next_eq_of_cursor {s s' : Scanner} (h : s'.cursor = s.cursor) :
    s'.next.1 = s.next.1 ∧ s'.next.2.pos = s.next.2.pos := by
  have hpos : s'.pos = s.pos := congrArg Cursor.pos h
  obtain hblank | ⟨gap, text, rest, hs⟩ := Split.blank_or_exists s.cursor.rest
  · have hblank' : s'.cursor.rest.dropWhile isBlank = [] := h ▸ hblank
    rw [(next_of_blank hblank).1, (next_of_blank hblank').1, pos_next_of_blank hblank,
      pos_next_of_blank hblank', hpos, h]
    exact ⟨rfl, rfl⟩
  · have ht := takes_of_split hs
    have ht' := takes_of_split (s := s') (h ▸ hs)
    rw [ht.result, ht'.result, ht.pos, ht'.pos, hpos]
    exact ⟨rfl, rfl⟩

/-- The place is the whole state of a scan. After any requests, failed ones too, a step gives what
it gives to a new scanner of the text ahead, and goes as far; only the places are moved. It would
give the same with any other text left in the buffer, and with the iteration stopped or not. -/
theorem next_restart (source : String) (hsize : source.utf8ByteSize ≤ maxOffset)
    (qs : List Request) :
    let s := (start source).after qs
    (∃ ahead : String, Text.slice? source.toList s.pos source.utf8ByteSize = some ahead.toList ∧
      s.next.1 = shiftNext s.pos (start ahead).next.1 ∧
      s.next.2.pos = s.pos + (start ahead).next.2.pos) ∧
    ∀ (scratch : Scratch) (stopped : Bool),
      let s' := { s with scratch := scratch, stopped := stopped }
      s'.next.1 = s.next.1 ∧ s'.next.2.pos = s.next.2.pos := by
  intro s
  have hsource : s.source = source := source_after source qs
  refine ⟨⟨String.ofList s.cursor.rest, ?_, ?_, s.pos_next_eq_add⟩, fun _ _ => next_eq_of_cursor rfl⟩
  · rw [String.toList_ofList, ← hsource]
    exact s.slice?_rest
  · apply s.next_eq_shift
    rw [hsource]
    exact hsize

/-- The text of a refused word is still in the buffer. -/
theorem next_restart_past_fault :
    let source := "a #é 7;"
    let s := (start source).after [.token, .collect]
    source.utf8ByteSize ≤ maxOffset ∧ s.scratch = ['#', 'é'] ∧ s.stopped = true ∧ s.pos = 5 ∧
      s.next.1 = .ok (some ⟨.number ⟨0x401C000000000000⟩, ⟨6, 7⟩⟩) ∧
      s.next.1 = shiftNext 5 (start " 7;").next.1 ∧ s.next.2.pos = 5 + (start " 7;").next.2.pos ∧
      ({ s with scratch := ['1'], stopped := false } : Scanner).next.1 = s.next.1 := by
  intro source s
  have hsize : source.utf8ByteSize ≤ maxOffset := by decide
  have hpos : s.pos = 5 := by decide +kernel
  obtain ⟨⟨ahead, hslice, hnext, hstop⟩, hclean⟩ := next_restart source hsize [.token, .collect]
  have hahead : ahead = " 7;" := by
    rw [← String.toList_inj]
    apply Option.some.inj
    rw [← hslice, hpos]
    decide +kernel
  subst hahead
  rw [hpos] at hnext hstop
  exact ⟨hsize, by decide +kernel, by decide +kernel, hpos, by decide +kernel, hnext, hstop,
    (hclean ['1'] false).1⟩

end Scanner
end TokenScan
