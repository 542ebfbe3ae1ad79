import TokenScan.Proofs.MixedSteps
import TokenScan.Proofs.Transcript

namespace TokenScan

open Text (byteLength isBlank)

/-- Whether a reply holds a token or an error. -/
def Reply.holds : Reply → Bool
  | .token (.ok t) => t.isSome
  | .located (.ok t) => t.isSome
  | .tokens (.ok ts) => !ts.isEmpty
  | .token (.error _) | .located (.error _) | .tokens (.error _) => true
  | .text _ => false

def Text.solidCount (cs : List Char) : Nat := cs.countP fun c => !isBlank c

theorem Lexes.length_le {n : Nat} {cs : List Char} {rs : List (Except ScanError LocatedToken)}
    (h : Lexes n cs rs) : rs.length ≤ Text.solidCount cs := by
  induction h with
  | blank _ => exact Nat.zero_le _
  | @lexeme _ _ _ text _ _ hs _ ih =>
    -- the character that a lexeme starts with
    obtain ⟨c, hc, hb⟩ := hs.solid
    have htext : 0 < text.countP fun c => !isBlank c :=
      List.countP_pos_iff.2 ⟨c, List.mem_of_mem_head? hc, by rw [hb]; rfl⟩
    unfold Text.solidCount at ih ⊢
    rw [hs.eq, List.countP_append, List.countP_append, List.length_cons]
    omega

namespace Scanner

theorem pos_le_length (s : Scanner) : s.pos ≤ s.source.utf8ByteSize :=
  Nat.le.intro s.cursor.pos_add_byteLength_rest

theorem pos_of_rest_eq_nil {s : Scanner} (h : s.cursor.rest = []) :
    s.pos = s.source.utf8ByteSize := by
  have hlen := s.cursor.pos_add_byteLength_rest
  rwa [h, Text.byteLength_nil, Nat.add_zero] at hlen

theorem next_eq_none_iff (s : Scanner) :
    s.next.1 = .ok none ↔ ∀ c ∈ s.cursor.rest, isBlank c = true := by
  rw [← List.dropWhile_eq_nil_iff]
  obtain hb | ⟨gap, text, rest, hs⟩ := Split.blank_or_exists s.cursor.rest
  · exact iff_of_true (next_of_blank hb).1 hb
  · apply iff_of_false
    · rw [(takes_of_split hs).result]
      cases Lexeme.meaning text <;> nofun
    · rw [hs.run.2]
      exact hs.append_ne_nil

theorem rest_next_of_end {s : Scanner} (h : s.next.1 = .ok none) : s.next.2.cursor.rest = [] := by
  have hb := List.dropWhile_eq_nil_iff.2 (s.next_eq_none_iff.1 h)
  rw [(next_of_blank hb).2, Cursor.rest_skipWhile, hb]

theorem pos_lt_next {s : Scanner} (h : s.next.1 ≠ .ok none) : s.pos < s.next.2.pos := by
  obtain hb | ⟨gap, text, rest, hs⟩ := Split.blank_or_exists s.cursor.rest
  · exact absurd (next_of_blank hb).1 h
  · have htext : byteLength text ≠ 0 := mt Text.byteLength_eq_zero.1 hs.text_ne_nil
    rw [(takes_of_split hs).pos]
    omega

theorem told_eq_nil_iff (s : Scanner) : s.told = [] ↔ s.next.1 = .ok none := by
  rw [told, List.map_eq_nil_iff, next_fst]
  cases s.results with
  | nil => exact iff_of_true rfl rfl
  | cons r rs => cases r <;> exact iff_of_false nofun nofun

theorem told_of_rest_eq_nil {s : Scanner} (h : s.cursor.rest = []) : s.told = [] := by
  rw [told_eq_nil_iff, next_eq_none_iff, h]
  nofun

/-- The request is put to an iteration that has stopped. -/
def Idle (q : Request) (s : Scanner) : Prop := s.stopped = true ∧ (q = .pull ∨ q = .collect)

/-- All results are told, or those that are left are not told to this request. -/
def Spent (q : Request) (s : Scanner) : Prop := s.told = [] ∨ Idle q s

theorem length_told_next_le {n : Nat} (s : Scanner) (h : s.told.length ≤ n) :
    s.next.2.told.length ≤ n := by
  rw [told_next, List.length_tail]
  exact (Nat.sub_le _ _).trans h

theorem length_told_stopped_le {n : Nat} (s : Scanner) (h : s.told.length ≤ n) :
    ({ s with stopped := true } : Scanner).told.length ≤ n := by
  rwa [told_stopped]

theorem length_told_after_le {n : Nat} {s : Scanner} (h : s.told.length ≤ n) (qs : List Request) :
    (s.after qs).told.length ≤ n :=
  of_after (P := fun s' => s'.told.length ≤ n) length_told_next_le length_told_stopped_le qs h

theorem Spent.after {q : Request} {s : Scanner} (h : Spent q s) (qs : List Request) :
    Spent q (s.after qs) := by
  obtain htold | ⟨hs, hq⟩ := h
  · left
    apply List.length_eq_zero_iff.1
    apply Nat.le_zero.1
    exact length_told_after_le (by rw [htold]; rfl) qs
  · exact .inr ⟨stopped_after hs qs, hq⟩

theorem holds_of_idle {q : Request} {s : Scanner} (h : Idle q s) : (serve q s).1.holds = false := by
  obtain ⟨hs, rfl | rfl⟩ := h
  · rw [serve_pull_of_stopped hs]
    rfl
  · simp only [serve, collect, collectOnto_of_stopped #[] hs]
    rfl

theorem stopped_of_not_idle {q : Request} {s : Scanner} (h : ¬ Idle q s)
    (hq : q = .pull ∨ q = .collect) : s.stopped = false :=
  Bool.eq_false_iff.2 fun hs => h ⟨hs, hq⟩

theorem holds_token (s : Scanner) : (Reply.token s.nextToken.1).holds = !s.told.isEmpty := by
  rw [nextToken, next_fst, told, List.isEmpty_map]
  rcases s.results with _ | ⟨e | t, rs⟩ <;> rfl

theorem holds_located (s : Scanner) : (Reply.located s.next.1).holds = !s.told.isEmpty := by
  rw [next_fst, told, List.isEmpty_map]
  rcases s.results with _ | ⟨e | t, rs⟩ <;> rfl

theorem holds_verdict (s : Scanner) :
    (Reply.tokens (Scan.verdict (fun ts => #[].toList ++ ts.map LocatedToken.token)
      (Scan.ofResults s.results))).holds = !s.told.isEmpty := by
  rw [told, List.isEmpty_map]
  rcases s.results with _ | ⟨e | t, rs⟩
  · rfl
  · rfl
  · rw [Scan.verdict_token]
    unfold Scan.verdict
    split <;> rfl

/-- A request that is not idle gives something if and only if something is left. -/
theorem holds_serve {q : Request} (hq : q ≠ .source) {s : Scanner} (h : ¬ Idle q s) :
    (serve q s).1.holds = !s.told.isEmpty := by
  cases q with
  | token => exact s.holds_token
  | located => exact s.holds_located
  | sourceToken => exact s.holds_token
  | pull =>
    rw [(serve_pull_of_running (stopped_of_not_idle h (.inl rfl))).1]
    exact s.holds_token
  | readAll =>
    change (Reply.tokens (TokenSource.readOnto #[] s).1).holds = _
    rw [readOnto_fst]
    exact s.holds_verdict
  | collect =>
    change (Reply.tokens (collectOnto #[] s).1).holds = _
    rw [collectOnto_fst #[] s (stopped_of_not_idle h (.inr rfl))]
    exact s.holds_verdict
  | source => exact absurd rfl hq

theorem length_told_serve {q : Request} (hq : q ≠ .source) {s : Scanner} (h : ¬ Idle q s) :
    (serve q s).2.told.length ≤ s.told.tail.length := by
  have hnext : s.next.2.told.length ≤ s.told.tail.length := by rw [told_next]
  have hpull (hs : s.stopped = false) : (serve .pull s).2.told.length ≤ s.told.tail.length := by
    rw [(serve_pull_of_running hs).2.1]
  cases q with
  | token => exact hnext
  | located => exact hnext
  | sourceToken => exact hnext
  | pull => exact hpull (stopped_of_not_idle h (.inl rfl))
  | readAll =>
    exact of_readOnto (P := fun s' => s'.told.length ≤ s.told.tail.length) length_told_next_le #[]
      hnext
  | collect =>
    apply of_collectOnto (P := fun s' => s'.told.length ≤ s.told.tail.length) length_told_next_le
      length_told_stopped_le #[]
    rw [← serve_pull_snd]
    exact hpull (stopped_of_not_idle h (.inr rfl))
  | source => exact absurd rfl hq

theorem holds_eq_false_iff {q : Request} (hq : q ≠ .source) (s : Scanner) :
    (serve q s).1.holds = false ↔ Spent q s := by
  by_cases hidle : Idle q s
  · exact iff_of_true (holds_of_idle hidle) (.inr hidle)
  · rw [holds_serve hq hidle, Bool.not_eq_false', List.isEmpty_iff]
    exact (or_iff_left hidle).symm

theorem holds_of_spent {q : Request} {s : Scanner} (h : Spent q s) :
    (serve q s).1.holds = false := by
  by_cases hq : q = .source
  · rw [hq]
    rfl
  · exact (holds_eq_false_iff hq s).2 h

theorem length_told_lt {q : Request} {s : Scanner} (h : (serve q s).1.holds = true) :
    (serve q s).2.told.length < s.told.length := by
  have hq : q ≠ .source := by
    rintro rfl
    cases h
  have hidle : ¬ Idle q s := fun hidle => by
    rw [holds_of_idle hidle] at h
    cases h
  have hne : 0 < s.told.length := by
    rw [holds_serve hq hidle, Bool.not_eq_true', List.isEmpty_eq_false_iff] at h
    exact List.length_pos_iff.2 h
  have hle := length_told_serve hq hidle
  rw [List.length_tail] at hle
  omega

/-- There are no more replies with something in them than results. -/
theorem countP_holds_le (qs : List Request) (s : Scanner) :
    (serveAll qs s).countP (fun r => r.1.holds) ≤ s.told.length := by
  induction qs generalizing s with
  | nil => exact Nat.zero_le _
  | cons q qs ih =>
    have hrest := ih (serve q s).2
    rw [serveAll_cons, List.countP_cons]
    cases hq : (serve q s).1.holds with
    | true =>
      have hlt := length_told_lt hq
      rw [if_pos rfl]
      omega
    | false =>
      have hle : (serve q s).2.told.length ≤ s.told.length :=
        length_told_after_le (Nat.le_refl _) [q]
      rw [if_neg nofun]
      omega

theorem holds_after_replicate {q : Request} {k : Nat} {s : Scanner} (h : s.told.length ≤ k) :
    (serve q (s.after (List.replicate k q))).1.holds = false := by
  by_cases hq : q = .source
  · rw [hq]
    rfl
  induction k generalizing s with
  | zero =>
    apply holds_of_spent
    exact .inl (List.length_eq_zero_iff.1 (Nat.le_zero.1 h))
  | succ k ih =>
    cases hserve : (serve q s).1.holds with
    | true =>
      have hlt := length_told_lt hserve
      exact ih (Nat.le_of_lt_succ (hlt.trans_le h))
    | false =>
      -- the requests that are left change nothing
      have hspent := (holds_eq_false_iff hq s).1 hserve
      exact holds_of_spent (hspent.after (List.replicate (k + 1) q))

/-- After a step that is no pull has told the end, nothing changes any more. -/
theorem ended_of_step {q : Request} (hq : q.isStep = true) (hne : q ≠ .pull) {s : Scanner}
    (h : (serve q s).1.holds = false) (qs : List Request) :
    let s' := (serve q s).2.after qs
    s'.pos = s.source.utf8ByteSize ∧
      ∀ q', (serve q' s').1.holds = false ∧ (serve q' s').2.pos = s.source.utf8ByteSize := by
  intro s'
  have hsource : s'.source = s.source :=
    ((s.precedes_serve q).trans ((serve q s).2.precedes_after qs)).source
  have hspent : s.told = [] := by
    apply ((holds_eq_false_iff _ s).1 h).resolve_right
    · rintro ⟨-, rfl | rfl⟩
      · exact hne rfl
      · cases hq
    · rintro rfl
      cases hq
  have hrest : s'.cursor.rest = [] := by
    apply rest_after_of_end
    rw [(serve_of_ne_pull hq hne s).2]
    exact rest_next_of_end (s.told_eq_nil_iff.1 hspent)
  refine ⟨?_, fun q' => ⟨?_, ?_⟩⟩
  · rw [← hsource]
    exact pos_of_rest_eq_nil hrest
  · exact holds_of_spent (.inl (told_of_rest_eq_nil hrest))
  · rw [← hsource, ← (s'.precedes_serve q').source]
    exact pos_of_rest_eq_nil (rest_after_of_end hrest [q'])

theorem size_log_next (s : Scanner) : s.next.2.log.size = s.log.size + 1 := by
  rw [log_next, Array.size_push]

theorem length_tokens_le (rs : List (Except ScanError LocatedToken)) :
    (Scan.ofResults rs).tokens.length ≤ rs.length := by
  induction rs with
  | nil => exact Nat.le_refl 0
  | cons r rs ih =>
    cases r with
    | ok t => exact Nat.succ_le_succ ih
    | error e => exact Nat.zero_le _

theorem size_log_le {k : Nat} {s s' : Scanner} (hlog : s'.log.toList = s.log.toList ++ s.events)
    (hk : s.results.length ≤ k) : s'.log.size ≤ s.log.size + (k + 1) := by
  have htokens := length_tokens_le s.results
  have hsize := congrArg List.length hlog
  rw [events, Scan.events, List.length_append, List.length_append, List.length_map,
    List.length_singleton, Array.length_toList, Array.length_toList] at hsize
  omega

/-- As `locateOnto`, but given up after `k` steps. -/
def locateWithin :
    Nat → Array LocatedToken → Scanner → Option (Except ScanError (List LocatedToken))
  | 0, _, _ => none
  | k + 1, read, s =>
    match s.next with
    | (.ok (some t), s') => locateWithin k (read.push t) s'
    | (.ok none, _) => some (.ok read.toList)
    | (.error e, _) => some (.error e)

theorem locateWithin_eq {k : Nat} (read : Array LocatedToken) {s : Scanner}
    (hk : s.results.length ≤ k) : locateWithin (k + 1) read s = some (locateOnto read s) := by
  fun_induction locateOnto read s generalizing k with
  | case1 read s t s' h _ ih =>
    rw [results_of_token h, List.length_cons] at hk
    obtain _ | k := k
    · omega
    · rw [locateWithin, h]
      exact ih (Nat.le_of_succ_le_succ hk)
  | case2 read s s' h => rw [locateWithin, h]
  | case3 read s e s' h => rw [locateWithin, h]

/-- Every drain of `s` ends after `k` steps, if not before. The log counts the steps. -/
structure DrainsWithin (k : Nat) (s : Scanner) : Prop where
  readAll : (TokenSource.readAll s).2.log.size ≤ s.log.size + k
  keepAll : s.keepAll.2.log.size ≤ s.log.size + k
  collect : s.collect.2.log.size ≤ s.log.size + k
  count : s.count.2.log.size ≤ s.log.size + k
  locateAll : locateWithin k #[] s = some s.locateAll

theorem drainsWithin_of_length_le {k : Nat} {s : Scanner} (hs : s.stopped = false)
    (hk : s.results.length ≤ k) : DrainsWithin (k + 1) s := by
  constructor
  · exact size_log_le (log_readOnto #[] s) hk
  · exact size_log_le (log_keepOnto #[] s) hk
  · exact size_log_le (log_collectOnto #[] hs) hk
  · exact size_log_le (log_countFrom 0 hs) hk
  · exact locateWithin_eq #[] hk

/-- How the scanner `s` goes on that the requests `qs` have led to. -/
structure Progress (source : String) (qs : List Request) (s : Scanner) : Prop where
  forward (q : Request) : s.pos ≤ (serve q s).2.pos ∧ (serve q s).2.pos ≤ source.utf8ByteSize
  moves (h : s.next.1 ≠ .ok none) : s.pos < s.next.2.pos
  stops (h : s.next.1 = .ok none) : s.next.2.pos = source.utf8ByteSize
  ends_iff : s.next.1 = .ok none ↔ ∀ c ∈ s.cursor.rest, isBlank c = true
  sticky {q : Request} (hq : q.isStep = true) (hpull : q ≠ .pull)
      (h : (serve q s).1.holds = false) (qs' : List Request) :
    let s' := (serve q s).2.after qs'
    s'.pos = source.utf8ByteSize ∧
      ∀ q', (serve q' s').1.holds = false ∧ (serve q' s').2.pos = source.utf8ByteSize
  few : (serveAll qs (start source)).countP (fun r => r.1.holds) ≤ Text.solidCount source.toList
  repeated (q : Request) {k : Nat} (hk : Text.solidCount source.toList ≤ k) :
    (serve q (s.after (List.replicate k q))).1.holds = false
  size_log : s.next.2.log.size = s.log.size + 1
  drains : DrainsWithin (Text.solidCount source.toList + 1) (start source)

/-- A scan makes progress and ends. After any requests, the place never goes back and stays in the
source. A step that gives a token or an error moves on; one that gives neither has nothing but white
space ahead and goes to the end of the source, and then all requests find nothing and stay there. So
there are no more tokens and errors than characters that are not white space; a request that is
repeated, and every drain, needs one step more at most. -/
theorem scan_progress (source : String) (qs : List Request) :
    Progress source qs ((start source).after qs) := by
  let s := (start source).after qs
  have hsource : s.source = source := source_after source qs
  have hstart : (start source).results.length ≤ Text.solidCount source.toList :=
    (lexes_start source).length_le
  have htold : (start source).told.length ≤ Text.solidCount source.toList := by
    unfold told
    rwa [List.length_map]
  have hleft : s.told.length ≤ Text.solidCount source.toList := length_told_after_le htold qs
  constructor
  case forward =>
    intro q
    have hle := (serve q s).2.pos_le_length
    rw [(s.precedes_serve q).source, hsource] at hle
    exact ⟨(s.precedes_serve q).pos_le, hle⟩
  case moves => exact pos_lt_next
  case stops =>
    intro h
    have hpos := pos_of_rest_eq_nil (rest_next_of_end h)
    rwa [s.precedes_next.source, hsource] at hpos
  case ends_iff => exact s.next_eq_none_iff
  case sticky =>
    intro q hq hpull h qs'
    have hended := ended_of_step hq hpull h qs'
    rwa [hsource] at hended
  case few => exact (countP_holds_le qs _).trans htold
  case repeated => exact fun q k hk => holds_after_replicate (hleft.trans hk)
  case size_log => exact s.size_log_next
  case drains => exact drainsWithin_of_length_le rfl hstart

theorem scan_progress_past_fault :
    let source := "a #é \n"
    let s := start source
    let s' := s.after [.located, .token]
    let s'' := (serve .token s').2.after [.readAll, .pull]
    s.next.1 ≠ .ok none ∧ s.pos < s.next.2.pos ∧
      s'.pos = 5 ∧ s'.next.1 = .ok none ∧ s'.next.2.pos = 7 ∧
      (serve .token s').1.holds = false ∧ s''.pos = 7 ∧
      (serve .collect s'').1.holds = false ∧ (serve .collect s'').2.pos = 7 ∧
      Text.solidCount source.toList = 3 ∧
      (serve .pull (s.after (.replicate 3 .pull))).1.holds = false ∧
      DrainsWithin (Text.solidCount source.toList + 1) s := by
  intro source s s' s''
  have hfirst : s.next.1 ≠ .ok none := by decide +kernel
  have hlast : s'.next.1 = .ok none := by decide +kernel
  have hnone : (serve .token s').1.holds = false := by decide +kernel
  have hcount : Text.solidCount source.toList = 3 := by decide +kernel
  have hsize : source.utf8ByteSize = 7 := by decide
  have hfresh := scan_progress source []
  have hlate := scan_progress source [.located, .token]
  obtain ⟨hstay, hnothing⟩ := hlate.sticky (q := .token) rfl (by decide) hnone [.readAll, .pull]
  exact ⟨hfirst, hfresh.moves hfirst, by decide +kernel, hlast, (hlate.stops hlast).trans hsize,
    hnone, hstay.trans hsize, (hnothing .collect).1, (hnothing .collect).2.trans hsize, hcount,
    hfresh.repeated .pull hcount.le, hfresh.drains⟩

end Scanner
end TokenScan
