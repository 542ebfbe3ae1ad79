import TokenScan.Proofs.ScanRun
import TokenScan.Replay
import TokenScan.Scanner.Drain

namespace TokenScan

namespace Scan

/-- The tokens before the first error, and that error. -/
def ofResults : List (Except ScanError LocatedToken) → Scan
  | [] => ⟨[], none⟩
  | .ok t :: rs => ⟨t :: (ofResults rs).tokens, (ofResults rs).error⟩
  | .error e :: _ => ⟨[], some e⟩

/-- What `f` makes of the tokens, unless there is an error. -/
def verdict {α : Type} (f : List LocatedToken → α) (k : Scan) : Except ScanError α :=
  match k.error with
  | none => .ok (f k.tokens)
  | some e => .error e

section
variable {α : Type} (f : List LocatedToken → α)

theorem verdict_nil : verdict f (ofResults []) = .ok (f []) := rfl

theorem verdict_token (t : LocatedToken) (rs : List (Except ScanError LocatedToken)) :
    verdict f (ofResults (.ok t :: rs)) = verdict (fun ts => f (t :: ts)) (ofResults rs) := rfl

theorem verdict_fault (e : ScanError) (rs : List (Except ScanError LocatedToken)) :
    verdict f (ofResults (.error e :: rs)) = .error e := rfl

end

section
variable {α : Type} (f : List LocatedToken → α) {k : Scan}

theorem verdict_of_none (h : k.error = none) : k.verdict f = .ok (f k.tokens) := by
  rw [verdict, h]

theorem verdict_of_some {e : ScanError} (h : k.error = some e) : k.verdict f = .error e := by
  rw [verdict, h]

variable {f}

theorem of_verdict_eq_ok {a : α} (h : k.verdict f = .ok a) : k.error = none ∧ a = f k.tokens := by
  cases herror : k.error with
  | none =>
    rw [verdict_of_none f herror] at h
    exact ⟨rfl, (Except.ok.inj h).symm⟩
  | some e =>
    rw [verdict_of_some f herror] at h
    cases h

theorem error_of_verdict {e : ScanError} (h : k.verdict f = .error e) : k.error = some e := by
  cases herror : k.error with
  | none =>
    rw [verdict_of_none f herror] at h
    cases h
  | some e' =>
    rw [verdict_of_some f herror] at h
    rw [Except.error.inj h]

end

theorem verdict_push (read : Array Token) (t : LocatedToken)
    (rs : List (Except ScanError LocatedToken)) :
    verdict (fun ts => (read.push t.token).toList ++ ts.map LocatedToken.token) (ofResults rs) =
      verdict (fun ts => read.toList ++ ts.map LocatedToken.token) (ofResults (.ok t :: rs)) := by
  rw [verdict_token]
  congr 1
  funext ts
  rw [Array.toList_push, List.append_assoc, List.map_cons, List.singleton_append]

end Scan

open Scan (ofResults verdict verdict_nil verdict_token verdict_fault verdict_push)

namespace Scanner

variable {s s' : Scanner}

theorem results_of_token {t : LocatedToken} (h : s.next = (.ok (some t), s')) :
    s.results = .ok t :: s'.results := by
  have := results_of_next (s := s) (r := .ok t) (by rw [h]; rfl)
  rwa [h] at this

theorem results_of_fault {e : ScanError} (h : s.next = (.error e, s')) :
    s.results = .error e :: s'.results := by
  have := results_of_next (s := s) (r := .error e) (by rw [h]; rfl)
  rwa [h] at this

theorem results_of_nothing (h : s.next = (.ok none, s')) : s.results = [] :=
  results_of_end (congrArg Prod.fst h)

theorem keepOnto_fst (read : Array LocatedToken) (s : Scanner) :
    (keepOnto read s).1 =
      ⟨read.toList ++ (ofResults s.results).tokens, (ofResults s.results).error⟩ := by
  fun_induction keepOnto read s with
  | case1 read s t s' h _ ih => simp [ih, results_of_token h, ofResults]
  | case2 read s s' h => simp [results_of_nothing h, ofResults]
  | case3 read s e s' h => simp [results_of_fault h, ofResults]

theorem locateOnto_eq (read : Array LocatedToken) (s : Scanner) :
    locateOnto read s = verdict (read.toList ++ ·) (ofResults s.results) := by
  fun_induction locateOnto read s with
  | case1 read s t s' h _ ih =>
    rw [ih, results_of_token h, verdict_token]
    congr 1
    funext ts
    simp
  | case2 read s s' h => rw [results_of_nothing h, verdict_nil, List.append_nil]
  | case3 read s e s' h => rw [results_of_fault h, verdict_fault]

theorem next_of_nextToken {r : Except ScanError (Option Token)} (h : s.nextToken = (r, s')) :
    match r with
    | .ok none => s.next = (.ok none, s')
    | .ok (some t) => ∃ p, s.next = (.ok (some ⟨t, p⟩), s')
    | .error e => s.next = (.error e, s') := by
  rcases hn : s.next with ⟨e | _ | ⟨t, p⟩, s''⟩ <;> rw [nextToken, hn] at h <;> cases h
  · rfl
  · rfl
  · exact ⟨p, rfl⟩

theorem next_of_pull (hs : s.stopped = false) {r : Option (Except ScanError Token)}
    (h : s.pull = (r, s')) :
    match r with
    | none => s.next = (.ok none, s')
    | some (.ok t) => s'.stopped = false ∧ ∃ p, s.next = (.ok (some ⟨t, p⟩), s')
    | some (.error e) => ∃ s'', s.next = (.error e, s'') := by
  have hstop := s.stopped_next
  rw [pull, hs] at h
  rcases hn : s.next with ⟨e | _ | ⟨t, p⟩, s''⟩ <;> rw [hn] at hstop <;>
    simp only [nextToken, hn] at h <;> cases h
  · exact ⟨s'', rfl⟩
  · rfl
  · exact ⟨hstop.trans hs, p, rfl⟩

theorem readOnto_fst (read : Array Token) (s : Scanner) :
    (TokenSource.readOnto read s).1 =
      verdict (fun ts => read.toList ++ ts.map LocatedToken.token) (ofResults s.results) := by
  fun_induction TokenSource.readOnto read s with
  | case1 read s t s' h _ ih =>
    obtain ⟨p, hn⟩ := next_of_nextToken h
    rw [ih, results_of_token hn]
    exact verdict_push read ⟨t, p⟩ s'.results
  | case2 read s s' h => simp [results_of_nothing (next_of_nextToken h), verdict_nil]
  | case3 read s e s' h => rw [results_of_fault (next_of_nextToken h), verdict_fault]

theorem collectOnto_fst (read : Array Token) (s : Scanner) (hs : s.stopped = false) :
    (collectOnto read s).1 =
      verdict (fun ts => read.toList ++ ts.map LocatedToken.token) (ofResults s.results) := by
  fun_induction collectOnto read s with
  | case1 read s t s' h _ ih =>
    obtain ⟨hs', p, hn⟩ := next_of_pull hs h
    rw [ih hs', results_of_token hn]
    exact verdict_push read ⟨t, p⟩ s'.results
  | case2 read s e s' h =>
    obtain ⟨s'', hn⟩ := next_of_pull hs h
    rw [results_of_fault hn, verdict_fault]
  | case3 read s s' h => simp [results_of_nothing (next_of_pull hs h), verdict_nil]

theorem countFrom_fst (n : Nat) (s : Scanner) (hs : s.stopped = false) :
    (countFrom n s).1 = verdict (fun ts => n + ts.length) (ofResults s.results) := by
  fun_induction countFrom n s with
  | case1 n s t s' h _ ih =>
    obtain ⟨hs', p, hn⟩ := next_of_pull hs h
    rw [ih hs', results_of_token hn, verdict_token]
    congr 1
    funext ts
    simp only [List.length_cons]
    omega
  | case2 n s e s' h =>
    obtain ⟨s'', hn⟩ := next_of_pull hs h
    rw [results_of_fault hn, verdict_fault]
  | case3 n s s' h => simp [results_of_nothing (next_of_pull hs h), verdict_nil]

end Scanner

section
variable (source : String)

theorem scanOf_eq : scanOf source = ofResults (Scanner.start source).results :=
  Scanner.keepOnto_fst #[] _

theorem locatedTokensOf_eq : locatedTokensOf source = verdict id (scanOf source) :=
  scanOf_eq source ▸ Scanner.locateOnto_eq #[] _

theorem tokensOf_eq :
    tokensOf source = verdict (·.map LocatedToken.token) (scanOf source) :=
  scanOf_eq source ▸ Scanner.readOnto_fst #[] _

theorem countOf_eq : countOf source = verdict List.length (scanOf source) := by
  rw [countOf, Scanner.count, Scanner.countFrom_fst 0 _ rfl, scanOf_eq]
  congr 1
  funext ts
  exact Nat.zero_add _

end

/-- A token source after `n` requests. -/
def TokenSource.after {σ : Type} [TokenSource σ] : Nat → σ → σ
  | 0, s => s
  | n + 1, s => after n (next s).2

namespace Replay

theorem after_eq (n : Nat) (ts : List Token) :
    TokenSource.after n (Replay.mk ts) = ⟨ts.drop n⟩ := by
  induction n generalizing ts with
  | zero => rfl
  | succ n ih =>
    cases ts with
    | nil => exact (ih []).trans (by rw [List.drop_nil, List.drop_nil])
    | cons t ts => exact ih ts

theorem next_fst (ts : List Token) : (Replay.next ⟨ts⟩).1 = .ok ts.head? := by
  cases ts <;> rfl

theorem readOnto_eq (read : Array Token) (ts : List Token) :
    TokenSource.readOnto read (Replay.mk ts) = (.ok (read.toList ++ ts), ⟨[]⟩) := by
  induction ts generalizing read with
  | nil =>
    rw [TokenSource.readOnto]
    split
    next h => cases h
    next h =>
      cases h
      rw [List.append_nil]
    next h => cases h
  | cons t ts ih =>
    rw [TokenSource.readOnto]
    split
    next h =>
      cases h
      rw [ih]
      simp
    next h => cases h
    next h => cases h

end Replay

namespace Scanner

theorem results_after (n : Nat) (s : Scanner) :
    (TokenSource.after n s).results = s.results.drop n := by
  induction n generalizing s with
  | zero => rfl
  | succ n ih =>
    -- past the end too: a step there leaves no results, as `List.tail` does
    refine (ih s.next.2).trans ?_
    rw [results_next, List.drop_tail]

theorem nextToken_after (n : Nat) (s : Scanner) :
    (TokenSource.after n s).nextToken.1 =
      s.results[n]?.elim (.ok none) (·.map fun t => some t.token) := by
  rw [nextToken, next_fst, results_after, List.head?_drop]
  rcases s.results[n]? with _ | _ | t <;> rfl

end Scanner

theorem Scan.exists_of_verdict {α : Type} {f : List LocatedToken → α} {a : α}
    {rs : List (Except ScanError LocatedToken)} (h : verdict f (ofResults rs) = .ok a) :
    ∃ ts : List LocatedToken, rs = ts.map .ok ∧ a = f ts := by
  induction rs generalizing f with
  | nil => exact ⟨[], rfl, (Except.ok.inj h).symm⟩
  | cons r rs ih =>
    cases r with
    | error e => cases h
    | ok t =>
      obtain ⟨ts, rfl, ha⟩ := ih (verdict_token f t rs ▸ h)
      exact ⟨t :: ts, rfl, ha⟩

/-- All ways to drain a source agree on its tokens or on its first error, and a replay of its tokens
answers every request as the scan does. -/
theorem drains_agree (source : String) :
    let k := scanOf source
    let s := Scanner.start source
    (k.error = none →
      locatedTokensOf source = .ok k.tokens ∧
      tokensOf source = .ok (k.tokens.map LocatedToken.token) ∧
      (TokenSource.readAll s).1 = .ok (k.tokens.map LocatedToken.token) ∧
      s.collect.1 = .ok (k.tokens.map LocatedToken.token) ∧
      countOf source = .ok k.tokens.length) ∧
    (∀ e, k.error = some e →
      locatedTokensOf source = .error e ∧ tokensOf source = .error e ∧
      (TokenSource.readAll s).1 = .error e ∧ s.collect.1 = .error e ∧ countOf source = .error e) ∧
    ∀ v, tokensOf source = .ok v → ∀ n,
      (TokenSource.next (TokenSource.after n (Replay.mk v))).1 =
        (TokenSource.next (TokenSource.after n s)).1 ∧
      (TokenSource.readAll (TokenSource.after n (Replay.mk v))).1 = .ok (v.drop n) := by
  intro k s
  have hk : k = ofResults s.results := Scanner.keepOnto_fst #[] s
  have hlocate : locatedTokensOf source = verdict id k := hk ▸ Scanner.locateOnto_eq #[] s
  have hread : tokensOf source = verdict (·.map LocatedToken.token) k :=
    hk ▸ Scanner.readOnto_fst #[] s
  have hcollect : s.collect.1 = verdict (·.map LocatedToken.token) k :=
    hk ▸ Scanner.collectOnto_fst #[] s rfl
  have hcount : countOf source = verdict List.length k := by
    rw [countOf, Scanner.count, Scanner.countFrom_fst 0 _ rfl, hk]
    congr 1
    funext ts
    exact Nat.zero_add _
  refine ⟨fun hnone => ?_, fun e he => ?_, fun v hv n => ?_⟩
  · have hok {α : Type} (f : List LocatedToken → α) : verdict f k = .ok (f k.tokens) := by
      rw [verdict, hnone]
    exact ⟨hlocate.trans (hok _), hread.trans (hok _), hread.trans (hok _), hcollect.trans (hok _),
      hcount.trans (hok _)⟩
  · have herr {α : Type} (f : List LocatedToken → α) : verdict f k = .error e := by
      rw [verdict, he]
    exact ⟨hlocate.trans (herr _), hread.trans (herr _), hread.trans (herr _),
      hcollect.trans (herr _), hcount.trans (herr _)⟩
  · obtain ⟨ts, hts, rfl⟩ := Scan.exists_of_verdict (hk ▸ hread.symm.trans hv)
    rw [Replay.after_eq]
    constructor
    · change (Replay.next _).1 = (TokenSource.after n s).nextToken.1
      rw [Replay.next_fst, Scanner.nextToken_after, hts, List.head?_drop, List.getElem?_map,
        List.getElem?_map]
      cases ts[n]? <;> rfl
    · rw [TokenSource.readAll, Replay.readOnto_eq]
      rfl

theorem drains_agree_assignment :
    (scanOf "x=5").error = none ∧ countOf "x=5" = .ok (scanOf "x=5").tokens.length ∧
      (scanOf "x #").error = some ⟨.invalidWord "#", ⟨2, 3⟩⟩ ∧
      (Scanner.start "x #").collect.1 = .error ⟨.invalidWord "#", ⟨2, 3⟩⟩ ∧
      tokensOf "x" = .ok [.name "x"] ∧
      (TokenSource.next (TokenSource.after 7 (Replay.mk [.name "x"]))).1 =
        (TokenSource.next (TokenSource.after 7 (Scanner.start "x"))).1 := by
  have hok : (scanOf "x=5").error = none := by decide +kernel
  have herr : (scanOf "x #").error = some ⟨.invalidWord "#", ⟨2, 3⟩⟩ := by decide +kernel
  have hv : tokensOf "x" = .ok [.name "x"] := by decide +kernel
  exact ⟨hok, ((drains_agree "x=5").1 hok).2.2.2.2, herr, ((drains_agree "x #").2.1 _ herr).2.2.2.1,
    hv, ((drains_agree "x").2.2 _ hv 7).1⟩

end TokenScan
