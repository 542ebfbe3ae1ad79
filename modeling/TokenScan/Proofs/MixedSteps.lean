import TokenScan.Proofs.Requests

namespace TokenScan

namespace Reply

/-- The token or the error of a step, without the place of a token; nothing at the end. -/
def result? : Reply → Option (Except ScanError Token)
  | .token (.ok t) => t.map .ok
  | .located (.ok t) => t.map fun t => .ok t.token
  | .token (.error e) | .located (.error e) => some (.error e)
  | .tokens _ | .text _ => none

end Reply

namespace Scanner

def Request.isStep : Request → Bool
  | .token | .located | .sourceToken | .pull => true
  | .readAll | .collect | .source => false

/-- The results still to come, past every fault, without the places of tokens. -/
def told (s : Scanner) : List (Except ScanError Token) :=
  s.results.map (·.map LocatedToken.token)

/-- The tokens and errors that the requests `qs` give, in order. -/
def given (qs : List Request) (s : Scanner) : List (Except ScanError Token) :=
  (serveAll qs s).filterMap fun r => r.1.result?

/-- The error that a pull gives. -/
def pullError? : Request → Reply → Option ScanError
  | .pull, .token (.error e) => some e
  | _, _ => none

/-- The errors that the pulls among the requests `qs` give. -/
def pullErrors (qs : List Request) (s : Scanner) : List ScanError :=
  (qs.zip (serveAll qs s)).filterMap fun (q, r, _) => pullError? q r

theorem serveAll_cons (q : Request) (qs : List Request) (s : Scanner) :
    serveAll (q :: qs) s = ((serve q s).1, (serve q s).2.pos) :: serveAll qs (serve q s).2 := rfl

theorem given_cons (q : Request) (qs : List Request) (s : Scanner) :
    given (q :: qs) s = (serve q s).1.result?.toList ++ given qs (serve q s).2 := by
  unfold given
  rw [serveAll_cons, List.filterMap_cons]
  cases (serve q s).1.result? <;> rfl

theorem pullErrors_cons (q : Request) (qs : List Request) (s : Scanner) :
    pullErrors (q :: qs) s =
      (pullError? q (serve q s).1).toList ++ pullErrors qs (serve q s).2 := by
  unfold pullErrors
  rw [serveAll_cons, List.zip_cons_cons, List.filterMap_cons]
  dsimp only
  cases pullError? q (serve q s).1 <;> rfl

theorem told_next (s : Scanner) : s.next.2.told = s.told.tail := by
  unfold told
  rw [results_next, List.map_tail]

theorem told_stopped (s : Scanner) (b : Bool) : ({ s with stopped := b } : Scanner).told = s.told :=
  congrArg (List.map _) (s.results_stopped b)

theorem result?_located (s : Scanner) : (Reply.located s.next.1).result? = s.told.head? := by
  unfold told
  rw [next_fst, List.head?_map]
  rcases s.results.head? with _ | e | t <;> rfl

theorem result?_token (s : Scanner) : (Reply.token s.nextToken.1).result? = s.told.head? := by
  rw [← result?_located, nextToken]
  rcases s.next.1 with e | _ | t <;> rfl

theorem serve_of_ne_pull {q : Request} (hq : q.isStep = true) (hne : q ≠ .pull) (s : Scanner) :
    (serve q s).1.result? = s.told.head? ∧ (serve q s).2 = s.next.2 := by
  cases q with
  | token => exact ⟨s.result?_token, rfl⟩
  | located => exact ⟨s.result?_located, rfl⟩
  | sourceToken => exact ⟨s.result?_token, rfl⟩
  | pull => exact absurd rfl hne
  | readAll => cases hq
  | collect => cases hq
  | source => cases hq

theorem serve_pull_of_stopped {s : Scanner} (h : s.stopped = true) :
    serve .pull s = (.token (.ok none), s) := by
  simp only [serve, pull, if_pos h]

theorem collectOnto_of_stopped (read : Array Token) {s : Scanner} (h : s.stopped = true) :
    collectOnto read s = (.ok read.toList, s) := by
  have hpull : s.pull = (none, s) := by rw [pull, if_pos h]
  unfold collectOnto
  split
  next hn =>
    rw [hpull] at hn
    cases hn
  next hn =>
    rw [hpull] at hn
    cases hn
  next hn =>
    rw [hpull] at hn
    cases hn
    rfl

theorem serve_pull_of_running {s : Scanner} (h : s.stopped = false) :
    (serve .pull s).1 = .token s.nextToken.1 ∧ (serve .pull s).2.told = s.told.tail ∧
      (serve .pull s).2.stopped = (pullError? .pull (serve .pull s).1).isSome := by
  have htold := s.told_next
  have hstop := s.stopped_next.trans h
  have hsnd : s.nextToken.2 = s.next.2 := rfl
  simp only [serve, pull, h]
  rcases hn : s.nextToken with ⟨e | _ | t, s'⟩ <;> rw [hn] at hsnd <;> subst hsnd
  · exact ⟨rfl, (told_stopped _ true).trans htold, rfl⟩
  · exact ⟨rfl, htold, hstop⟩
  · exact ⟨rfl, htold, hstop⟩

/-- A step gives the first of the results to come and leaves the others, or it is a pull on a
stopped scanner. -/
theorem told_serve {q : Request} (hq : q.isStep = true) (s : Scanner) :
    s.told = (serve q s).1.result?.toList ++ (serve q s).2.told := by
  have hsplit : s.told = s.told.head?.toList ++ s.told.tail := by cases s.told <;> rfl
  by_cases hne : q = .pull
  · subst hne
    cases hs : s.stopped with
    | true =>
      rw [serve_pull_of_stopped hs]
      rfl
    | false =>
      obtain ⟨hfst, htold, -⟩ := serve_pull_of_running hs
      rw [hfst, htold, result?_token]
      exact hsplit
  · obtain ⟨hfst, hsnd⟩ := serve_of_ne_pull hq hne s
    rw [hfst, hsnd, told_next]
    exact hsplit

theorem stopped_serve {q : Request} (hq : q.isStep = true) {s : Scanner} (h : s.stopped = false) :
    (serve q s).2.stopped = (pullError? q (serve q s).1).isSome := by
  by_cases hne : q = .pull
  · subst hne
    exact (serve_pull_of_running h).2.2
  · have hnone : pullError? q (serve q s).1 = none := by
      unfold pullError?
      split
      · exact absurd rfl hne
      · rfl
    rw [(serve_of_ne_pull hq hne s).2, stopped_next, h, hnone]
    rfl

theorem pullError?_of_stopped (q : Request) {s : Scanner} (h : s.stopped = true) :
    pullError? q (serve q s).1 = none := by
  unfold pullError?
  split
  next he =>
    rw [serve_pull_of_stopped h] at he
    cases he
  next => rfl

theorem told_eq_append {qs : List Request} (hqs : ∀ q ∈ qs, q.isStep = true) (s : Scanner) :
    s.told = given qs s ++ (s.after qs).told := by
  induction qs generalizing s with
  | nil => rfl
  | cons q qs ih =>
    obtain ⟨hq, hqs⟩ := List.forall_mem_cons.1 hqs
    rw [told_serve hq s, ih hqs (serve q s).2, given_cons, List.append_assoc]
    rfl

/-- Steps that are no pulls give one result each, until there is none. -/
theorem given_eq_take {qs : List Request} (hqs : ∀ q ∈ qs, q.isStep = true ∧ q ≠ .pull)
    (s : Scanner) : given qs s = s.told.take qs.length := by
  induction qs generalizing s with
  | nil => rfl
  | cons q qs ih =>
    obtain ⟨⟨hq, hne⟩, hqs⟩ := List.forall_mem_cons.1 hqs
    obtain ⟨hfst, hsnd⟩ := serve_of_ne_pull hq hne s
    rw [given_cons, hfst, ih hqs, hsnd, told_next]
    cases s.told with
    | nil => rw [List.tail_nil, List.take_nil, List.take_nil]; rfl
    | cons r rs => rfl

theorem stopped_after {s : Scanner} (h : s.stopped = true) (qs : List Request) :
    (s.after qs).stopped = true := by
  apply of_after (P := fun s' => s'.stopped = true) _ _ qs h
  · intro s' h'
    rw [stopped_next, h']
  · exact fun _ _ => rfl

theorem pullErrors_of_stopped (qs : List Request) {s : Scanner} (h : s.stopped = true) :
    pullErrors qs s = [] := by
  induction qs generalizing s with
  | nil => rfl
  | cons q qs ih =>
    rw [pullErrors_cons, pullError?_of_stopped q h]
    exact ih (stopped_after h [q])

theorem pullErrors_cases {qs : List Request} (hqs : ∀ q ∈ qs, q.isStep = true) {s : Scanner}
    (h : s.stopped = false) :
    (pullErrors qs s = [] ∧ (s.after qs).stopped = false) ∨
      ∃ e, pullErrors qs s = [e] ∧ (s.after qs).stopped = true := by
  induction qs generalizing s with
  | nil => exact .inl ⟨rfl, h⟩
  | cons q qs ih =>
    obtain ⟨hq, hqs⟩ := List.forall_mem_cons.1 hqs
    have hserve := stopped_serve hq h
    rw [pullErrors_cons]
    cases he : pullError? q (serve q s).1 with
    | none =>
      rw [he] at hserve
      exact ih hqs hserve
    | some e =>
      -- the mark is set, and no later pull gives an error
      rw [he] at hserve
      refine .inr ⟨e, ?_, ?_⟩
      · rw [pullErrors_of_stopped qs hserve]
        rfl
      · exact stopped_after hserve qs

/-- Steps of all kinds, mixed in any order, lose and repeat nothing: what they give comes first among
the results of the scan. The pulls give one error at most, and after it they give nothing and stay
where they are; until then, whatever errors the other steps have met, a pull gives the next result,
and the other steps always do. -/
theorem mixed_steps (source : String) (qs : List Request) (hqs : ∀ q ∈ qs, q.isStep = true) :
    let s := start source
    let s' := s.after qs
    let left := s.told.drop (given qs s).length
    given qs s <+: s.told ∧
    (pullErrors qs s).length ≤ 1 ∧
    (pullErrors qs s ≠ [] → serve .pull s' = (.token (.ok none), s')) ∧
    (pullErrors qs s = [] → (serve .pull s').1.result? = left.head?) ∧
    ∀ q, q.isStep = true → q ≠ .pull → (serve q s').1.result? = left.head? := by
  intro s s' left
  have htold : s.told = given qs s ++ s'.told := told_eq_append hqs s
  have hleft : left = s'.told := by
    rw [show left = s.told.drop (given qs s).length from rfl, htold, List.drop_left]
  have hcases := pullErrors_cases hqs (s := s) rfl
  refine ⟨⟨s'.told, htold.symm⟩, ?_, fun hne => ?_, fun hnil => ?_, fun q hq hne => ?_⟩
  · obtain ⟨hnil, -⟩ | ⟨e, he, -⟩ := hcases
    · rw [hnil]
      exact Nat.zero_le 1
    · rw [he]
      exact Nat.le_refl 1
  · obtain ⟨hnil, -⟩ | ⟨e, -, hstopped⟩ := hcases
    · exact absurd hnil hne
    · exact serve_pull_of_stopped hstopped
  · obtain ⟨-, hrunning⟩ | ⟨e, he, -⟩ := hcases
    · rw [(serve_pull_of_running hrunning).1, result?_token, hleft]
    · rw [he] at hnil
      cases hnil
  · rw [(serve_of_ne_pull hq hne s').1, hleft]

theorem mixed_steps_two_faults :
    let s := start "# a #é b"
    let qs : List Request := [.token, .pull, .pull]
    (∀ q ∈ qs, q.isStep = true) ∧
      given qs s = [.error ⟨.invalidWord "#", ⟨0, 1⟩⟩, .ok (.name "a"),
        .error ⟨.invalidWord "#é", ⟨4, 7⟩⟩] ∧
      given qs s <+: s.told ∧ pullErrors qs s ≠ [] ∧ (pullErrors qs s).length ≤ 1 ∧
      serve .pull (s.after qs) = (.token (.ok none), s.after qs) ∧
      (serve .located (s.after qs)).1.result? = some (.ok (.name "b")) := by
  intro s qs
  have hqs : ∀ q ∈ qs, q.isStep = true := by decide
  have hgiven : given qs s = [.error ⟨.invalidWord "#", ⟨0, 1⟩⟩, .ok (.name "a"),
      .error ⟨.invalidWord "#é", ⟨4, 7⟩⟩] := by decide +kernel
  have hne : pullErrors qs s ≠ [] := by decide +kernel
  obtain ⟨hfirst, hone, hstay, -, hmore⟩ := mixed_steps "# a #é b" qs hqs
  refine ⟨hqs, hgiven, hfirst, hne, hone, hstay hne, ?_⟩
  rw [hmore .located rfl (by decide)]
  decide +kernel

end Scanner
end TokenScan
