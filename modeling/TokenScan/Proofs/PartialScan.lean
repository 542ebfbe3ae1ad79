import TokenScan.Proofs.Drains
import TokenScan.Proofs.Lookahead

namespace TokenScan

open Text (byteLength isBlank)

/-- From the text `cs` at byte `n`, steps give the results `rs` and leave `rest` at byte `m`. -/
inductive Steps : Nat → List Char → List (Except ScanError LocatedToken) → Nat → List Char → Prop
  | done {n : Nat} {cs : List Char} : Steps n cs [] n cs
  | lexeme {n m : Nat} {cs gap text rest tail : List Char}
      {rs : List (Except ScanError LocatedToken)} (h : Split cs gap text rest)
      (more : Steps (n + byteLength gap + byteLength text) rest rs m tail) :
      Steps n cs (Lexeme.located
        (.clamp (n + byteLength gap) (n + byteLength gap + byteLength text))
        (Lexeme.meaning text) :: rs) m tail

/-- The fault of a string without its closing quote. -/
def isOpen : Except ScanError LocatedToken → Bool
  | .error ⟨.unterminatedString, _⟩ => true
  | _ => false

namespace Split

variable {cs gap text rest : List Char}

theorem unique (h : Split cs gap text rest) {gap' text' rest' : List Char}
    (h' : Split cs gap' text' rest') : gap = gap' ∧ text = text' ∧ rest = rest' := by
  have hgap : gap = gap' := h.run.1.symm.trans h'.run.1
  have hahead : text ++ rest = text' ++ rest' := h.run.2.symm.trans h'.run.2
  have htext : text = text' := by rw [← h.leads, hahead, h'.leads]
  subst htext
  exact ⟨hgap, rfl, List.append_cancel_left hahead⟩

theorem not_blank (h : Split cs gap text rest) : ¬ ∀ c ∈ cs, isBlank c = true := by
  intro hb
  exact h.append_ne_nil (h.run.2.symm.trans (List.dropWhile_eq_nil_iff.2 hb))

theorem replace (h : Split cs gap text rest) {r : List Char}
    (hr : ∀ c ∈ r.head?, Lexeme.isOverBefore c text = true) :
    Split (gap ++ (text ++ r)) gap text r where
  eq := rfl
  blank := h.blank
  solid := h.solid
  leads := (Lexeme.leading_append_eq_iff h.text_ne_nil).2
    ⟨((Lexeme.leading_append_eq_iff h.text_ne_nil).1 h.leads).1, hr⟩

end Split

namespace Lexes

variable {n : Nat} {cs : List Char} {rs rs' : List (Except ScanError LocatedToken)}

theorem blank_append {gap : List Char} (hgap : ∀ c ∈ gap, isBlank c = true)
    (h : Lexes (n + byteLength gap) cs rs) : Lexes n (gap ++ cs) rs := by
  cases h with
  | blank hb =>
    refine .blank fun c hc => ?_
    obtain hc | hc := List.mem_append.1 hc
    · exact hgap c hc
    · exact hb c hc
  | @lexeme _ _ gap' text rest rs hs hmore =>
    have hs' : Split (gap ++ cs) (gap ++ gap') text rest := by
      refine ⟨by rw [hs.eq, List.append_assoc], fun c hc => ?_, hs.solid, hs.leads⟩
      obtain hc | hc := List.mem_append.1 hc
      · exact hgap c hc
      · exact hs.blank c hc
    have hlen : n + byteLength gap + byteLength gap' = n + byteLength (gap ++ gap') := by
      rw [Text.byteLength_append, Nat.add_assoc]
    rw [hlen] at hmore ⊢
    exact .lexeme hs' hmore

end Lexes

namespace Steps

variable {n m : Nat} {cs tail : List Char} {rs rs' : List (Except ScanError LocatedToken)}

theorem finish (h : Steps n cs rs m tail) (hrest : Lexes m tail rs') : Lexes n cs (rs ++ rs') := by
  induction h with
  | done => exact hrest
  | lexeme hs _ ih => exact .lexeme hs (ih hrest)

/-- A scan can be cut between any two of its results. -/
theorem of_lexes (h : Lexes n cs (rs ++ rs')) :
    ∃ m tail, Steps n cs rs m tail ∧ Lexes m tail rs' := by
  induction rs generalizing n cs with
  | nil => exact ⟨n, cs, .done, h⟩
  | cons r rs ih =>
    cases h with
    | lexeme hs hmore =>
      obtain ⟨m, tail, hsteps, hrest⟩ := ih hmore
      exact ⟨m, tail, .lexeme hs hsteps, hrest⟩

theorem exists_more (h : Steps n cs rs m tail) (hall : Lexes n cs rs') :
    ∃ more, rs' = rs ++ more ∧ Lexes m tail more := by
  induction h generalizing rs' with
  | done => exact ⟨rs', rfl, hall⟩
  | lexeme hs _ ih =>
    cases hall with
    | blank hb => exact absurd hb hs.not_blank
    | lexeme hs' hmore' =>
      obtain ⟨rfl, rfl, rfl⟩ := hs.unique hs'
      obtain ⟨more, rfl, hmore⟩ := ih hmore'
      exact ⟨more, rfl, hmore⟩

theorem pos_eq (h : Steps n cs rs m tail) : m + byteLength tail = n + byteLength cs := by
  induction h with
  | done => rfl
  | lexeme hs _ ih =>
    rw [ih, hs.byteLength_eq]
    omega

/-- Parts without an open string go on as before when a separator follows the text. -/
theorem append (h : Steps n cs rs m tail) {b : List Char} (hclosed : ∀ r ∈ rs, isOpen r = false)
    (hb : ∀ c ∈ b.head?, isSeparator c = true) : Steps n (cs ++ b) rs m (tail ++ b) := by
  induction h with
  | done => exact .done
  | @lexeme n m cs gap text rest tail rs hs _ ih =>
    obtain ⟨hfirst, hmore⟩ := List.forall_mem_cons.1 hclosed
    have hmeaning : Lexeme.meaning text ≠ .error .unterminatedString := by
      intro hm
      rw [hm] at hfirst
      cases hfirst
    have hover := ((Lexeme.leading_append_eq_iff hs.text_ne_nil).1 hs.leads).2
    have hs' : Split (cs ++ b) gap text (rest ++ b) := by
      rw [hs.eq, List.append_assoc, List.append_assoc]
      refine hs.replace fun c hc => ?_
      cases rest with
      | nil => exact Lexeme.isOverBefore_of_isSeparator hs.text_ne_nil hmeaning (hb c hc)
      | cons d rest => exact hover c hc
    exact .lexeme hs' (ih hmore)

end Steps

namespace Scan

theorem ofResults_append (ts : List LocatedToken) (rs : List (Except ScanError LocatedToken)) :
    ofResults (ts.map .ok ++ rs) = ⟨ts ++ (ofResults rs).tokens, (ofResults rs).error⟩ := by
  induction ts with
  | nil => rfl
  | cons t ts ih => rw [List.map_cons, List.cons_append, ofResults, ih, List.cons_append]

theorem exists_of_error {e : ScanError} {rs : List (Except ScanError LocatedToken)}
    (h : (ofResults rs).error = some e) :
    ∃ (ts : List LocatedToken) (more : List (Except ScanError LocatedToken)),
      rs = ts.map .ok ++ .error e :: more := by
  induction rs with
  | nil => cases h
  | cons r rs ih =>
    cases r with
    | error e' =>
      cases h
      exact ⟨[], rs, rfl⟩
    | ok t =>
      obtain ⟨ts, more, rfl⟩ := ih h
      exact ⟨t :: ts, more, rfl⟩

theorem mem_of_error {e : ScanError} {rs : List (Except ScanError LocatedToken)}
    (h : (ofResults rs).error = some e) : .error e ∈ rs := by
  obtain ⟨ts, more, rfl⟩ := exists_of_error h
  exact List.mem_append_right _ List.mem_cons_self

theorem verdict_tokens {α : Type} (f : List LocatedToken → α) (ts : List LocatedToken) :
    verdict f (ofResults (ts.map .ok)) = .ok (f ts) := by
  rw [← List.append_nil (ts.map _), ofResults_append, ofResults, List.append_nil]
  rfl

end Scan

theorem Lexes.unique {n : Nat} {cs : List Char} {rs rs' : List (Except ScanError LocatedToken)}
    (h : Lexes n cs rs) (h' : Lexes n cs rs') : rs = rs' := by
  rw [← List.append_nil rs] at h
  obtain ⟨m, tail, hsteps, hend⟩ := Steps.of_lexes h
  obtain ⟨more, rfl, hmore⟩ := hsteps.exists_more h'
  cases hend with
  | blank hb =>
    cases hmore with
    | blank => rw [List.append_nil]
    | lexeme hs => exact absurd hb hs.not_blank

theorem lexes_start (source : String) : Lexes 0 source.toList (Scanner.start source).results :=
  (Scanner.start source).lexes_results

theorem scanOf_of_lexes {source : String} {rs : List (Except ScanError LocatedToken)}
    (h : Lexes 0 source.toList rs) : scanOf source = Scan.ofResults rs := by
  rw [h.unique (lexes_start source)]
  exact Scanner.keepOnto_fst #[] _

theorem tokensOf_of_lexes {source : String} {ts : List LocatedToken}
    (h : Lexes 0 source.toList (ts.map .ok)) :
    tokensOf source = .ok (ts.map LocatedToken.token) := by
  refine (Scanner.readOnto_fst #[] _).trans ?_
  rw [← h.unique (lexes_start source)]
  exact Scan.verdict_tokens _ ts

end TokenScan
