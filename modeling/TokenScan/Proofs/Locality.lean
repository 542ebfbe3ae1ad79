import TokenScan.Proofs.PartialScan

namespace TokenScan

open Text (byteLength)

/-- What of a scan ends before byte `n`. -/
def Scan.before (n : Nat) (k : Scan) : Scan :=
  ⟨k.tokens.filter fun t => t.span.stop < n, k.error.filter fun e => e.span.stop < n⟩

def endsBefore (n : Nat) (r : Except ScanError LocatedToken) : Bool := (spanOf r).stop < n

namespace Scan

theorem mem_of_mem_tokens {t : LocatedToken} {rs : List (Except ScanError LocatedToken)}
    (h : t ∈ (ofResults rs).tokens) : .ok t ∈ rs := by
  induction rs with
  | nil => cases h
  | cons r rs ih =>
    cases r with
    | error e => cases h
    | ok u =>
      obtain rfl | h := List.mem_cons.1 h
      · exact List.mem_cons_self
      · exact List.mem_cons_of_mem _ (ih h)

theorem before_of_ge {n : Nat} {rs : List (Except ScanError LocatedToken)}
    (h : ∀ r ∈ rs, n ≤ (spanOf r).stop) : (ofResults rs).before n = ⟨[], none⟩ := by
  have htokens : (ofResults rs).tokens.filter (fun t => t.span.stop < n) = [] := by
    rw [List.filter_eq_nil_iff]
    intro t ht
    have hle : n ≤ t.span.stop := h _ (mem_of_mem_tokens ht)
    simpa using hle
  have herror : (ofResults rs).error.filter (fun e => e.span.stop < n) = none := by
    rw [Option.filter_eq_none_iff]
    intro e he
    have hle : n ≤ e.span.stop := h _ (mem_of_error he)
    simpa using hle
  rw [before, htokens, herror]

theorem before_ofResults {n : Nat} {rs : List (Except ScanError LocatedToken)}
    (h : rs.Pairwise fun r r' => (spanOf r).stop ≤ (spanOf r').stop) :
    (ofResults rs).before n = ofResults (rs.takeWhile (endsBefore n)) := by
  induction rs with
  | nil => rfl
  | cons r rs ih =>
    obtain ⟨hfirst, hmore⟩ := List.pairwise_cons.1 h
    by_cases hr : (spanOf r).stop < n
    · rw [List.takeWhile_cons_of_pos (by simpa [endsBefore] using hr)]
      cases r with
      | error e => simp [before, ofResults, show e.span.stop < n from hr]
      | ok t =>
        have hih := ih hmore
        rw [before] at hih ⊢
        simp [ofResults, show t.span.stop < n from hr, ← hih]
    · rw [List.takeWhile_cons_of_neg (by simpa [endsBefore] using hr)]
      have hall : ∀ r' ∈ r :: rs, n ≤ (spanOf r').stop := by
        intro r' hr'
        obtain rfl | hr' := List.mem_cons.1 hr'
        · exact Nat.le_of_not_lt hr
        · exact (Nat.le_of_not_lt hr).trans (hfirst r' hr')
      exact before_of_ge hall

end Scan

namespace Lexes

variable {n : Nat} {cs : List Char} {rs : List (Except ScanError LocatedToken)}

theorem pairwise_stop (h : Lexes n cs rs) (hn : n + byteLength cs ≤ maxOffset) :
    rs.Pairwise fun r r' => (spanOf r).stop ≤ (spanOf r').stop := by
  refine (List.pairwise_map.1 (h.pairwise hn)).imp_of_mem fun {r r'} _ hr' hle => ?_
  obtain ⟨a, text, b, -, hp, -⟩ := h.exists_text hn r' hr'
  rw [hp] at hle ⊢
  exact hle.trans (Nat.le_add_right _ _)

/-- The lexemes that end inside `p`, before its last character, are there whatever follows `p`. -/
theorem steps_of_edit {p x : List Char} (h : Lexes n (p ++ x) rs)
    (hn : n + byteLength (p ++ x) ≤ maxOffset) (y : List Char) :
    ∃ m tail, Steps n (p ++ y) (rs.takeWhile (endsBefore (n + byteLength p))) m tail := by
  generalize hcs : p ++ x = cs at h hn
  induction h generalizing p with
  | blank => exact ⟨_, _, .done⟩
  | @lexeme n cs gap text rest rs hs _ ih =>
    by_cases hr : n + byteLength gap + byteLength text < n + byteLength p
    · -- the lexeme ends inside `p`, so the character after it is in `p` too
      have hp : ∃ c v, p = gap ++ (text ++ c :: v) ∧ rest = c :: v ++ x := by
        have happ : p ++ x = (gap ++ text) ++ rest := by rw [hcs, hs.eq, List.append_assoc]
        obtain ⟨v, hv, -⟩ | ⟨v, hv, hrest⟩ := List.append_eq_append_iff.1 happ
        · have := congrArg byteLength hv
          simp only [Text.byteLength_append] at this
          omega
        · cases v with
          | nil =>
            have := congrArg byteLength hv
            simp only [Text.byteLength_append, Text.byteLength_nil] at this
            omega
          | cons c v => exact ⟨c, v, by rw [hv, List.append_assoc], hrest⟩
      obtain ⟨c, v, rfl, rfl⟩ := hp
      have hover := ((Lexeme.leading_append_eq_iff hs.text_ne_nil).1 hs.leads).2
      have hs' : Split (gap ++ (text ++ c :: v) ++ y) gap text (c :: v ++ y) := by
        rw [List.append_assoc, List.append_assoc]
        exact hs.replace fun d hd => hover d hd
      have hlen := hs.byteLength_eq
      obtain ⟨m, tail, hmore⟩ := ih (p := c :: v) rfl (by omega)
      have hstop : n + byteLength gap + byteLength text + byteLength (c :: v) =
          n + byteLength (gap ++ (text ++ c :: v)) := by
        simp only [Text.byteLength_append]
        omega
      rw [hstop] at hmore
      refine ⟨m, tail, ?_⟩
      rw [List.takeWhile_cons_of_pos]
      · exact .lexeme hs' hmore
      · rw [endsBefore, spanOf_located, hs.clamp_eq hn]
        simpa using hr
    · rw [List.takeWhile_cons_of_neg]
      · exact ⟨_, _, .done⟩
      · rw [endsBefore, spanOf_located, hs.clamp_eq hn]
        simpa using hr

theorem takeWhile_of_edit {p x y : List Char} {rs' : List (Except ScanError LocatedToken)}
    (h : Lexes n (p ++ x) rs) (hn : n + byteLength (p ++ x) ≤ maxOffset)
    (h' : Lexes n (p ++ y) rs') :
    rs.takeWhile (endsBefore (n + byteLength p)) <+:
      rs'.takeWhile (endsBefore (n + byteLength p)) := by
  obtain ⟨m, tail, hsteps⟩ := h.steps_of_edit hn y
  obtain ⟨more, hmore, -⟩ := hsteps.exists_more h'
  have hall : ∀ r ∈ rs.takeWhile (endsBefore (n + byteLength p)),
      endsBefore (n + byteLength p) r = true := List.all_eq_true.1 List.all_takeWhile
  rw [hmore, List.takeWhile_append_of_pos hall]
  exact List.prefix_append _ _

end Lexes

theorem scanOf_before (source : String) (hsize : source.utf8ByteSize ≤ maxOffset) (n : Nat) :
    ∃ rs, Lexes 0 source.toList rs ∧
      (scanOf source).before n = Scan.ofResults (rs.takeWhile (endsBefore n)) := by
  have hlex := lexes_start source
  refine ⟨_, hlex, ?_⟩
  rw [scanOf_of_lexes hlex, Scan.before_ofResults]
  apply hlex.pairwise_stop
  rw [Nat.zero_add, Text.byteLength_toList]
  exact hsize

theorem before_of_edit (p x y : String) (hx : (p ++ x).utf8ByteSize ≤ maxOffset)
    (hy : (p ++ y).utf8ByteSize ≤ maxOffset) :
    (scanOf (p ++ x)).before p.utf8ByteSize = (scanOf (p ++ y)).before p.utf8ByteSize := by
  obtain ⟨rs, hrs, hkx⟩ := scanOf_before (p ++ x) hx p.utf8ByteSize
  obtain ⟨rs', hrs', hky⟩ := scanOf_before (p ++ y) hy p.utf8ByteSize
  rw [← Text.byteLength_toList, String.toList_append] at hx hy
  rw [String.toList_append] at hrs hrs'
  have hle := hrs.takeWhile_of_edit (by rwa [Nat.zero_add]) hrs'
  have hge := hrs'.takeWhile_of_edit (by rwa [Nat.zero_add]) hrs
  rw [Nat.zero_add, Text.byteLength_toList] at hle hge
  rw [hkx, hky, hle.eq_of_length_le hge.length_le]

/-- A scan is local. Whatever follows `p`, the tokens that end before the last byte of `p` are the
same, and so is an error that ends there. -/
theorem scanOf_local (p x y : String) (hx : (p ++ x).utf8ByteSize ≤ maxOffset)
    (hy : (p ++ y).utf8ByteSize ≤ maxOffset) :
    (scanOf (p ++ x)).tokens.filter (fun t => t.span.stop < p.utf8ByteSize) =
      (scanOf (p ++ y)).tokens.filter (fun t => t.span.stop < p.utf8ByteSize) ∧
    ∀ e : ScanError, e.span.stop < p.utf8ByteSize →
      ((scanOf (p ++ x)).error = some e ↔ (scanOf (p ++ y)).error = some e) := by
  obtain ⟨htokens, herror⟩ := Scan.mk.inj (before_of_edit p x y hx hy)
  refine ⟨htokens, fun e he => ?_⟩
  have hmem (k : Scan) :
      k.error = some e ↔ k.error.filter (fun e => e.span.stop < p.utf8ByteSize) = some e := by
    simp [Option.filter_eq_some_iff, he]
  rw [hmem, hmem, herror]

/-- A string straddles the end of `p`: closed by one continuation, left open by the other. -/
theorem scanOf_local_straddling :
    let p := "a 12 # \"b"
    let e : ScanError := ⟨.invalidWord "#", ⟨5, 6⟩⟩
    (p ++ "c\"").utf8ByteSize ≤ maxOffset ∧ (p ++ "é").utf8ByteSize ≤ maxOffset ∧
      e.span.stop < p.utf8ByteSize ∧
      (scanOf (p ++ "c\"")).tokens.filter (fun t => t.span.stop < p.utf8ByteSize) =
        (scanOf (p ++ "é")).tokens.filter (fun t => t.span.stop < p.utf8ByteSize) ∧
      (scanOf (p ++ "c\"")).error = some e ∧ (scanOf (p ++ "é")).error = some e := by
  intro p e
  have hx : (p ++ "c\"").utf8ByteSize ≤ maxOffset := by decide
  have hy : (p ++ "é").utf8ByteSize ≤ maxOffset := by decide
  have he : e.span.stop < p.utf8ByteSize := by decide
  have herror : (scanOf (p ++ "c\"")).error = some e := by decide +kernel
  have h := scanOf_local p "c\"" "é" hx hy
  exact ⟨hx, hy, he, h.1, herror, (h.2 e he).1 herror⟩

end TokenScan
