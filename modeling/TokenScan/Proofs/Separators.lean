import TokenScan.Proofs.PartialScan

namespace TokenScan

open Text (byteLength isBlank)

def Span.shift (k : Nat) (p : Span) : Span := ⟨p.start + k, p.stop + k⟩

def LocatedToken.shift (k : Nat) (t : LocatedToken) : LocatedToken := { t with span := t.span.shift k }

def ScanError.shift (k : Nat) (e : ScanError) : ScanError := { e with span := e.span.shift k }

/-- The same result `k` bytes further on. -/
def shiftResult (k : Nat) : Except ScanError LocatedToken → Except ScanError LocatedToken
  | .ok t => .ok (t.shift k)
  | .error e => .error (e.shift k)

theorem shiftResult_located (k : Nat) (p : Span) (r : Except Fault Token) :
    shiftResult k (Lexeme.located p r) = Lexeme.located (p.shift k) r := by
  cases r <;> rfl

namespace Lexes

variable {n : Nat} {cs : List Char} {rs : List (Except ScanError LocatedToken)}

theorem shift (h : Lexes n cs rs) {k : Nat} (hn : n + k + byteLength cs ≤ maxOffset) :
    Lexes (n + k) cs (rs.map (shiftResult k)) := by
  induction h with
  | blank hb => exact .blank hb
  | @lexeme n cs gap text rest rs hs _ ih =>
    have hlen := hs.byteLength_eq
    have hmore := ih (by omega)
    have hplace : n + byteLength gap + byteLength text + k =
        n + k + byteLength gap + byteLength text := by omega
    rw [hplace] at hmore
    have hspan : (Span.clamp (n + byteLength gap)
        (n + byteLength gap + byteLength text)).shift k =
        .clamp (n + k + byteLength gap) (n + k + byteLength gap + byteLength text) := by
      rw [hs.clamp_eq (by omega), hs.clamp_eq hn, Span.shift, Span.mk.injEq]
      dsimp only
      omega
    rw [List.map_cons, shiftResult_located, hspan]
    exact .lexeme hs hmore

end Lexes

/-- The tokens of separators that begin at byte `n`: their semicolons. -/
def semicolons (n : Nat) : List Char → List LocatedToken
  | [] => []
  | c :: cs =>
    if c = ';' then ⟨.symbol ';', ⟨n, n + 1⟩⟩ :: semicolons (n + 1) cs
    else semicolons (n + c.utf8Size) cs

theorem split_semicolon (cs : List Char) : Split (';' :: cs) [] [';'] cs :=
  ⟨rfl, nofun, ⟨';', rfl, by decide⟩, rfl⟩

theorem Lexes.separators {w cs : List Char} {rs : List (Except ScanError LocatedToken)} {n : Nat}
    (hw : ∀ c ∈ w, isSeparator c = true) (hn : n + byteLength w ≤ maxOffset)
    (h : Lexes (n + byteLength w) cs rs) :
    Lexes n (w ++ cs) ((semicolons n w).map .ok ++ rs) := by
  induction w generalizing n with
  | nil => exact h
  | cons c w ih =>
    obtain ⟨hc, hw⟩ := List.forall_mem_cons.1 hw
    rw [Text.byteLength_cons, ← Nat.add_assoc] at hn h
    have hmore := ih hw hn h
    by_cases hs : c = ';'
    · subst hs
      have hspan : Span.clamp (n + byteLength []) (n + byteLength [] + byteLength [';']) =
          ⟨n, n + 1⟩ := by
        have hle : n + 1 ≤ maxOffset := (Nat.le_add_right _ _).trans hn
        exact Span.clamp_eq ((Nat.le_succ n).trans hle) hle
      have hlex := Lexes.lexeme (n := n) (split_semicolon (w ++ cs)) hmore
      rw [hspan] at hlex
      rw [semicolons, if_pos rfl]
      exact hlex
    · have hb : isBlank c = true := by simpa [isSeparator, hs] using hc
      rw [semicolons, if_neg hs]
      rw [← List.singleton_append, List.append_assoc]
      exact Lexes.blank_append (by simpa using hb) (by simpa using hmore)

namespace Scan

theorem ofResults_shift (k : Nat) (rs : List (Except ScanError LocatedToken)) :
    ofResults (rs.map (shiftResult k)) =
      ⟨(ofResults rs).tokens.map (.shift k), (ofResults rs).error.map (.shift k)⟩ := by
  induction rs with
  | nil => rfl
  | cons r rs ih =>
    cases r with
    | error e => rfl
    | ok t => rw [List.map_cons, shiftResult, ofResults, ih, ofResults, List.map_cons]

end Scan

/-- A scan without errors goes on behind a separator. -/
theorem Lexes.append_separated {n : Nat} {a w : List Char} {ts : List LocatedToken}
    {rs : List (Except ScanError LocatedToken)} (ha : Lexes n a (ts.map .ok))
    (hw : ∀ c ∈ w.head?, isSeparator c = true) (h : Lexes (n + byteLength a) w rs) :
    Lexes n (a ++ w) (ts.map .ok ++ rs) := by
  rw [← List.append_nil (ts.map _)] at ha
  obtain ⟨m, tail, hsteps, hend⟩ := Steps.of_lexes ha
  have hclosed : ∀ r ∈ ts.map Except.ok, isOpen r = false := by simp [isOpen]
  rw [← hsteps.pos_eq] at h
  cases hend with
  | blank hb => exact (hsteps.append hclosed hw).finish (h.blank_append hb)

theorem scanOf_append_of_ok {a w b : String} (hw : ∀ c ∈ w.toList, isSeparator c = true)
    (hhead : ∀ c ∈ (w ++ b).toList.head?, isSeparator c = true)
    (hsize : (a ++ w ++ b).utf8ByteSize ≤ maxOffset) {ts : List LocatedToken}
    (ha : Lexes 0 a.toList (ts.map .ok)) :
    scanOf (a ++ w ++ b) =
      ⟨ts ++ (semicolons a.utf8ByteSize w.toList ++
          (scanOf b).tokens.map (.shift (a.utf8ByteSize + w.utf8ByteSize))),
        (scanOf b).error.map (.shift (a.utf8ByteSize + w.utf8ByteSize))⟩ := by
  have hlen (s : String) : s.utf8ByteSize = byteLength s.toList := (Text.byteLength_toList s).symm
  rw [hlen, String.toList_append, String.toList_append] at hsize
  simp only [Text.byteLength_append] at hsize
  -- the second text, the separators before it, and the first text before both
  have hb := (lexes_start b).shift (k := byteLength a.toList + byteLength w.toList) (by omega)
  rw [Nat.zero_add] at hb
  have hwb := Lexes.separators hw (by omega) hb
  rw [← String.toList_append] at hwb
  have hall := ha.append_separated hhead (by rwa [Nat.zero_add])
  rw [← String.toList_append, ← String.append_assoc] at hall
  rw [scanOf_of_lexes hall, Scan.ofResults_append, Scan.ofResults_append, Scan.ofResults_shift,
    scanOf_of_lexes (lexes_start b), hlen, hlen]

theorem scanOf_append_of_invalidWord {a w : String} (hw : ∀ c ∈ w.toList.head?, isSeparator c = true)
    {t : String} {p : Span} (ha : (scanOf a).error = some ⟨.invalidWord t, p⟩) :
    scanOf (a ++ w) = scanOf a := by
  have hlex := lexes_start a
  rw [scanOf_of_lexes hlex] at ha ⊢
  obtain ⟨ts, more, hrs⟩ := Scan.exists_of_error ha
  rw [hrs, List.append_cons] at hlex
  obtain ⟨m, tail, hsteps, -⟩ := Steps.of_lexes hlex
  have hclosed : ∀ r ∈ ts.map Except.ok ++ [Except.error ⟨.invalidWord t, p⟩],
      isOpen r = false := by simp [isOpen, or_imp, forall_and]
  have hall := lexes_start (a ++ w)
  rw [String.toList_append] at hall
  obtain ⟨more', hmore', -⟩ := (hsteps.append hclosed hw).exists_more hall
  rw [scanOf_of_lexes (lexes_start (a ++ w)), hmore', hrs, ← List.append_cons,
    Scan.ofResults_append, Scan.ofResults_append]
  rfl

/-- A scan of two texts with separators between them is the scan of the first, the semicolons, and
the scan of the second moved behind both, with its error if it has one. An invalid word in the first
ends it as if nothing followed. -/
theorem scanOf_separated (a w b : String) (hne : w ≠ "")
    (hw : ∀ c ∈ w.toList, isBlank c = true ∨ c = ';')
    (hsize : (a ++ w ++ b).utf8ByteSize ≤ maxOffset) :
    (∀ ts, locatedTokensOf a = .ok ts →
      scanOf (a ++ w ++ b) =
        ⟨ts ++ (semicolons a.utf8ByteSize w.toList ++
            (scanOf b).tokens.map (.shift (a.utf8ByteSize + w.utf8ByteSize))),
          (scanOf b).error.map (.shift (a.utf8ByteSize + w.utf8ByteSize))⟩) ∧
    ∀ t p, (scanOf a).error = some ⟨.invalidWord t, p⟩ → scanOf (a ++ w ++ b) = scanOf a := by
  have hsep : ∀ c ∈ w.toList, isSeparator c = true := by simpa [isSeparator] using hw
  have hhead : ∀ c ∈ (w ++ b).toList.head?, isSeparator c = true := by
    obtain ⟨c, cs, hc⟩ := List.exists_cons_of_ne_nil (mt String.toList_eq_nil_iff.1 hne)
    rw [String.toList_append, hc]
    simpa using hsep c (hc ▸ List.mem_cons_self)
  constructor
  · intro ts hts
    obtain ⟨us, hus, rfl⟩ := Scan.exists_of_verdict
      ((Scanner.locateOnto_eq #[] (Scanner.start a)).symm.trans hts)
    exact scanOf_append_of_ok hsep hhead hsize (hus ▸ lexes_start a)
  · intro t p ht
    rw [String.append_assoc]
    exact scanOf_append_of_invalidWord hhead ht

theorem scanOf_separated_fault :
    let a := "x=1 "
    let w := ";\u00A0;"
    let b := "\"é\"y #"
    w ≠ "" ∧ (∀ c ∈ w.toList, isBlank c = true ∨ c = ';') ∧
      (a ++ w ++ b).utf8ByteSize ≤ maxOffset ∧ (b ++ w ++ a).utf8ByteSize ≤ maxOffset ∧
      locatedTokensOf a =
        .ok [⟨.name "x", ⟨0, 1⟩⟩, ⟨.symbol '=', ⟨1, 2⟩⟩, ⟨.number ⟨0x3FF0000000000000⟩, ⟨2, 3⟩⟩] ∧
      (scanOf (a ++ w ++ b)).tokens.drop 3 =
        [⟨.symbol ';', ⟨4, 5⟩⟩, ⟨.symbol ';', ⟨7, 8⟩⟩, ⟨.stringLiteral "é", ⟨8, 12⟩⟩,
          ⟨.name "y", ⟨12, 13⟩⟩] ∧
      (scanOf (a ++ w ++ b)).error = some ⟨.invalidWord "#", ⟨14, 15⟩⟩ ∧
      (scanOf b).error = some ⟨.invalidWord "#", ⟨6, 7⟩⟩ ∧ scanOf (b ++ w ++ a) = scanOf b := by
  intro a w b
  have hne : w ≠ "" := by decide
  have hw : ∀ c ∈ w.toList, isBlank c = true ∨ c = ';' := by
    have hlist : w.toList = [';', '\u00A0', ';'] := by decide
    have hb : isBlank '\u00A0' = true := by decide
    simp [hlist, hb]
  have hsize : (a ++ w ++ b).utf8ByteSize ≤ maxOffset := by decide
  have hsize' : (b ++ w ++ a).utf8ByteSize ≤ maxOffset := by decide
  have ha : locatedTokensOf a = .ok [⟨.name "x", ⟨0, 1⟩⟩, ⟨.symbol '=', ⟨1, 2⟩⟩,
      ⟨.number ⟨0x3FF0000000000000⟩, ⟨2, 3⟩⟩] := by decide +kernel
  have hb : (scanOf b).error = some ⟨.invalidWord "#", ⟨6, 7⟩⟩ := by decide +kernel
  have hall := (scanOf_separated a w b hne hw hsize).1 _ ha
  refine ⟨hne, hw, hsize, hsize', ha, ?_, ?_, hb,
    (scanOf_separated b w a hne hw hsize').2 _ _ hb⟩
  · rw [hall]
    decide +kernel
  · rw [hall]
    decide +kernel

end TokenScan
