import Mathlib.Data.List.Forall2
import TokenScan.Proofs.Spelling

namespace TokenScan

open Text (byteLength isBlank)
open Lexeme (Says)

/-- `first`, and then each of `texts` with the one of `gaps` that follows it. -/
def laidOut (first : String) : List String → List String → String
  | text :: texts, gap :: gaps => first ++ text ++ laidOut gap texts gaps
  | _, _ => first

/-- Where `texts` lie in their layout, which begins at byte `n`. -/
def places (n : Nat) (first : String) : List String → List String → List Span
  | text :: texts, gap :: gaps =>
    let start := n + first.utf8ByteSize
    let stop := start + text.utf8ByteSize
    ⟨start, stop⟩ :: places stop gap texts gaps
  | _, _ => []

/-- A layout has white space alone around its texts, with one of `gaps` for each of them. -/
structure IsLayout (first : String) (texts gaps : List String) : Prop where
  length : gaps.length = texts.length
  blank : ∀ g ∈ first :: gaps, ∀ c ∈ g.toList, isBlank c = true

namespace IsLayout

variable {first text gap : String} {texts gaps : List String}

theorem tail (h : IsLayout first (text :: texts) (gap :: gaps)) : IsLayout gap texts gaps :=
  ⟨Nat.succ.inj h.length, (List.forall_mem_cons.1 h.blank).2⟩

theorem first_blank (h : IsLayout first texts gaps) : ∀ c ∈ first.toList, isBlank c = true :=
  h.blank first List.mem_cons_self

end IsLayout

theorem toList_laidOut_cons (first text gap : String) (texts gaps : List String) :
    (laidOut first (text :: texts) (gap :: gaps)).toList =
      first.toList ++ (text.toList ++ (laidOut gap texts gaps).toList) := by
  rw [laidOut, String.toList_append, String.toList_append, List.append_assoc]

theorem utf8ByteSize_laidOut_cons (first text gap : String) (texts gaps : List String) :
    (laidOut first (text :: texts) (gap :: gaps)).utf8ByteSize =
      first.utf8ByteSize + text.utf8ByteSize + (laidOut gap texts gaps).utf8ByteSize := by
  rw [laidOut, String.utf8ByteSize_append, String.utf8ByteSize_append]

theorem head?_laidOut {first : String} {texts gaps : List String} (h : IsLayout first texts gaps)
    (hne : texts ≠ [] → first ≠ "") :
    ∀ c ∈ (laidOut first texts gaps).toList.head?, isBlank c = true := by
  intro c hc
  have hblank := h.first_blank
  cases texts with
  | nil =>
    rw [laidOut] at hc
    · exact hblank c (List.mem_of_mem_head? hc)
    · nofun
  | cons text texts =>
    cases gaps with
    | nil => cases h.length
    | cons gap gaps =>
      have hfirst : first.toList ≠ [] := mt String.toList_eq_nil_iff.1 (hne (List.cons_ne_nil _ _))
      obtain ⟨x, xs, hx⟩ := List.exists_cons_of_ne_nil hfirst
      rw [toList_laidOut_cons, hx] at hc
      obtain rfl := Option.some.inj hc
      exact hblank x (hx ▸ List.mem_cons_self)

theorem mapM_slice?_places {first : String} {texts gaps : List String}
    (hlen : gaps.length = texts.length) (before : List Char) {full : List Char} {n : Nat}
    (hfull : full = before ++ (laidOut first texts gaps).toList) (hn : byteLength before = n) :
    (places n first texts gaps).mapM (fun p => Text.slice? full p.start p.stop) =
      some (texts.map String.toList) := by
  induction texts generalizing first gaps before n with
  | nil =>
    rw [places]
    · rfl
    · nofun
  | cons text texts ih =>
    cases gaps with
    | nil => cases hlen
    | cons gap gaps =>
      rw [toList_laidOut_cons] at hfull
      have hslice : Text.slice? full (n + first.utf8ByteSize)
          (n + first.utf8ByteSize + text.utf8ByteSize) = some text.toList := by
        refine Text.slice?_eq_some_iff.2
          ⟨before ++ first.toList, (laidOut gap texts gaps).toList, by simp [hfull], ?_, ?_⟩ <;>
        simp only [Text.byteLength_append, Text.byteLength_toList, hn]
      have hcut : full = before ++ first.toList ++ text.toList ++ (laidOut gap texts gaps).toList := by
        simp [hfull]
      have hlast : byteLength (before ++ first.toList ++ text.toList) =
          n + first.utf8ByteSize + text.utf8ByteSize := by
        simp only [Text.byteLength_append, Text.byteLength_toList, hn]
      have hmore := ih (Nat.succ.inj hlen) _ hcut hlast
      rw [places, List.mapM_cons, hslice, Option.bind_eq_bind, Option.bind_some, hmore]
      rfl

theorem locatedTokensOf_eq_ok_iff {source : String} {ts : List LocatedToken} :
    locatedTokensOf source = .ok ts ↔ Lexes 0 source.toList (ts.map .ok) := by
  rw [locatedTokensOf_eq, scanOf_eq]
  constructor
  · intro h
    obtain ⟨us, hus, rfl⟩ := Scan.exists_of_verdict h
    exact hus ▸ lexes_start source
  · intro h
    rw [← h.unique (lexes_start source)]
    exact Scan.verdict_tokens id ts

theorem exists_laidOut {n : Nat} {cs : List Char} {ts : List LocatedToken}
    (h : Lexes n cs (ts.map .ok)) :
    ∃ first texts gaps, cs = (laidOut first texts gaps).toList ∧ IsLayout first texts gaps ∧
      List.Forall₂ (fun text t => Says text.toList t.token) texts ts ∧
      (n + byteLength cs ≤ maxOffset → ts.map LocatedToken.span = places n first texts gaps) := by
  generalize hrs : ts.map Except.ok = rs at h
  induction h generalizing ts with
  | @blank n cs hb =>
    obtain rfl := List.map_eq_nil_iff.1 hrs
    refine ⟨String.ofList cs, [], [], ?_, ⟨rfl, ?_⟩, .nil, fun _ => ?_⟩
    · rw [laidOut]
      · exact String.toList_ofList.symm
      · nofun
    · simpa using hb
    · rw [places]
      · rfl
      · nofun
  | @lexeme n cs gap text rest rs hs _ ih =>
    cases ts with
    | nil => cases hrs
    | cons t ts =>
      obtain ⟨ht, hts⟩ := List.cons.inj hrs
      obtain ⟨first, texts, gaps, hcs, hlay, hmean, hspans⟩ := ih hts
      have hm : Lexeme.meaning text = .ok t.token ∧
          t.span = .clamp (n + byteLength gap) (n + byteLength gap + byteLength text) := by
        cases hr : Lexeme.meaning text <;> rw [hr] at ht <;> cases ht
        exact ⟨rfl, rfl⟩
      have hsize (cs : List Char) : (String.ofList cs).utf8ByteSize = byteLength cs := by
        rw [← Text.byteLength_toList, String.toList_ofList]
      refine ⟨String.ofList gap, String.ofList text :: texts, first :: gaps, ?_, ⟨?_, ?_⟩,
        .cons ?_ hmean, fun hn => ?_⟩
      · rw [toList_laidOut_cons, String.toList_ofList, String.toList_ofList, ← hcs, hs.eq]
      · rw [List.length_cons, List.length_cons, hlay.length]
      · refine List.forall_mem_cons.2 ⟨?_, hlay.blank⟩
        rw [String.toList_ofList]
        exact hs.blank
      · rw [String.toList_ofList]
        exact .of_split hs hm.1
      · have hlen := hs.byteLength_eq
        rw [places, hsize, hsize, List.map_cons, hm.2, hs.clamp_eq hn, hspans (by omega)]

/-- Lexemes in a layout with white space between any two give their tokens, each at its place. -/
theorem lexes_laidOut {first : String} {texts gaps : List String} {ts : List Token}
    (hmean : List.Forall₂ (fun text t => Says text.toList t) texts ts)
    (hlay : IsLayout first texts gaps) (hgaps : ∀ g ∈ gaps.dropLast, g ≠ "") {n : Nat}
    (hn : n + (laidOut first texts gaps).utf8ByteSize ≤ maxOffset) :
    Lexes n (laidOut first texts gaps).toList
      ((List.zipWith LocatedToken.mk ts (places n first texts gaps)).map .ok) := by
  induction hmean generalizing first gaps n with
  | nil =>
    rw [laidOut]
    · exact .blank hlay.first_blank
    · nofun
  | @cons text t texts ts ht _ ih =>
    cases gaps with
    | nil => cases hlay.length
    | cons gap gaps =>
      rw [utf8ByteSize_laidOut_cons] at hn
      have hgap : texts ≠ [] → gap ≠ "" := by
        intro hne
        have hne' : gaps ≠ [] := by
          rw [← List.length_pos_iff, hlay.tail.length]
          exact List.length_pos_iff.2 hne
        exact hgaps gap (by rw [List.dropLast_cons_of_ne_nil hne']; exact List.mem_cons_self)
      have hgaps' : ∀ g ∈ gaps.dropLast, g ≠ "" := by
        intro g hg
        refine hgaps g ?_
        rw [List.dropLast_cons_of_ne_nil (by rintro rfl; cases hg)]
        exact List.mem_cons_of_mem gap hg
      have hmore := ih hlay.tail hgaps' (n := n + first.utf8ByteSize + text.utf8ByteSize) (by omega)
      have hrest : ∀ c ∈ (laidOut gap texts gaps).toList.head?, isSeparator c = true := by
        intro c hc
        rw [isSeparator, head?_laidOut hlay.tail hgap c hc, Bool.true_or]
      rw [← Text.byteLength_toList first, ← Text.byteLength_toList text] at hmore
      have hlex := ht.lexes_behind hlay.first_blank hrest hmore
      rw [Text.byteLength_toList, Text.byteLength_toList, Span.clamp_eq (by omega) (by omega)]
        at hlex
      rw [toList_laidOut_cons, places]
      exact hlex

theorem length_places {first : String} {texts gaps : List String} {n : Nat}
    (hlen : gaps.length = texts.length) : (places n first texts gaps).length = texts.length := by
  induction texts generalizing first gaps n with
  | nil =>
    rw [places]
    · rfl
    · nofun
  | cons text texts ih =>
    cases gaps with
    | nil => cases hlen
    | cons gap gaps => rw [places, List.length_cons, ih (Nat.succ.inj hlen), List.length_cons]

theorem tokensOf_of_says {text : String} {t : Token} (h : Says text.toList t) :
    tokensOf text = .ok [t] := by
  obtain ⟨p, hlex⟩ : ∃ p, Lexes 0 (text.toList ++ []) ([LocatedToken.mk t p].map .ok) :=
    h.lexes nofun (.blank nofun)
  rw [List.append_nil] at hlex
  exact tokensOf_of_lexes hlex

/-- Layout does not matter. A source without errors is laid out from one text for each of its tokens,
the slice that the token has its place at. Each of these texts alone gives its token, and together
they give the tokens of the source in every layout that has some white space between any two of
them, each token at the place of its text. -/
theorem tokensOf_relayout (source : String) (ts : List LocatedToken)
    (hts : locatedTokensOf source = .ok ts) :
    ∃ texts : List String,
      (∃ first gaps, IsLayout first texts gaps ∧ source = laidOut first texts gaps) ∧
      (source.utf8ByteSize ≤ maxOffset →
        (ts.map LocatedToken.span).mapM (fun p => Text.slice? source.toList p.start p.stop) =
          some (texts.map String.toList)) ∧
      List.Forall₂ (fun text t => tokensOf text = .ok [t.token]) texts ts ∧
      ∀ first gaps, IsLayout first texts gaps → (∀ g ∈ gaps.dropLast, g ≠ "") →
        let laid := laidOut first texts gaps
        laid.utf8ByteSize ≤ maxOffset →
        tokensOf laid = .ok (ts.map LocatedToken.token) ∧
        locatedTokensOf laid =
          .ok (List.zipWith LocatedToken.mk (ts.map LocatedToken.token)
            (places 0 first texts gaps)) := by
  obtain ⟨first, texts, gaps, hcs, hlay, hmean, hspans⟩ :=
    exists_laidOut (locatedTokensOf_eq_ok_iff.1 hts)
  rw [Nat.zero_add, Text.byteLength_toList] at hspans
  refine ⟨texts, ⟨first, gaps, hlay, String.toList_inj.1 hcs⟩, fun hsize => ?_,
    hmean.imp fun _ _ h => tokensOf_of_says h, fun first' gaps' hlay' hgaps => ?_⟩
  · rw [hspans hsize]
    exact mapM_slice?_places hlay.length [] hcs rfl
  · intro laid hsize
    have hlex := lexes_laidOut (List.forall₂_map_right_iff.2 hmean) hlay' hgaps (n := 0)
      (by rwa [Nat.zero_add])
    have htokens : (List.zipWith LocatedToken.mk (ts.map LocatedToken.token)
        (places 0 first' texts gaps')).map LocatedToken.token = ts.map LocatedToken.token := by
      have hlen : (ts.map LocatedToken.token).length ≤ (places 0 first' texts gaps').length := by
        rw [length_places hlay'.length, hmean.length_eq, List.length_map]
      rw [List.map_zipWith]
      exact List.map_zip_eq_zipWith.symm.trans (List.map_fst_zip hlen)
    refine ⟨?_, locatedTokensOf_eq_ok_iff.2 hlex⟩
    rw [tokensOf_of_lexes hlex, htokens]

theorem tokensOf_relayout_touching :
    let source := "\"é\"x=5;"
    let ts : List LocatedToken := [⟨.stringLiteral "é", ⟨0, 4⟩⟩, ⟨.name "x", ⟨4, 5⟩⟩,
      ⟨.symbol '=', ⟨5, 6⟩⟩, ⟨.number ⟨0x4014000000000000⟩, ⟨6, 7⟩⟩, ⟨.symbol ';', ⟨7, 8⟩⟩]
    let texts := ["\"é\"", "x", "=", "5", ";"]
    let gaps := ["\n", " ", "\u00A0", "\t ", ""]
    locatedTokensOf source = .ok ts ∧ source.utf8ByteSize ≤ maxOffset ∧ IsLayout " " texts gaps ∧
      (∀ g ∈ gaps.dropLast, g ≠ "") ∧ (laidOut " " texts gaps).utf8ByteSize ≤ maxOffset ∧
      laidOut " " texts gaps = " \"é\"\nx =\u00A05\t ;" ∧
      tokensOf (laidOut " " texts gaps) = .ok (ts.map LocatedToken.token) ∧
      tokensOf "x" = .ok [.name "x"] := by
  intro source ts texts gaps
  have hts : locatedTokensOf source = .ok ts := by decide +kernel
  have hsize : source.utf8ByteSize ≤ maxOffset := by decide
  have hblank : (" " :: gaps).all (fun g => g.toList.all isBlank) = true := by decide +kernel
  have hlay : IsLayout " " texts gaps :=
    ⟨rfl, fun g hg c hc => List.all_eq_true.1 (List.all_eq_true.1 hblank g hg) c hc⟩
  have hgaps : ∀ g ∈ gaps.dropLast, g ≠ "" := by decide
  have hlaid : (laidOut " " texts gaps).utf8ByteSize ≤ maxOffset := by decide +kernel
  obtain ⟨us, -, hslices, halone, hrelaid⟩ := tokensOf_relayout source ts hts
  have hus : us = texts := by
    apply List.map_injective_iff.2 fun _ _ => String.toList_inj.1
    apply Option.some.inj
    rw [← hslices hsize]
    decide +kernel
  subst hus
  refine ⟨hts, hsize, hlay, hgaps, hlaid, by decide +kernel, (hrelaid _ _ hlay hgaps hlaid).1, ?_⟩
  exact (List.forall₂_cons.1 (List.forall₂_cons.1 halone).2).1

end TokenScan
