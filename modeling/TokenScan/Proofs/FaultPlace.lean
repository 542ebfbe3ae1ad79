import TokenScan.Proofs.PartialScan
import TokenScan.Proofs.ReportShape

namespace TokenScan

open Text (byteLength isBlank)

theorem Word.not_blank_of_leading {x : Char} {xs : List Char} (hx : isBlank x = false) :
    ∀ c ∈ leading (x :: xs), isBlank c = false := by
  apply forall_mem_leading (isBlank · = false) hx
  · exact fun _ hc => isBlank_of_isNumeral hc
  · exact fun _ hc => (goesOn_iff.1 hc).1

namespace Lexeme

theorem exists_of_invalidWord {text : List Char} {w : String}
    (hm : meaning text = .error (.invalidWord w)) :
    ∃ x xs, text = x :: xs ∧ x ≠ ';' ∧ x ≠ '"' ∧ w = String.ofList text ∧
      Word.classify? text = none := by
  cases text with
  | nil => cases hm
  | cons x xs =>
    have hs : x ≠ ';' := by
      rintro rfl
      cases hm
    have hq : x ≠ '"' := by
      rintro rfl
      rw [meaning_of_quote] at hm
      split at hm <;> cases hm
    rw [meaning_of_word hs hq] at hm
    split at hm
    · cases hm
    next hn =>
      cases hm
      exact ⟨x, xs, rfl, hs, hq, rfl, hn⟩

variable {text rest : List Char} (h : Split (text ++ rest) [] text rest)
include h

theorem spells_fault {f : Fault} (hm : meaning text = .error f) :
    Spells text rest (.error ⟨f, .empty⟩) := by
  have hspell := spells_meaning h.leads h.text_ne_nil .empty
  rwa [hm] at hspell

theorem leading_of_invalidWord {w : String} (hm : meaning text = .error (.invalidWord w)) :
    Word.leading text = text := by
  obtain ⟨x, xs, rfl, hs, hq, -⟩ := exists_of_invalidWord hm
  rw [← leading_of_word hs hq]
  exact ((leading_append_eq_iff h.text_ne_nil).1 h.leads).1

theorem not_blank_of_invalidWord {w : String} (hm : meaning text = .error (.invalidWord w)) :
    ∀ c ∈ text, isBlank c = false := by
  obtain ⟨x, xs, rfl, -⟩ := exists_of_invalidWord hm
  obtain ⟨c, hc, hb⟩ := h.solid
  cases hc
  rw [← leading_of_invalidWord h hm]
  exact Word.not_blank_of_leading hb

end Lexeme

/-- The error of a scan is the fault of a lexeme. -/
theorem exists_of_scanOf_error {source : String} (hsize : source.utf8ByteSize ≤ maxOffset)
    {e : ScanError} (h : (scanOf source).error = some e) :
    ∃ before text rest, source.toList = before ++ (text ++ rest) ∧
      Split (text ++ rest) [] text rest ∧ Lexeme.meaning text = .error e.fault ∧
      e.span = ⟨byteLength before, byteLength before + byteLength text⟩ := by
  have hlex := lexes_start source
  rw [scanOf_of_lexes hlex] at h
  have hn : 0 + byteLength source.toList ≤ maxOffset := by
    rw [Nat.zero_add, Text.byteLength_toList]
    exact hsize
  obtain ⟨before, text, rest, hs, hsplit, he⟩ := hlex.exists_lexeme hn _ (Scan.mem_of_error h)
  rw [Nat.zero_add] at he
  refine ⟨before, text, rest, hs, hsplit, ?_⟩
  cases hm : Lexeme.meaning text with
  | ok t =>
    rw [hm] at he
    cases he
  | error f =>
    rw [hm] at he
    cases he
    exact ⟨rfl, rfl⟩

namespace Diagnostic

theorem ofError?_of_isLine (path : String) {source : String} {e : ScanError}
    {above left right below marked after : List Char}
    (hline : IsLine source.toList above (left ++ right) below)
    (hmarked : right ++ below = marked ++ after)
    (hspan : e.span = ⟨byteLength (above ++ left), byteLength (above ++ left) + byteLength marked⟩) :
    let shown := (left ++ right).rdropWhile (· = '\r')
    ofError? path source e = some ⟨e.fault, path, above.count '\n' + 1, left.length + 1,
      String.ofList shown, max 1 (min marked.length (shown.length - left.length))⟩ := by
  intro shown
  have hcut : source.toList = above ++ left ++ marked ++ after := by
    rw [hline.eq, List.append_assoc, hmarked, ← List.append_assoc, ← List.append_assoc]
  have hsize : source.utf8ByteSize =
      byteLength (above ++ left) + byteLength marked + byteLength after := by
    rw [← Text.byteLength_toList, hcut, Text.byteLength_append, Text.byteLength_append]
  have hslice : Text.slice? source.toList (byteLength (above ++ left))
      (byteLength (above ++ left) + byteLength marked) = some marked :=
    Text.slice?_eq_some_iff.2 ⟨above ++ left, after, hcut, rfl, rfl⟩
  have hwithin : e.span.within source.utf8ByteSize = e.span := by
    rw [hspan, Span.within, Span.mk.injEq]
    constructor <;> dsimp only <;> omega
  have hcolumn := hline.lineColumn? rfl
  rw [← Text.byteLength_append] at hcolumn
  have hd := ofError?_eq_some path (by rwa [hwithin, hspan]) hline.lineText?
    (by rwa [hwithin, hspan])
  rwa [String.length_ofList, Nat.add_sub_cancel] at hd

end Diagnostic

/-- What carets mark of the text `ahead`: a bad word as a whole, and an open string as far as it
is shown. -/
def Fault.Marks (ahead : List Char) (carets : Nat) : Fault → Prop
  | invalidWord w => ahead.take carets = w.toList ∧ carets = w.length
  | unterminatedString => ahead.head? = some '"' ∧ ahead.take carets = ahead ∧
      carets = ahead.length ∧ 1 ≤ carets
  | unexpectedEnd => False

theorem shown_append {seen : List Char} (hne : seen ≠ []) (hb : ∀ c ∈ seen, isBlank c = false)
    (left more : List Char) :
    (left ++ (seen ++ more).takeWhile (· ≠ '\n')).rdropWhile (· = '\r') =
      left ++ (seen ++ (more.takeWhile (· ≠ '\n')).rdropWhile (· = '\r')) := by
  have hrun : ∀ c ∈ seen, decide (c ≠ '\n') = true := by
    intro c hc
    rw [decide_eq_true_eq]
    rintro rfl
    exact absurd (hb _ hc) (by decide)
  have hlast : ∀ c ∈ (left ++ seen).getLast?, decide (c = '\r') = false := by
    intro c hc
    rw [List.getLast?_append_of_ne_nil left hne] at hc
    rw [decide_eq_false_iff_not]
    rintro rfl
    exact absurd (hb _ (List.mem_of_getLast? hc)) (by decide)
  rw [List.takeWhile_append_of_pos hrun, ← List.append_assoc,
    Text.rdropWhile_append_of_last hlast, List.append_assoc]

/-- The carets below a lexeme mark its fault. -/
theorem marks_of_split {text rest : List Char} {f : Fault} (left : List Char)
    (h : Split (text ++ rest) [] text rest) (hm : Lexeme.meaning text = .error f) :
    let shown := (left ++ (text ++ rest).takeWhile (· ≠ '\n')).rdropWhile (· = '\r')
    f.Marks (shown.drop left.length)
      (max 1 (min text.length (shown.length - left.length))) := by
  intro shown
  cases f with
  | invalidWord w =>
    have htext : text = w.toList := Lexeme.spells_fault h hm
    have hb := Lexeme.not_blank_of_invalidWord h hm
    have hpos := List.length_pos_iff.2 h.text_ne_nil
    have hshown : shown = left ++ (text ++ _) := shown_append h.text_ne_nil hb left rest
    have hcarets : max 1 (min text.length (shown.length - left.length)) = text.length := by
      rw [hshown, List.length_append, List.length_append]
      omega
    rw [Fault.Marks, hcarets, hshown, List.drop_left, List.take_left, htext]
    exact ⟨rfl, String.length_toList⟩
  | unterminatedString =>
    obtain ⟨hquote, rfl⟩ : text.head? = some '"' ∧ rest = [] := Lexeme.spells_fault h hm
    obtain ⟨xs, rfl⟩ := List.head?_eq_some_iff.1 hquote
    have hb : ∀ c ∈ ['"'], isBlank c = false := List.forall_mem_singleton.2 (by decide)
    have hshown : shown = left ++ (['"'] ++ (xs.takeWhile (· ≠ '\n')).rdropWhile (· = '\r')) := by
      rw [← shown_append (List.cons_ne_nil _ _) hb left xs, ← List.append_nil (['"'] ++ xs)]
      rfl
    have hle : ((xs.takeWhile (· ≠ '\n')).rdropWhile (· = '\r')).length ≤ xs.length :=
      (List.rdropWhile_prefix _ _).length_le.trans (List.takeWhile_prefix _).length_le
    have hcarets : max 1 (min ('"' :: xs).length (shown.length - left.length)) =
        (shown.drop left.length).length := by
      rw [hshown, List.drop_left]
      simp only [List.length_append, List.length_cons, List.length_nil]
      omega
    rw [Fault.Marks, hcarets, List.take_length, hshown, List.drop_left]
    refine ⟨rfl, rfl, rfl, ?_⟩
    rw [List.length_append]
    exact Nat.le_add_right _ _
  | unexpectedEnd => exact Lexeme.spells_fault h hm

/-- The report of an error in a scan names the line and the column where the faulty text starts,
shows that line, and marks that text on it. -/
theorem report_marks (path source : String) (e : ScanError)
    (hsize : source.utf8ByteSize ≤ maxOffset) (herror : (scanOf source).error = some e) :
    ∃ before after, source.toList = before ++ after ∧ byteLength before = e.span.start ∧
      let left := before.rtakeWhile (· ≠ '\n')
      let shown := (left ++ after.takeWhile (· ≠ '\n')).rdropWhile (· = '\r')
      let line := before.count '\n' + 1
      let column := left.length + 1
      let margin := Diagnostic.spaces (toString line).length
      ∃ advice carets, e.fault.advice? = some advice ∧
        e.fault.Marks (shown.drop (column - 1)) carets ∧
        Diagnostic.report? false path source [e] = some (
          "error: " ++ e.fault.message ++ "\n" ++
          margin ++ " --> " ++ (path ++ ":" ++ toString line ++ ":" ++ toString column) ++ "\n" ++
          margin ++ " |\n" ++
          toString line ++ " | " ++ String.ofList shown ++ "\n" ++
          margin ++ " | " ++ Diagnostic.spaces (column - 1) ++
            String.ofList (List.replicate carets '^') ++ "\n" ++
          margin ++ " = help: " ++ advice ++ "\n") := by
  obtain ⟨before, text, rest, hs, hsplit, hm, hspan⟩ := exists_of_scanOf_error hsize herror
  refine ⟨before, text ++ rest, hs, by rw [hspan], ?_⟩
  intro left shown line column margin
  have hline := isLine_append before (text ++ rest)
  rw [← hs] at hline
  have hbefore : before.rdropWhile (· ≠ '\n') ++ left = before := List.rdropWhile_append_rtakeWhile
  rw [← hbefore] at hspan
  have hd := Diagnostic.ofError?_of_isLine path hline List.takeWhile_append_dropWhile hspan
  rw [Text.count_rdropWhile] at hd
  obtain ⟨advice, hadvice⟩ : ∃ advice, e.fault.advice? = some advice := by
    cases hf : e.fault with
    | invalidWord w => exact ⟨_, rfl⟩
    | unterminatedString => exact ⟨_, rfl⟩
    | unexpectedEnd =>
      rw [hf] at hm
      exact False.elim (Lexeme.spells_fault hsplit hm)
  refine ⟨advice, _, hadvice, marks_of_split left hsplit hm, ?_⟩
  rw [Diagnostic.report?_singleton, hd]
  exact congrArg some (Diagnostic.render_false hadvice)

theorem report_marks_open_string :
    let source := "xé = 1;\r\n yü \"a\r\nb"
    let e : ScanError := ⟨.unterminatedString, ⟨15, 20⟩⟩
    source.utf8ByteSize ≤ maxOffset ∧ (scanOf source).error = some e ∧
      Diagnostic.report? false "p" source [e] = some (
        "error: unterminated string literal\n" ++
        "  --> p:2:5\n" ++
        "  |\n" ++
        "2 |  yü \"a\n" ++
        "  |     ^^\n" ++
        "  = help: add a closing `\"`; string literals cannot contain `\"`\n") := by
  intro source e
  have herror : (scanOf source).error = some e := by decide +kernel
  refine ⟨by decide, herror, ?_⟩
  obtain ⟨before, after, hs, hstart, advice, carets, hadvice, ⟨-, -, rfl, -⟩, hreport⟩ :=
    report_marks "p" source e (by decide) herror
  have hcut := Text.cutAt?_eq_some_iff.2 ⟨hs, hstart⟩
  have hplace : Text.cutAt? e.span.start source.toList =
      some ("xé = 1;\r\n yü ".toList, "\"a\r\nb".toList) := by decide +kernel
  obtain ⟨rfl, rfl⟩ := Prod.mk.inj (Option.some.inj (hcut.symm.trans hplace))
  obtain rfl := Option.some.inj hadvice
  rw [hreport]
  decide +kernel

end TokenScan
