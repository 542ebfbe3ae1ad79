import TokenScan.Diagnostic
import TokenScan.Proofs.LineColumns

namespace TokenScan

def Span.within (size : Nat) (s : Span) : Span :=
  ⟨min s.start size, max (min s.start size) (min s.stop size)⟩

namespace Fault

def remark (f : Fault) : String :=
  match f.advice? with
  | some advice => "help: " ++ advice
  | none => "note: this is a bug in the token reader, not in the input"

theorem newline_not_mem_remark (f : Fault) : '\n' ∉ f.remark.toList := by
  cases f with
  | unterminatedString => decide +kernel
  | invalidWord w =>
    rw [remark, advice?]
    dsimp only
    split <;> decide +kernel
  | unexpectedEnd => decide +kernel

end Fault

namespace Diagnostic

def rows (d : Diagnostic) : List String :=
  ["error: " ++ d.fault.message,
    d.margin ++ " --> " ++ d.place,
    d.margin ++ " |",
    toString d.line ++ " | " ++ d.text,
    d.margin ++ " | " ++ spaces (d.column - 1) ++ String.ofList (List.replicate d.width '^'),
    d.margin ++ " = " ++ d.fault.remark]

theorem render_false_eq (d : Diagnostic) :
    d.render false = String.join (d.rows.map (· ++ "\n")) := by
  rw [← String.toList_inj]
  cases hf : d.fault <;>
    simp [render, Piece.renderAll, Piece.render, Piece.plain, pieces, advicePieces, notePieces, rows,
      Fault.remark, Fault.advice?, Fault.isDefect, hf]

theorem render_false {d : Diagnostic} {advice : String} (ha : d.fault.advice? = some advice) :
    d.render false =
      "error: " ++ d.fault.message ++ "\n" ++
      d.margin ++ " --> " ++ d.place ++ "\n" ++
      d.margin ++ " |\n" ++
      toString d.line ++ " | " ++ d.text ++ "\n" ++
      d.margin ++ " | " ++ spaces (d.column - 1) ++ String.ofList (List.replicate d.width '^') ++
        "\n" ++
      d.margin ++ " = help: " ++ advice ++ "\n" := by
  rw [render_false_eq, ← String.toList_inj]
  simp [rows, Fault.remark, ha]

theorem toList_spaces (n : Nat) : (spaces n).toList = List.replicate n ' ' := String.toList_ofList

theorem newline_not_mem_rows {d : Diagnostic} (hpath : '\n' ∉ d.path.toList)
    (hmessage : '\n' ∉ d.fault.message.toList) (htext : '\n' ∉ d.text.toList) :
    ∀ row ∈ d.rows, '\n' ∉ row.toList := by
  have hdigits (n : Nat) := Text.not_mem_toDigits (c := '\n') (by decide) n
  have hremark := d.fault.newline_not_mem_remark
  simp [rows, place, margin, toList_spaces, hpath, hmessage, htext, hdigits, hremark]

theorem length_margin (d : Diagnostic) : d.margin.length = (toString d.line).length := by
  rw [margin, spaces, String.length_ofList, List.length_replicate]

/-- The bars of a report stand behind equally long texts that have none. -/
theorem exists_bar (d : Diagnostic) :
    ∀ row ∈ (d.rows.drop 2).take 3, ∃ lead rest, row = lead ++ "|" ++ rest ∧ '|' ∉ lead.toList ∧
      lead.length = (toString d.line).length + 1 := by
  have hmargin : '|' ∉ (d.margin ++ " ").toList := by simp [margin, toList_spaces]
  have hline : '|' ∉ (toString d.line ++ " ").toList := by
    simp [Text.not_mem_toDigits (c := '|') (by decide) d.line]
  have hwidth : (d.margin ++ " ").length = (toString d.line).length + 1 := by
    rw [String.length_append, length_margin]
    rfl
  have hbars : (d.rows.drop 2).take 3 =
      [d.margin ++ " " ++ "|" ++ "", toString d.line ++ " " ++ "|" ++ (" " ++ d.text),
        d.margin ++ " " ++ "|" ++
          (" " ++ spaces (d.column - 1) ++ String.ofList (List.replicate d.width '^'))] := by
    simp [rows, ← String.toList_inj]
  rw [hbars]
  refine List.forall_mem_cons.2 ⟨⟨_, _, rfl, hmargin, hwidth⟩, List.forall_mem_cons.2
    ⟨⟨_, _, rfl, hline, ?_⟩, List.forall_mem_singleton.2 ⟨_, _, rfl, hmargin, hwidth⟩⟩⟩
  rw [String.length_append]
  rfl

theorem report?_singleton (colored : Bool) (path source : String) (e : ScanError) :
    report? colored path source [e] = (ofError? path source e).map (render colored) := by
  rw [report?, List.mapM_cons]
  cases ofError? path source e with
  | none => rfl
  | some d => exact congrArg some String.empty_append

variable (path : String) {source : String} {e : ScanError}

theorem ofError?_eq_some {line column : Nat} {text : String} {marked : List Char}
    (hplace : (LineTable.ofSource source).lineColumn? (e.span.within source.utf8ByteSize).start =
      some (line, column))
    (htext : (LineTable.ofSource source).lineText? line = some text)
    (hmarked : Text.slice? source.toList (e.span.within source.utf8ByteSize).start
      (e.span.within source.utf8ByteSize).stop = some marked) :
    ofError? path source e = some ⟨e.fault, path, line, column, text,
      max 1 (min marked.length (text.length - (column - 1)))⟩ := by
  simp only [Span.within] at hplace hmarked
  rw [ofError?]
  dsimp only
  rw [hplace, hmarked]
  simp [htext]

/-- What a report needs of its source is there for a span with both ends between characters. -/
theorem exists_of_isValid
    (hstart : (String.Pos.Raw.mk (e.span.within source.utf8ByteSize).start).IsValid source)
    (hstop : (String.Pos.Raw.mk (e.span.within source.utf8ByteSize).stop).IsValid source) :
    ∃ line column text marked,
      (LineTable.ofSource source).lineColumn? (e.span.within source.utf8ByteSize).start =
        some (line, column) ∧
      (LineTable.ofSource source).lineText? line = some text ∧
      Text.slice? source.toList (e.span.within source.utf8ByteSize).start
        (e.span.within source.utf8ByteSize).stop = some marked ∧
      1 ≤ column ∧ '\n' ∉ text.toList := by
  obtain ⟨marked, hmarked⟩ := Text.exists_slice?_eq_some hstart hstop (Nat.le_max_left _ _)
  obtain ⟨before, after, hs, hb⟩ := Text.isValid_iff.1 hstart
  have hline := isLine_append before after
  rw [← hs] at hline
  have htext := hline.lineText?
  rw [Text.count_rdropWhile] at htext
  refine ⟨_, _, _, marked, hb ▸ LineTable.lineColumn?_of_append hs, htext, hmarked,
    Nat.le_add_left 1 _, ?_⟩
  rw [String.toList_ofList]
  exact fun h => hline.line ((List.rdropWhile_prefix _ _).subset h)

theorem ofError?_eq_none_iff :
    ofError? path source e = none ↔
      ¬ (String.Pos.Raw.mk (e.span.within source.utf8ByteSize).start).IsValid source ∨
      ¬ (String.Pos.Raw.mk (e.span.within source.utf8ByteSize).stop).IsValid source := by
  constructor
  · intro h
    by_contra hcon
    obtain ⟨hstart, hstop⟩ := not_or.1 hcon
    obtain ⟨line, column, text, marked, hplace, htext, hmarked, -⟩ :=
      exists_of_isValid (not_not.1 hstart) (not_not.1 hstop)
    rw [ofError?_eq_some path hplace htext hmarked] at h
    cases h
  · intro h
    -- the text between the ends is cut last, so no cut before it matters
    have hslice := Text.slice?_eq_none_iff.2 (.inr h)
    simp only [Span.within] at hslice
    rw [ofError?]
    dsimp only
    rw [hslice]
    simp

/-- An error has no report exactly if an end of its span, brought inside the source, is inside a
character. Otherwise the report is six lines. Three have a bar, in one column; behind the last bar
there is a caret for each character of the span that is shown on its line, and at least one, from
the column of the span on. -/
theorem report?_shape (path source : String) (e : ScanError) :
    let table := LineTable.ofSource source
    let span := e.span.within source.utf8ByteSize
    (∀ colored, report? colored path source [e] = none ↔
      ¬ (String.Pos.Raw.mk span.start).IsValid source ∨
      ¬ (String.Pos.Raw.mk span.stop).IsValid source) ∧
    ((String.Pos.Raw.mk span.start).IsValid source →
      (String.Pos.Raw.mk span.stop).IsValid source →
      '\n' ∉ path.toList → '\n' ∉ e.fault.message.toList →
      ∃ line column text marked,
        table.lineColumn? span.start = some (line, column) ∧
        table.lineText? line = some text ∧
        Text.slice? source.toList span.start span.stop = some marked ∧
        let width := max 1 (min marked.length (text.length - (column - 1)))
        let margin := spaces (toString line).length
        let rows := [
          "error: " ++ e.fault.message,
          margin ++ " --> " ++ (path ++ ":" ++ toString line ++ ":" ++ toString column),
          margin ++ " |",
          toString line ++ " | " ++ text,
          margin ++ " | " ++ spaces (column - 1) ++ String.ofList (List.replicate width '^'),
          margin ++ " = " ++ e.fault.remark]
        report? false path source [e] = some (String.join (rows.map (· ++ "\n"))) ∧
        (∀ row ∈ rows, '\n' ∉ row.toList) ∧
        (∀ row ∈ (rows.drop 2).take 3, ∃ lead rest, row = lead ++ "|" ++ rest ∧
          '|' ∉ lead.toList ∧ lead.length = (toString line).length + 1) ∧
        column - 1 + width ≤ max column text.length) := by
  intro table span
  refine ⟨fun colored => ?_, fun hstart hstop hpath hmessage => ?_⟩
  · rw [report?_singleton, Option.map_eq_none_iff]
    exact ofError?_eq_none_iff path
  · obtain ⟨line, column, text, marked, hplace, htext, hmarked, hcolumn, hshown⟩ :=
      exists_of_isValid hstart hstop
    refine ⟨line, column, text, marked, hplace, htext, hmarked, ?_⟩
    intro width margin rows
    let d : Diagnostic := ⟨e.fault, path, line, column, text, width⟩
    have hrows : rows = d.rows := rfl
    have hd : ofError? path source e = some d := ofError?_eq_some path hplace htext hmarked
    have hfit : column - 1 + width ≤ max column text.length := by omega
    rw [report?_singleton, hd, hrows]
    exact ⟨congrArg some d.render_false_eq, newline_not_mem_rows hpath hmessage hshown,
      d.exists_bar, hfit⟩

theorem report?_shape_backwards :
    let source := "aé\r\nb"
    let e : ScanError := ⟨.unexpectedEnd, ⟨4, 1⟩⟩
    let cut : ScanError := ⟨.unterminatedString, ⟨2, 9⟩⟩
    e.span.within source.utf8ByteSize = ⟨4, 4⟩ ∧ cut.span.within source.utf8ByteSize = ⟨2, 6⟩ ∧
      (String.Pos.Raw.mk 4).IsValid source ∧ ¬ (String.Pos.Raw.mk 2).IsValid source ∧
      '\n' ∉ "p".toList ∧ '\n' ∉ e.fault.message.toList ∧
      report? true "p" source [cut] = none ∧
      report? false "p" source [e] = some (
        "error: unexpected end of input\n" ++
        "  --> p:1:4\n" ++
        "  |\n" ++
        "1 | aé\n" ++
        "  |    ^\n" ++
        "  = note: this is a bug in the token reader, not in the input\n") := by
  intro source e cut
  have hstart : (String.Pos.Raw.mk 4).IsValid source := by decide +kernel
  have hcut : ¬ (String.Pos.Raw.mk 2).IsValid source := by decide +kernel
  have hmessage : '\n' ∉ e.fault.message.toList := by decide +kernel
  refine ⟨rfl, rfl, hstart, hcut, by decide, hmessage,
    ((report?_shape "p" source cut).1 true).2 (.inl hcut), ?_⟩
  obtain ⟨line, column, text, marked, hplace, htext, hmarked, hreport, -⟩ :=
    (report?_shape "p" source e).2 hstart hstart (by decide) hmessage
  have hplace' : (LineTable.ofSource source).lineColumn? 4 = some (1, 4) := by decide +kernel
  obtain ⟨rfl, rfl⟩ := Prod.mk.inj (Option.some.inj (hplace'.symm.trans hplace))
  have htext' : (LineTable.ofSource source).lineText? 1 = some "aé" := by decide +kernel
  obtain rfl := Option.some.inj (htext'.symm.trans htext)
  have hmarked' : Text.slice? source.toList 4 4 = some [] := by decide +kernel
  obtain rfl := Option.some.inj (hmarked'.symm.trans hmarked)
  rw [hreport]
  decide +kernel

end Diagnostic
end TokenScan
