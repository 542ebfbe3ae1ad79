import TokenScan.Proofs.LeadingLexeme
import TokenScan.Scanner

namespace TokenScan

open Text (byteLength isBlank)

namespace Lexeme

theorem leading_append_drop (cs : List Char) :
    leading cs ++ cs.drop (leading cs).length = cs := by
  by_cases h : cs = []
  · rw [h]; rfl
  · have hr := (read_reads (c := .start (String.ofList cs)) (by simpa [Cursor.start] using h) []).rest
    simp only [Cursor.start, String.toList_ofList] at hr
    exact List.prefix_iff_eq_append.1 ⟨_, hr⟩

theorem head?_leading (cs : List Char) : (leading cs).head? = cs.head? := by
  cases cs with
  | nil => rfl
  | cons c cs =>
    rw [leading]
    split_ifs
    · rfl
    · rfl
    · obtain ⟨w, hw⟩ := Word.leading_cons c cs
      rw [hw]
      rfl

/-- A result and its place. -/
def located (p : Span) : Except Fault Token → Except ScanError LocatedToken
  | .ok t => .ok ⟨t, p⟩
  | .error f => .error ⟨f, p⟩

section
variable {p : Span} {r : Except Fault Token}

theorem located_eq_ok_iff {t : Token} :
    (∃ q, (located p r).map some = .ok (some ⟨t, q⟩)) ↔ r = .ok t := by
  constructor
  · rintro ⟨q, h⟩
    cases r <;> cases h
    rfl
  · rintro rfl
    exact ⟨p, rfl⟩

theorem located_eq_error_iff {f : Fault} :
    (∃ q, (located p r).map some = .error ⟨f, q⟩) ↔ r = .error f := by
  constructor
  · rintro ⟨q, h⟩
    cases r <;> cases h
    rfl
  · rintro rfl
    exact ⟨p, rfl⟩

end
end Lexeme

/-- A text as a step takes it: white space, the lexeme that leads what follows, and the rest. -/
structure Split (cs gap text rest : List Char) : Prop where
  eq : cs = gap ++ (text ++ rest)
  blank : ∀ c ∈ gap, isBlank c = true
  solid : ∃ c ∈ text.head?, isBlank c = false
  leads : Lexeme.leading (text ++ rest) = text

namespace Split

theorem of_dropWhile {cs : List Char} (h : cs.dropWhile isBlank ≠ []) :
    let text := Lexeme.leading (cs.dropWhile isBlank)
    Split cs (cs.takeWhile isBlank) text ((cs.dropWhile isBlank).drop text.length) where
  eq := by rw [Lexeme.leading_append_drop, List.takeWhile_append_dropWhile]
  blank c hc := List.all_eq_true.1 List.all_takeWhile c hc
  solid := by
    obtain ⟨x, xs, hx⟩ := List.exists_cons_of_ne_nil h
    refine ⟨x, by rw [Lexeme.head?_leading, hx]; rfl, ?_⟩
    simpa [hx] using List.head?_dropWhile_not isBlank cs
  leads := by rw [Lexeme.leading_append_drop]

variable {cs gap text rest : List Char} (h : Split cs gap text rest)
include h

theorem head?_append : ∃ c ∈ (text ++ rest).head?, isBlank c = false := by
  obtain ⟨c, hc, hb⟩ := h.solid
  exact ⟨c, by rw [List.head?_append, hc]; rfl, hb⟩

theorem run : cs.takeWhile isBlank = gap ∧ cs.dropWhile isBlank = text ++ rest := by
  obtain ⟨x, hx, hb⟩ := h.head?_append
  rw [h.eq]
  refine Text.takeWhile_append_run h.blank fun c hc => ?_
  rw [Option.mem_unique hc hx, hb]

theorem append_ne_nil : text ++ rest ≠ [] := by
  obtain ⟨x, hx, -⟩ := h.head?_append
  exact List.ne_nil_of_mem (List.mem_of_mem_head? hx)

end Split

namespace Cursor

theorem slice?_of_rest {c : Cursor} {gap text rest : List Char}
    (h : c.rest = gap ++ (text ++ rest)) :
    Text.slice? c.source.toList (c.pos + byteLength gap)
      (c.pos + byteLength gap + byteLength text) = some text := by
  obtain ⟨before, hs, hp⟩ := c.splits
  refine Text.slice?_eq_some_iff.2 ⟨before ++ gap, rest, ?_, ?_, ?_⟩
  · simp [hs, h]
  · simp [hp]
  · simp [hp]

theorem add_byteLength_le {c : Cursor} {gap text rest : List Char}
    (h : c.rest = gap ++ (text ++ rest)) :
    c.pos + byteLength gap + byteLength text ≤ c.source.utf8ByteSize := by
  have hc := c.pos_add_byteLength_rest
  rw [h, length, Text.byteLength_append, Text.byteLength_append] at hc
  omega

end Cursor

namespace Scanner

@[simp] theorem stopped_next (s : Scanner) : s.next.2.stopped = s.stopped := by
  rw [next]
  split
  · rfl
  · dsimp only
    split <;> rfl

theorem next_of_blank {s : Scanner} (h : s.cursor.rest.dropWhile isBlank = []) :
    s.next.1 = .ok none ∧ s.next.2.cursor = s.cursor.skipWhile isBlank := by
  have he : (s.cursor.skipWhile isBlank).atEnd = true := (Cursor.atEnd_iff _).2 h
  rw [next, if_pos he]
  exact ⟨rfl, rfl⟩

theorem pos_skipWhile {s : Scanner} {gap text rest : List Char}
    (h : Split s.cursor.rest gap text rest) :
    (s.cursor.skipWhile isBlank).pos = s.pos + byteLength gap := by
  change s.cursor.pos + byteLength (s.cursor.rest.takeWhile isBlank) = _
  rw [h.run.1]
  rfl

/-- What a step does with the lexeme `text` behind `gap`. -/
structure Takes (s : Scanner) (gap text rest : List Char) : Prop where
  result : s.next.1 = (Lexeme.located
    (.clamp (s.pos + byteLength gap) (s.pos + byteLength gap + byteLength text))
    (Lexeme.meaning text)).map some
  source : s.next.2.source = s.source
  pos : s.next.2.pos = s.pos + byteLength gap + byteLength text
  rest : s.next.2.cursor.rest = rest

theorem takes_of_split {s : Scanner} {gap text rest : List Char}
    (h : Split s.cursor.rest gap text rest) : s.Takes gap text rest := by
  have hr : (s.cursor.skipWhile isBlank).rest = text ++ rest := h.run.2
  have hne : (s.cursor.skipWhile isBlank).atEnd ≠ true := by
    rw [Ne, Cursor.atEnd_iff, hr]
    exact h.append_ne_nil
  have hx := Lexeme.read_reads (hr ▸ h.append_ne_nil) s.scratch
  rw [hr, h.leads] at hx
  have hp := Cursor.pos_of_append_rest hx.source hx.rest
  have hrest := List.append_cancel_left (hx.rest.trans hr)
  have hnext : s.next.2.cursor = (Lexeme.read s.scratch (s.cursor.skipWhile isBlank)).stop ∧
      s.next.1 = (Lexeme.located (.clamp (s.cursor.skipWhile isBlank).pos
        (Lexeme.read s.scratch (s.cursor.skipWhile isBlank)).stop.pos)
        (Lexeme.read s.scratch (s.cursor.skipWhile isBlank)).result).map some := by
    rw [next, if_neg hne]
    dsimp only
    cases (Lexeme.read s.scratch (s.cursor.skipWhile isBlank)).result <;> exact ⟨rfl, rfl⟩
  rw [hx.result, hp, pos_skipWhile h] at hnext
  constructor
  · exact hnext.2
  · rw [source, hnext.1]
    exact hx.source
  · rw [pos, hnext.1, hp, pos_skipWhile h]
  · rw [hnext.1, hrest]

/-- What a step gives is the meaning of the lexeme that leads. -/
theorem next_of_ahead {s : Scanner} (h : s.cursor.rest.dropWhile isBlank ≠ []) :
    let text := Lexeme.leading (s.cursor.rest.dropWhile isBlank)
    s.cursor.rest.dropWhile isBlank = text ++ s.next.2.cursor.rest ∧
      ∃ p, s.next.1 = (Lexeme.located p (Lexeme.meaning text)).map some := by
  have ht := takes_of_split (.of_dropWhile h)
  exact ⟨by rw [ht.rest, Lexeme.leading_append_drop], _, ht.result⟩

/-- On a source that spans can measure, a step skips the longest run of white space and takes the
lexeme that leads the rest, if there is any; the token or the error lies over the text taken. -/
theorem next_takes_leading (s : Scanner) (hsize : s.source.utf8ByteSize ≤ maxOffset) :
    let ahead := s.cursor.rest.dropWhile isBlank
    let text := Lexeme.leading ahead
    let start := s.pos + byteLength (s.cursor.rest.takeWhile isBlank)
    let stop := start + byteLength text
    s.next.2.source = s.source ∧
    (ahead = [] → s.next.1 = .ok none ∧ s.next.2.pos = s.source.utf8ByteSize) ∧
    (ahead ≠ [] →
      s.next.2.pos = stop ∧ Text.slice? s.source.toList start stop = some text ∧
      ((∃ t, s.next.1 = .ok (some ⟨t, ⟨start, stop⟩⟩)) ∨
        ∃ f, s.next.1 = .error ⟨f, ⟨start, stop⟩⟩)) := by
  intro ahead text start stop
  by_cases h : ahead = []
  · obtain ⟨hn, hc⟩ := next_of_blank h
    have hpos := (s.cursor.skipWhile isBlank).pos_add_byteLength_rest
    rw [Cursor.rest_skipWhile, show s.cursor.rest.dropWhile isBlank = [] from h] at hpos
    refine ⟨?_, fun _ => ⟨hn, ?_⟩, fun hne => absurd h hne⟩
    · rw [source, hc]
      rfl
    · rw [pos, hc]
      exact hpos
  · have hs := Split.of_dropWhile h
    have ht := takes_of_split hs
    have hle : stop ≤ maxOffset := (Cursor.add_byteLength_le hs.eq).trans hsize
    have hspan : Span.clamp start stop = ⟨start, stop⟩ :=
      Span.clamp_eq ((Nat.le_add_right _ _).trans hle) hle
    refine ⟨ht.source, fun h' => absurd h' h, fun _ => ⟨ht.pos, Cursor.slice?_of_rest hs.eq, ?_⟩⟩
    rw [ht.result, hspan]
    cases Lexeme.meaning text with
    | ok t => exact .inl ⟨t, rfl⟩
    | error f => exact .inr ⟨f, rfl⟩

theorem next_takes_leading_dotted :
    let s := start " 1.2.b3"
    s.source.utf8ByteSize ≤ maxOffset ∧ s.cursor.rest.dropWhile isBlank ≠ [] ∧
      s.next.2.pos = 6 ∧ Text.slice? s.source.toList 1 6 = some ['1', '.', '2', '.', 'b'] :=
  have h := (next_takes_leading (start " 1.2.b3") (by decide)).2.2 (by decide)
  ⟨by decide, by decide, h.1, h.2.1⟩

end Scanner
end TokenScan
