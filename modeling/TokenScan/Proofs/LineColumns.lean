import Mathlib.Data.Prod.Lex
import TokenScan.Proofs.Lines
import TokenScan.Proofs.TextCuts

namespace TokenScan.LineTable

open Text (byteLength)

/-- The line and the column of the place behind `before`. -/
def behind (before : List Char) : Nat × Nat :=
  (before.count '\n' + 1, (before.rtakeWhile (· ≠ '\n')).length + 1)

theorem behind_lt (before : List Char) {more : List Char} (h : more ≠ []) :
    toLex (behind before) < toLex (behind (before ++ more)) := by
  rw [Prod.Lex.toLex_lt_toLex, behind, behind, List.count_append]
  -- a newline in between starts a later line, and without one the line goes on
  by_cases hn : '\n' ∈ more
  · have := List.count_pos_iff.2 hn
    exact .inl (by dsimp only; omega)
  · have hrun : ∀ c ∈ more, decide (c ≠ '\n') = true := by
      intro c hc
      rw [decide_eq_true_eq]
      rintro rfl
      exact hn hc
    have := List.length_pos_iff.2 h
    rw [List.count_eq_zero.2 hn, Text.rtakeWhile_append_of_pos hrun, List.length_append]
    exact .inr ⟨rfl, by dsimp only; omega⟩

theorem count_ofSource (source : String) :
    (ofSource source).count = source.toList.count '\n' + 1 := by
  rw [count, ← Array.length_toList, toList_starts, List.length_cons, length_breaks]

variable {source : String}

theorem lineColumn?_of_append {before after : List Char} (hs : source.toList = before ++ after) :
    (ofSource source).lineColumn? (byteLength before) = some (behind before) := by
  have hline := isLine_append before after
  rw [← hs] at hline
  have h := hline.lineColumn? rfl
  rwa [← Text.byteLength_append, List.rdropWhile_append_rtakeWhile, Text.count_rdropWhile] at h

theorem lineColumn?_of_le {x : Nat} (h : source.utf8ByteSize ≤ x) :
    (ofSource source).lineColumn? x = (ofSource source).lineColumn? source.utf8ByteSize := by
  have hat {y : Nat} (hy : source.utf8ByteSize ≤ y) :
      (ofSource source).lineAt y = source.toList.count '\n' + 1 :=
    lineAt_of_append (List.append_nil _).symm (by rwa [Text.byteLength_toList]) nofun
  rw [lineColumn?, lineColumn?, hat h, hat (Nat.le_refl _), source_ofSource, Nat.min_eq_right h,
    Nat.min_self]

theorem lineColumn?_min (x : Nat) :
    (ofSource source).lineColumn? x = (ofSource source).lineColumn? (min x source.utf8ByteSize) := by
  obtain h | h := Nat.le_total source.utf8ByteSize x
  · rw [Nat.min_eq_right h, lineColumn?_of_le h]
  · rw [Nat.min_eq_left h]

theorem lineColumn?_eq_none_iff {x : Nat} :
    (ofSource source).lineColumn? x = none ↔
      ¬ (String.Pos.Raw.mk (min x source.utf8ByteSize)).IsValid source := by
  constructor
  · intro h hvalid
    obtain ⟨before, after, hs, hb⟩ := Text.isValid_iff.1 hvalid
    rw [lineColumn?_min, ← hb, lineColumn?_of_append hs] at h
    cases h
  · intro h
    rw [lineColumn?, Option.map_eq_none_iff, Option.bind_eq_none_iff, source_ofSource]
    intro i _
    exact Text.slice?_eq_none_iff.2 (.inr (.inr h))

theorem exists_of_lineColumn? {x : Nat} {p : Nat × Nat} (hx : x ≤ source.utf8ByteSize)
    (h : (ofSource source).lineColumn? x = some p) :
    ∃ before after, source.toList = before ++ after ∧ byteLength before = x ∧ p = behind before := by
  have hvalid : (String.Pos.Raw.mk x).IsValid source := by
    by_contra hn
    rw [← Nat.min_eq_left hx, ← lineColumn?_eq_none_iff, h] at hn
    cases hn
  obtain ⟨before, after, hs, rfl⟩ := Text.isValid_iff.1 hvalid
  rw [lineColumn?_of_append hs] at h
  exact ⟨before, after, hs, rfl, (Option.some.inj h).symm⟩

theorem lineColumn?_lt {x y : Nat} {p q : Nat × Nat} (hxy : x < y) (hy : y ≤ source.utf8ByteSize)
    (hp : (ofSource source).lineColumn? x = some p) (hq : (ofSource source).lineColumn? y = some q) :
    toLex p < toLex q := by
  obtain ⟨before, after, hs, rfl, rfl⟩ := exists_of_lineColumn? (hxy.le.trans hy) hp
  obtain ⟨before', after', hs', rfl, rfl⟩ := exists_of_lineColumn? hy hq
  obtain ⟨more, rfl, rfl⟩ := Text.exists_between (hs.symm.trans hs') hxy.le
  apply behind_lt
  rintro rfl
  rw [List.append_nil] at hxy
  exact Nat.lt_irrefl _ hxy

/-- Only an offset inside a character has no line and column, and one past the end has those of the
end. In the source the pairs are in the strict order of the offsets, so no two offsets share one. A
pair gives its offset back: from the start of the line on, as many characters of that line as stand
before the column. -/
theorem lineColumn?_one_to_one (source : String) :
    let t := ofSource source
    let size := source.utf8ByteSize
    (∀ x, t.lineColumn? x = none ↔ ¬ (String.Pos.Raw.mk (min x size)).IsValid source) ∧
    (∀ x y p q, x < y → y ≤ size → t.lineColumn? x = some p → t.lineColumn? y = some q →
      toLex p < toLex q) ∧
    (∀ x line column, x ≤ size → t.lineColumn? x = some (line, column) →
      1 ≤ line ∧ line ≤ t.count ∧ 1 ≤ column ∧
      ∃ above text below, IsLine source.toList above text below ∧ above.count '\n' = line - 1 ∧
        t.starts[line - 1]? = some (byteLength above) ∧ column - 1 ≤ text.length ∧
        x = byteLength above + byteLength (text.take (column - 1))) ∧
    (∀ x y p, x ≤ size → y ≤ size → t.lineColumn? x = some p → t.lineColumn? y = some p → x = y) ∧
    ∀ x, size < x → t.lineColumn? x = t.lineColumn? size := by
  intro t size
  refine ⟨fun x => lineColumn?_eq_none_iff, fun x y p q => lineColumn?_lt,
    fun x line column hx h => ?_, fun x y p hx hy hp hq => ?_, fun x hx => lineColumn?_of_le hx.le⟩
  · obtain ⟨before, after, hs, rfl, hpair⟩ := exists_of_lineColumn? hx h
    obtain ⟨rfl, rfl⟩ := Prod.mk.inj hpair
    have hline := isLine_append before after
    rw [← hs] at hline
    have hstart := hline.getElem?_starts
    have hcount := Text.count_rdropWhile before
    refine ⟨Nat.le_add_left 1 _, ?_, Nat.le_add_left 1 _, _, _, _, hline, hcount, ?_, ?_, ?_⟩
    · rw [count_ofSource, hs, List.count_append]
      omega
    · rwa [hcount] at hstart
    · rw [Nat.add_sub_cancel, List.length_append]
      exact Nat.le_add_right _ _
    · rw [Nat.add_sub_cancel, List.take_left, ← Text.byteLength_append,
        List.rdropWhile_append_rtakeWhile]
  · obtain hlt | rfl | hlt := Nat.lt_trichotomy x y
    · exact absurd (lineColumn?_lt hlt hy hp hq) (lt_irrefl _)
    · rfl
    · exact absurd (lineColumn?_lt hlt hx hq hp) (lt_irrefl _)

theorem lineColumn?_one_to_one_accents :
    let source := "é\r\n\tü"
    let t := ofSource source
    source.utf8ByteSize = 7 ∧ ¬ (String.Pos.Raw.mk (min 6 7)).IsValid source ∧
      t.lineColumn? 2 = some (1, 2) ∧ t.lineColumn? 5 = some (2, 2) ∧
      toLex (1, 2) < toLex (2, 2) ∧
      (∃ above text below, IsLine source.toList above text below ∧ above.count '\n' = 1 ∧
        t.starts[1]? = some (byteLength above) ∧ 1 ≤ text.length ∧
        5 = byteLength above + byteLength (text.take 1)) ∧
      (∀ y, y ≤ 7 → t.lineColumn? y = some (2, 2) → 5 = y) ∧
      t.lineColumn? 9 = t.lineColumn? 7 := by
  intro source t
  have hsize : source.utf8ByteSize = 7 := by decide
  have hfirst : t.lineColumn? 2 = some (1, 2) := by decide +kernel
  have hsecond : t.lineColumn? 5 = some (2, 2) := by decide +kernel
  obtain ⟨hnone, hlt, hback, hinj, hpast⟩ := lineColumn?_one_to_one source
  rw [hsize] at hnone hlt hback hinj hpast
  exact ⟨hsize, (hnone 6).1 (by decide +kernel), hfirst, hsecond,
    hlt 2 5 _ _ (by decide) (by decide) hfirst hsecond,
    (hback 5 2 2 (by decide) hsecond).2.2.2,
    fun y hy h => hinj 5 y _ (by decide) hy hsecond h, hpast 9 (by decide)⟩

end TokenScan.LineTable
