import TokenScan.Proofs.LineColumns

namespace TokenScan

open Text (byteLength)

namespace Text

theorem length_splitOn (cs : List Char) : (cs.splitOn '\n').length = cs.count '\n' + 1 := by
  induction cs with
  | nil => rfl
  | cons c cs ih =>
    rw [List.splitOn_cons_eq_if_modifyHead, List.count_cons]
    split
    · rw [List.length_cons, ih]
    · rw [List.length_modifyHead, ih, Nat.add_zero]

theorem exists_count_eq {k : Nat} {cs : List Char} (h : k ≤ cs.count '\n') :
    ∃ before after, cs = before ++ after ∧ before.count '\n' = k := by
  induction cs generalizing k with
  | nil => exact ⟨[], [], rfl, (Nat.le_zero.1 h).symm⟩
  | cons c cs ih =>
    cases k with
    | zero => exact ⟨[], c :: cs, rfl, rfl⟩
    | succ k =>
      by_cases hc : c = '\n'
      · subst hc
        rw [List.count_cons_self, Nat.add_le_add_iff_right] at h
        obtain ⟨before, after, rfl, rfl⟩ := ih h
        exact ⟨'\n' :: before, after, rfl, List.count_cons_self⟩
      · rw [List.count_cons_of_ne hc] at h
        obtain ⟨before, after, rfl, hb⟩ := ih h
        exact ⟨c :: before, after, rfl, by rw [List.count_cons_of_ne hc, hb]⟩

end Text

/-- A line is the piece behind as many newlines as stand before it. -/
theorem IsLine.getElem?_splitOn {cs above line below : List Char} (h : IsLine cs above line below) :
    (cs.splitOn '\n')[above.count '\n']? = some line := by
  have hfirst : ((line ++ below).splitOn '\n')[0]? = some line := by
    cases hb : below with
    | nil => rw [List.append_nil, List.splitOn_eq_singleton h.line]; rfl
    | cons c rest =>
      obtain rfl := h.below c (by rw [hb]; rfl)
      rw [List.splitOn_append_cons_self_of_not_mem h.line]
      rfl
  rw [h.eq]
  obtain ha | ⟨a, c, ha⟩ := List.eq_nil_or_concat' above
  · rw [ha]
    exact hfirst
  · -- the last newline above ends the pieces before this one
    obtain rfl := h.above c (by rw [ha, List.getLast?_concat]; rfl)
    have hcount : above.count '\n' = (a.splitOn '\n').length := by
      rw [ha, List.count_append, Text.length_splitOn]
      rfl
    rw [hcount, ha, List.append_assoc, List.singleton_append, List.splitOn_append_cons_self,
      List.getElem?_append_right (Nat.le_refl _), Nat.sub_self, hfirst]

namespace LineTable

variable {source : String}

theorem exists_piece {n : Nat} (hn : 1 ≤ n) (hle : n ≤ (ofSource source).count) :
    ∃ piece, (source.toList.splitOn '\n')[n - 1]? = some piece ∧
      (ofSource source).lineText? n = some (String.ofList (piece.rdropWhile (· = '\r'))) := by
  have hk : n - 1 ≤ source.toList.count '\n' := by
    rw [count_ofSource] at hle
    omega
  obtain ⟨before, after, hs, hcount⟩ := Text.exists_count_eq hk
  have hline := isLine_append before after
  rw [← hs] at hline
  have hpiece := hline.getElem?_splitOn
  have htext := hline.lineText?
  rw [Text.count_rdropWhile, hcount] at hpiece htext
  rw [Nat.sub_add_cancel hn] at htext
  exact ⟨_, hpiece, htext⟩

theorem lineText?_of_no_line {n : Nat} (h : n = 0 ∨ (ofSource source).count < n) :
    (ofSource source).lineText? n = some "" := by
  obtain rfl | h := h
  · rfl
  · obtain ⟨k, rfl⟩ := Nat.exists_eq_add_of_lt h
    have hnone : (ofSource source).starts[(ofSource source).count + k]? = none :=
      Array.getElem?_eq_none (Nat.le_add_right _ _)
    rw [lineText?, hnone]

end LineTable

theorem shown_at (left rest : List Char) (c : Char) :
    let shown := (left ++ c :: rest).rdropWhile (· = '\r')
    shown[left.length]? = some c ∨
      shown.length ≤ left.length ∧ c = '\r' ∧ ∀ d ∈ rest, d = '\r' := by
  intro shown
  have hshown : shown = _ := Text.rdropWhile_append _ left (c :: rest)
  split at hshown
  next hnil =>
    have hall : ∀ d ∈ c :: rest, d = '\r' := by simpa using List.rdropWhile_eq_nil_iff.1 hnil
    rw [hshown]
    exact .inr ⟨(List.rdropWhile_prefix _ _).length_le, List.forall_mem_cons.1 hall⟩
  next hne =>
    obtain hnil | ⟨t, ht, -⟩ := List.prefix_cons_iff.1 (List.rdropWhile_prefix _ (c :: rest))
    · exact absurd hnil hne
    · rw [hshown, ht, List.getElem?_append_right (Nat.le_refl _), Nat.sub_self]
      exact .inl rfl

namespace LineTable

variable {source : String}

theorem exists_shown {before after : List Char} {c : Char}
    (hs : source.toList = before ++ c :: after) :
    ∃ line column text, (ofSource source).lineColumn? (byteLength before) = some (line, column) ∧
      (ofSource source).lineText? line = some text ∧
      (text.toList[column - 1]? = some c ∨
        text.length ≤ column - 1 ∧
          (c = '\n' ∨ c = '\r' ∧ ∀ d ∈ after.takeWhile (· ≠ '\n'), d = '\r')) := by
  have hline := isLine_append before (c :: after)
  rw [← hs] at hline
  have htext := hline.lineText?
  rw [Text.count_rdropWhile] at htext
  refine ⟨_, _, _, lineColumn?_of_append hs, htext, ?_⟩
  rw [String.toList_ofList, String.length_ofList, Nat.add_sub_cancel]
  by_cases hc : c = '\n'
  · have hend : (c :: after).takeWhile (· ≠ '\n') = [] := by simp [hc]
    rw [hend, List.append_nil]
    exact .inr ⟨(List.rdropWhile_prefix _ _).length_le, .inl hc⟩
  · have hmore : (c :: after).takeWhile (· ≠ '\n') = c :: after.takeWhile (· ≠ '\n') := by simp [hc]
    rw [hmore]
    obtain h | ⟨hlen, hr⟩ := shown_at (before.rtakeWhile (· ≠ '\n')) (after.takeWhile (· ≠ '\n')) c
    · exact .inl h
    · exact .inr ⟨hlen, .inr hr⟩

/-- There is a text for every line number, and none of a line that is not there. The lines are the
pieces of the source between its newlines, without the carriage returns at their ends. A character
stands on its line at its column, unless it is a newline or a carriage return with no more than
carriage returns behind it on the line; then its column is past the end of the text. -/
theorem lineText?_splits (source : String) :
    let t := ofSource source
    let pieces := source.toList.splitOn '\n'
    (pieces.length = t.count ∧ ['\n'].intercalate pieces = source.toList) ∧
    (∀ n, 1 ≤ n → n ≤ t.count → ∃ piece, pieces[n - 1]? = some piece ∧
      t.lineText? n = some (String.ofList (piece.rdropWhile (· = '\r')))) ∧
    (∀ n, n = 0 ∨ t.count < n → t.lineText? n = some "") ∧
    ∀ before c after, source.toList = before ++ c :: after →
      ∃ line column text, t.lineColumn? (byteLength before) = some (line, column) ∧
        t.lineText? line = some text ∧
        (text.toList[column - 1]? = some c ∨
          text.length ≤ column - 1 ∧
            (c = '\n' ∨ c = '\r' ∧ ∀ d ∈ after.takeWhile (· ≠ '\n'), d = '\r')) := by
  intro t pieces
  have hlen : pieces.length = t.count := by
    rw [count_ofSource]
    exact Text.length_splitOn _
  exact ⟨⟨hlen, List.intercalate_splitOn _⟩, fun n => exists_piece, fun n => lineText?_of_no_line,
    fun before c after => exists_shown⟩

theorem lineText?_splits_returns :
    let source := "é\rx\r\r\n\r"
    let t := ofSource source
    (1 ≤ 1 ∧ 1 ≤ t.count) ∧ (source.toList.splitOn '\n')[0]? = some "é\rx\r\r".toList ∧
      t.lineText? 1 = some "é\rx" ∧ t.count < 3 ∧ t.lineText? 3 = some "" ∧
      source.toList = ['é', '\r'] ++ 'x' :: ['\r', '\r', '\n', '\r'] ∧
      t.lineColumn? 3 = some (1, 3) ∧ "é\rx".toList[2]? = some 'x' := by
  intro source t
  have hone : 1 ≤ t.count := by decide +kernel
  have hthree : t.count < 3 := by decide +kernel
  have hfirst : (source.toList.splitOn '\n')[0]? = some "é\rx\r\r".toList := by decide +kernel
  have hplace : t.lineColumn? 3 = some (1, 3) := by decide +kernel
  have hs : source.toList = ['é', '\r'] ++ 'x' :: ['\r', '\r', '\n', '\r'] := by decide
  obtain ⟨-, hpieces, hnone, hchars⟩ := lineText?_splits source
  obtain ⟨piece, hpiece, htext⟩ := hpieces 1 (by decide) hone
  obtain rfl := Option.some.inj (hfirst.symm.trans hpiece)
  have hshown : t.lineText? 1 = some "é\rx" := htext.trans (by decide +kernel)
  obtain ⟨line, column, text, hpair, hline, hchar⟩ := hchars _ _ _ hs
  obtain ⟨rfl, rfl⟩ := Prod.mk.inj (Option.some.inj (hplace.symm.trans hpair))
  obtain rfl := Option.some.inj (hshown.symm.trans hline)
  refine ⟨⟨by decide, hone⟩, hfirst, hshown, hthree, hnone 3 (.inr hthree), hs, hplace, ?_⟩
  obtain hat | ⟨hlen, -⟩ := hchar
  · exact hat
  · exact absurd hlen (by decide)

end LineTable
end TokenScan
