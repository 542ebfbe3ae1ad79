import Mathlib.Data.List.DropRight
import TokenScan.LineTable

namespace TokenScan

open Text (byteLength)

/-- The text `cs` is the lines `above`, the line `line`, and the newline and lines `below`. -/
structure IsLine (cs above line below : List Char) : Prop where
  eq : cs = above ++ (line ++ below)
  above : ∀ c ∈ above.getLast?, c = '\n'
  line : '\n' ∉ line
  below : ∀ c ∈ below.head?, c = '\n'

namespace Text

theorem not_mem_rtakeWhile (cs : List Char) : '\n' ∉ cs.rtakeWhile (· ≠ '\n') := by
  intro hm
  simpa using List.mem_rtakeWhile_imp hm

theorem not_mem_takeWhile (cs : List Char) : '\n' ∉ cs.takeWhile (· ≠ '\n') := by
  intro hm
  simpa using List.mem_takeWhile_imp hm

theorem rdropWhile_append (p : Char → Bool) (a b : List Char) :
    (a ++ b).rdropWhile p =
      if b.rdropWhile p = [] then a.rdropWhile p else a ++ b.rdropWhile p := by
  simp only [List.rdropWhile, List.reverse_append, List.dropWhile_append, List.isEmpty_iff,
    List.reverse_eq_nil_iff]
  split
  · rfl
  · rw [List.reverse_append, List.reverse_reverse]

theorem rdropWhile_append_of_last {p : Char → Bool} {a : List Char}
    (h : ∀ c ∈ a.getLast?, p c = false) (b : List Char) :
    (a ++ b).rdropWhile p = a ++ b.rdropWhile p := by
  rw [rdropWhile_append]
  split
  next hb =>
    rw [hb, List.append_nil, List.rdropWhile_eq_self_iff]
    intro hne
    rw [h _ (List.getLast?_eq_some_getLast hne)]
    exact Bool.false_ne_true
  next => rfl

theorem rtakeWhile_append_of_pos {p : Char → Bool} {b : List Char} (h : ∀ c ∈ b, p c = true)
    (a : List Char) : (a ++ b).rtakeWhile p = a.rtakeWhile p ++ b := by
  have hrev : ∀ c ∈ b.reverse, p c = true := fun c hc => h c (List.mem_reverse.1 hc)
  rw [List.rtakeWhile, List.reverse_append, List.takeWhile_append_of_pos hrev, List.reverse_append,
    List.reverse_reverse]
  rfl

theorem count_rdropWhile (cs : List Char) :
    (cs.rdropWhile (· ≠ '\n')).count '\n' = cs.count '\n' := by
  conv_rhs => rw [← List.rdropWhile_append_rtakeWhile (p := (· ≠ '\n')) (l := cs),
    List.count_append, List.count_eq_zero.2 (not_mem_rtakeWhile cs), Nat.add_zero]

end Text

/-- The line of a place is what stands around it up to the nearest newlines. -/
theorem isLine_append (before after : List Char) :
    IsLine (before ++ after) (before.rdropWhile (· ≠ '\n'))
      (before.rtakeWhile (· ≠ '\n') ++ after.takeWhile (· ≠ '\n'))
      (after.dropWhile (· ≠ '\n')) where
  eq := by
    rw [List.append_assoc, List.takeWhile_append_dropWhile, ← List.append_assoc,
      List.rdropWhile_append_rtakeWhile]
  above := by
    intro c hc
    obtain ⟨hne, rfl⟩ := List.mem_getLast?_eq_getLast hc
    simpa using List.rdropWhile_last_not _ _ hne
  line := by
    rw [List.mem_append, not_or]
    exact ⟨Text.not_mem_rtakeWhile before, Text.not_mem_takeWhile after⟩
  below := by
    intro c hc
    have hstop := List.head?_dropWhile_not (· ≠ '\n') after
    rw [Option.mem_def.1 hc] at hstop
    simpa using hstop

namespace LineTable

/-- The places behind each newline of a text that begins at `n`. -/
def breaks (n : Nat) : List Char → List Nat
  | [] => []
  | c :: cs => (if c = '\n' then [n + c.utf8Size] else []) ++ breaks (n + c.utf8Size) cs

theorem toList_pushStarts (starts : Array Nat) (n : Nat) (cs : List Char) :
    (pushStarts starts n cs).toList = starts.toList ++ breaks n cs := by
  induction cs generalizing starts n with
  | nil => simp [pushStarts, breaks]
  | cons c cs ih =>
    rw [pushStarts, breaks, ih]
    split <;> simp

@[simp] theorem source_ofSource (source : String) : (ofSource source).source = source := rfl

theorem toList_starts (source : String) :
    (ofSource source).starts.toList = 0 :: breaks 0 source.toList :=
  toList_pushStarts _ _ _

theorem breaks_append (n : Nat) (a b : List Char) :
    breaks n (a ++ b) = breaks n a ++ breaks (n + byteLength a) b := by
  induction a generalizing n with
  | nil => rfl
  | cons c a ih =>
    rw [List.cons_append, breaks, breaks, ih, Text.byteLength_cons, Nat.add_assoc, List.append_assoc]

theorem breaks_eq_nil {n : Nat} {cs : List Char} (h : '\n' ∉ cs) : breaks n cs = [] := by
  induction cs generalizing n with
  | nil => rfl
  | cons c cs ih =>
    obtain ⟨hc, hcs⟩ := List.ne_and_not_mem_of_not_mem_cons h
    rw [breaks, if_neg hc.symm, ih hcs, List.append_nil]

theorem length_breaks (n : Nat) (cs : List Char) : (breaks n cs).length = cs.count '\n' := by
  induction cs generalizing n with
  | nil => rfl
  | cons c cs ih =>
    rw [breaks, List.length_append, ih, List.count_cons, Nat.add_comm]
    split <;> simp_all

theorem exists_of_mem_breaks {n x : Nat} {cs : List Char} (h : x ∈ breaks n cs) :
    ∃ before after, cs = before ++ '\n' :: after ∧ x = n + byteLength before + 1 := by
  induction cs generalizing n with
  | nil => cases h
  | cons c cs ih =>
    obtain hc | hcs := List.mem_append.1 h
    · split at hc
      next hn =>
        subst hn
        exact ⟨[], cs, rfl, List.mem_singleton.1 hc⟩
      next => cases hc
    · obtain ⟨before, after, rfl, rfl⟩ := ih hcs
      exact ⟨c :: before, after, rfl, by rw [Text.byteLength_cons, Nat.add_assoc n]⟩

theorem mem_breaks {n x : Nat} {cs : List Char} (h : x ∈ breaks n cs) :
    n < x ∧ x ≤ n + byteLength cs := by
  obtain ⟨before, after, rfl, rfl⟩ := exists_of_mem_breaks h
  have hnewline : '\n'.utf8Size = 1 := rfl
  rw [Text.byteLength_append, Text.byteLength_cons, hnewline]
  omega

theorem bisect_eq {a : Array Nat} {x k lo hi : Nat} {h : hi ≤ a.size}
    (hk : ∀ i (hi : i < a.size), a[i] ≤ x ↔ i < k) (hlo : lo ≤ k) (hhi : k ≤ hi) :
    bisect a x lo hi h = k := by
  fun_induction bisect a x lo hi h with
  | case1 lo hi h hlt mid hle ih => exact ih ((hk mid _).1 hle) hhi
  | case2 lo hi h hlt mid hgt ih => exact ih hlo (Nat.le_of_not_lt fun hm => hgt ((hk mid _).2 hm))
  | case3 => omega

theorem lineAt_of_append {source : String} {x : Nat} {before after : List Char}
    (hs : source.toList = before ++ after) (hx : byteLength before ≤ x)
    (hafter : ∀ y ∈ breaks (byteLength before) after, x < y) :
    (ofSource source).lineAt x = before.count '\n' + 1 := by
  have hstarts : (ofSource source).starts.toList =
      (0 :: breaks 0 before) ++ breaks (byteLength before) after := by
    rw [toList_starts, hs, breaks_append, Nat.zero_add, List.cons_append]
  have hfirst : ∀ y ∈ 0 :: breaks 0 before, y ≤ x := by
    refine List.forall_mem_cons.2 ⟨Nat.zero_le x, fun y hy => ?_⟩
    have := (mem_breaks hy).2
    omega
  have hlen : (0 :: breaks 0 before).length = before.count '\n' + 1 := by
    rw [List.length_cons, length_breaks]
  refine bisect_eq (fun i hi => ?_) (Nat.zero_le _) ?_
  · rw [← Array.getElem_toList]
    simp only [hstarts, List.getElem_append, hlen]
    split
    next hlt => exact iff_of_true (hfirst _ (List.getElem_mem _)) hlt
    next hge => exact iff_of_false (Nat.not_le_of_lt (hafter _ (List.getElem_mem _))) hge
  · rw [← Array.length_toList, hstarts, List.length_append, hlen]
    exact Nat.le_add_right _ _

end LineTable

namespace IsLine

open LineTable

variable {source : String} {above line below : List Char}
  (h : IsLine source.toList above line below)
include h

theorem toList_starts :
    (ofSource source).starts.toList =
      (0 :: breaks 0 above) ++ breaks (byteLength above + byteLength line) below := by
  rw [LineTable.toList_starts, h.eq, breaks_append, breaks_append, breaks_eq_nil h.line,
    List.nil_append, Nat.zero_add, List.cons_append]

theorem getElem?_starts :
    (ofSource source).starts[above.count '\n']? = some (byteLength above) := by
  have habove := h.above
  rw [← Array.getElem?_toList, h.toList_starts, ← length_breaks 0 above]
  obtain rfl | ⟨a, c, rfl⟩ := List.eq_nil_or_concat' above
  · rfl
  · obtain rfl := habove c (List.getLast?_concat)
    simp [breaks_append, breaks]

theorem getElem?_starts_succ :
    (ofSource source).starts[above.count '\n' + 1]? =
      below.head?.map fun _ => byteLength above + byteLength line + 1 := by
  rw [← Array.getElem?_toList, h.toList_starts, ← length_breaks 0 above, ← List.length_cons,
    List.getElem?_append_right (Nat.le_refl _), Nat.sub_self]
  cases below with
  | nil => rfl
  | cons c below =>
    obtain rfl := h.below c rfl
    rfl

theorem slice?_line :
    Text.slice? source.toList (byteLength above) (byteLength above + byteLength line) =
      some line :=
  Text.slice?_eq_some_iff.2 ⟨above, below, by rw [h.eq, List.append_assoc], rfl, rfl⟩

theorem utf8ByteSize_eq :
    source.utf8ByteSize = byteLength above + byteLength line + byteLength below := by
  rw [← Text.byteLength_toList, h.eq, Text.byteLength_append, Text.byteLength_append, Nat.add_assoc]

theorem lineText? :
    (ofSource source).lineText? (above.count '\n' + 1) =
      some (String.ofList (line.rdropWhile (· = '\r'))) := by
  have hsize := h.utf8ByteSize_eq
  rw [LineTable.lineText?, h.getElem?_starts, h.getElem?_starts_succ, source_ofSource]
  dsimp only
  cases hb : below with
  | nil =>
    rw [hb, Text.byteLength_nil, Nat.add_zero] at hsize
    rw [List.head?_nil, Option.map_none, hsize, h.slice?_line]
    rfl
  | cons c below =>
    rw [List.head?_cons, Option.map_some]
    dsimp only
    rw [Nat.add_sub_cancel, h.slice?_line]
    rfl

theorem lineColumn? {left right : List Char} (hl : line = left ++ right) :
    (ofSource source).lineColumn? (byteLength above + byteLength left) =
      some (above.count '\n' + 1, left.length + 1) := by
  subst hl
  have hline := h.line
  rw [List.mem_append, not_or] at hline
  have hcut : source.toList = (above ++ left) ++ (right ++ below) := by
    rw [h.eq, List.append_assoc, List.append_assoc]
  have hcount : (above ++ left).count '\n' = above.count '\n' := by
    rw [List.count_append, List.count_eq_zero.2 hline.1, Nat.add_zero]
  have hat : (ofSource source).lineAt (byteLength above + byteLength left) =
      above.count '\n' + 1 := by
    rw [← hcount]
    refine lineAt_of_append hcut (by rw [Text.byteLength_append]) fun y hy => ?_
    rw [← Text.byteLength_append]
    exact (mem_breaks hy).1
  have hmin : min (byteLength above + byteLength left) source.utf8ByteSize =
      byteLength above + byteLength left := by
    rw [h.utf8ByteSize_eq, Text.byteLength_append]
    omega
  have hslice : Text.slice? source.toList (byteLength above) (byteLength above + byteLength left) =
      some left :=
    Text.slice?_eq_some_iff.2 ⟨above, right ++ below, hcut, rfl, rfl⟩
  rw [LineTable.lineColumn?, hat, Nat.add_sub_cancel, h.getElem?_starts, Option.bind_some,
    source_ofSource, hmin, hslice]
  rfl

end IsLine
end TokenScan
