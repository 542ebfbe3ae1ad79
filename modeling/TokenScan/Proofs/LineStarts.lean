import TokenScan.Proofs.LineColumns

namespace TokenScan

namespace Text

def newlineByte : UInt8 := 0x0A

theorem idxsOf_utf8EncodeChar {d : Char} {x : UInt8} (hx : x.toNat < 128) (hd : d.toNat = x.toNat)
    (c : Char) (n : Nat) :
    (String.utf8EncodeChar c).idxsOf x n = if c = d then [n] else [] := by
  split_ifs with hc
  · rw [utf8EncodeChar_of_lt (hc ▸ hd ▸ hx), hc, hd, UInt8.ofNat_toNat]
    simp
  · have hfind := findIdx?_utf8EncodeChar hx hd c
    rw [if_neg hc, List.findIdx?_eq_none_iff] at hfind
    exact List.findIdxs_eq_nil_iff.2 hfind

theorem getElem_idxsOf_le_iff {bs : List UInt8} {x : UInt8} {n i : Nat}
    (hi : i < (bs.idxsOf x 1).length) : (bs.idxsOf x 1)[i] ≤ n ↔ i < (bs.take n).count x := by
  have hsplit : bs.idxsOf x 1 =
      (bs.take n).idxsOf x 1 ++ (bs.drop n).idxsOf x (1 + (bs.take n).length) := by
    rw [← List.idxsOf_append, List.take_append_drop]
  have hcount : bs.count x = (bs.take n).count x + (bs.drop n).count x := by
    rw [← List.count_append, List.take_append_drop]
  rw [List.length_idxsOf] at hi
  simp only [hsplit, List.getElem_append, List.length_idxsOf]
  split
  next hlt =>
    refine iff_of_true ?_ hlt
    have hi : i < ((bs.take n).idxsOf x 1).length := by rwa [List.length_idxsOf]
    have := List.getElem_idxsOf_lt hi
    have := List.length_take_le n bs
    omega
  next hge =>
    refine iff_of_false ?_ hge
    -- there is a byte from `n` on, so `n` bytes stand before it
    have hlong : n < bs.length := by
      by_contra hshort
      rw [hcount, List.drop_eq_nil_of_le (not_lt.1 hshort), List.count_nil] at hi
      exact hge hi
    have hlen := List.length_take_of_le hlong.le
    have hrest : i - (bs.take n).count x <
        ((bs.drop n).idxsOf x (1 + (bs.take n).length)).length := by
      rw [List.length_idxsOf]
      omega
    have := List.le_getElem_idxsOf hrest
    omega

end Text

namespace LineTable

open Text (byteLength newlineByte)

/-- The places behind newlines are those behind newline bytes. -/
theorem breaks_eq_idxsOf (n : Nat) (cs : List Char) :
    breaks n cs = (cs.flatMap String.utf8EncodeChar).idxsOf newlineByte (n + 1) := by
  induction cs generalizing n with
  | nil => rfl
  | cons c cs ih =>
    have hc := Text.idxsOf_utf8EncodeChar (d := '\n') (x := newlineByte) (by decide) (by decide) c
    rw [breaks, ih, List.flatMap_cons, List.idxsOf_append, hc, String.length_utf8EncodeChar,
      Nat.add_right_comm]
    split_ifs with hn
    · rw [hn]
      rfl
    · rfl

section
variable (source : String)

theorem toList_starts_eq_idxsOf :
    (ofSource source).starts.toList =
      0 :: source.toByteArray.data.toList.idxsOf newlineByte 1 := by
  rw [toList_starts, breaks_eq_idxsOf, Text.toList_toByteArray]

theorem pairwise_starts : (ofSource source).starts.toList.Pairwise (· < ·) := by
  rw [toList_starts_eq_idxsOf]
  exact List.pairwise_cons.2 ⟨fun i hi => List.ge_of_mem_idxsOf i hi, List.pairwise_idxsOf⟩

theorem size_starts :
    (ofSource source).starts.size = source.toByteArray.data.toList.count newlineByte + 1 := by
  rw [← Array.length_toList, toList_starts_eq_idxsOf, List.length_cons, List.length_idxsOf]

variable {source}

theorem mem_starts_iff {i : Nat} :
    i ∈ (ofSource source).starts ↔
      i = 0 ∨ ∃ j, source.toByteArray.data.toList[j]? = some newlineByte ∧ i = j + 1 := by
  rw [← Array.mem_toList_iff, toList_starts_eq_idxsOf, List.mem_cons,
    List.mem_idxsOf_iff_getElem_sub_pos]
  refine or_congr_right ⟨?_, ?_⟩
  · rintro ⟨hi, hlt, hbyte⟩
    exact ⟨i - 1, List.getElem?_eq_some_iff.2 ⟨hlt, eq_of_beq hbyte⟩, (Nat.sub_add_cancel hi).symm⟩
  · rintro ⟨j, hj, rfl⟩
    obtain ⟨hlt, hbyte⟩ := List.getElem?_eq_some_iff.1 hj
    exact ⟨Nat.le_add_left 1 j, hlt, beq_iff_eq.2 hbyte⟩

theorem isValid_of_mem_starts {i : Nat} (h : i ∈ (ofSource source).starts) :
    (String.Pos.Raw.mk i).IsValid source := by
  rw [← Array.mem_toList_iff, toList_starts, List.mem_cons] at h
  rw [Text.isValid_iff]
  obtain rfl | h := h
  · exact ⟨[], source.toList, rfl, rfl⟩
  · obtain ⟨before, after, hs, rfl⟩ := exists_of_mem_breaks h
    refine ⟨before ++ ['\n'], after, ?_, ?_⟩
    · rw [hs, List.append_assoc]
      rfl
    · rw [Text.byteLength_append, Nat.zero_add]
      rfl

theorem getElem_starts_le_iff {x i : Nat} (hi : i < (ofSource source).starts.size) :
    (ofSource source).starts[i] ≤ x ↔
      i < (source.toByteArray.data.toList.take x).count newlineByte + 1 := by
  rw [size_starts] at hi
  simp only [← Array.getElem_toList, toList_starts_eq_idxsOf]
  cases i with
  | zero => exact iff_of_true (Nat.zero_le x) (Nat.succ_pos _)
  | succ i =>
    rw [List.getElem_cons_succ, Text.getElem_idxsOf_le_iff, Nat.add_lt_add_iff_right]

end

/-- What a search of ordered entries for `x` tells: an index of `x`, or the index of the gap where
`x` would stand. -/
inductive Finds (a : Array Nat) (x : Nat) : Except Nat Nat → Prop
  | hit {i : Nat} (h : a[i]? = some x) : Finds a x (.ok i)
  | gap {i : Nat} (hi : i ≤ a.size)
      (h : ∀ j y, a[j]? = some y → j < i ∧ y < x ∨ i ≤ j ∧ x < y) : Finds a x (.error i)

/-- The line of an offset from what a search of the starts for it tells. -/
def lineOf : Except Nat Nat → Nat
  | .ok i => i + 1
  | .error i => i

section
variable {a : Array Nat} {x : Nat}

/-- A hit and a gap give the same line as bisection. -/
theorem lineOf_eq_bisect (ha : a.toList.Pairwise (· < ·)) {r : Except Nat Nat} (h : Finds a x r) :
    lineOf r = bisect a x 0 a.size (Nat.le_refl _) := by
  cases h with
  | @hit i h =>
    obtain ⟨hi, rfl⟩ := Array.getElem?_eq_some_iff.1 h
    have hmono {j k : Nat} (hj : j < a.size) (hk : k < a.size) (hjk : j < k) : a[j] < a[k] :=
      List.pairwise_iff_getElem.1 ha j k hj hk hjk
    refine (bisect_eq (k := i + 1) (fun j hj => ⟨fun hle => ?_, fun hlt => ?_⟩) (Nat.zero_le _)
      hi).symm
    · by_contra hij
      exact Nat.not_le_of_lt (hmono hi hj (by omega)) hle
    · obtain rfl | hji := Nat.eq_or_lt_of_le (Nat.le_of_lt_succ hlt)
      · exact Nat.le_refl _
      · exact (hmono hj hi hji).le
  | @gap i hi h =>
    refine (bisect_eq (k := i) (fun j hj => ?_) (Nat.zero_le _) hi).symm
    obtain ⟨hji, hlt⟩ | ⟨hij, hgt⟩ := h j a[j] (Array.getElem?_eq_getElem hj)
    · exact iff_of_true hlt.le hji
    · exact iff_of_false (Nat.not_le_of_lt hgt) (Nat.not_lt_of_le hij)

theorem exists_finds {k : Nat} (hk : ∀ i (hi : i < a.size), a[i] ≤ x ↔ i < k) (hle : k ≤ a.size) :
    ∃ r, Finds a x r := by
  by_cases hx : x ∈ a
  · obtain ⟨i, hi, rfl⟩ := Array.mem_iff_getElem.1 hx
    exact ⟨_, .hit (Array.getElem?_eq_getElem hi)⟩
  · refine ⟨_, .gap hle fun j y hj => ?_⟩
    obtain ⟨hlt, rfl⟩ := Array.getElem?_eq_some_iff.1 hj
    have hne : a[j] ≠ x := fun h => hx (h ▸ Array.getElem_mem hlt)
    have := hk j hlt
    omega

end

section
variable (source : String) (x : Nat)

theorem count_take_lt_size :
    (source.toByteArray.data.toList.take x).count newlineByte + 1 ≤
      (ofSource source).starts.size := by
  rw [size_starts]
  exact Nat.succ_le_succ ((List.take_sublist _ _).count_le _)

theorem lineAt_eq_count :
    (ofSource source).lineAt x =
      (source.toByteArray.data.toList.take x).count newlineByte + 1 :=
  bisect_eq (fun _ hi => getElem_starts_le_iff hi) (Nat.zero_le _) (count_take_lt_size source x)

theorem lineAt_le_of_le {y : Nat} (h : x ≤ y) :
    (ofSource source).lineAt x ≤ (ofSource source).lineAt y := by
  rw [lineAt_eq_count, lineAt_eq_count]
  exact Nat.succ_le_succ ((List.take_prefix_take_left h).sublist.count_le _)

end

/-- The starts of lines begin with 0 and are in strict order. They are the places of a cut in the
source, and exactly 0 and the places behind newline bytes. A search of them for any offset, inside
the source or not, has a result; any result, hit or gap, gives the line of the offset, which is one
more than there are newline bytes before it. So there is such a line, and lines are in the order of
offsets. -/
theorem lineAt_counts_newlines (source : String) :
    let t := ofSource source
    let bytes := source.toByteArray.data.toList
    (t.starts[0]? = some 0 ∧ t.starts.toList.Pairwise (· < ·) ∧
      (∀ i ∈ t.starts, i ≤ source.utf8ByteSize ∧ (String.Pos.Raw.mk i).IsValid source) ∧
      ∀ i, i ∈ t.starts ↔ i = 0 ∨ ∃ j, bytes[j]? = some newlineByte ∧ i = j + 1) ∧
    (∀ x, (∃ r, Finds t.starts x r) ∧ ∀ r, Finds t.starts x r → lineOf r = t.lineAt x) ∧
    (∀ x, t.lineAt x = 1 + (bytes.take x).count newlineByte ∧
      1 ≤ t.lineAt x ∧ t.lineAt x ≤ t.count) ∧
    ∀ x y, x ≤ y → t.lineAt x ≤ t.lineAt y := by
  intro t bytes
  refine ⟨⟨?_, pairwise_starts source, fun i hi => ?_, fun i => mem_starts_iff⟩,
    fun x => ⟨?_, fun r hr => lineOf_eq_bisect (pairwise_starts source) hr⟩, fun x => ?_,
    fun x y => lineAt_le_of_le source x⟩
  · rw [← Array.getElem?_toList, toList_starts_eq_idxsOf]
    rfl
  · have hvalid := isValid_of_mem_starts hi
    exact ⟨Text.le_of_isValid hvalid, hvalid⟩
  · exact exists_finds (fun _ hi => getElem_starts_le_iff hi) (count_take_lt_size source x)
  · have hline := lineAt_eq_count source x
    refine ⟨hline.trans (Nat.add_comm _ 1), ?_, ?_⟩
    · rw [hline]
      exact Nat.le_add_left 1 _
    · rw [hline]
      exact count_take_lt_size source x

/-- Offset 4 is an entry and 5 is none; 1 is inside a character and 99 past the end. -/
theorem lineAt_counts_newlines_hit_and_gap :
    let source := "é\n\nx\n"
    let t := ofSource source
    (4 ∈ t.starts ∧ (String.Pos.Raw.mk 4).IsValid source ∧
      ∃ j, source.toByteArray.data.toList[j]? = some newlineByte ∧ 4 = j + 1) ∧
    (Finds t.starts 4 (.ok 2) ∧ lineOf (.ok 2) = t.lineAt 4) ∧
    (Finds t.starts 5 (.error 3) ∧ lineOf (.error 3) = t.lineAt 5) ∧
    1 ≤ 99 ∧ t.lineAt 1 ≤ t.lineAt 99 ∧ t.lineAt 99 ≤ t.count := by
  intro source t
  have hstarts : t.starts = #[0, 3, 4, 6] := by decide +kernel
  have hmem : 4 ∈ t.starts := by simp [hstarts]
  have hhit : Finds t.starts 4 (.ok 2) := .hit (by rw [hstarts]; rfl)
  have hgap : Finds t.starts 5 (.error 3) := by
    refine .gap (by rw [hstarts]; decide) fun j y hj => ?_
    rw [hstarts] at hj
    match j with
    | 0 | 1 | 2 | 3 => simp at hj; omega
    | j + 4 => simp at hj
  obtain ⟨⟨-, -, hvalid, hbyte⟩, hsearch, hline, hmono⟩ := lineAt_counts_newlines source
  exact ⟨⟨hmem, (hvalid 4 hmem).2, ((hbyte 4).1 hmem).resolve_left (by decide)⟩,
    ⟨hhit, (hsearch 4).2 _ hhit⟩, ⟨hgap, (hsearch 5).2 _ hgap⟩, by decide,
    hmono 1 99 (by decide), (hline 99).2.2⟩

end LineTable
end TokenScan
