import TokenScan.Proofs.CursorOffsets

namespace TokenScan

namespace Text

variable {d : Char} {cs : List Char}

theorem prefix_takeWhile {p : Char → Bool} {run : List Char} (h : run <+: cs)
    (hp : ∀ c ∈ run, p c = true) : run <+: cs.takeWhile p := by
  obtain ⟨rest, rfl⟩ := h
  rw [List.takeWhile_append_of_pos hp]
  exact List.prefix_append run _

theorem not_mem_takeWhile_bne (d : Char) (cs : List Char) : d ∉ cs.takeWhile (· != d) := by
  intro h
  have hd := List.mem_takeWhile_imp h
  exact bne_iff_ne.1 hd rfl

theorem forall_bne_of_not_mem (h : d ∉ cs) : ∀ c ∈ cs, (c != d) = true :=
  fun _ hc => bne_iff_ne.2 fun hd => h (hd ▸ hc)

theorem head?_dropWhile_bne (d : Char) (cs : List Char) :
    (cs.dropWhile (· != d)).head? = if d ∈ cs then some d else none := by
  rw [← List.find?_not_eq_head?_dropWhile]
  split_ifs with h
  · have hsome : (cs.find? fun c => !(c != d)).isSome = true :=
      List.find?_isSome.2 ⟨d, h, by simp⟩
    obtain ⟨c, hc⟩ := Option.isSome_iff_exists.1 hsome
    rw [hc]
    simpa using List.find?_some hc
  · simpa using forall_bne_of_not_mem h

end Text

namespace Cursor

open Text (byteLength)
open Offsets (seek? skipWhile?)

section
variable (d : Char) (c : Cursor)

theorem skipWhile_eq_toEnd {p : Char → Bool} (h : ∀ e ∈ c.rest, p e = true) :
    c.skipWhile p = c.toEnd := by
  have htake := List.takeWhile_eq_self_iff.2 h
  have hdrop := List.dropWhile_eq_nil_iff.2 h
  simp only [skipWhile, toEnd, htake, hdrop]

theorem current_skipWhile_bne :
    (c.skipWhile (· != d)).current = if d ∈ c.rest then some d else none :=
  Text.head?_dropWhile_bne d c.rest

theorem current_skipWhile_bne_iff : (c.skipWhile (· != d)).current = some d ↔ d ∈ c.rest := by
  simp [current_skipWhile_bne]

theorem atEnd_skipWhile_bne_iff : (c.skipWhile (· != d)).atEnd = true ↔ d ∉ c.rest := by
  simp [atEnd_iff_current, current_skipWhile_bne]

theorem skipWhile_bne_longest :
    ∃ run, c.rest = run ++ (c.skipWhile (· != d)).rest ∧ d ∉ run ∧
      (∀ other, other <+: c.rest → d ∉ other → other <+: run) ∧
      (c.skipWhile (· != d)).pos = c.pos + byteLength run :=
  ⟨c.rest.takeWhile (· != d), List.takeWhile_append_dropWhile.symm,
    Text.not_mem_takeWhile_bne d c.rest,
    fun _ hprefix hd => Text.prefix_takeWhile hprefix (Text.forall_bne_of_not_mem hd), rfl⟩

end

theorem seek_of_lt {d : Char} {x : UInt8} (hx : x.toNat < 128) (hd : d.toNat = x.toNat)
    (c : Cursor) : c.seek x = (decide (d ∈ c.rest), c.skipWhile (· != d)) := by
  rw [seek, c.find?_of_lt hx hd]
  by_cases h : d ∈ c.rest
  · rw [if_pos h, decide_eq_true h]
  · rw [if_neg h, decide_eq_false h, c.skipWhile_eq_toEnd (Text.forall_bne_of_not_mem h)]

/-- A search for a byte below 128 leads to the same place as a walk past the characters other than
that byte. So it does when both know no more than an offset, with the search going by bytes and the
walk by characters. What they pass is the longest run without the byte. The search tells that it
found the byte exactly if the byte comes next, and that it did not exactly if nothing comes next. -/
theorem seek_longest_run {x : UInt8} (hx : x.toNat < 128) (c : Cursor) :
    let d := Char.ofUInt8 x
    let stop := c.skipWhile (· != d)
    (c.seek x).2 = stop ∧
    (seek? c.source x c.pos = some ((c.seek x).1, stop.pos) ∧
      skipWhile? c.source (· != d) c.pos = some stop.pos) ∧
    (∃ run, c.rest = run ++ stop.rest ∧ d ∉ run ∧
      (∀ other, other <+: c.rest → d ∉ other → other <+: run) ∧
      stop.pos = c.pos + byteLength run) ∧
    ((c.seek x).1 = true ↔ stop.current = some d) ∧
    ((c.seek x).1 = false ↔ stop.atEnd = true) := by
  intro d stop
  have hd : d.toNat = x.toNat := UInt8.toNat_toUInt32 x
  have hseek := c.seek_of_lt hx hd
  have hjump := c.seek?_pos hx
  rw [hseek] at hjump ⊢
  refine ⟨rfl, ⟨hjump, c.skipWhile?_pos _⟩, c.skipWhile_bne_longest d, ?_, ?_⟩
  · rw [decide_eq_true_iff, c.current_skipWhile_bne_iff]
  · rw [decide_eq_false_iff_not, c.atEnd_skipWhile_bne_iff]

/-- A quote behind wide characters, and another that is not there. -/
theorem seek_longest_run_wide :
    let c := (start "aé𝄞\"é").advance.2
    (0x22 : UInt8).toNat < 128 ∧ (c.seek 0x22).1 = true ∧
      seek? c.source 0x22 1 = some (true, 7) ∧ skipWhile? c.source (· != '"') 1 = some 7 ∧
      (c.seek 0x22).2.current = some '"' ∧
      (0x3B : UInt8).toNat < 128 ∧ (c.seek 0x3B).1 = false ∧
      seek? c.source 0x3B 1 = some (false, 10) ∧ (c.seek 0x3B).2.atEnd = true := by
  intro c
  have hpos : c.pos = 1 := by decide +kernel
  have hq : (c.seek 0x22).1 = true := by decide +kernel
  have hs : (c.seek 0x3B).1 = false := by decide +kernel
  have hqstop : (c.skipWhile (· != '"')).pos = 7 := by decide +kernel
  have hsstop : (c.skipWhile (· != ';')).pos = 10 := by decide +kernel
  obtain ⟨hqseek, ⟨hqjump, hqwalk⟩, -, hqfound, -⟩ := seek_longest_run (x := 0x22) (by decide) c
  obtain ⟨hsseek, ⟨hsjump, -⟩, -, -, hsend⟩ := seek_longest_run (x := 0x3B) (by decide) c
  change (c.seek 0x22).2 = c.skipWhile (· != '"') at hqseek
  change (c.seek 0x3B).2 = c.skipWhile (· != ';') at hsseek
  rw [hq, hpos] at hqjump
  rw [hs, hpos] at hsjump
  rw [hpos] at hqwalk
  refine ⟨by decide, hq, hqstop ▸ hqjump, hqstop ▸ hqwalk, ?_, by decide, hs, hsstop ▸ hsjump, ?_⟩
  · rw [hqseek]
    exact hqfound.1 hq
  · rw [hsseek]
    exact hsend.1 hs

end Cursor
end TokenScan
