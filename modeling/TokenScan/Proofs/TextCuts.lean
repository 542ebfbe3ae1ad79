import Mathlib.Data.List.TakeWhile
import Mathlib.Order.Basic
import Mathlib.Tactic.Common
import TokenScan.Cursor
import TokenScan.Text.Blank

namespace TokenScan.Text

theorem takeWhile_append_run {p : Char → Bool} {a b : List Char} (ha : ∀ c ∈ a, p c = true)
    (hb : ∀ c ∈ b.head?, p c = false) :
    (a ++ b).takeWhile p = a ∧ (a ++ b).dropWhile p = b := by
  rw [List.takeWhile_append_of_pos ha, List.dropWhile_append_of_pos ha]
  cases b with
  | nil => simp
  | cons c b => simp [hb c rfl]

theorem append_cons_eq_append {a b p q : List Char} {c : Char} (h : a ++ c :: b = p ++ q) :
    (∃ t, p = a ++ c :: t ∧ b = t ++ q) ∨ ∃ a', a = p ++ a' ∧ q = a' ++ c :: b := by
  obtain ⟨t, rfl, ht⟩ | ⟨t, rfl, rfl⟩ := List.append_eq_append_iff.1 h
  · cases t with
    | nil => exact .inr ⟨[], by simp, by simpa using ht.symm⟩
    | cons d t =>
      obtain ⟨rfl, rfl⟩ := List.cons.inj ht
      exact .inl ⟨t, rfl, rfl⟩
  · exact .inr ⟨t, rfl, rfl⟩

theorem append_cons_inj {a b x y : List Char} {c : Char} (ha : c ∉ a) (hb : c ∉ b)
    (h : a ++ c :: x = b ++ c :: y) : a = b ∧ x = y := by
  obtain ⟨t, rfl, -⟩ | ⟨t, rfl, ht⟩ := append_cons_eq_append h
  · exact absurd (by simp) hb
  · cases t with
    | nil => exact ⟨List.append_nil b, (List.cons.inj ht).2.symm⟩
    | cons d t =>
      obtain ⟨rfl, -⟩ := List.cons.inj ht
      exact absurd (by simp) ha

theorem not_mem_toDigits {c : Char} (hc : c.isDigit = false) (n : Nat) :
    c ∉ Nat.toDigits 10 n := by
  intro hm
  rw [Nat.isDigit_of_mem_toDigits (by decide) (by decide) hm] at hc
  cases hc

theorem isBlank_eq_false {c : Char} (h : 33 ≤ c.toNat) (h' : c.toNat ≤ 126) :
    isBlank c = false := by
  by_contra hb
  obtain ⟨p, hp, hlo, hhi⟩ := Ranges.has_iff.1 (Bool.not_eq_false _ ▸ hb)
  simp only [blanks, List.mem_cons, List.not_mem_nil, or_false] at hp
  rcases hp with rfl | rfl | rfl | rfl | rfl | rfl | rfl | rfl | rfl | rfl <;>
    dsimp only at hlo hhi <;> omega

/-- A character boundary is where a text can be cut. -/
theorem isValid_iff {source : String} {n : Nat} :
    (String.Pos.Raw.mk n).IsValid source ↔
      ∃ before after, source.toList = before ++ after ∧ byteLength before = n := by
  rw [String.Pos.Raw.isValid_iff_exists_append]
  constructor
  · rintro ⟨a, b, rfl, hn⟩
    refine ⟨a.toList, b.toList, String.toList_append, ?_⟩
    rw [Text.byteLength_toList]
    exact (congrArg String.Pos.Raw.byteIdx hn).symm
  · rintro ⟨before, after, hs, rfl⟩
    refine ⟨String.ofList before, String.ofList after, ?_, ?_⟩
    · rw [← String.ofList_append, ← hs, String.ofList_toList]
    · rw [← String.toList_ofList (l := before), Text.byteLength_toList, String.toList_ofList]
      rfl

theorem le_of_isValid {source : String} {n : Nat} (h : (String.Pos.Raw.mk n).IsValid source) :
    n ≤ source.utf8ByteSize := by
  obtain ⟨before, after, hs, rfl⟩ := isValid_iff.1 h
  rw [← byteLength_toList, hs, byteLength_append]
  exact Nat.le_add_right _ _

theorem exists_between {a b p q : List Char} (h : a ++ b = p ++ q)
    (hle : byteLength a ≤ byteLength p) : ∃ t, p = a ++ t ∧ b = t ++ q := by
  obtain ⟨t, hp, hb⟩ | ⟨t, ha, hq⟩ := List.append_eq_append_iff.1 h
  · exact ⟨t, hp, hb⟩
  · rw [ha, Text.byteLength_append] at hle
    obtain rfl : t = [] := Text.byteLength_eq_zero.1 (by omega)
    exact ⟨[], by rw [ha, List.append_nil, List.append_nil], hq.symm⟩

theorem exists_slice?_eq_some {source : String} {i j : Nat}
    (hi : (String.Pos.Raw.mk i).IsValid source) (hj : (String.Pos.Raw.mk j).IsValid source)
    (hij : i ≤ j) : ∃ m, slice? source.toList i j = some m := by
  obtain ⟨before, after, hs, rfl⟩ := isValid_iff.1 hi
  obtain ⟨before', after', hs', rfl⟩ := isValid_iff.1 hj
  obtain ⟨m, rfl, rfl⟩ := exists_between (hs.symm.trans hs') hij
  exact ⟨m, slice?_eq_some_iff.2 ⟨before, after', hs', rfl, (byteLength_append _ _).symm⟩⟩

theorem isValid_of_slice? {source : String} {i j : Nat} {m : List Char}
    (h : slice? source.toList i j = some m) :
    i ≤ j ∧ (String.Pos.Raw.mk i).IsValid source ∧ (String.Pos.Raw.mk j).IsValid source := by
  obtain ⟨a, b, hs, rfl, rfl⟩ := slice?_eq_some_iff.1 h
  exact ⟨Nat.le_add_right _ _, isValid_iff.2 ⟨a, m ++ b, by rw [hs, List.append_assoc], rfl⟩,
    isValid_iff.2 ⟨a ++ m, b, hs, byteLength_append _ _⟩⟩

theorem slice?_eq_none_iff {source : String} {i j : Nat} :
    slice? source.toList i j = none ↔ j < i ∨
      ¬ (String.Pos.Raw.mk i).IsValid source ∨ ¬ (String.Pos.Raw.mk j).IsValid source := by
  cases h : slice? source.toList i j with
  | some m =>
    obtain ⟨hij, hi, hj⟩ := isValid_of_slice? h
    simp [hij, hi, hj]
  | none =>
    refine iff_of_true rfl ?_
    by_contra hcon
    push Not at hcon
    obtain ⟨hij, hi, hj⟩ := hcon
    obtain ⟨m, hm⟩ := exists_slice?_eq_some hi hj hij
    rw [h] at hm
    cases hm

theorem length_flatMap_utf8EncodeChar (cs : List Char) :
    (cs.flatMap String.utf8EncodeChar).length = byteLength cs := by
  induction cs with
  | nil => rfl
  | cons c cs ih => simp [ih]

theorem toList_toByteArray (source : String) :
    source.toByteArray.data.toList = source.toList.flatMap String.utf8EncodeChar := by
  rw [← String.utf8Encode_toList, List.utf8Encode]
  simp

theorem drop_bytes_of_append {source : String} {before cs : List Char}
    (h : source.toList = before ++ cs) :
    source.toByteArray.data.toList.drop (byteLength before) =
      cs.flatMap String.utf8EncodeChar := by
  rw [toList_toByteArray, h, List.flatMap_append, ← length_flatMap_utf8EncodeChar before,
    List.drop_left]

theorem utf8EncodeChar_of_lt {c : Char} (h : c.toNat < 128) :
    String.utf8EncodeChar c = [UInt8.ofNat c.toNat] := by
  have hv : c.val.toNat ≤ 127 := Nat.le_of_lt_succ h
  rw [String.utf8EncodeChar, if_pos hv]
  rfl

theorem le_of_mem_utf8EncodeChar {c : Char} (h : 128 ≤ c.toNat) {b : UInt8}
    (hb : b ∈ String.utf8EncodeChar c) : 128 ≤ b.toNat := by
  have hv : ¬ c.val.toNat ≤ 127 := Nat.not_le_of_lt h
  rw [String.utf8EncodeChar, if_neg hv] at hb
  -- two, three or four bytes, each with its top bit set
  repeat' split at hb
  all_goals simp only [List.mem_cons, List.not_mem_nil, or_false] at hb
  · rcases hb with rfl | rfl <;> rw [UInt8.toNat_ofNat'] <;> omega
  · rcases hb with rfl | rfl | rfl <;> rw [UInt8.toNat_ofNat'] <;> omega
  · rcases hb with rfl | rfl | rfl | rfl <;> rw [UInt8.toNat_ofNat'] <;> omega

/-- Where a character below 128 is written, nothing else has its byte. -/
theorem findIdx?_utf8EncodeChar {d : Char} {x : UInt8} (hx : x.toNat < 128)
    (hd : d.toNat = x.toNat) (c : Char) :
    (String.utf8EncodeChar c).findIdx? (· == x) = if c = d then some 0 else none := by
  by_cases hc : c.toNat < 128
  · have hcd : UInt8.ofNat c.toNat = x ↔ c = d := by
      rw [← Char.toNat_inj, hd, ← UInt8.toNat_inj, UInt8.toNat_ofNat', Nat.mod_eq_of_lt (by omega)]
    simp [utf8EncodeChar_of_lt hc, List.findIdx?_cons, hcd]
  · have hne : c ≠ d := fun h => hc (by rw [h, hd]; exact hx)
    rw [if_neg hne, List.findIdx?_eq_none_iff]
    intro b hb
    have := le_of_mem_utf8EncodeChar (Nat.le_of_not_lt hc) hb
    simp only [beq_eq_false_iff_ne, ne_eq, ← UInt8.toNat_inj]
    omega

section
variable {d : Char} {x : UInt8} (hx : x.toNat < 128) (hd : d.toNat = x.toNat)
include hx hd

theorem byteIndexFrom_of_lt (n : Nat) (cs : List Char) :
    byteIndexFrom x n cs =
      if d ∈ cs then some (n + byteLength (cs.takeWhile (· != d))) else none := by
  induction cs generalizing n with
  | nil => rfl
  | cons c cs ih =>
    rw [byteIndexFrom, findIdx?_utf8EncodeChar hx hd]
    by_cases hc : c = d
    · simp [hc]
    · simp [hc, ih, Ne.symm hc, Nat.add_assoc]

theorem cutAt?_byteIndex? (cs : List Char) :
    (byteIndex? x cs).bind (cutAt? · cs) =
      if d ∈ cs then some (cs.takeWhile (· != d), cs.dropWhile (· != d)) else none := by
  rw [byteIndex?, byteIndexFrom_of_lt hx hd]
  split
  · rw [Option.bind_some, cutAt?_eq_some_iff]
    exact ⟨List.takeWhile_append_dropWhile.symm, (Nat.zero_add _).symm⟩
  · rfl

end
end TokenScan.Text

namespace TokenScan.Cursor

open Text

@[simp] theorem source_skip (c : Cursor) (text rest : List Char) (h) :
    (c.skip text rest h).source = c.source := rfl

@[simp] theorem source_skipWhile (c : Cursor) (p : Char → Bool) :
    (c.skipWhile p).source = c.source := rfl

@[simp] theorem source_advance (c : Cursor) : c.advance.2.source = c.source := by
  rw [advance]; split <;> rfl

theorem pos_of_append_rest {c d : Cursor} {text : List Char} (hs : d.source = c.source)
    (hr : text ++ d.rest = c.rest) : d.pos = c.pos + Text.byteLength text := by
  have hc := c.pos_add_byteLength_rest
  have hd := d.pos_add_byteLength_rest
  rw [length, ← hr, Text.byteLength_append] at hc
  rw [length, hs] at hd
  omega

theorem find?_of_lt {d : Char} {x : UInt8} (hx : x.toNat < 128) (hd : d.toNat = x.toNat)
    (c : Cursor) :
    c.find? x =
      if d ∈ c.rest then some (c.rest.takeWhile (· != d), c.skipWhile (· != d)) else none := by
  have hcut := cutAt?_byteIndex? hx hd c.rest
  rw [find?]
  split
  next hn =>
    rw [hn] at hcut
    split at hcut <;> simp_all
  next a b hab =>
    rw [hab] at hcut
    split at hcut
    next hm =>
      obtain ⟨rfl, rfl⟩ := Prod.mk.inj (Option.some.inj hcut)
      rw [if_pos hm]
      rfl
    next => cases hcut

end TokenScan.Cursor
