import TokenScan.Proofs.NearestNumber
import TokenScan.Proofs.WordKind

namespace TokenScan

namespace Decimal

open Literal (Digits Plain)

theorem exists_toDigits_eq (d : Decimal) :
    ∃ n, Nat.toDigits 10 d.coefficient = significant d ++ List.replicate n '0' := by
  rw [significant]
  generalize Nat.toDigits 10 d.coefficient = ds
  have hzeros : ∀ c ∈ ds.reverse.takeWhile (· = '0'), c = '0' := by
    intro c hc
    simpa using List.all_eq_true.1 List.all_takeWhile c hc
  refine ⟨(ds.reverse.takeWhile (· = '0')).length, ?_⟩
  calc ds = (ds.reverse.takeWhile (· = '0') ++ ds.reverse.dropWhile (· = '0')).reverse := by
        rw [List.takeWhile_append_dropWhile, List.reverse_reverse]
    _ = _ := by
        rw [List.eq_replicate_of_mem hzeros, List.reverse_append, List.reverse_replicate,
          List.length_replicate]

theorem isDigit_of_mem_significant {d : Decimal} {c : Char} (h : c ∈ significant d) :
    c.isDigit = true := by
  obtain ⟨n, hn⟩ := exists_toDigits_eq d
  have hmem : c ∈ Nat.toDigits 10 d.coefficient := hn ▸ List.mem_append_left _ h
  exact Nat.isDigit_of_mem_toDigits (by decide) (by decide) hmem

theorem value_eq (d : Decimal) :
    d.value = Nat.ofDigitChars 10 (significant d) 0 *
      (10 : ℚ) ^ (pointAt d - (significant d).length) := by
  obtain ⟨n, hn⟩ := exists_toDigits_eq d
  have hc : d.coefficient = 10 ^ n * Nat.ofDigitChars 10 (significant d) 0 := by
    rw [← Nat.ofDigitChars_ten_toDigits (n := d.coefficient), hn, Nat.ofDigitChars_append,
      Nat.ofDigitChars_replicate_zero]
  have hp : pointAt d - (significant d).length = n + d.exponent := by
    rw [pointAt, hn, List.length_append, List.length_replicate]
    push_cast
    ring
  rw [value, hp, hc, zpow_add₀ (by norm_num), zpow_natCast]
  push_cast
  ring

theorem plain_joined {whole fraction : List Char} (hw : Digits whole)
    (hf : ∀ c ∈ fraction, c.isDigit = true) : Plain whole fraction (joined whole fraction) := by
  rw [joined]
  split_ifs with h
  · rw [h]
    exact .integer hw
  · exact .pointed hw hf

theorem value_mk (n : Nat) (e : Int) : value ⟨n, e⟩ = n * (10 : ℚ) ^ e := rfl

theorem isDigit_of_mem_replicate {n : Nat} {c : Char} (h : c ∈ List.replicate n '0') :
    c.isDigit = true := by
  rw [List.eq_of_mem_replicate h]
  rfl

theorem value_rightpad (whole fraction : List Char) (places : Nat) :
    value ⟨Nat.ofDigitChars 10 (whole ++ fraction.rightpad places '0') 0,
        0 - (fraction.rightpad places '0').length⟩ =
      value ⟨Nat.ofDigitChars 10 (whole ++ fraction) 0, 0 - fraction.length⟩ := by
  rw [List.rightpad]
  generalize places - fraction.length = n
  have hexp : (0 : Int) - fraction.length = n + (0 - (fraction.length + n : Nat)) := by omega
  rw [← List.append_assoc, Nat.ofDigitChars_append, Nat.ofDigitChars_replicate_zero,
    List.length_append, List.length_replicate, value_mk, value_mk, hexp, zpow_add₀ (by norm_num),
    zpow_natCast]
  push_cast
  ring

/-- The digits `ds` with the point after `p` of them are `whole`, the point and `fraction`, up to
zeros at the end. -/
structure Positional (ds : List Char) (p : Int) (whole fraction : List Char) : Prop where
  digits : Digits whole
  isDigit : ∀ c ∈ fraction, c.isDigit = true
  eq : ∀ places, positional places ds p = joined whole (fraction.rightpad places '0')
  value_eq : value ⟨Nat.ofDigitChars 10 (whole ++ fraction) 0, 0 - fraction.length⟩ =
    Nat.ofDigitChars 10 ds 0 * (10 : ℚ) ^ (p - ds.length)

section
variable {ds : List Char} (hds : ∀ c ∈ ds, c.isDigit = true) {p : Int}
include hds

theorem positional_of_nonpos (hp : p ≤ 0) :
    Positional ds p ['0'] (List.replicate (-p).toNat '0' ++ ds) where
  digits := ⟨by simp, by simp⟩
  isDigit c hc := by
    obtain hc | hc := List.mem_append.1 hc
    · exact isDigit_of_mem_replicate hc
    · exact hds c hc
  eq places := by rw [positional, if_pos hp]
  value_eq := by
    have hdigits : Nat.ofDigitChars 10 ('0' :: (List.replicate (-p).toNat '0' ++ ds)) 0 =
        Nat.ofDigitChars 10 ds 0 := by
      rw [← List.cons_append, ← List.replicate_succ, Nat.ofDigitChars_append,
        Nat.ofDigitChars_replicate_zero, Nat.mul_zero]
    have hexp : (0 : Int) - ((-p).toNat + ds.length : Nat) = p - ds.length := by omega
    rw [List.singleton_append, hdigits, value_mk, List.length_append, List.length_replicate, hexp]

theorem positional_of_pos (hp : 0 < p) :
    Positional ds p ((ds.take p.toNat).rightpad p.toNat '0') (ds.drop p.toNat) := by
  obtain ⟨n, rfl⟩ := Int.eq_ofNat_of_zero_le hp.le
  rw [Int.toNat_natCast, List.rightpad]
  refine ⟨⟨?_, ?_⟩, fun c hc => hds c (List.mem_of_mem_drop hc), fun places => ?_, ?_⟩
  · refine List.ne_nil_of_length_pos ?_
    rw [List.length_append, List.length_replicate, List.length_take]
    omega
  · intro c hc
    obtain hc | hc := List.mem_append.1 hc
    · exact hds c (List.mem_of_mem_take hc)
    · exact isDigit_of_mem_replicate hc
  · rw [positional, if_neg (by omega), Int.toNat_natCast]
    rfl
  by_cases hn : ds.length ≤ n
  · -- zeros up to the point
    have hexp : (0 : Int) - (0 : Nat) = 0 := rfl
    rw [List.take_of_length_le hn, List.drop_of_length_le hn, List.append_nil, value_mk,
      Nat.ofDigitChars_append, Nat.ofDigitChars_replicate_zero, List.length_nil, hexp, zpow_zero,
      ← Nat.cast_sub hn, zpow_natCast]
    push_cast
    ring
  · -- the point between two digits
    have hpad : n - (ds.take n).length = 0 := by
      rw [List.length_take]
      omega
    have hexp : (0 : Int) - (ds.length - n : Nat) = n - ds.length := by omega
    rw [hpad, List.replicate_zero, List.append_nil, List.take_append_drop, value_mk,
      List.length_drop, hexp]

end

theorem exists_positional {ds : List Char} (hds : ∀ c ∈ ds, c.isDigit = true) (p : Int)
    (places : Nat) :
    ∃ whole fraction, Plain whole fraction (positional places ds p) ∧
      value ⟨Nat.ofDigitChars 10 (whole ++ fraction) 0, 0 - fraction.length⟩ =
        Nat.ofDigitChars 10 ds 0 * (10 : ℚ) ^ (p - ds.length) := by
  obtain ⟨whole, fraction, hpos⟩ : ∃ whole fraction, Positional ds p whole fraction := by
    by_cases hp : p ≤ 0
    · exact ⟨_, _, positional_of_nonpos hds hp⟩
    · exact ⟨_, _, positional_of_pos hds (not_le.1 hp)⟩
  have hpadded : ∀ c ∈ fraction.rightpad places '0', c.isDigit = true := by
    intro c hc
    obtain hc | hc := List.mem_append.1 hc
    · exact hpos.isDigit c hc
    · exact isDigit_of_mem_replicate hc
  refine ⟨whole, fraction.rightpad places '0', ?_, ?_⟩
  · rw [hpos.eq]
    exact plain_joined hpos.digits hpadded
  · rw [value_rightpad, hpos.value_eq]

theorem exists_spells (d : Decimal) :
    ∃ whole fraction, Plain whole fraction (Layout.plain.digits d) ∧
      (Literal.mk false whole fraction 0).toDecimal.value = d.value := by
  obtain ⟨whole, fraction, hplain, hvalue⟩ :=
    exists_positional (fun _ => isDigit_of_mem_significant) (pointAt d) 0
  exact ⟨whole, fraction, hplain, hvalue.trans (value_eq d).symm⟩

end Decimal

namespace Binary64

/-- Neither infinite nor a NaN. -/
def IsFinite (x : Binary64) : Prop := x.magnitude < infinite

theorem ofMagnitude_magnitude {x : Binary64} (h : x.isNegative = false) :
    ofMagnitude false x.magnitude = x := by
  have hlt : x.bits.toNat < Nat.pow 2 63 := by simpa [isNegative] using h
  rw [ofMagnitude, magnitude, Nat.mod_eq_of_lt hlt]
  simp

theorem text_of_isFinite {x : Binary64} (l : Decimal.Layout) (hfin : x.IsFinite) :
    (x.text l).toList =
      (if x.isNegative then ['-'] else []) ++ l.digits (Decimal.shortest x.magnitude) := by
  have hnan : x.isNaN = false := decide_eq_false (Nat.not_lt_of_lt hfin)
  rw [text, hnan, if_neg Bool.false_ne_true, if_neg hfin.ne, String.toList_append,
    String.toList_ofList]
  split <;> rfl

theorem ofMagnitude_isNegative (x : Binary64) : ofMagnitude x.isNegative x.magnitude = x := by
  by_cases hneg : x.isNegative = true
  · have hle : Nat.pow 2 63 ≤ x.bits.toNat := of_decide_eq_true hneg
    have hlt := x.bits.toNat_lt
    have hmod : x.bits.toNat % Nat.pow 2 63 = x.bits.toNat - Nat.pow 2 63 := by
      rw [Nat.pow_eq] at hle ⊢
      omega
    rw [ofMagnitude, if_pos hneg, magnitude, hmod, Nat.add_sub_cancel' hle, UInt64.ofNat_toNat]
  · rw [Bool.not_eq_true] at hneg
    rw [hneg, ofMagnitude_magnitude hneg]

/-- A literal with the sign of a number and the value of its shortest decimal reads as it. -/
theorem number?_of_spells {x : Binary64} (hfin : x.IsFinite) {whole fraction w : List Char}
    {exponent : Int} (hspells : Decimal.Literal.Spells ⟨x.isNegative, whole, fraction, exponent⟩ w)
    (hvalue : (Decimal.Literal.mk x.isNegative whole fraction exponent).toDecimal.value =
      (Decimal.shortest x.magnitude).value) :
    Word.number? w = some x := by
  rw [Word.number?, Decimal.Literal.parse?_eq_some_iff.2 hspells, Option.map_some,
    Decimal.Literal.toBinary64, Decimal.magnitude_congr hvalue, Decimal.magnitude_shortest hfin,
    ofMagnitude_isNegative]

theorem text_plain_reads {x : Binary64} (hfin : x.IsFinite) (hneg : x.isNegative = false) :
    Word.IsPlain (x.text .plain).toList ∧ Word.number? (x.text .plain).toList = some x := by
  obtain ⟨whole, fraction, hplain, hvalue⟩ := Decimal.exists_spells (Decimal.shortest x.magnitude)
  have hspells : Decimal.Literal.Spells ⟨x.isNegative, whole, fraction, 0⟩
      (Decimal.Layout.plain.digits (Decimal.shortest x.magnitude)) := by
    rw [hneg]
    exact ⟨[], _, [], (List.append_nil _).symm, .none, hplain, .none⟩
  rw [text_of_isFinite .plain hfin, hneg, if_neg Bool.false_ne_true, List.nil_append]
  exact ⟨⟨whole, fraction, hplain⟩, number?_of_spells hfin hspells hvalue⟩

end Binary64
end TokenScan
