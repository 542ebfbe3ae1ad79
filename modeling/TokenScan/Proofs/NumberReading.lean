import TokenScan.Proofs.LiteralBytes
import TokenScan.Proofs.NumberSpelling
import TokenScan.Proofs.Rounding

namespace TokenScan

open Decimal (Literal)
open Decimal.Literal (Sign)

namespace Decimal.Literal

/-- What the literal stands for, without its sign. -/
def value (l : Literal) : ℚ :=
  (Nat.ofDigitChars 10 l.whole 0 +
    Nat.ofDigitChars 10 l.fraction 0 / (10 : ℚ) ^ l.fraction.length) * (10 : ℚ) ^ l.exponent

theorem value_toDecimal (l : Literal) : l.toDecimal.value = l.value := by
  have hten : (10 : ℚ) ≠ 0 := by norm_num
  rw [toDecimal, value_mk, Nat.ofDigitChars_append, Nat.ofDigitChars_eq_ofDigitChars_zero, value,
    zpow_sub₀ hten, zpow_natCast]
  push_cast
  field_simp

theorem Spells.unique {l l' : Literal} {w : List Char} (h : l.Spells w) (h' : l'.Spells w) :
    l = l' :=
  Option.some.inj ((parse?_eq_some_iff.2 h).symm.trans (parse?_eq_some_iff.2 h'))

theorem toLower_ne {c : Char} (h : Word.isNumeral c = true ∨ c ∈ ['+', '-', 'e', 'E']) :
    c.toLower ≠ 'n' := by
  obtain hn | hn := h
  · -- below all letters, so `toLower` changes nothing
    have hlt : c.toNat < 65 := (Word.toNat_of_isNumeral hn).2.trans_lt (by decide)
    have hlower : c.toLower = c := dif_neg fun hupper => Nat.not_le_of_lt hlt hupper.1
    rw [hlower]
    rintro rfl
    exact absurd hn (by decide)
  · simp only [List.mem_cons, List.not_mem_nil, or_false] at hn
    obtain rfl | rfl | rfl | rfl := hn <;> decide

theorem Spells.not_mem_map_toLower {l : Literal} {w : List Char} (h : l.Spells w) :
    'n' ∉ w.map Char.toLower := by
  intro hn
  obtain ⟨c, hc, hlower⟩ := List.mem_map.1 hn
  exact toLower_ne (h.forall_mem c hc) hlower

end Decimal.Literal

namespace Binary64

/-- The general reading of a text: what a literal is nearest to, with the sign also of a zero, or a
name with a sign in letters of either case. -/
inductive Reads : List Char → Binary64 → Prop
  | literal {l : Literal} {w : List Char} {x : Binary64} : l.Spells w →
      x.isNegative = l.negative → IsNearest l.value x.magnitude → Reads w x
  | infinity {negative : Bool} {s name : List Char} {x : Binary64} : Sign negative s →
      name.map Char.toLower = "inf".toList ∨ name.map Char.toLower = "infinity".toList →
      x.isNegative = negative → x.magnitude = infinite → Reads (s ++ name) x
  | nan {negative : Bool} {s name : List Char} {x : Binary64} : Sign negative s →
      name.map Char.toLower = "nan".toList → x.isNaN = true → Reads (s ++ name) x

theorem toBinary64_eq_iff {l : Literal} {x : Binary64} :
    l.toBinary64 = x ↔ x.isNegative = l.negative ∧ IsNearest l.value x.magnitude := by
  have hle := l.toDecimal.magnitude_le
  have hnearest := l.value_toDecimal ▸ l.toDecimal.isNearest_magnitude
  constructor
  · rintro rfl
    rw [Literal.toBinary64, isNegative_ofMagnitude _ hle, magnitude_ofMagnitude _ hle]
    exact ⟨rfl, hnearest⟩
  · rintro ⟨hneg, hx⟩
    rw [Literal.toBinary64, ← hneg, hnearest.unique hx, ofMagnitude_isNegative]

theorem reads_iff_of_spells {l : Literal} {w : List Char} (h : l.Spells w) {x : Binary64} :
    Reads w x ↔ l.toBinary64 = x := by
  rw [toBinary64_eq_iff]
  constructor
  · intro hx
    cases hx with
    | literal h' hneg hnearest =>
      obtain rfl := h.unique h'
      exact ⟨hneg, hnearest⟩
    | infinity _ hname =>
      refine absurd ?_ h.not_mem_map_toLower
      rw [List.map_append]
      refine List.mem_append_right _ ?_
      obtain hname | hname := hname <;> rw [hname] <;> decide
    | nan _ hname =>
      refine absurd ?_ h.not_mem_map_toLower
      rw [List.map_append, hname]
      exact List.mem_append_right _ (by decide)
  · rintro ⟨hneg, hnearest⟩
    exact .literal h hneg hnearest

end Binary64

namespace Word

theorem number?_eq_some_iff {w : List Char} {x : Binary64} :
    number? w = some x ↔ (∃ l, Literal.Spells l w) ∧ Binary64.Reads w x := by
  rw [number?, Option.map_eq_some_iff]
  simp only [Literal.parse?_eq_some_iff]
  constructor
  · rintro ⟨l, hl, hx⟩
    exact ⟨⟨l, hl⟩, (Binary64.reads_iff_of_spells hl).2 hx⟩
  · rintro ⟨⟨l, hl⟩, hx⟩
    exact ⟨l, hl, (Binary64.reads_iff_of_spells hl).1 hx⟩

/-- The words that are numbers are the literals, told from their bytes without a cut that fails;
and they are the numbers that the general reading has for them. -/
theorem number?_exact (w : String) :
    Literal.inBytes? w.toByteArray.data.toList = some (number? w.toList).isSome ∧
      ((number? w.toList).isSome = true ↔ ∃ l, Literal.Spells l w.toList) ∧
      ∀ x, number? w.toList = some x ↔
        (∃ l, Literal.Spells l w.toList) ∧ Binary64.Reads w.toList x := by
  refine ⟨?_, isSome_number?_iff, fun x => number?_eq_some_iff⟩
  rw [Literal.inBytes?_eq, number?, Option.isSome_map]

theorem number?_exact_power : Binary64.Reads "-1.5e+2".toList ⟨0xC062C00000000000⟩ :=
  (((number?_exact "-1.5e+2").2.2 _).1 (by decide +kernel)).2

example : number? "inf".toList = none ∧ number? "1e".toList = none := by decide

end Word
end TokenScan
