import TokenScan.Proofs.DecimalGrammar
import TokenScan.Proofs.WordClass

namespace TokenScan.Word

open Decimal (Literal)

inductive Class where
  | number
  | symbol
  | name
deriving DecidableEq

/-- The attempt at one class. -/
def Class.read? (w : List Char) : Class → Option Token
  | number => (number? w).map .number
  | symbol => (symbol? w).map .symbol
  | name => (name? w).map .name

/-- The first attempt that succeeds. -/
def attempt? (order : List Class) (w : List Char) : Option Token := order.findSome? (Class.read? w)

theorem startsName_eq_false {c : Char} (h : c.toNat < 65) : startsName c = false := by
  rw [← Bool.not_eq_true, startsName_iff]
  rintro ⟨hlo, -⟩
  have hA : 65 ≤ c.toNat := UInt32.le_iff_toNat_le.1 hlo
  omega

theorem toNat_lt_of_isDigit {c : Char} (h : c.isDigit = true) : c.toNat < 65 := by
  rw [Char.isDigit_iff_toNat] at h
  exact h.2.trans_lt (by decide)

theorem head?_any_startsName_of_spells {l : Literal} {w : List Char} (h : l.Spells w) :
    w.head?.any startsName = false := by
  obtain ⟨negative, whole, fraction, exponent⟩ := l
  obtain ⟨s, m, p, rfl, hs, hm, -⟩ := h
  obtain ⟨c, cs, rfl, hc⟩ := hm.exists_head
  cases hs with
  | none =>
    refine startsName_eq_false ?_
    obtain hc | rfl := hc
    · exact toNat_lt_of_isDigit hc
    · decide
  | plus => rfl
  | minus => rfl

section
variable {w : List Char}

theorem isSome_number?_iff : (number? w).isSome = true ↔ ∃ l, Literal.Spells l w := by
  rw [number?, Option.isSome_map, Option.isSome_iff_exists]
  simp only [Literal.parse?_eq_some_iff]

theorem number?_eq_none_iff : number? w = none ↔ ¬ ∃ l, Literal.Spells l w := by
  rw [← isSome_number?_iff, Bool.not_eq_true, Option.isSome_eq_false_iff, Option.isNone_iff_eq_none]

theorem symbol?_eq_none_iff : symbol? w = none ↔ ∀ c, isWordSymbol c = true → w ≠ [c] := by
  simp only [Option.eq_none_iff_forall_ne_some, ne_eq, symbol?_eq_some_iff]
  exact forall_congr' fun c => ⟨fun h hc hw => h ⟨hw, hc⟩, fun h hc => h hc.2 hc.1⟩

theorem name?_eq_none_iff : name? w = none ↔ w.head?.any startsName = false := by
  rw [name?, ite_eq_right_iff]
  simp

theorem number?_or_name?_eq_none (w : List Char) : number? w = none ∨ name? w = none := by
  rw [or_iff_not_imp_left, number?_eq_none_iff, not_not, name?_eq_none_iff]
  exact fun ⟨l, hl⟩ => head?_any_startsName_of_spells hl

theorem of_symbol?_eq_some {c : Char} (h : symbol? w = some c) :
    number? w = none ∧ name? w = none := by
  obtain ⟨rfl, hc⟩ := symbol?_eq_some_iff.1 h
  obtain ⟨hnumber, hname⟩ := of_isWordSymbol hc
  exact ⟨hnumber, name?_eq_none_iff.2 hname⟩

/-- The classes are disjoint: whatever attempt succeeds tells what the word is. -/
theorem classify?_eq_some_iff {t : Token} :
    classify? w = some t ↔ ∃ k, Class.read? w k = some t := by
  constructor
  · intro h
    obtain ⟨x, rfl, hx⟩ | ⟨c, rfl, -, hc⟩ | ⟨n, rfl, -, -, hn⟩ := classify?_eq_some h
    · exact ⟨.number, by rw [Class.read?, hx]; rfl⟩
    · exact ⟨.symbol, by rw [Class.read?, hc]; rfl⟩
    · exact ⟨.name, by rw [Class.read?, hn]; rfl⟩
  · rintro ⟨k, hk⟩
    -- the attempts before that at `k` fail, since its success excludes theirs
    cases k with
    | number =>
      obtain ⟨x, hx, rfl⟩ := Option.map_eq_some_iff.1 hk
      rw [classify?, hx]
      rfl
    | symbol =>
      obtain ⟨c, hc, rfl⟩ := Option.map_eq_some_iff.1 hk
      rw [classify?, (of_symbol?_eq_some hc).1, hc]
      rfl
    | name =>
      obtain ⟨n, hn, rfl⟩ := Option.map_eq_some_iff.1 hk
      have hnumber : number? w = none := (number?_or_name?_eq_none w).resolve_right (by simp [hn])
      have hsymbol : symbol? w = none := by
        by_contra hne
        obtain ⟨c, hc⟩ := Option.ne_none_iff_exists'.1 hne
        rw [(of_symbol?_eq_some hc).2] at hn
        cases hn
      rw [classify?, hnumber, hsymbol, hn]
      rfl

theorem classify?_eq_name_iff {t : String} :
    classify? w = some (.name t) ↔ t = String.ofList w ∧ w.head?.any startsName = true := by
  rw [classify?_eq_some_iff, ← name?_eq_some_iff]
  constructor
  · rintro ⟨_ | _ | _, hk⟩ <;> obtain ⟨u, hu, ht⟩ := Option.map_eq_some_iff.1 hk <;> cases ht
    exact hu
  · intro hn
    exact ⟨.name, by rw [Class.read?, hn]; rfl⟩

theorem classify?_eq_none_iff_not_spells :
    classify? w = none ↔ (¬ ∃ l, Literal.Spells l w) ∧
      (∀ c, isWordSymbol c = true → w ≠ [c]) ∧ w.head?.any startsName = false := by
  rw [← number?_eq_none_iff, ← symbol?_eq_none_iff, ← name?_eq_none_iff]
  exact ⟨of_classify?_eq_none, fun ⟨hnumber, hsymbol, hname⟩ => by
    rw [classify?, hnumber, hsymbol, hname]; rfl⟩

theorem attempt?_eq_classify? {order : List Class} (h : ∀ k, k ∈ order) :
    attempt? order w = classify? w := by
  cases hfirst : attempt? order w with
  | some t =>
    obtain ⟨k, -, hk⟩ := List.exists_of_findSome?_eq_some hfirst
    exact (classify?_eq_some_iff.2 ⟨k, hk⟩).symm
  | none =>
    refine (Option.eq_none_iff_forall_ne_some.2 fun t ht => ?_).symm
    obtain ⟨k, hk⟩ := classify?_eq_some_iff.1 ht
    rw [List.findSome?_eq_none_iff.1 hfirst k (h k)] at hk
    cases hk

end

/-- No word is in two of the three classes. So any order of the attempts, those with repeats
included, gives the same. The words without a token are the empty one and those that start with no
character from `A` to `z` and are neither a literal nor one symbol alone. -/
theorem classify?_orderless (w : List Char) :
    ((number? w = none ∨ symbol? w = none) ∧ (number? w = none ∨ name? w = none) ∧
      (symbol? w = none ∨ name? w = none)) ∧
    (∀ order : List Class, (∀ k, k ∈ order) → attempt? order w = classify? w) ∧
    (classify? w = none ↔
      w = [] ∨ (∃ c ∈ w.head?, ¬ ('A' ≤ c ∧ c ≤ 'z')) ∧ (¬ ∃ l, Literal.Spells l w) ∧
        ∀ c ∈ ['-', '=', '+'], w ≠ [c]) := by
  have hsymbol : symbol? w = none ∨ number? w = none ∧ name? w = none := by
    rw [or_iff_not_imp_left]
    intro hne
    obtain ⟨c, hc⟩ := Option.ne_none_iff_exists'.1 hne
    exact of_symbol?_eq_some hc
  refine ⟨⟨?_, number?_or_name?_eq_none w, ?_⟩, fun order h => attempt?_eq_classify? h, ?_⟩
  · exact hsymbol.symm.imp_left And.left
  · exact hsymbol.imp_right And.right
  · cases w with
    | nil => exact iff_of_true rfl (.inl rfl)
    | cons c cs =>
      have hname : (c :: cs).head?.any startsName = false ↔
          ∃ d ∈ (c :: cs).head?, ¬ ('A' ≤ d ∧ d ≤ 'z') := by
        rw [← Bool.not_eq_true, List.head?_cons, Option.any_some, startsName_iff]
        exact ⟨fun h => ⟨c, rfl, h⟩, fun ⟨_, hd, h⟩ => Option.some.inj hd ▸ h⟩
      have hsymbols (d : Char) : d ∈ ['-', '=', '+'] ↔ isWordSymbol d = true :=
        List.contains_iff_mem.symm
      rw [classify?_eq_none_iff_not_spells, hname, or_iff_right (List.cons_ne_nil c cs)]
      simp only [hsymbols]
      exact ⟨fun ⟨h, h', h''⟩ => ⟨h'', h, h'⟩, fun ⟨h, h', h''⟩ => ⟨h', h'', h⟩⟩

/-- A sign with digits is no name and no symbol in the reverse order either. -/
theorem classify?_orderless_reversed :
    let order : List Class := [.name, .symbol, .number]
    (∀ k, k ∈ order) ∧ attempt? order ['-', '2'] = classify? ['-', '2'] ∧
      attempt? order ['+'] = some (.symbol '+') ∧ attempt? order ['5', 'e'] = none ∧
      ¬ ∃ l, Literal.Spells l ['5', 'e'] := by
  intro order
  have hall : ∀ k, k ∈ order := by
    intro k
    cases k <;> decide
  have hplus : classify? ['+'] = some (.symbol '+') := by decide +kernel
  have hpower : classify? ['5', 'e'] = none := by decide +kernel
  refine ⟨hall, (classify?_orderless _).2.1 order hall,
    ((classify?_orderless _).2.1 order hall).trans hplus,
    ((classify?_orderless _).2.1 order hall).trans hpower, ?_⟩
  obtain hnil | h := (classify?_orderless _).2.2.1 hpower
  · cases hnil
  · exact h.2.1

end TokenScan.Word
