import TokenScan.Word

namespace TokenScan.Word

theorem symbol?_eq_some_iff {w : List Char} {c : Char} :
    symbol? w = some c ↔ w = [c] ∧ isWordSymbol c = true := by
  constructor
  · intro h
    unfold symbol? at h
    split at h
    next d =>
      split at h
      next hd => exact Option.some.inj h ▸ ⟨rfl, hd⟩
      next => cases h
    next => cases h
  · rintro ⟨rfl, h⟩
    rw [symbol?, if_pos h]

theorem name?_eq_some_iff {w : List Char} {t : String} :
    name? w = some t ↔ t = String.ofList w ∧ w.head?.any startsName = true := by
  rw [name?]
  by_cases h : w.head?.any startsName = true
  · rw [if_pos h, Option.some.injEq]
    exact ⟨fun he => ⟨he.symm, h⟩, fun he => he.1.symm⟩
  · rw [if_neg h]
    exact ⟨nofun, fun he => absurd he.2 h⟩

theorem startsName_iff {c : Char} : startsName c = true ↔ 'A' ≤ c ∧ c ≤ 'z' := by
  rw [startsName, Bool.and_eq_true, decide_eq_true_eq, decide_eq_true_eq]

theorem classify?_eq_some {w : List Char} {t : Token} (h : classify? w = some t) :
    (∃ x, t = .number x ∧ number? w = some x) ∨
      (∃ c, t = .symbol c ∧ number? w = none ∧ symbol? w = some c) ∨
      ∃ n, t = .name n ∧ number? w = none ∧ symbol? w = none ∧ name? w = some n := by
  unfold classify? at h
  cases hn : number? w with
  | some x =>
    rw [hn] at h
    exact .inl ⟨x, (Option.some.inj h).symm, rfl⟩
  | none =>
    cases hs : symbol? w with
    | some c =>
      rw [hn, hs] at h
      exact .inr (.inl ⟨c, (Option.some.inj h).symm, rfl, rfl⟩)
    | none =>
      rw [hn, hs] at h
      obtain ⟨n, hname, rfl⟩ := Option.map_eq_some_iff.1 h
      exact .inr (.inr ⟨n, rfl, rfl, rfl, hname⟩)

theorem of_classify?_eq_none {w : List Char} (h : classify? w = none) :
    number? w = none ∧ symbol? w = none ∧ name? w = none := by
  simpa [classify?] using h

theorem of_isWordSymbol {c : Char} (h : isWordSymbol c = true) :
    number? [c] = none ∧ startsName c = false := by
  have hc : c ∈ wordSymbols := List.contains_iff_mem.1 h
  simp only [wordSymbols, List.mem_cons, List.not_mem_nil, or_false] at hc
  obtain rfl | rfl | rfl := hc <;> decide

theorem classify?_eq_symbol_iff {w : List Char} {c : Char} :
    classify? w = some (.symbol c) ↔ w = [c] ∧ isWordSymbol c = true := by
  constructor
  · intro h
    obtain ⟨x, ht, -⟩ | ⟨d, ht, -, hs⟩ | ⟨n, ht, -⟩ := classify?_eq_some h
    · cases ht
    · cases ht
      exact symbol?_eq_some_iff.1 hs
    · cases ht
  · intro h
    have hs := symbol?_eq_some_iff.2 h
    obtain ⟨rfl, hc⟩ := h
    rw [classify?, (of_isWordSymbol hc).1, hs]
    rfl

end TokenScan.Word
