import TokenScan.Decimal.Literal
import TokenScan.Proofs.TextCuts

namespace TokenScan.Decimal.Literal

open Text (takeWhile_append_run)

structure Digits (ds : List Char) : Prop where
  ne_nil : ds ≠ []
  all : ∀ c ∈ ds, c.isDigit = true

inductive Sign : Bool → List Char → Prop
  | none : Sign false []
  | plus : Sign false ['+']
  | minus : Sign true ['-']

/-- `digits (. digits?)? | . digits`, with the digits before and after the point. -/
inductive Plain : List Char → List Char → List Char → Prop
  | integer {ds : List Char} : Digits ds → Plain ds [] ds
  | pointed {ds fs : List Char} : Digits ds → (∀ c ∈ fs, c.isDigit = true) →
      Plain ds fs (ds ++ '.' :: fs)
  | fractional {fs : List Char} : Digits fs → Plain [] fs ('.' :: fs)

/-- An optional power of ten. -/
inductive Power : Int → List Char → Prop
  | none : Power 0 []
  | some {e : Char} {negative : Bool} {s ds : List Char} : e = 'e' ∨ e = 'E' → Sign negative s →
      Digits ds → Power
        (if negative then -(Nat.ofDigitChars 10 ds 0 : Int) else Nat.ofDigitChars 10 ds 0)
        (e :: (s ++ ds))

/-- The word `w` spells the literal. -/
def Spells (l : Literal) (w : List Char) : Prop :=
  ∃ s m p, w = s ++ (m ++ p) ∧ Sign l.negative s ∧ Plain l.whole l.fraction m ∧ Power l.exponent p

theorem sign_exists (cs : List Char) : ∃ s, cs = s ++ (sign cs).2 ∧ Sign (sign cs).1 s := by
  unfold sign
  split
  · exact ⟨['-'], rfl, .minus⟩
  · exact ⟨['+'], rfl, .plus⟩
  · exact ⟨[], rfl, .none⟩

theorem sign_append {negative : Bool} {s cs : List Char} (h : Sign negative s)
    (hc : ∀ c ∈ cs.head?, c ≠ '-' ∧ c ≠ '+') : sign (s ++ cs) = (negative, cs) := by
  cases h with
  | none =>
    cases cs with
    | nil => rfl
    | cons c cs =>
      obtain ⟨hm, hp⟩ := hc c rfl
      rw [List.nil_append, sign]
      · exact fun _ h => hm (List.cons.inj h).1
      · exact fun _ h => hp (List.cons.inj h).1
  | plus => rfl
  | minus => rfl

theorem ne_sign_of_isDigit {c : Char} (h : c.isDigit = true) : c ≠ '-' ∧ c ≠ '+' := by
  constructor <;> rintro rfl <;> exact absurd h (by decide)

theorem sign_append_digits {negative : Bool} {s ds : List Char} (hs : Sign negative s)
    (hd : Digits ds) : sign (s ++ ds) = (negative, ds) :=
  sign_append hs fun c hc => ne_sign_of_isDigit (hd.all c (List.mem_of_mem_head? hc))

theorem power?_eq_some_iff {p : List Char} {e : Int} : power? p = some e ↔ Power e p := by
  constructor
  · intro h
    cases p with
    | nil => exact Option.some.inj h ▸ .none
    | cons c cs =>
      obtain ⟨s, hcs, hs⟩ := sign_exists cs
      rcases hsign : sign cs with ⟨negative, ds⟩
      rw [hsign] at hcs hs
      rw [power?, hsign] at h
      dsimp only at h hcs
      split at h
      next hc =>
        obtain ⟨hce, hne, hall⟩ := hc
        rw [hcs]
        exact Option.some.inj h ▸ .some hce hs ⟨hne, List.all_eq_true.1 hall⟩
      next => cases h
  · intro h
    cases h with
    | none => rfl
    | some he hs hd =>
      rw [power?, sign_append_digits hs hd]
      exact if_pos ⟨he, hd.ne_nil, List.all_eq_true.2 hd.all⟩

theorem Power.not_isNumeral {e : Int} {p : List Char} (h : Power e p) :
    ∀ c ∈ p.head?, c.isDigit = false ∧ c ≠ '.' := by
  cases h with
  | none => nofun
  | some he _ _ =>
    intro c hc
    obtain rfl := Option.some.inj hc
    obtain rfl | rfl := he <;> decide

theorem point_eq {fs p : List Char} (hf : ∀ c ∈ fs, c.isDigit = true)
    (hp : ∀ c ∈ p.head?, c.isDigit = false) : point ('.' :: (fs ++ p)) = (fs, p) := by
  obtain ⟨ht, hd⟩ := takeWhile_append_run hf hp
  rw [point, ht, hd]

theorem point_of_not_point {p : List Char} (hp : ∀ c ∈ p.head?, c ≠ '.') : point p = ([], p) := by
  rw [point]
  rintro cs rfl
  exact hp '.' rfl rfl

theorem Plain.ne_nil {whole fraction m : List Char} (h : Plain whole fraction m) :
    ¬(whole = [] ∧ fraction = []) := by
  cases h with
  | integer hd => exact fun h => hd.ne_nil h.1
  | pointed hd _ => exact fun h => hd.ne_nil h.1
  | fractional hf => exact fun h => hf.ne_nil h.2

theorem Plain.split {whole fraction m p : List Char} (h : Plain whole fraction m)
    (hp : ∀ c ∈ p.head?, c.isDigit = false ∧ c ≠ '.') :
    (m ++ p).takeWhile Char.isDigit = whole ∧
      point ((m ++ p).dropWhile Char.isDigit) = (fraction, p) := by
  have hp' : ∀ c ∈ p.head?, c.isDigit = false := fun c hc => (hp c hc).1
  cases h with
  | integer hd =>
    obtain ⟨ht, hr⟩ := takeWhile_append_run hd.all hp'
    exact ⟨ht, by rw [hr]; exact point_of_not_point fun c hc => (hp c hc).2⟩
  | pointed hd hf =>
    have hrun := takeWhile_append_run (b := '.' :: (fraction ++ p)) hd.all (by rintro _ ⟨⟩; rfl)
    rw [List.append_assoc, List.cons_append, hrun.1, hrun.2]
    exact ⟨rfl, point_eq hf hp'⟩
  | fractional hf => exact ⟨rfl, point_eq hf.all hp'⟩

theorem Plain.exists_head {whole fraction m : List Char} (h : Plain whole fraction m) :
    ∃ c cs, m = c :: cs ∧ (c.isDigit = true ∨ c = '.') := by
  cases h with
  | integer hd =>
    obtain ⟨c, cs, rfl⟩ := List.exists_cons_of_ne_nil hd.ne_nil
    exact ⟨c, cs, rfl, .inl (hd.all c List.mem_cons_self)⟩
  | pointed hd _ =>
    obtain ⟨c, cs, rfl⟩ := List.exists_cons_of_ne_nil hd.ne_nil
    exact ⟨c, cs ++ '.' :: fraction, rfl, .inl (hd.all c List.mem_cons_self)⟩
  | fractional _ => exact ⟨'.', fraction, rfl, .inr rfl⟩

theorem Digits.exists_mem {ds : List Char} (h : Digits ds) : ∃ d ∈ ds, d.isDigit = true := by
  obtain ⟨d, hd⟩ := List.exists_mem_of_ne_nil ds h.ne_nil
  exact ⟨d, hd, h.all d hd⟩

theorem Plain.exists_digit {whole fraction m : List Char} (h : Plain whole fraction m) :
    ∃ d ∈ m, d.isDigit = true := by
  cases h with
  | integer hd => exact hd.exists_mem
  | pointed hd _ =>
    obtain ⟨d, hm, hdigit⟩ := hd.exists_mem
    exact ⟨d, List.mem_append_left _ hm, hdigit⟩
  | fractional hf =>
    obtain ⟨d, hm, hdigit⟩ := hf.exists_mem
    exact ⟨d, List.mem_cons_of_mem _ hm, hdigit⟩

theorem mem_takeWhile_isDigit (cs : List Char) :
    ∀ c ∈ cs.takeWhile Char.isDigit, c.isDigit = true :=
  List.all_eq_true.1 List.all_takeWhile

theorem exists_plain {cs fraction p : List Char}
    (hpoint : point (cs.dropWhile Char.isDigit) = (fraction, p))
    (hne : ¬(cs.takeWhile Char.isDigit = [] ∧ fraction = [])) :
    ∃ m, cs = m ++ p ∧ Plain (cs.takeWhile Char.isDigit) fraction m := by
  have hcs : cs = cs.takeWhile Char.isDigit ++ cs.dropWhile Char.isDigit :=
    List.takeWhile_append_dropWhile.symm
  have hall := mem_takeWhile_isDigit cs
  generalize cs.takeWhile Char.isDigit = whole at *
  generalize cs.dropWhile Char.isDigit = tail at *
  unfold point at hpoint
  split at hpoint <;> cases hpoint
  next ds =>
    refine ⟨whole ++ '.' :: ds.takeWhile Char.isDigit, ?_, ?_⟩
    · rw [hcs, List.append_assoc, List.cons_append, List.takeWhile_append_dropWhile]
    · by_cases hw : whole = []
      · subst hw
        exact .fractional ⟨fun h => hne ⟨rfl, h⟩, mem_takeWhile_isDigit ds⟩
      · exact .pointed ⟨hw, hall⟩ (mem_takeWhile_isDigit ds)
  next => exact ⟨whole, hcs, .integer ⟨fun h => hne ⟨h, rfl⟩, hall⟩⟩

/-- The reader of literals reads exactly what spells one. -/
theorem parse?_eq_some_iff {w : List Char} {l : Literal} : parse? w = some l ↔ Spells l w := by
  constructor
  · intro h
    obtain ⟨s, hw, hs⟩ := sign_exists w
    rw [parse?] at h
    rcases hpoint : point ((sign w).2.dropWhile Char.isDigit) with ⟨fraction, p⟩
    dsimp only at h
    rw [hpoint] at h
    dsimp only at h
    split at h
    next => cases h
    next hne =>
      obtain ⟨e, he, rfl⟩ := Option.map_eq_some_iff.1 h
      obtain ⟨m, hm, hplain⟩ := exists_plain hpoint hne
      rw [hm] at hw
      exact ⟨s, m, p, hw, hs, hplain, power?_eq_some_iff.1 he⟩
  · rintro ⟨s, m, p, rfl, hs, hm, hp⟩
    have hsign : sign (s ++ (m ++ p)) = (l.negative, m ++ p) := by
      apply sign_append hs
      obtain ⟨c, cs, rfl, hc⟩ := hm.exists_head
      rintro _ ⟨⟩
      obtain hd | rfl := hc
      · exact ne_sign_of_isDigit hd
      · decide
    obtain ⟨hwhole, hfraction⟩ := hm.split hp.not_isNumeral
    rw [parse?, hsign]
    dsimp only
    rw [hwhole, hfraction]
    dsimp only
    rw [if_neg hm.ne_nil, power?_eq_some_iff.2 hp]
    rfl

end TokenScan.Decimal.Literal
