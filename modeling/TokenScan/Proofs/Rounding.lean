import Mathlib.Tactic.FieldSimp
import Mathlib.Tactic.Linarith
import TokenScan.Proofs.NearestNumber

namespace TokenScan

namespace Binary64

theorem units_succ (k : Nat) : units (k + 1) = units k + 2 ^ scale k := by
  have hle := scale_mul_le k
  rw [Nat.pow_eq] at hle
  by_cases h : scale (k + 1) = scale k
  · rw [units, units, h, Nat.pow_eq, Nat.pow_eq, Nat.sub_add_comm hle, Nat.add_mul, Nat.one_mul]
  · -- the last place grows, since all bits below the exponent were set
    have hnext : scale (k + 1) = scale k + 1 ∧ k + 1 = (scale k + 2) * 2 ^ 52 := by
      rw [scale, scale, Nat.pow_eq] at h ⊢
      omega
    have hupper : k + 1 - (scale k + 1) * 2 ^ 52 = 2 ^ 52 := by omega
    have hlower : k - scale k * 2 ^ 52 + 1 = 2 ^ 52 * 2 := by omega
    calc units (k + 1) = 2 ^ 52 * 2 ^ (scale k + 1) := by
          rw [units, hnext.1, Nat.pow_eq, Nat.pow_eq, hupper]
      _ = (k - scale k * 2 ^ 52 + 1) * 2 ^ scale k := by
          rw [hlower]
          ring
      _ = units k + 2 ^ scale k := by
          rw [units, Nat.pow_eq, Nat.pow_eq, Nat.add_mul, Nat.one_mul]

theorem units_strictMono : StrictMono units := by
  apply strictMono_nat_of_lt_succ
  intro k
  rw [units_succ]
  exact Nat.lt_add_of_pos_right (Nat.two_pow_pos _)

/-- What a magnitude stands for. -/
def point (k : Nat) : ℚ := units k / (Nat.pow 2 1074 : Nat)

theorem point_strictMono : StrictMono point := by
  intro j k h
  have hpos : (0 : ℚ) < (Nat.pow 2 1074 : Nat) := Nat.cast_pos.2 places_pos
  exact div_lt_div_of_pos_right (Nat.cast_lt.2 (units_strictMono h)) hpos

/-- The point of `k` is closer to `v` than that of `j`, or as close and `k` is even. -/
def Closer (v : ℚ) (k j : Nat) : Prop :=
  |v - point k| < |v - point j| ∨ |v - point k| = |v - point j| ∧ k % 2 = 0

/-- Of all magnitudes `k` is the one nearest to `v`; a tie goes to the even one. -/
def IsNearest (v : ℚ) (k : Nat) : Prop := k ≤ infinite ∧ ∀ j ≤ infinite, j ≠ k → Closer v k j

variable {v : ℚ} {k : Nat}

/-- The lower of two neighbours is the nearest, if the upper one is not closer. -/
theorem closer_of_lower (hlo : point k ≤ v)
    (h : v - point k < point (k + 1) - v ∨ v - point k = point (k + 1) - v ∧ k % 2 = 0) {j : Nat}
    (hj : j ≠ k) : Closer v k j := by
  have habs : |v - point k| = v - point k := abs_of_nonneg (by linarith)
  rw [Closer, habs]
  obtain hlt | hgt := Nat.lt_or_gt_of_ne hj
  · have := point_strictMono hlt
    have := le_abs_self (v - point j)
    exact .inl (by linarith)
  · have := point_strictMono.monotone (Nat.succ_le_of_lt hgt)
    have := neg_le_abs (v - point j)
    obtain h | ⟨h, heven⟩ := h
    · exact .inl (by linarith)
    · obtain hle | hle := (show v - point k ≤ |v - point j| by linarith).lt_or_eq
      · exact .inl hle
      · exact .inr ⟨hle, heven⟩

theorem closer_of_upper (hhi : v ≤ point (k + 1))
    (h : point (k + 1) - v < v - point k ∨ point (k + 1) - v = v - point k ∧ (k + 1) % 2 = 0)
    {j : Nat} (hj : j ≠ k + 1) : Closer v (k + 1) j := by
  have habs : |v - point (k + 1)| = point (k + 1) - v := by
    rw [abs_sub_comm]
    exact abs_of_nonneg (by linarith)
  rw [Closer, habs]
  obtain hlt | hgt := Nat.lt_or_gt_of_ne hj
  · have := point_strictMono.monotone (Nat.le_of_lt_succ hlt)
    have := le_abs_self (v - point j)
    obtain h | ⟨h, heven⟩ := h
    · exact .inl (by linarith)
    · obtain hle | hle := (show point (k + 1) - v ≤ |v - point j| by linarith).lt_or_eq
      · exact .inl hle
      · exact .inr ⟨hle, heven⟩
  · have := point_strictMono hgt
    have := neg_le_abs (v - point j)
    exact .inl (by linarith)

/-- What is nearest among all magnitudes is so among those up to infinity, if it is one of them.
Otherwise infinity is. -/
theorem isNearest_min (h : ∀ j ≠ k, Closer v k j) (hover : infinite < k → point infinite ≤ v) :
    IsNearest v (min infinite k) := by
  obtain hlt | hle := Nat.lt_or_ge infinite k
  · have hinf := hover hlt
    rw [Nat.min_eq_left hlt.le]
    refine ⟨Nat.le_refl _, fun j hj hne => .inl ?_⟩
    have := point_strictMono (lt_of_le_of_ne hj hne)
    rw [abs_of_nonneg (by linarith), abs_of_nonneg (by linarith)]
    linarith
  · rw [Nat.min_eq_right hle]
    exact ⟨hle, fun j _ => h j⟩

theorem IsNearest.not_lt {j : Nat} (hj : IsNearest v j) (hk : IsNearest v k) : ¬ j < k := by
  intro hlt
  obtain ⟨heq, hjeven, hkeven⟩ :
      |v - point j| = |v - point k| ∧ j % 2 = 0 ∧ k % 2 = 0 := by
    obtain h | ⟨h, hjeven⟩ := hj.2 k hk.1 hlt.ne'
    · obtain h' | ⟨h', -⟩ := hk.2 j hj.1 hlt.ne <;> linarith
    · obtain h' | ⟨-, hkeven⟩ := hk.2 j hj.1 hlt.ne
      · linarith
      · exact ⟨h, hjeven, hkeven⟩
  -- between two even magnitudes there is one more, and its point is closer than both
  have hbetween : j + 1 < k := by omega
  have hlow : point j < point (j + 1) := point_strictMono (Nat.lt_succ_self j)
  have hhigh := point_strictMono hbetween
  have hmiddle : v - point j = point k - v := by
    obtain h | h := abs_eq_abs.1 heq <;> linarith
  have hcloser : |v - point (j + 1)| < |v - point j| := by
    rw [abs_of_nonneg (show 0 ≤ v - point j by linarith)]
    exact abs_lt.2 ⟨by linarith, by linarith⟩
  obtain h | ⟨h, -⟩ := hj.2 (j + 1) (hbetween.le.trans hk.1) (Nat.succ_ne_self j) <;> linarith

theorem IsNearest.unique {j : Nat} (hj : IsNearest v j) (hk : IsNearest v k) : j = k :=
  Nat.le_antisymm (Nat.le_of_not_lt (hk.not_lt hj)) (Nat.le_of_not_lt (hj.not_lt hk))

theorem scale_add {e q : Nat} (hq : q < 2 ^ 53) (he : e = 0 ∨ 2 ^ 52 ≤ q) :
    scale (e * 2 ^ 52 + q) = e := by
  rw [scale, Nat.pow_eq]
  omega

theorem units_add {e q : Nat} (hq : q < 2 ^ 53) (he : e = 0 ∨ 2 ^ 52 ≤ q) :
    units (e * 2 ^ 52 + q) = q * 2 ^ e := by
  rw [units, scale_add hq he, Nat.pow_eq, Nat.pow_eq, Nat.add_sub_cancel_left]

theorem units_add_one {e q : Nat} (hq : q < 2 ^ 53) (he : e = 0 ∨ 2 ^ 52 ≤ q) :
    units (e * 2 ^ 52 + q + 1) = (q + 1) * 2 ^ e := by
  rw [units_succ, scale_add hq he, units_add hq he, Nat.add_mul, Nat.one_mul]

theorem significand_of_log2 (m : Nat) :
    m / 2 ^ (Nat.log2 m - 52) < 2 ^ 53 ∧
      (Nat.log2 m - 52 = 0 ∨ 2 ^ 52 ≤ m / 2 ^ (Nat.log2 m - 52)) := by
  have hpos := Nat.two_pow_pos (Nat.log2 m - 52)
  have hlt : m < 2 ^ (Nat.log2 m + 1) := Nat.lt_log2_self
  constructor
  · rw [Nat.div_lt_iff_lt_mul hpos, ← Nat.pow_add]
    exact hlt.trans_le (Nat.pow_le_pow_right Nat.two_pos (by omega))
  · obtain h | h := Nat.eq_zero_or_pos (Nat.log2 m - 52)
    · exact .inl h
    · have hm : m ≠ 0 := by
        rintro rfl
        rw [Nat.log2_zero] at h
        omega
      rw [Nat.le_div_iff_mul_le hpos, ← Nat.pow_add, Nat.add_sub_cancel' (by omega)]
      exact .inr (Nat.log2_self_le hm)

theorem sub_point {n d e q r k : Nat} (hd : 0 < d) (hk : units k = q * 2 ^ e)
    (h : d * 2 ^ e * q + r = n * Nat.pow 2 1074) :
    (n / d : ℚ) - point k = r / (d * (Nat.pow 2 1074 : Nat)) := by
  have hplaces := places_pos
  rw [point, hk]
  generalize Nat.pow 2 1074 = places at hplaces h ⊢
  have hcast : (d * 2 ^ e * q + r : ℚ) = n * places := by exact_mod_cast h
  have hd' : (d : ℚ) ≠ 0 := Nat.cast_ne_zero.2 hd.ne'
  have hplaces' : (places : ℚ) ≠ 0 := Nat.cast_ne_zero.2 hplaces.ne'
  push_cast
  field_simp
  linarith

theorem point_sub {n d e q r k : Nat} (hd : 0 < d) (hk : units k = (q + 1) * 2 ^ e)
    (h : d * 2 ^ e * q + r = n * Nat.pow 2 1074) :
    point k - (n / d : ℚ) = (d * 2 ^ e - r) / (d * (Nat.pow 2 1074 : Nat)) := by
  have hplaces := places_pos
  rw [point, hk]
  generalize Nat.pow 2 1074 = places at hplaces h ⊢
  have hcast : (d * 2 ^ e * q + r : ℚ) = n * places := by exact_mod_cast h
  have hd' : (d : ℚ) ≠ 0 := Nat.cast_ne_zero.2 hd.ne'
  have hplaces' : (places : ℚ) ≠ 0 := Nat.cast_ne_zero.2 hplaces.ne'
  push_cast
  field_simp
  linarith

/-- The reader rounds to the nearest number, and ties to even. -/
theorem isNearest_nearest {n d : Nat} (hd : 0 < d) : IsNearest (n / d) (nearest n d) := by
  rw [nearest, roundEven]
  generalize hu : n * Nat.pow 2 1074 = u
  obtain ⟨hq, he⟩ := significand_of_log2 (u / d)
  rw [Nat.div_div_eq_div_mul] at hq he
  generalize Nat.log2 (u / d) - 52 = e at hq he ⊢
  have hmod : d * 2 ^ e * (u / (d * 2 ^ e)) + u % (d * 2 ^ e) = u := Nat.div_add_mod u _
  have hr : u % (d * 2 ^ e) < d * 2 ^ e := Nat.mod_lt u (Nat.mul_pos hd (Nat.two_pow_pos e))
  rw [Nat.pow_eq, Nat.pow_eq]
  generalize u / (d * 2 ^ e) = q at *
  generalize u % (d * 2 ^ e) = r at *
  have hlow := sub_point hd (units_add hq he) (hmod.trans hu.symm)
  have hhigh := point_sub hd (units_add_one hq he) (hmod.trans hu.symm)
  have hunit : (0 : ℚ) < d * (Nat.pow 2 1074 : Nat) :=
    mul_pos (Nat.cast_pos.2 hd) (Nat.cast_pos.2 places_pos)
  generalize (d * (Nat.pow 2 1074 : Nat) : ℚ) = unit at hlow hhigh hunit
  have hr' : (r : ℚ) < d * 2 ^ e := by exact_mod_cast hr
  have hle : point (e * 2 ^ 52 + q) ≤ n / d :=
    sub_nonneg.1 (hlow ▸ div_nonneg (Nat.cast_nonneg r) hunit.le)
  have hge : (n / d : ℚ) ≤ point (e * 2 ^ 52 + q + 1) :=
    sub_nonneg.1 (hhigh ▸ div_nonneg (sub_nonneg.2 hr'.le) hunit.le)
  split
  next h =>
    refine isNearest_min (fun j => closer_of_lower hle ?_)
      fun hlt => (point_strictMono.monotone hlt.le).trans hle
    rw [hlow, hhigh]
    obtain h | ⟨h, heven⟩ := h
    · have h' : (2 * r : ℚ) < d * 2 ^ e := by exact_mod_cast h
      exact .inl (div_lt_div_of_pos_right (by linarith) hunit)
    · have h' : (2 * r : ℚ) = d * 2 ^ e := by exact_mod_cast h
      exact .inr ⟨congrArg (· / _) (by linarith), by omega⟩
  next h =>
    obtain ⟨hnot, hodd⟩ := not_or.1 h
    rw [← Nat.add_assoc]
    refine isNearest_min (fun j => closer_of_upper hge ?_)
      fun hlt => (point_strictMono.monotone (Nat.le_of_lt_succ hlt)).trans hle
    rw [hlow, hhigh]
    obtain h | h := (Nat.le_of_not_lt hnot).lt_or_eq
    · have h' : (d * 2 ^ e : ℚ) < 2 * r := by exact_mod_cast h
      exact .inl (div_lt_div_of_pos_right (by linarith) hunit)
    · have h' : (d * 2 ^ e : ℚ) = 2 * r := by exact_mod_cast h
      exact .inr ⟨congrArg (· / _) (by linarith), by omega⟩

end Binary64

theorem Decimal.isNearest_magnitude (d : Decimal) : Binary64.IsNearest d.value d.magnitude := by
  rw [Decimal.value_eq_div, Decimal.magnitude_eq_nearestAt]
  exact Binary64.isNearest_nearest (Decimal.pow_ten_pos _)

end TokenScan
