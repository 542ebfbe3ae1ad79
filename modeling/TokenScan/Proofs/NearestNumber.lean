import Mathlib.Tactic.Ring
import TokenScan.Decimal.Shortest

namespace TokenScan

namespace Binary64

theorem roundEven_mul_left {a : Nat} (ha : 0 < a) (n d : Nat) :
    roundEven (a * n) (a * d) = roundEven n d := by
  have hlt : 2 * (a * (n % d)) < a * d ↔ 2 * (n % d) < d := by
    rw [Nat.mul_left_comm]
    exact Nat.mul_lt_mul_left ha
  have heq : 2 * (a * (n % d)) = a * d ↔ 2 * (n % d) = d := by
    rw [Nat.mul_left_comm]
    exact Nat.mul_right_inj ha.ne'
  rw [roundEven, roundEven, Nat.mul_div_mul_left n d ha, Nat.mul_mod_mul_left]
  simp only [hlt, heq]

theorem roundEven_one (n : Nat) : roundEven n 1 = n := by
  rw [roundEven, Nat.mod_one, Nat.div_one]
  exact if_pos (.inl Nat.one_pos)

theorem roundEven_of_lt {n d : Nat} (h : 2 * n < d) : roundEven n d = 0 := by
  have hn : n < d := by omega
  rw [roundEven, Nat.div_eq_of_lt hn, Nat.mod_eq_of_lt hn]
  exact if_pos (.inl h)

theorem nearest_mul_left {a : Nat} (ha : 0 < a) (n d : Nat) :
    nearest (a * n) (a * d) = nearest n d := by
  rw [nearest, nearest, Nat.mul_assoc, Nat.mul_div_mul_left _ d ha, Nat.mul_assoc,
    roundEven_mul_left ha]

theorem nearest_congr {n d n' d' : Nat} (hd : 0 < d) (hd' : 0 < d') (h : n * d' = n' * d) :
    nearest n d = nearest n' d' := by
  rw [← nearest_mul_left hd', ← nearest_mul_left hd n', Nat.mul_comm d' n, h, Nat.mul_comm n' d,
    Nat.mul_comm d' d]

theorem nearest_of_lt {n d : Nat} (h : 2 * (n * Nat.pow 2 1074) < d) : nearest n d = 0 := by
  rw [nearest]
  generalize n * Nat.pow 2 1074 = u at h ⊢
  have hzero : Nat.log2 (u / d) - 52 = 0 := by
    rw [Nat.div_eq_of_lt (by omega), Nat.log2_zero, Nat.zero_sub]
  have hround : roundEven u (d * Nat.pow 2 0) = 0 := by
    rw [Nat.pow_eq, Nat.pow_zero, Nat.mul_one, roundEven_of_lt h]
  rw [hzero, hround, Nat.zero_mul]
  exact Nat.min_zero _

theorem nearest_of_le {n d p : Nat} (hd : 0 < d) (hp : 2047 + 52 ≤ p)
    (h : 2 ^ p * d ≤ n * Nat.pow 2 1074) : nearest n d = infinite := by
  rw [nearest]
  generalize n * Nat.pow 2 1074 = u at h ⊢
  have hle : 2 ^ p ≤ u / d := (Nat.le_div_iff_mul_le hd).2 h
  have hlog : p ≤ Nat.log2 (u / d) := (Nat.le_log2 ((Nat.two_pow_pos p).trans_le hle).ne').2 hle
  have he : 2047 ≤ Nat.log2 (u / d) - 52 := by omega
  exact Nat.min_eq_left ((Nat.mul_le_mul_right _ he).trans (Nat.le_add_right _ _))

/-- The last `52` bits of a magnitude from `2 ^ 52` on, with the bit before them. -/
theorem significand_bounds {k : Nat} (hk : 2 ^ 52 ≤ k) :
    2 ^ 52 ≤ k - scale k * 2 ^ 52 ∧ k - scale k * 2 ^ 52 < 2 ^ 53 := by
  rw [scale, Nat.pow_eq]
  omega

theorem scale_of_lt {k : Nat} (hk : k < 2 ^ 52) : scale k = 0 := by
  rw [scale, Nat.pow_eq, Nat.div_eq_of_lt hk]

theorem log2_units_sub (k : Nat) : Nat.log2 (units k) - 52 = scale k := by
  rw [units, Nat.pow_eq, Nat.pow_eq]
  by_cases hk : k < 2 ^ 52
  · rw [scale_of_lt hk, Nat.zero_mul, Nat.sub_zero, Nat.pow_zero, Nat.mul_one]
    have hlog : Nat.log2 k ≤ 52 := by
      by_cases hzero : k = 0
      · rw [hzero, Nat.log2_zero]
        exact Nat.zero_le 52
      · exact ((Nat.log2_lt hzero).2 hk).le
    exact Nat.sub_eq_zero_of_le hlog
  · obtain ⟨hlo, hhi⟩ := significand_bounds (Nat.le_of_not_lt hk)
    generalize k - scale k * 2 ^ 52 = m at hlo hhi ⊢
    have hlog : Nat.log2 (m * 2 ^ scale k) = 52 + scale k := by
      have hpos := Nat.two_pow_pos (scale k)
      rw [Nat.log2_eq_iff (Nat.mul_pos (by omega) hpos).ne', Nat.pow_add, Nat.add_right_comm,
        Nat.pow_add]
      exact ⟨Nat.mul_le_mul_right _ hlo, Nat.mul_lt_mul_of_pos_right hhi hpos⟩
    rw [hlog, Nat.add_sub_cancel_left]

theorem scale_mul_le (k : Nat) : scale k * Nat.pow 2 52 ≤ k := by
  rw [scale, Nat.pow_eq]
  omega

theorem places_pos : 0 < Nat.pow 2 1074 := by decide +kernel

theorem nearest_units {k n : Nat} (hk : k < infinite) (hn : n = 1074) :
    nearest (units k) (Nat.pow 2 n) = k := by
  have hpos : 0 < Nat.pow 2 n := Nat.two_pow_pos n
  rw [nearest, ← hn]
  generalize Nat.pow 2 n = places at hpos ⊢
  have hround : roundEven (units k * places) (places * Nat.pow 2 (scale k)) =
      k - scale k * Nat.pow 2 52 := by
    rw [Nat.mul_comm (units k), roundEven_mul_left hpos, units, Nat.mul_comm,
      ← Nat.mul_one (Nat.pow 2 (scale k)), Nat.mul_assoc, roundEven_mul_left, Nat.one_mul,
      roundEven_one]
    exact Nat.two_pow_pos (scale k)
  rw [Nat.mul_div_cancel _ hpos, log2_units_sub, hround, Nat.add_sub_cancel' (scale_mul_le k)]
  exact Nat.min_eq_right hk.le

end Binary64

namespace Decimal

open Binary64 (nearest units infinite)

def value (d : Decimal) : ℚ := d.coefficient * (10 : ℚ) ^ d.exponent

def nearestAt (c : Nat) (e : Int) : Nat :=
  nearest (c * Nat.pow 10 e.toNat) (Nat.pow 10 (-e).toNat)

theorem pow_ten_pos (n : Nat) : 0 < Nat.pow 10 n := Nat.pow_pos (by decide)

theorem pow_ten_le {m n : Nat} (h : m ≤ n) : Nat.pow 10 m ≤ Nat.pow 10 n :=
  Nat.pow_le_pow_right (by decide) h

theorem nearestAt_zero (e : Int) : nearestAt 0 e = 0 := by
  apply Binary64.nearest_of_lt
  simp only [Nat.zero_mul, Nat.mul_zero]
  exact pow_ten_pos _

theorem pow_ten_add (m n : Nat) : Nat.pow 10 m * Nat.pow 10 n = Nat.pow 10 (m + n) :=
  (Nat.pow_add 10 m n).symm

theorem nearestAt_of_le {c m p : Nat} {e : Int} (hc : 0 < c) (hp : 2047 + 52 ≤ p)
    (hm : 2 ^ p ≤ Nat.pow 10 m * Nat.pow 2 1074) (he : m ≤ e) : nearestAt c e = infinite := by
  have hle : m ≤ e.toNat := by omega
  have hneg : (-e).toNat = 0 := Int.toNat_of_nonpos (by omega)
  have hpow := (pow_ten_le hle).trans (Nat.le_mul_of_pos_left _ hc)
  rw [nearestAt, hneg]
  apply Binary64.nearest_of_le Nat.one_pos hp
  rw [Nat.mul_one]
  exact hm.trans (Nat.mul_le_mul_right _ hpow)

theorem nearestAt_of_lt {c m : Nat} {e : Int} (hm : 4 * Nat.pow 2 1074 ≤ Nat.pow 10 m)
    (he : e ≤ -(Nat.log2 c + m : Nat)) : nearestAt c e = 0 := by
  have hle : Nat.log2 c + m ≤ (-e).toNat := by omega
  have hpos : e.toNat = 0 := Int.toNat_of_nonpos (by omega)
  have hten := pow_ten_le hle
  rw [← pow_ten_add] at hten
  have hlog : 2 ^ Nat.log2 c ≤ Nat.pow 10 (Nat.log2 c) := Nat.pow_le_pow_left (by decide) _
  have hc : c < 2 ^ Nat.log2 c * 2 := Nat.lt_log2_self
  rw [nearestAt, hpos]
  apply Binary64.nearest_of_lt
  have hplace := Binary64.places_pos
  generalize Nat.pow 2 1074 = places at hplace hm ⊢
  calc 2 * (c * 1 * places) = c * (2 * places) := by ring
    _ < 2 ^ Nat.log2 c * 2 * (2 * places) :=
        Nat.mul_lt_mul_of_pos_right hc (Nat.mul_pos Nat.two_pos hplace)
    _ = 2 ^ Nat.log2 c * (4 * places) := by ring
    _ ≤ Nat.pow 10 (Nat.log2 c) * Nat.pow 10 m := Nat.mul_le_mul hlog hm
    _ ≤ Nat.pow 10 (-e).toNat := hten

/-- The bounds on the exponent do not change the number. -/
theorem magnitude_eq_nearestAt (d : Decimal) :
    d.magnitude = nearestAt d.coefficient d.exponent := by
  change nearestAt d.coefficient d.boundedExponent = _
  by_cases hc : d.coefficient = 0
  · rw [hc, nearestAt_zero, nearestAt_zero]
  by_cases hhi : 310 ≤ d.exponent
  · have hbound : 310 ≤ d.boundedExponent := by
      rw [boundedExponent]
      omega
    have hbig : 2 ^ 2100 ≤ Nat.pow 10 310 * Nat.pow 2 1074 := by decide +kernel
    have hinf {e : Int} := nearestAt_of_le (e := e) (Nat.pos_of_ne_zero hc) (by omega) hbig
    rw [hinf hhi, hinf hbound]
  by_cases hlo : d.exponent ≤ -(Nat.log2 d.coefficient + 331 : Nat)
  · have hbound : d.boundedExponent ≤ -(Nat.log2 d.coefficient + 331 : Nat) := by
      rw [boundedExponent]
      omega
    have hsmall : 4 * Nat.pow 2 1074 ≤ Nat.pow 10 331 := by decide +kernel
    rw [nearestAt_of_lt hsmall hlo, nearestAt_of_lt hsmall hbound]
  · have hbound : d.boundedExponent = d.exponent := by
      rw [boundedExponent]
      omega
    rw [hbound]

theorem value_eq_div (d : Decimal) :
    d.value = (d.coefficient * Nat.pow 10 d.exponent.toNat : Nat) /
      (Nat.pow 10 (-d.exponent).toNat : Nat) := by
  rw [value, Nat.pow_eq, Nat.pow_eq]
  push_cast
  obtain ⟨n, hn | hn⟩ := Int.eq_nat_or_neg d.exponent
  · rw [hn]
    simp
  · rw [hn]
    simp [div_eq_mul_inv]

theorem magnitude_congr {d d' : Decimal} (h : d.value = d'.value) : d.magnitude = d'.magnitude := by
  have hpos (n : Nat) : ((Nat.pow 10 n : Nat) : ℚ) ≠ 0 :=
    Nat.cast_ne_zero.2 (pow_ten_pos n).ne'
  rw [value_eq_div, value_eq_div, div_eq_div_iff (hpos _) (hpos _)] at h
  rw [magnitude_eq_nearestAt, magnitude_eq_nearestAt]
  exact Binary64.nearest_congr (pow_ten_pos _) (pow_ten_pos _) (by exact_mod_cast h)

theorem magnitude_fives (u n : Nat) :
    magnitude ⟨u * Nat.pow 5 n, -n⟩ = nearest u (Nat.pow 2 n) := by
  have hten : Nat.pow 10 n = Nat.pow 5 n * Nat.pow 2 n := Nat.mul_pow 5 2 n
  have hpos : 0 < Nat.pow 5 n := Nat.pow_pos (by decide)
  rw [magnitude_eq_nearestAt, nearestAt, Int.toNat_neg_natCast, neg_neg, Int.toNat_natCast, hten,
    ← Binary64.nearest_mul_left hpos u]
  change nearest (u * Nat.pow 5 n * 1) _ = _
  rw [Nat.mul_one, Nat.mul_comm u]

theorem magnitude_expansion {k : Nat} (hk : k < infinite) : (expansion k).magnitude = k := by
  -- a variable for the power of two, which must not be worked out
  obtain ⟨n, hn⟩ : ∃ n, n = 1074 := ⟨1074, rfl⟩
  have hexp : (-1074 : Int) = -(1074 : Nat) := rfl
  rw [expansion, hexp, ← hn, magnitude_fives]
  exact Binary64.nearest_units hk hn

/-- The shortest digits of a finite number read back as it. -/
theorem magnitude_shortest {k : Nat} (hk : k < infinite) : (shortest k).magnitude = k := by
  rw [shortest]
  split_ifs with hzero
  · rw [hzero, magnitude_eq_nearestAt, nearestAt_zero]
  · cases hgrid : (List.range 17).findSome? fun i : Nat => onGrid? k (leading k - i) with
    | none => exact magnitude_expansion hk
    | some d =>
      obtain ⟨i, -, hd⟩ := List.exists_of_findSome?_eq_some hgrid
      exact magnitude_onGrid? hd

end Decimal
end TokenScan
