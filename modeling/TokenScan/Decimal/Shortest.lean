import TokenScan.Decimal

namespace TokenScan.Decimal

/-- `units k / 2 ^ 1074` over `10 ^ p`, as a quotient of naturals. -/
def gridQuotient (k : Nat) (p : Int) : Nat × Nat :=
  (Binary64.units k * Nat.pow 10 (-p).toNat, Nat.pow 2 1074 * Nat.pow 10 p.toNat)

/-- The power of ten of the first digit. Every nonzero magnitude times `10 ^ 330` exceeds one. -/
def leading (k : Nat) : Int :=
  ((Nat.toDigits 10 (Binary64.units k * Nat.pow 10 330 / Nat.pow 2 1074)).length : Int) - 331

/-- The multiple of `10 ^ p` beside `k` that reads back as `k`; of two the nearer, and the upper
one when they are equally near. -/
def onGrid? (k : Nat) (p : Int) : Option Decimal :=
  let (n, d) := gridQuotient k p
  let low : Decimal := ⟨n / d, p⟩
  let high : Decimal := ⟨n / d + 1, p⟩
  if low.magnitude = k ∧ (2 * (n % d) < d ∨ high.magnitude ≠ k) then some low
  else if high.magnitude = k then some high
  else none

theorem magnitude_onGrid? {k : Nat} {p : Int} {d : Decimal} (h : onGrid? k p = some d) :
    d.magnitude = k := by
  rw [onGrid?] at h
  dsimp only at h
  split at h
  next hl => cases h; exact hl.1
  next =>
    split at h
    next hu => cases h; exact hu
    next => cases h

/-- Every digit of `k`: `units k / 2 ^ 1074 = units k * 5 ^ 1074 / 10 ^ 1074`. -/
def expansion (k : Nat) : Decimal := ⟨Binary64.units k * Nat.pow 5 1074, -1074⟩

def shortest (k : Nat) : Decimal :=
  if k = 0 then ⟨0, 0⟩
  else ((List.range 17).findSome? fun i : Nat => onGrid? k (leading k - i)).getD (expansion k)

end TokenScan.Decimal
