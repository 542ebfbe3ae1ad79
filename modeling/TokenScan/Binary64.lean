namespace TokenScan

structure Binary64 where
  bits : UInt64
deriving DecidableEq

namespace Binary64

/-- The magnitude of infinity; larger ones are not numbers. -/
def infinite : Nat := 2047 * Nat.pow 2 52

def isNegative (x : Binary64) : Bool := Nat.pow 2 63 ≤ x.bits.toNat

def magnitude (x : Binary64) : Nat := x.bits.toNat % Nat.pow 2 63

def ofMagnitude (negative : Bool) (k : Nat) : Binary64 :=
  ⟨UInt64.ofNat (if negative then Nat.pow 2 63 + k else k)⟩

def isNaN (x : Binary64) : Bool := infinite < x.magnitude

/-- Equality of values: the zeros are equal and a NaN differs from itself. -/
def sameValue (x y : Binary64) : Bool :=
  !x.isNaN && !y.isNaN && (x = y || (x.magnitude = 0 && y.magnitude = 0))

/-- The binary exponent of the last place, above the least one. -/
def scale (k : Nat) : Nat := k / Nat.pow 2 52 - 1

def units (k : Nat) : Nat := (k - scale k * Nat.pow 2 52) * Nat.pow 2 (scale k)

/-- `n / d` to the nearest integer; a half goes to the even neighbour. -/
def roundEven (n d : Nat) : Nat :=
  let q := n / d
  let r := n % d
  if 2 * r < d ∨ (2 * r = d ∧ q % 2 = 0) then q else q + 1

/-- The magnitude nearest to `n / d`; a half goes to the even neighbour, and what is too large is
infinite. -/
def nearest (n d : Nat) : Nat :=
  let u := n * Nat.pow 2 1074
  let e := Nat.log2 (u / d) - 52
  min infinite (e * Nat.pow 2 52 + roundEven u (d * Nat.pow 2 e))

end Binary64
end TokenScan
