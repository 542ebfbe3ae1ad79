import TokenScan.Binary64

namespace TokenScan

structure Decimal where
  coefficient : Nat
  exponent : Int
deriving DecidableEq

namespace Decimal

/-- The exponent, brought to a range beyond which every nonzero decimal with this coefficient is
infinite or zero as a `Binary64`. -/
def boundedExponent (d : Decimal) : Int :=
  max (min d.exponent 310) (-(Nat.log2 d.coefficient + 331 : Nat))

def magnitude (d : Decimal) : Nat :=
  let e := d.boundedExponent
  Binary64.nearest (d.coefficient * Nat.pow 10 e.toNat) (Nat.pow 10 (-e).toNat)

end Decimal
end TokenScan
