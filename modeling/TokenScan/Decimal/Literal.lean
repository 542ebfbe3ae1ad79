import TokenScan.Decimal

namespace TokenScan.Decimal

structure Literal where
  negative : Bool
  whole : List Char
  fraction : List Char
  exponent : Int
deriving DecidableEq

namespace Literal

/-- Whether a minus sign leads, and what follows the sign. -/
def sign : List Char → Bool × List Char
  | '-' :: cs => (true, cs)
  | '+' :: cs => (false, cs)
  | cs => (false, cs)

/-- The digits after a point, which may be none, and what follows them. -/
def point : List Char → List Char × List Char
  | '.' :: cs => (cs.takeWhile Char.isDigit, cs.dropWhile Char.isDigit)
  | cs => ([], cs)

/-- The power of ten that ends a literal; nothing stands for zero. -/
def power? : List Char → Option Int
  | [] => some 0
  | c :: cs =>
    let (negative, ds) := sign cs
    if (c = 'e' ∨ c = 'E') ∧ ds ≠ [] ∧ ds.all Char.isDigit then
      some (if negative then -(Nat.ofDigitChars 10 ds 0 : Int) else Nat.ofDigitChars 10 ds 0)
    else none

def parse? (word : List Char) : Option Literal :=
  let (negative, cs) := sign word
  let whole := cs.takeWhile Char.isDigit
  let (fraction, cs) := point (cs.dropWhile Char.isDigit)
  if whole = [] ∧ fraction = [] then none
  else (power? cs).map fun e => ⟨negative, whole, fraction, e⟩

def toDecimal (l : Literal) : Decimal :=
  ⟨Nat.ofDigitChars 10 (l.whole ++ l.fraction) 0, l.exponent - l.fraction.length⟩

/-- The nearest number; zero keeps its sign. -/
def toBinary64 (l : Literal) : Binary64 :=
  .ofMagnitude l.negative l.toDecimal.magnitude

end Literal
end TokenScan.Decimal
