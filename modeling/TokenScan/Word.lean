import TokenScan.Decimal.Literal
import TokenScan.Token

namespace TokenScan.Word

def number? (w : List Char) : Option Binary64 :=
  (Decimal.Literal.parse? w).map Decimal.Literal.toBinary64

def symbol? : List Char → Option Char
  | [c] => if isWordSymbol c then some c else none
  | _ => none

/-- The first characters of names: all from `A` to `z`, so also the six between the two alphabets. -/
def startsName (c : Char) : Bool := 'A' ≤ c && c ≤ 'z'

def name? (w : List Char) : Option String :=
  if w.head?.any startsName then some (String.ofList w) else none

def classify? (w : List Char) : Option Token :=
  ((number? w).map .number).or (((symbol? w).map .symbol).or ((name? w).map .name))

/-- Only digits and points, and not nothing. -/
def isNumeric (w : List Char) : Bool :=
  !w.isEmpty && w.all fun c => c.isDigit || c = '.'

end TokenScan.Word
