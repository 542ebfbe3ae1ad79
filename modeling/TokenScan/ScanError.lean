import TokenScan.Span
import TokenScan.Text.Quoted

namespace TokenScan

inductive Fault where
  /-- A string literal with no closing quote. -/
  | unterminatedString
  /-- A word that is neither a number, nor a symbol, nor a name. -/
  | invalidWord (word : String)
  /-- A read past the end of the source. No text leads to it. -/
  | unexpectedEnd
deriving DecidableEq

structure ScanError where
  fault : Fault
  span : Span
deriving DecidableEq

namespace Fault

def message : Fault → String
  | unterminatedString => "unterminated string literal"
  | invalidWord w => "invalid token `" ++ w ++ "`"
  | unexpectedEnd => "unexpected end of input"

def describe : Fault → String
  | unterminatedString => "UnterminatedString"
  | invalidWord w => "InvalidToken \x7b text: " ++ Text.quote w ++ " \x7d"
  | unexpectedEnd => "UnexpectedEnd"

def startsLikeNumber (w : String) : Bool :=
  w.toList.head?.any fun c => c.isDigit || c = '.'

/-- How to mend the text, where there is a way. -/
def advice? : Fault → Option String
  | unterminatedString =>
    some "add a closing `\"`; string literals cannot contain `\"`"
  | invalidWord w =>
    some (if startsLikeNumber w then
      "numbers must be plain decimals such as `42`, `3.14` or `.5`"
    else "names must start with an ASCII letter")
  | unexpectedEnd => none

/-- A fault of the scanner and not of the text. -/
def isDefect : Fault → Bool
  | unexpectedEnd => true
  | _ => false

end Fault

namespace ScanError

def unexpectedEndAt (n : Nat) : ScanError := ⟨.unexpectedEnd, .point n⟩

def message (e : ScanError) : String := e.fault.message ++ " at " ++ e.span.text

def describe (e : ScanError) : String :=
  "LexError \x7b span: " ++ e.span.text ++ ", kind: " ++ e.fault.describe ++ " \x7d"

end ScanError
end TokenScan
