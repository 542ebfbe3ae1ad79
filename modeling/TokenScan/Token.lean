import TokenScan.Decimal.Layout
import TokenScan.Span
import TokenScan.Text.Quoted

namespace TokenScan

inductive Token where
  /-- One of `;`, `-`, `=` and `+`. -/
  | symbol (c : Char)
  /-- The text between two quotes. -/
  | stringLiteral (text : String)
  | number (x : Binary64)
  | name (text : String)
deriving DecidableEq

/-- Symbols that end a word and may start one. A semicolon ends a word too, but is never in one. -/
def wordSymbols : List Char := ['-', '=', '+']

def isWordSymbol (c : Char) : Bool := wordSymbols.contains c

namespace Token

def isSymbol (c : Char) : Token → Bool
  | symbol d => d = c
  | _ => false

def name? : Token → Option String
  | name t => some t
  | _ => none

def number? : Token → Option Binary64
  | number x => some x
  | _ => none

def stringLiteral? : Token → Option String
  | stringLiteral t => some t
  | _ => none

/-- Equality, with numbers compared by value. -/
def same : Token → Token → Bool
  | number x, number y => x.sameValue y
  | t, u => t = u

def spelling : Token → String
  | symbol c => String.singleton c
  | stringLiteral t => "\"" ++ t ++ "\""
  | number x => x.text .plain
  | name t => t

def describe : Token → String
  | symbol c => "Symbol(" ++ Text.quoteChar c ++ ")"
  | stringLiteral t => "StringLiteral(" ++ Text.quote t ++ ")"
  | number x => "Number(" ++ x.text .detailed ++ ")"
  | name t => "Name(" ++ Text.quote t ++ ")"

end Token

structure LocatedToken where
  token : Token
  span : Span
deriving DecidableEq

namespace LocatedToken

def describe (t : LocatedToken) : String :=
  "SpannedToken \x7b token: " ++ t.token.describe ++ ", span: " ++ t.span.text ++ " \x7d"

end LocatedToken
end TokenScan
