import TokenScan.Text.Unprintable

namespace TokenScan.Text

def escapeCode (c : Char) : List Char :=
  ['\\', 'u', '{'] ++ Nat.toDigits 16 c.toNat ++ ['}']

/-- `c` as written between two marks `q`. -/
def escape (q c : Char) : List Char :=
  if c = '\x00' then ['\\', '0']
  else if c = '\t' then ['\\', 't']
  else if c = '\r' then ['\\', 'r']
  else if c = '\n' then ['\\', 'n']
  else if c = '\\' ∨ c = q then ['\\', c]
  else if isUnprintable c then escapeCode c
  else [c]

def quoteWith (q : Char) (cs : List Char) : List Char :=
  q :: (cs.flatMap (escape q) ++ [q])

def quote (s : String) : String := String.ofList (quoteWith '"' s.toList)

def quoteChar (c : Char) : String := String.ofList (quoteWith '\'' [c])

end TokenScan.Text
