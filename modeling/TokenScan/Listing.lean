import TokenScan.Token

namespace TokenScan.Listing

def heading (path : String) (n : Nat) : String :=
  "Tokens for '" ++ path ++ "' (" ++ toString n ++ " tokens):\n"

def line (t : LocatedToken) : String := "  " ++ t.token.describe ++ " @ " ++ t.span.text ++ "\n"

def text (path : String) (ts : List LocatedToken) : String :=
  heading path ts.length ++ String.join (ts.map line)

end TokenScan.Listing
