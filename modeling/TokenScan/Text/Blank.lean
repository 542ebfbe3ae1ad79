import TokenScan.Text.Ranges

namespace TokenScan.Text

def blanks : Ranges :=
  [(0x09, 0x0D), (0x20, 0x20), (0x85, 0x85), (0xA0, 0xA0), (0x1680, 0x1680), (0x2000, 0x200A),
   (0x2028, 0x2029), (0x202F, 0x202F), (0x205F, 0x205F), (0x3000, 0x3000)]

example : (blanks.map fun (a, b) => b + 1 - a).sum = 25 := rfl

def isBlank (c : Char) : Bool := blanks.has c

end TokenScan.Text
