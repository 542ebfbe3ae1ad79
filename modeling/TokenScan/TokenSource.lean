import TokenScan.ScanError
import TokenScan.Token

namespace TokenScan

/-- Handing out a token brings the end nearer. -/
class TokenSource (σ : Type) where
  next : σ → Except ScanError (Option Token) × σ
  left : σ → Nat
  left_lt {s s' : σ} {t : Token} : next s = (.ok (some t), s') → left s' < left s

namespace TokenSource

variable {σ : Type} [TokenSource σ]

def readOnto (read : Array Token) (s : σ) : Except ScanError (List Token) × σ :=
  match h : TokenSource.next s with
  | (.ok (some t), s') =>
    have := TokenSource.left_lt h
    readOnto (read.push t) s'
  | (.ok none, s') => (.ok read.toList, s')
  | (.error e, s') => (.error e, s')
termination_by left s

/-- All tokens up to the end, or the first error. -/
def readAll (s : σ) : Except ScanError (List Token) × σ := readOnto #[] s

end TokenSource
end TokenScan
