namespace TokenScan

/-- The last offset a span can hold. -/
def maxOffset : Nat := 0xFFFFFFFF

structure Span where
  start : Nat
  stop : Nat
deriving DecidableEq, Inhabited

/-- The end of a range that a span cannot hold. -/
inductive SpanError where
  | start (n : Nat)
  | stop (n : Nat)
deriving DecidableEq

namespace SpanError

def hex (n : Nat) : String := String.ofList ((Nat.toDigits 16 n).map Char.toUpper)

def message : SpanError → String
  | start n => "span start " ++ toString n ++ " (0x" ++ hex n ++ ") exceeds u32::MAX"
  | stop n => "span end " ++ toString n ++ " (0x" ++ hex n ++ ") exceeds u32::MAX"

end SpanError

namespace Span

def empty : Span := ⟨0, 0⟩

def point (n : Nat) : Span := ⟨n, n⟩

/-- The range from `i` to `j`, each lowered to `maxOffset` if it is larger. -/
def clamp (i j : Nat) : Span := ⟨min i maxOffset, min j maxOffset⟩

/-- The range from `i` to `j`, refused if it does not fit; of two faults the start is named. -/
def ofRange (i j : Nat) : Except SpanError Span :=
  if maxOffset < i then .error (.start i)
  else if maxOffset < j then .error (.stop j)
  else .ok ⟨i, j⟩

/-- Modulo `2 ^ 32`, should the ends be out of order. -/
def length (s : Span) : Nat :=
  if s.start ≤ s.stop then s.stop - s.start else s.stop + (maxOffset + 1) - s.start

def isEmpty (s : Span) : Bool := s.start = s.stop

def contains (s : Span) (n : Nat) : Bool := s.start ≤ n && n < s.stop

def merge (s t : Span) : Span := ⟨min s.start t.start, max s.stop t.stop⟩

def text (s : Span) : String := toString s.start ++ ".." ++ toString s.stop

theorem clamp_eq {i j : Nat} (hi : i ≤ maxOffset) (hj : j ≤ maxOffset) : clamp i j = ⟨i, j⟩ := by
  simp [clamp, hi, hj]

end Span
end TokenScan
