import TokenScan.Text.Bytes

namespace TokenScan

open Text (byteLength byteIndex? cutAt?)

structure Cursor where
  source : String
  pos : Nat
  rest : List Char
  splits : ∃ before, source.toList = before ++ rest ∧ byteLength before = pos

namespace Cursor

def start (source : String) : Cursor := ⟨source, 0, source.toList, [], rfl, rfl⟩

def skip (c : Cursor) (text rest : List Char) (h : c.rest = text ++ rest) : Cursor where
  source := c.source
  pos := c.pos + byteLength text
  rest := rest
  splits := by
    obtain ⟨before, hs, hp⟩ := c.splits
    exact ⟨before ++ text, by simp [hs, h], by simp [hp]⟩

def current (c : Cursor) : Option Char := c.rest.head?

def peek (c : Cursor) : Option Char := c.rest.tail.head?

/-- The current character and the place after it; at the end nothing, and the same place. -/
def advance (c : Cursor) : Option Char × Cursor :=
  match h : c.rest with
  | [] => (none, c)
  | x :: xs => (some x, c.skip [x] xs h)

def toEnd (c : Cursor) : Cursor := c.skip c.rest [] (by simp)

def length (c : Cursor) : Nat := c.source.utf8ByteSize

def remaining (c : Cursor) : Nat := c.length - c.pos

def atEnd (c : Cursor) : Bool := c.length ≤ c.pos

def skipWhile (p : Char → Bool) (c : Cursor) : Cursor :=
  c.skip (c.rest.takeWhile p) (c.rest.dropWhile p) List.takeWhile_append_dropWhile.symm

/-- The text up to the next byte `x`, and the place of that byte, unless it lies inside a
character. -/
def find? (x : UInt8) (c : Cursor) : Option (List Char × Cursor) :=
  match h : (byteIndex? x c.rest).bind (cutAt? · c.rest) with
  | none => none
  | some (a, b) => some (a, c.skip a b (by
      obtain ⟨n, _, hn⟩ := Option.bind_eq_some_iff.1 h
      exact (Text.cutAt?_eq_some_iff.1 hn).1))

/-- Goes to the next byte `x`, or to the end if there is none. -/
def seek (x : UInt8) (c : Cursor) : Bool × Cursor :=
  match c.find? x with
  | some (_, d) => (true, d)
  | none => (false, c.toEnd)

def slice? (c : Cursor) (i j : Nat) : Option String :=
  (Text.slice? c.source.toList i j).map String.ofList

def since? (c : Cursor) (i : Nat) : Option String := c.slice? i c.pos

theorem pos_add_byteLength_rest (c : Cursor) : c.pos + byteLength c.rest = c.length := by
  obtain ⟨before, hs, hp⟩ := c.splits
  rw [length, ← Text.byteLength_toList, hs, Text.byteLength_append, hp]

theorem atEnd_iff (c : Cursor) : c.atEnd = true ↔ c.rest = [] := by
  have := c.pos_add_byteLength_rest
  rw [atEnd, decide_eq_true_eq, ← Text.byteLength_eq_zero]
  omega

@[simp] theorem rest_skip (c : Cursor) (text rest : List Char) (h) :
    (c.skip text rest h).rest = rest := rfl

@[simp] theorem rest_skipWhile (c : Cursor) (p : Char → Bool) :
    (c.skipWhile p).rest = c.rest.dropWhile p := rfl

@[simp] theorem rest_toEnd (c : Cursor) : c.toEnd.rest = [] := rfl

theorem rest_advance (c : Cursor) : c.advance.2.rest = c.rest.tail := by
  rw [advance]; split <;> simp [*]

theorem rest_find? {c d : Cursor} {x : UInt8} {a : List Char} (h : c.find? x = some (a, d)) :
    c.rest = a ++ d.rest := by
  rw [find?] at h
  split at h
  · cases h
  next a' b' h' =>
    obtain ⟨n, _, hn⟩ := Option.bind_eq_some_iff.1 h'
    cases h
    exact (Text.cutAt?_eq_some_iff.1 hn).1

end Cursor
end TokenScan
