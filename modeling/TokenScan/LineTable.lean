import TokenScan.Text.Bytes

namespace TokenScan

structure LineTable where
  source : String
  /-- The offset of each line's first byte, in order. -/
  starts : Array Nat

namespace LineTable

/-- Adds to `starts` one offset for each newline, the place after it; the text begins at `n`. -/
def pushStarts (starts : Array Nat) (n : Nat) : List Char → Array Nat
  | [] => starts
  | c :: cs =>
    let n := n + c.utf8Size
    pushStarts (if c = '\n' then starts.push n else starts) n cs

def ofSource (source : String) : LineTable := ⟨source, pushStarts #[0] 0 source.toList⟩

def count (t : LineTable) : Nat := t.starts.size

/-- By bisection, the first of `lo`, …, `hi` that is no index of an entry up to `x`. -/
def bisect (a : Array Nat) (x lo hi : Nat) (h : hi ≤ a.size) : Nat :=
  if hlt : lo < hi then
    let mid := (lo + hi) / 2
    if a[mid] ≤ x then bisect a x (mid + 1) hi h else bisect a x lo mid (by omega)
  else lo
termination_by hi - lo

/-- The number of the line that holds offset `x`; the first line is 1. -/
def lineAt (t : LineTable) (x : Nat) : Nat :=
  bisect t.starts x 0 t.starts.size (Nat.le_refl _)

/-- The line of offset `x` and its column, in characters from 1. An offset past the end counts as
the end; one inside a character has no column. -/
def lineColumn? (t : LineTable) (x : Nat) : Option (Nat × Nat) :=
  let line := t.lineAt x
  (t.starts[line - 1]?.bind fun i =>
      Text.slice? t.source.toList i (min x t.source.utf8ByteSize)).map
    fun before => (line, before.length + 1)

def dropReturns (cs : List Char) : List Char := (cs.reverse.dropWhile (· = '\r')).reverse

/-- Line `n` without its newline and the carriage returns before it; empty if there is no such
line. -/
def lineText? (t : LineTable) (n : Nat) : Option String :=
  match n with
  | 0 => some ""
  | k + 1 =>
    match t.starts[k]? with
    | none => some ""
    | some i =>
      let j := match t.starts[k + 1]? with
        | some next => next - 1
        | none => t.source.utf8ByteSize
      (Text.slice? t.source.toList i j).map (String.ofList ∘ dropReturns)

end LineTable
end TokenScan
