import TokenScan.Color
import TokenScan.LineTable
import TokenScan.ScanError

namespace TokenScan

structure Diagnostic where
  fault : Fault
  path : String
  line : Nat
  column : Nat
  text : String
  /-- How many carets. -/
  width : Nat

namespace Diagnostic

/-- The diagnostic of `e`, whose span is first brought inside the source. There is none if the
span then cuts a character. The carets stop where the line stops, and there is at least one. -/
def ofError? (path source : String) (e : ScanError) : Option Diagnostic := do
  let table := LineTable.ofSource source
  let size := source.utf8ByteSize
  let start := min e.span.start size
  let stop := max start (min e.span.stop size)
  let (line, column) ← table.lineColumn? start
  let text ← table.lineText? line
  let marked ← Text.slice? source.toList start stop
  let room := text.length - (column - 1)
  return ⟨e.fault, path, line, column, text, max 1 (min marked.length room)⟩

def spaces (n : Nat) : String := String.ofList (List.replicate n ' ')

def margin (d : Diagnostic) : String := spaces (toString d.line).length

def place (d : Diagnostic) : String :=
  d.path ++ ":" ++ toString d.line ++ ":" ++ toString d.column

def advicePieces (d : Diagnostic) : List Piece :=
  match d.fault.advice? with
  | some advice => [.plain (d.margin ++ " = "), ⟨"help", some .help⟩, .plain (": " ++ advice ++ "\n")]
  | none => []

def notePieces (d : Diagnostic) : List Piece :=
  if d.fault.isDefect then
    [.plain (d.margin ++ " = note: this is a bug in the token reader, not in the input\n")]
  else []

def pieces (d : Diagnostic) : List Piece :=
  [⟨"error", some .error⟩,
    .plain (": " ++ d.fault.message ++ "\n"),
    .plain (d.margin ++ " --> " ++ d.place ++ "\n"),
    ⟨d.margin ++ " |", some .gutter⟩,
    .plain "\n",
    ⟨toString d.line ++ " |", some .gutter⟩,
    .plain (" " ++ d.text ++ "\n"),
    ⟨d.margin ++ " |", some .gutter⟩,
    .plain (" " ++ spaces (d.column - 1)),
    ⟨String.ofList (List.replicate d.width '^'), some .error⟩,
    .plain "\n"] ++ d.advicePieces ++ d.notePieces

def render (colored : Bool) (d : Diagnostic) : String := Piece.renderAll colored d.pieces

/-- The diagnostics of all of `es` in order, if each has one. -/
def report? (colored : Bool) (path source : String) (es : List ScanError) : Option String :=
  (es.mapM (ofError? path source)).map fun ds => String.join (ds.map (render colored))

end Diagnostic
end TokenScan
