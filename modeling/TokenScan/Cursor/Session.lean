import TokenScan.Cursor

namespace TokenScan.Cursor

inductive Move where
  | current
  | peek
  | advance
  | source
  | length
  | slice (i j : Nat)
  | since (i : Nat)
  | skipWhile (p : Char → Bool)
  | seek (x : UInt8)
  | save
  | restore

inductive Answer where
  | char (c : Option Char)
  | text (s : String)
  | number (n : Nat)
  | flag (b : Bool)
  | done
  /-- A slice that would cut a character, leave the source or run backwards. -/
  | noSlice

structure Session where
  cursor : Cursor
  saved : List Cursor

namespace Session

def start (source : String) : Session := ⟨.start source, []⟩

def sliced : Option String → Answer
  | some t => .text t
  | none => .noSlice

/-- Without a snapshot, `restore` stays. -/
def step (s : Session) : Move → Answer × Session
  | .current => (.char s.cursor.current, s)
  | .peek => (.char s.cursor.peek, s)
  | .advance => (.char s.cursor.advance.1, { s with cursor := s.cursor.advance.2 })
  | .source => (.text s.cursor.source, s)
  | .length => (.number s.cursor.length, s)
  | .slice i j => (sliced (s.cursor.slice? i j), s)
  | .since i => (sliced (s.cursor.since? i), s)
  | .skipWhile p => (.done, { s with cursor := s.cursor.skipWhile p })
  | .seek x => let (b, c) := s.cursor.seek x; (.flag b, { s with cursor := c })
  | .save => (.done, { s with saved := s.cursor :: s.saved })
  | .restore =>
    match s.saved with
    | [] => (.done, s)
    | c :: cs => (.done, ⟨c, cs⟩)

/-- Each answer, with the cursor after it. -/
def run : Session → List Move → List (Answer × Cursor)
  | _, [] => []
  | s, m :: ms => let (a, s') := s.step m; (a, s'.cursor) :: run s' ms

end Session
end TokenScan.Cursor
