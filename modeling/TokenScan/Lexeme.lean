import TokenScan.Cursor
import TokenScan.ScanError
import TokenScan.Word.Extent

namespace TokenScan

/-- The text of the lexeme being read. It is kept from one lexeme to the next as it was left. -/
abbrev Scratch := List Char

def Scratch.clear (_ : Scratch) : Scratch := []

@[simp] theorem Scratch.clear_eq_nil (scratch : Scratch) : scratch.clear = [] := rfl

/-- A lexeme that ended with `result` at `stop`, and the text that it left. -/
structure Lexeme where
  result : Except Fault Token
  stop : Cursor
  scratch : Scratch

namespace Lexeme

def quoteByte : UInt8 := 0x22

/-- From an opening quote to the next quote. There are no escapes. -/
def quoted (scratch : Scratch) (c : Cursor) : Lexeme :=
  let scratch := scratch.clear
  let body := c.advance.2
  match body.find? quoteByte with
  | some (text, close) =>
    let scratch := scratch ++ text
    ⟨.ok (.stringLiteral (String.ofList scratch)), close.advance.2, scratch⟩
  | none => ⟨.error .unterminatedString, body.toEnd, scratch⟩

def word (scratch : Scratch) (c : Cursor) : Lexeme :=
  let scratch := scratch.clear
  let w := Word.extent scratch c.rest
  let stop := c.skip (w.1.drop scratch.length) w.2 (Word.extent_drop scratch c.rest).symm
  match Word.classify? w.1 with
  | some t => ⟨.ok t, stop, w.1⟩
  | none => ⟨.error (.invalidWord (String.ofList w.1)), stop, w.1⟩

/-- A semicolon leaves the text of the lexeme before it. -/
def read (scratch : Scratch) (c : Cursor) : Lexeme :=
  match c.current with
  | none => ⟨.error .unexpectedEnd, c, scratch⟩
  | some ';' => ⟨.ok (.symbol ';'), c.advance.2, scratch⟩
  | some '"' => quoted scratch c
  | some _ => word scratch c

section
variable (scratch : Scratch) {c : Cursor} (h : c.rest ≠ [])
include h

theorem quoted_length_lt : (quoted scratch c).stop.rest.length < c.rest.length := by
  have hb : c.advance.2.rest.length < c.rest.length := by
    rw [Cursor.rest_advance, List.length_tail]
    have := List.length_pos_iff.2 h
    omega
  rw [quoted]
  dsimp only
  split
  next text close hu =>
    have := congrArg List.length (Cursor.rest_find? hu)
    simp only [List.length_append] at this
    simp only [Cursor.rest_advance, List.length_tail]
    omega
  next => simpa using Nat.lt_of_le_of_lt (Nat.zero_le _) hb

theorem word_length_lt : (word scratch c).stop.rest.length < c.rest.length := by
  have hw : (word scratch c).stop.rest = (Word.extent scratch.clear c.rest).2 := by
    rw [word]
    split <;> rfl
  rw [hw]
  cases hr : c.rest with
  | nil => exact absurd hr h
  | cons x xs => exact Nat.lt_succ_of_le (Word.grow_length_le _ xs)

theorem read_length_lt : (read scratch c).stop.rest.length < c.rest.length := by
  have hl := List.length_pos_iff.2 h
  rw [read]
  split
  next hc => exact absurd (List.head?_eq_none_iff.1 hc) h
  next => simp only [Cursor.rest_advance, List.length_tail]; omega
  next => exact quoted_length_lt scratch h
  next => exact word_length_lt scratch h

end
end Lexeme
end TokenScan
