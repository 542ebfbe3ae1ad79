import TokenScan.Text.Blank
import TokenScan.Word

namespace TokenScan.Word

/-- Whether `c` ends the word whose characters are `taken`, in any order. -/
def endsAt (taken : List Char) (c : Char) : Bool :=
  Text.isBlank c || c = ';' || isWordSymbol c || (c.isDigit && !isNumeric taken)

/-- Grows the word `taken`, latest character first; the result is the word and what follows it. -/
def grow (taken : List Char) : List Char → List Char × List Char
  | [] => (taken.reverse, [])
  | c :: cs => if endsAt taken c then (taken.reverse, c :: cs) else grow (c :: taken) cs

/-- The buffer `scratch` with the word that starts a text added to it, and what follows that word. -/
def extent (scratch : List Char) : List Char → List Char × List Char
  | [] => (scratch, [])
  | c :: cs => grow (c :: scratch.reverse) cs

theorem exists_grow_fst (taken cs : List Char) : ∃ m, (grow taken cs).1 = taken.reverse ++ m := by
  induction cs generalizing taken with
  | nil => exact ⟨[], (List.append_nil _).symm⟩
  | cons c cs ih =>
    rw [grow]
    split
    · exact ⟨[], (List.append_nil _).symm⟩
    · obtain ⟨m, hm⟩ := ih (c :: taken)
      exact ⟨c :: m, by rw [hm, List.reverse_cons, List.append_assoc, List.singleton_append]⟩

theorem grow_append (taken cs : List Char) :
    (grow taken cs).1 ++ (grow taken cs).2 = taken.reverse ++ cs := by
  induction cs generalizing taken with
  | nil => rfl
  | cons c cs ih => rw [grow]; split <;> simp [ih]

theorem extent_append (scratch cs : List Char) :
    (extent scratch cs).1 ++ (extent scratch cs).2 = scratch ++ cs := by
  cases cs with
  | nil => rfl
  | cons c cs => rw [extent, grow_append, List.reverse_cons, List.reverse_reverse, List.append_assoc,
      List.singleton_append]

theorem exists_extent_fst (scratch cs : List Char) : ∃ m, (extent scratch cs).1 = scratch ++ m := by
  cases cs with
  | nil => exact ⟨[], (List.append_nil _).symm⟩
  | cons c cs =>
    obtain ⟨m, hm⟩ := exists_grow_fst (c :: scratch.reverse) cs
    refine ⟨c :: m, ?_⟩
    rw [extent, hm, List.reverse_cons, List.reverse_reverse, List.append_assoc, List.singleton_append]

/-- Behind what was in the buffer before, it holds what is taken from the text. -/
theorem extent_drop (scratch cs : List Char) :
    (extent scratch cs).1.drop scratch.length ++ (extent scratch cs).2 = cs := by
  obtain ⟨m, hm⟩ := exists_extent_fst scratch cs
  have happend := extent_append scratch cs
  rw [hm, List.append_assoc] at happend
  rw [hm, List.drop_left]
  exact List.append_cancel_left happend

theorem grow_length_le (taken cs : List Char) : (grow taken cs).2.length ≤ cs.length := by
  induction cs generalizing taken with
  | nil => simp [grow]
  | cons c cs ih =>
    rw [grow]
    split
    · simp
    · exact Nat.le_succ_of_le (ih _)

end TokenScan.Word
