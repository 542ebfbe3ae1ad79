import TokenScan.Proofs.ScanRun

namespace TokenScan

open Text (isBlank)

namespace Word

theorem grow_eq_self_iff (taken r : List Char) :
    (grow taken r).1 = taken.reverse ↔ ∀ c ∈ r.head?, endsAt taken c = true := by
  cases r with
  | nil => simp [grow]
  | cons c cs =>
    rw [grow, List.head?_cons]
    split
    next h => simpa using h
    next h =>
      obtain ⟨m, hm⟩ := exists_grow_fst (c :: taken) cs
      simp [hm, h]

theorem grow_append_eq_iff (taken u r : List Char) :
    (grow taken (u ++ r)).1 = taken.reverse ++ u ↔
      (grow taken u).1 = taken.reverse ++ u ∧
        ∀ c ∈ r.head?, endsAt (u.reverse ++ taken) c = true := by
  induction u generalizing taken with
  | nil =>
    rw [List.nil_append, List.append_nil, grow_eq_self_iff, grow_eq_self_iff]
    simp
  | cons d u ih =>
    rw [List.cons_append, grow, grow]
    split
    · simp
    · simpa using ih (d :: taken)

theorem leading_append_eq_iff (x : Char) (xs r : List Char) :
    leading (x :: xs ++ r) = x :: xs ↔
      leading (x :: xs) = x :: xs ∧ ∀ c ∈ r.head?, endsAt (xs.reverse ++ [x]) c = true := by
  rw [← extent_fst, ← extent_fst]
  exact grow_append_eq_iff [x] xs r

end Word

/-- White space or a semicolon. -/
def isSeparator (c : Char) : Bool := isBlank c || c = ';'

namespace Lexeme

/-- Whether the lexeme is over before `c`. A semicolon and a closed string are over before every
character, an open string before none. -/
def isOverBefore (c : Char) : List Char → Bool
  | [] => false
  | x :: xs =>
    if x = ';' then true
    else if x = '"' then xs.getLast? = some '"'
    else Word.endsAt (xs.reverse ++ [x]) c

theorem leading_string_append_eq_iff (xs r : List Char) :
    leading ('"' :: xs ++ r) = '"' :: xs ↔
      leading ('"' :: xs) = '"' :: xs ∧ ∀ c ∈ r.head?, isOverBefore c ('"' :: xs) = true := by
  by_cases hm : '"' ∈ xs
  · -- the closing quote is in `xs`, and what follows it is no part of the string
    obtain ⟨a, b, rfl, ha⟩ := List.eq_append_cons_of_mem hm
    rw [List.cons_append, List.append_assoc, List.cons_append, leading_of_closed ha,
      leading_of_closed ha]
    cases b with
    | nil => simp [isOverBefore]
    | cons c b => simp
  · have hlast : xs.getLast? ≠ some '"' := fun hl => hm (List.mem_of_getLast? hl)
    have hopen : leading ('"' :: xs) = '"' :: xs := leading_of_open hm
    constructor
    · intro h
      rw [rest_eq_nil_of_open h hlast]
      exact ⟨hopen, nofun⟩
    · rintro ⟨-, hover⟩
      cases r with
      | nil => rw [List.append_nil, hopen]
      | cons c r => simpa [isOverBefore, hlast] using hover c rfl

/-- What follows a lexeme matters by its first character alone. -/
theorem leading_append_eq_iff {text r : List Char} (hne : text ≠ []) :
    leading (text ++ r) = text ↔
      leading text = text ∧ ∀ c ∈ r.head?, isOverBefore c text = true := by
  obtain ⟨x, xs, rfl⟩ := List.exists_cons_of_ne_nil hne
  by_cases hs : x = ';'
  · subst hs
    simp [leading, isOverBefore]
  by_cases hq : x = '"'
  · subst hq
    exact leading_string_append_eq_iff xs r
  rw [List.cons_append, leading_of_word hs hq, leading_of_word hs hq, ← List.cons_append,
    Word.leading_append_eq_iff]
  simp [isOverBefore, hs, hq]

theorem isOverBefore_of_isSeparator {text : List Char} (hne : text ≠ [])
    (hclosed : meaning text ≠ .error .unterminatedString) {c : Char} (hc : isSeparator c = true) :
    isOverBefore c text = true := by
  obtain ⟨x, xs, rfl⟩ := List.exists_cons_of_ne_nil hne
  rw [isOverBefore]
  split_ifs with hs hq
  · rfl
  · rw [decide_eq_true_eq]
    by_contra hl
    exact hclosed (by rw [meaning, if_neg hs, if_pos hq, if_neg hl])
  · rw [isSeparator] at hc
    rw [Word.endsAt, hc, Bool.true_or, Bool.true_or]

end Lexeme
end TokenScan
