import Mathlib.Data.List.Basic
import TokenScan.Proofs.TextCuts
import TokenScan.Text.Quoted

namespace TokenScan.Text

def hexDigits : List Char :=
  ['0', '1', '2', '3', '4', '5', '6', '7', '8', '9', 'a', 'b', 'c', 'd', 'e', 'f']

/-- The number that hexadecimal digits spell. -/
def ofHex (ds : List Char) : Nat := ds.foldl (fun n c => 16 * n + hexDigits.idxOf c) 0

theorem ofHex_append_singleton (ds : List Char) (c : Char) :
    ofHex (ds ++ [c]) = 16 * ofHex ds + hexDigits.idxOf c :=
  List.foldl_append

theorem idxOf_digitChar : ∀ n < 16, hexDigits.idxOf n.digitChar = n := by decide

theorem ofHex_toDigits (n : Nat) : ofHex (Nat.toDigits 16 n) = n := by
  induction n using Nat.strongRecOn with
  | ind n ih =>
    by_cases h : n < 16
    · rw [Nat.toDigits_of_lt_base h]
      exact (Nat.zero_add _).trans (idxOf_digitChar n h)
    · rw [Nat.toDigits_of_base_le (by decide) (not_lt.1 h), ofHex_append_singleton,
        ih (n / 16) (by omega), idxOf_digitChar _ (Nat.mod_lt _ (by decide)), Nat.div_add_mod]

theorem exists_digitChar {n : Nat} {c : Char} (h : c ∈ Nat.toDigits 16 n) :
    ∃ k : Nat, c = k.digitChar := by
  induction n using Nat.strongRecOn with
  | ind n ih =>
    by_cases hn : n < 16
    · rw [Nat.toDigits_of_lt_base hn] at h
      exact ⟨n, List.mem_singleton.1 h⟩
    · rw [Nat.toDigits_of_base_le (by decide) (not_lt.1 hn)] at h
      obtain h | h := List.mem_append.1 h
      · exact ih (n / 16) (by omega) h
      · exact ⟨n % 16, List.mem_singleton.1 h⟩

/-- The character that an escape stands for, read from behind its backslash, and the rest. -/
def escaped? : List Char → Option (Char × List Char)
  | '0' :: cs => some ('\x00', cs)
  | 't' :: cs => some ('\t', cs)
  | 'r' :: cs => some ('\r', cs)
  | 'n' :: cs => some ('\n', cs)
  | 'u' :: '{' :: cs =>
    some (Char.ofNat (ofHex (cs.takeWhile (· ≠ '}'))), (cs.dropWhile (· ≠ '}')).drop 1)
  | c :: cs => some (c, cs)
  | [] => none

/-- The first character of a quoted text, and the rest. -/
def unescape? : List Char → Option (Char × List Char)
  | '\\' :: cs => escaped? cs
  | c :: cs => some (c, cs)
  | [] => none

/-- A mark that encloses a text or a character. -/
def IsMark (q : Char) : Prop := q = '"' ∨ q = '\''

theorem unescape?_escapeCode (c : Char) (rest : List Char) :
    unescape? (escapeCode c ++ rest) = some (c, rest) := by
  have hdigits : ∀ d ∈ Nat.toDigits 16 c.toNat, decide (d ≠ '}') = true := by
    intro d hd
    obtain ⟨k, rfl⟩ := exists_digitChar hd
    exact decide_eq_true (Nat.digitChar_ne '}' rfl)
  obtain ⟨htake, hdrop⟩ :=
    takeWhile_append_run hdigits (fun d hd => by cases hd; rfl) (b := '}' :: rest)
  rw [escapeCode, List.append_assoc, List.append_assoc]
  change some (Char.ofNat (ofHex ((Nat.toDigits 16 c.toNat ++ '}' :: rest).takeWhile (· ≠ '}'))),
    ((Nat.toDigits 16 c.toNat ++ '}' :: rest).dropWhile (· ≠ '}')).drop 1) = _
  rw [htake, hdrop, ofHex_toDigits, Char.ofNat_toNat]
  rfl

variable {q : Char}

theorem newline_not_mem_escape (c : Char) : '\n' ∉ escape q c := by
  unfold escape
  split_ifs with hnull htab hreturn hnewline hmark hprint
  iterate 4 decide
  · have hc : c ≠ '\n' := hnewline
    simp [hc.symm]
  · intro hm
    obtain hm | hm := List.mem_append.1 hm
    · obtain hm | hm := List.mem_append.1 hm
      · exact absurd hm (by decide)
      · obtain ⟨k, hk⟩ := exists_digitChar hm
        exact Nat.digitChar_ne '\n' rfl hk.symm
    · exact absurd hm (by decide)
  · simpa using fun h : '\n' = c => hnewline h.symm

theorem toList_quote (s : String) : (quote s).toList = quoteWith '"' s.toList :=
  String.toList_ofList

theorem toList_quoteChar (c : Char) : (quoteChar c).toList = quoteWith '\'' [c] :=
  String.toList_ofList

section

variable (hq : IsMark q)
include hq

theorem exists_escape (c : Char) : ∃ d cs, escape q c = d :: cs ∧ d ≠ q := by
  have hback : '\\' ≠ q := by obtain rfl | rfl := hq <;> decide
  unfold escape
  split_ifs with hnull htab hreturn hnewline hmark hprint
  iterate 6 exact ⟨'\\', _, rfl, hback⟩
  exact ⟨c, _, rfl, fun h => hmark (.inr h)⟩

/-- An escaped character is read back, whatever follows it. -/
theorem unescape?_escape (c : Char) (rest : List Char) :
    unescape? (escape q c ++ rest) = some (c, rest) := by
  unfold escape
  split_ifs with hnull htab hreturn hnewline hmark hprint
  · rw [hnull]; rfl
  · rw [htab]; rfl
  · rw [hreturn]; rfl
  · rw [hnewline]; rfl
  · obtain rfl | rfl := hmark
    · rfl
    · obtain rfl | rfl := hq <;> rfl
  · exact unescape?_escapeCode c rest
  · have hplain : c ≠ '\\' := fun h => hmark (.inl h)
    rw [List.singleton_append, unescape?]
    exact fun h => absurd h hplain

theorem escape_append_ne (c : Char) (rest tail : List Char) :
    escape q c ++ rest ≠ q :: tail := by
  obtain ⟨d, cs, hescape, hd⟩ := exists_escape hq c
  rw [hescape]
  exact fun h => hd (List.cons.inj h).1

/-- The mark that ends a quoted text is found, and only one text is quoted so. -/
theorem flatMap_escape_inj {as bs x y : List Char}
    (h : as.flatMap (escape q) ++ q :: x = bs.flatMap (escape q) ++ q :: y) : as = bs ∧ x = y := by
  induction as generalizing bs with
  | nil =>
    cases bs with
    | nil => exact ⟨rfl, (List.cons.inj h).2⟩
    | cons b bs =>
      rw [List.flatMap_cons, List.append_assoc] at h
      exact absurd h.symm (escape_append_ne hq b _ _)
  | cons a as ih =>
    cases bs with
    | nil =>
      rw [List.flatMap_cons, List.append_assoc] at h
      exact absurd h (escape_append_ne hq a _ _)
    | cons b bs =>
      have hread := congrArg unescape? h
      rw [List.flatMap_cons, List.flatMap_cons, List.append_assoc, List.append_assoc,
        unescape?_escape hq, unescape?_escape hq] at hread
      obtain ⟨rfl, htail⟩ := Prod.mk.inj (Option.some.inj hread)
      obtain ⟨rfl, hxy⟩ := ih htail
      exact ⟨rfl, hxy⟩

theorem quoteWith_append_inj {as bs x y : List Char}
    (h : quoteWith q as ++ x = quoteWith q bs ++ y) : as = bs ∧ x = y := by
  rw [quoteWith, quoteWith, List.cons_append, List.cons_append, List.append_assoc,
    List.append_assoc] at h
  exact flatMap_escape_inj hq (List.cons.inj h).2

end

theorem newline_not_mem_quoteWith (hq : IsMark q) (cs : List Char) : '\n' ∉ quoteWith q cs := by
  have hmark : '\n' ≠ q := by obtain rfl | rfl := hq <;> decide
  intro hm
  obtain hm | hm := List.mem_cons.1 hm
  · exact hmark hm
  obtain hm | hm := List.mem_append.1 hm
  · obtain ⟨c, -, hc⟩ := List.mem_flatMap.1 hm
    exact newline_not_mem_escape c hc
  · exact hmark (List.mem_singleton.1 hm)

end TokenScan.Text
