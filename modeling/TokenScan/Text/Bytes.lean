namespace TokenScan.Text

def byteLength (cs : List Char) : Nat := cs.foldl (fun n c => n + c.utf8Size) 0

theorem foldl_utf8Size (n : Nat) (cs : List Char) :
    cs.foldl (fun n c => n + c.utf8Size) n = n + byteLength cs := by
  induction cs generalizing n with
  | nil => rfl
  | cons c cs ih => rw [byteLength, List.foldl_cons, List.foldl_cons, ih, ih (0 + _)]; omega

@[simp] theorem byteLength_nil : byteLength [] = 0 := rfl

@[simp] theorem byteLength_cons (c : Char) (cs : List Char) :
    byteLength (c :: cs) = c.utf8Size + byteLength cs := by
  rw [byteLength, List.foldl_cons, foldl_utf8Size, Nat.zero_add]

@[simp] theorem byteLength_append (a b : List Char) :
    byteLength (a ++ b) = byteLength a + byteLength b := by
  rw [byteLength, List.foldl_append, foldl_utf8Size]; rfl

theorem byteLength_eq_zero {cs : List Char} : byteLength cs = 0 ↔ cs = [] := by
  cases cs with
  | nil => simp
  | cons c cs => have := c.utf8Size_pos; simp; omega

theorem byteLength_toList (s : String) : byteLength s.toList = s.utf8ByteSize := by
  rw [← String.size_toByteArray, ← String.utf8Encode_toList]
  induction s.toList with
  | nil => rfl
  | cons c cs ih =>
    rw [List.utf8Encode_cons, ByteArray.size_append, ← ih, byteLength_cons,
      List.utf8Encode_singleton, List.size_toByteArray, String.length_utf8EncodeChar]

def cutAfter (taken : List Char) : Nat → List Char → Option (List Char × List Char)
  | 0, cs => some (taken.reverse, cs)
  | _ + 1, [] => none
  | n + 1, c :: cs =>
    if c.utf8Size ≤ n + 1 then cutAfter (c :: taken) (n + 1 - c.utf8Size) cs else none

/-- The parts before and after byte `n`, unless `n` is past the end or inside a character. -/
def cutAt? (n : Nat) (cs : List Char) : Option (List Char × List Char) := cutAfter [] n cs

theorem cutAfter_zero_iff {taken a b cs : List Char} :
    cutAfter taken 0 cs = some (a, b) ↔
      ∃ m, a = taken.reverse ++ m ∧ cs = m ++ b ∧ byteLength m = 0 := by
  simp only [cutAfter, Option.some.injEq, Prod.mk.injEq, byteLength_eq_zero]
  constructor
  · rintro ⟨rfl, rfl⟩; exact ⟨[], by simp⟩
  · rintro ⟨_, rfl, h, rfl⟩; simpa using h

theorem cutAfter_eq_some_iff {taken a b cs : List Char} {n : Nat} :
    cutAfter taken n cs = some (a, b) ↔
      ∃ m, a = taken.reverse ++ m ∧ cs = m ++ b ∧ byteLength m = n := by
  induction cs generalizing taken n with
  | nil =>
    cases n with
    | zero => exact cutAfter_zero_iff
    | succ n => simp +contextual [cutAfter]
  | cons c cs ih =>
    have := c.utf8Size_pos
    cases n with
    | zero => exact cutAfter_zero_iff
    | succ n =>
      rw [cutAfter]
      split
      next h =>
        rw [ih]
        constructor
        · rintro ⟨m, rfl, rfl, hm⟩; exact ⟨c :: m, by simp, by simp, by simp; omega⟩
        · rintro ⟨_ | ⟨d, m⟩, rfl, hcs, hm⟩
          · simp at hm
          · obtain ⟨rfl, rfl⟩ := List.cons.inj hcs
            exact ⟨m, by simp, rfl, by simp at hm; omega⟩
      next h =>
        refine ⟨nofun, ?_⟩
        rintro ⟨_ | ⟨d, m⟩, rfl, hcs, hm⟩
        · simp at hm
        · obtain ⟨rfl, rfl⟩ := List.cons.inj hcs
          simp at hm; omega

theorem cutAt?_eq_some_iff {a b cs : List Char} {n : Nat} :
    cutAt? n cs = some (a, b) ↔ cs = a ++ b ∧ byteLength a = n := by
  simp [cutAt?, cutAfter_eq_some_iff]

/-- The text between bytes `i` and `j`. -/
def slice? (cs : List Char) (i j : Nat) : Option (List Char) :=
  if i ≤ j then (cutAt? i cs).bind fun p => (cutAt? (j - i) p.2).map (·.1) else none

theorem slice?_eq_some_iff {cs m : List Char} {i j : Nat} :
    slice? cs i j = some m ↔
      ∃ a b, cs = a ++ m ++ b ∧ byteLength a = i ∧ byteLength a + byteLength m = j := by
  rw [slice?]
  split
  next h =>
    simp only [Option.bind_eq_some_iff, Option.map_eq_some_iff, Prod.exists, cutAt?_eq_some_iff]
    constructor
    · rintro ⟨a, _, ⟨rfl, rfl⟩, _, b, ⟨rfl, hm⟩, rfl⟩
      exact ⟨a, b, by simp, rfl, by omega⟩
    · rintro ⟨a, b, rfl, rfl, rfl⟩
      exact ⟨a, m ++ b, ⟨by simp, rfl⟩, m, b, ⟨rfl, by omega⟩, rfl⟩
  next h =>
    refine ⟨nofun, ?_⟩
    rintro ⟨a, b, rfl, rfl, rfl⟩
    omega

def byteIndexFrom (x : UInt8) (n : Nat) : List Char → Option Nat
  | [] => none
  | c :: cs =>
    match (String.utf8EncodeChar c).findIdx? (· == x) with
    | some i => some (n + i)
    | none => byteIndexFrom x (n + c.utf8Size) cs

/-- Where the byte `x` first occurs. -/
def byteIndex? (x : UInt8) (cs : List Char) : Option Nat := byteIndexFrom x 0 cs

theorem byteIndexFrom_eq (x : UInt8) (n : Nat) (cs : List Char) :
    byteIndexFrom x n cs =
      ((cs.flatMap String.utf8EncodeChar).findIdx? (· == x)).map (n + ·) := by
  induction cs generalizing n with
  | nil => rfl
  | cons c cs ih =>
    rw [byteIndexFrom, List.flatMap_cons, List.findIdx?_append]
    cases (String.utf8EncodeChar c).findIdx? (· == x) with
    | some i => rfl
    | none =>
      simp only [ih, Option.none_or, String.length_utf8EncodeChar, Option.map_map]
      congr 1; funext k; simp; omega

/-- The search is that of the whole byte string. -/
theorem byteIndex?_eq (x : UInt8) (cs : List Char) :
    byteIndex? x cs = (cs.flatMap String.utf8EncodeChar).findIdx? (· == x) := by
  simp [byteIndex?, byteIndexFrom_eq]

end TokenScan.Text
