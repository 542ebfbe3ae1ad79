import TokenScan.Proofs.DecimalGrammar

namespace TokenScan.Decimal.Literal

def isDigitByte (x : UInt8) : Bool := 0x30 ≤ x && x ≤ 0x39

/-- How many digits stand from offset `i` on, unless that is past the end. -/
def digitsAt? (bs : List UInt8) (i : Nat) : Option Nat :=
  if i ≤ bs.length then some ((bs.drop i).takeWhile isDigitByte).length else none

/-- Past the sign at offset `i`, if there is one. -/
def signEnd (bs : List UInt8) (i : Nat) : Nat :=
  if bs[i]? = some 0x2B ∨ bs[i]? = some 0x2D then i + 1 else i

/-- How many digits stand behind the point at offset `i`, and where they end. -/
def fractionAt? (bs : List UInt8) (i : Nat) : Option (Nat × Nat) :=
  if bs[i]? = some 0x2E then (digitsAt? bs (i + 1)).map fun n => (n, i + 1 + n) else some (0, i)

/-- Whether nothing stands from offset `i` on, or a power of ten and nothing else. -/
def powerAt? (bs : List UInt8) (i : Nat) : Option Bool :=
  if bs[i]? = some 0x65 ∨ bs[i]? = some 0x45 then
    (digitsAt? bs (signEnd bs (i + 1))).map fun n =>
      decide (n ≠ 0 ∧ signEnd bs (i + 1) + n = bs.length)
  else some (decide (i = bs.length))

/-- Whether the bytes are those of a literal, unless a cut fails. -/
def inBytes? (bs : List UInt8) : Option Bool := do
  let whole ← digitsAt? bs (signEnd bs 0)
  let (fraction, i) ← fractionAt? bs (signEnd bs 0 + whole)
  if whole = 0 ∧ fraction = 0 then return false
  powerAt? bs i

/-- From offset `i` on the bytes are those of `cs`. -/
structure Ahead (bs : List UInt8) (i : Nat) (cs : List Char) : Prop where
  le : i ≤ bs.length
  drop : bs.drop i = cs.flatMap String.utf8EncodeChar

theorem ahead_start (w : String) : Ahead w.toByteArray.data.toList 0 w.toList :=
  ⟨Nat.zero_le _, Text.toList_toByteArray w⟩

theorem head?_utf8EncodeChar {d : Char} {x : UInt8} (hx : x.toNat < 128) (hd : d.toNat = x.toNat)
    (c : Char) : (String.utf8EncodeChar c).head? = some x ↔ c = d := by
  have hfind := Text.findIdx?_utf8EncodeChar hx hd c
  constructor
  · intro h
    obtain ⟨bs, hbs⟩ := List.head?_eq_some_iff.1 h
    by_contra hc
    rw [hbs, if_neg hc] at hfind
    simp at hfind
  · rintro rfl
    rw [Text.utf8EncodeChar_of_lt (hd ▸ hx), hd, UInt8.ofNat_toNat]
    rfl

theorem exists_utf8EncodeChar (c : Char) : ∃ b bs, String.utf8EncodeChar c = b :: bs := by
  apply List.exists_cons_of_length_pos
  rw [String.length_utf8EncodeChar]
  exact c.utf8Size_pos

theorem isDigitByte_iff {x : UInt8} : isDigitByte x = true ↔ 48 ≤ x.toNat ∧ x.toNat ≤ 57 := by
  rw [isDigitByte, Bool.and_eq_true, decide_eq_true_iff, decide_eq_true_iff]
  rfl

theorem lt_of_isDigit {c : Char} (h : c.isDigit = true) : c.toNat < 128 := by
  obtain ⟨-, hle⟩ := Char.isDigit_iff_toNat.1 h
  exact hle.trans_lt (by decide)

theorem isDigitByte_head {c : Char} {b : UInt8} {bs : List UInt8}
    (h : String.utf8EncodeChar c = b :: bs) :
    isDigitByte b = c.isDigit ∧ (c.isDigit = true → bs = []) := by
  by_cases hc : c.toNat < 128
  · rw [Text.utf8EncodeChar_of_lt hc] at h
    obtain ⟨rfl, rfl⟩ := List.cons.inj h
    refine ⟨Bool.eq_iff_iff.2 ?_, fun _ => rfl⟩
    rw [isDigitByte_iff, Char.isDigit_iff_toNat, UInt8.toNat_ofNat', Nat.mod_eq_of_lt (by omega)]
    rfl
  · -- all bytes of such a character are above those of digits
    have hb := Text.le_of_mem_utf8EncodeChar (Nat.le_of_not_lt hc) (h ▸ List.mem_cons_self)
    have hdigit : c.isDigit = false := by
      by_contra hd
      exact hc (lt_of_isDigit (Bool.not_eq_false _ ▸ hd))
    rw [hdigit, ← Bool.not_eq_true, isDigitByte_iff]
    exact ⟨by omega, nofun⟩

theorem length_takeWhile_isDigitByte (cs : List Char) :
    ((cs.flatMap String.utf8EncodeChar).takeWhile isDigitByte).length =
      (cs.takeWhile Char.isDigit).length := by
  induction cs with
  | nil => rfl
  | cons c cs ih =>
    obtain ⟨b, bs, hb⟩ := exists_utf8EncodeChar c
    obtain ⟨hdigit, hsingle⟩ := isDigitByte_head hb
    rw [List.flatMap_cons, hb, List.cons_append, List.takeWhile_cons, List.takeWhile_cons, hdigit]
    split_ifs with hc
    · rw [hsingle hc, List.nil_append, List.length_cons, List.length_cons, ih]
    · rfl

theorem isSome_power?_cons (c : Char) (cs : List Char) :
    (power? (c :: cs)).isSome = decide ((c = 'e' ∨ c = 'E') ∧
      (sign cs).2 ≠ [] ∧ (sign cs).2.all Char.isDigit = true) := by
  rw [power?]
  dsimp only
  split
  next h => exact (decide_eq_true h).symm
  next h => exact (decide_eq_false h).symm

namespace Ahead

variable {bs : List UInt8} {i : Nat} {cs : List Char}

theorem getElem?_eq_some_iff (h : Ahead bs i cs) {d : Char} {x : UInt8} (hx : x.toNat < 128)
    (hd : d.toNat = x.toNat) : bs[i]? = some x ↔ ∃ t, cs = d :: t := by
  rw [← List.head?_drop, h.drop, ← List.head?_eq_some_iff]
  cases cs with
  | nil => exact iff_of_false nofun nofun
  | cons c cs =>
    have hhead := head?_utf8EncodeChar hx hd c
    obtain ⟨b, bs, hb⟩ := exists_utf8EncodeChar c
    rw [hb] at hhead
    rw [List.flatMap_cons, hb]
    exact hhead.trans Option.some_inj.symm

theorem next {c : Char} (h : Ahead bs i (c :: cs)) (hc : c.toNat < 128) : Ahead bs (i + 1) cs := by
  have hdrop := h.drop
  rw [List.flatMap_cons, Text.utf8EncodeChar_of_lt hc] at hdrop
  constructor
  · have hlen := congrArg List.length hdrop
    rw [List.length_drop, List.length_append, List.length_singleton] at hlen
    omega
  · rw [← List.tail_drop, hdrop]
    rfl

theorem eq_length_iff (h : Ahead bs i cs) : i = bs.length ↔ cs = [] := by
  have hle := h.le
  have hlen := congrArg List.length h.drop
  rw [List.length_drop, Text.length_flatMap_utf8EncodeChar] at hlen
  rw [← Text.byteLength_eq_zero]
  omega

theorem digits (h : Ahead bs i cs) :
    digitsAt? bs i = some (cs.takeWhile Char.isDigit).length ∧
      Ahead bs (i + (cs.takeWhile Char.isDigit).length) (cs.dropWhile Char.isDigit) := by
  constructor
  · rw [digitsAt?, if_pos h.le, h.drop, length_takeWhile_isDigitByte]
  · induction cs generalizing i with
    | nil => exact h
    | cons c cs ih =>
      rw [List.takeWhile_cons, List.dropWhile_cons]
      split_ifs with hc
      · rw [List.length_cons, Nat.add_comm _ 1, ← Nat.add_assoc]
        exact ih (h.next (lt_of_isDigit hc))
      · exact h

theorem sign (h : Ahead bs i cs) : Ahead bs (signEnd bs i) (Literal.sign cs).2 := by
  have hplus := h.getElem?_eq_some_iff (d := '+') (x := 0x2B) (by decide) (by decide)
  have hminus := h.getElem?_eq_some_iff (d := '-') (x := 0x2D) (by decide) (by decide)
  unfold Literal.sign
  split
  · rw [signEnd, if_pos (.inr (hminus.2 ⟨_, rfl⟩))]
    exact h.next (by decide)
  · rw [signEnd, if_pos (.inl (hplus.2 ⟨_, rfl⟩))]
    exact h.next (by decide)
  next hm hp =>
    have hnone : ¬(bs[i]? = some 0x2B ∨ bs[i]? = some 0x2D) := by
      rw [hplus, hminus]
      exact not_or.2 ⟨fun ⟨t, ht⟩ => hp t ht, fun ⟨t, ht⟩ => hm t ht⟩
    rw [signEnd, if_neg hnone]
    exact h

theorem fraction (h : Ahead bs i cs) :
    ∃ j, fractionAt? bs i = some ((point cs).1.length, j) ∧ Ahead bs j (point cs).2 := by
  have hpoint := h.getElem?_eq_some_iff (d := '.') (x := 0x2E) (by decide) (by decide)
  unfold point
  split
  · obtain ⟨hcount, hahead⟩ := (h.next (by decide)).digits
    rw [fractionAt?, if_pos (hpoint.2 ⟨_, rfl⟩), hcount]
    exact ⟨_, rfl, hahead⟩
  next hp =>
    rw [fractionAt?, if_neg fun hbyte => (hpoint.1 hbyte).elim hp]
    exact ⟨i, rfl, h⟩

theorem digits_eq_length_iff (h : Ahead bs i cs) :
    ((cs.takeWhile Char.isDigit).length ≠ 0 ∧
        i + (cs.takeWhile Char.isDigit).length = bs.length) ↔
      cs ≠ [] ∧ cs.all Char.isDigit = true := by
  rw [h.digits.2.eq_length_iff, List.dropWhile_eq_nil_iff, List.all_eq_true]
  refine and_congr_left fun hall => not_congr ?_
  rw [List.takeWhile_eq_self_iff.2 hall, List.length_eq_zero_iff]

theorem power (h : Ahead bs i cs) : powerAt? bs i = some (power? cs).isSome := by
  have he := h.getElem?_eq_some_iff (d := 'e') (x := 0x65) (by decide) (by decide)
  have hE := h.getElem?_eq_some_iff (d := 'E') (x := 0x45) (by decide) (by decide)
  cases cs with
  | nil =>
    have hbyte : ¬(bs[i]? = some 0x65 ∨ bs[i]? = some 0x45) := by
      rw [he, hE]
      exact not_or.2 ⟨nofun, nofun⟩
    rw [powerAt?, if_neg hbyte, decide_eq_true (h.eq_length_iff.2 rfl)]
    rfl
  | cons c cs =>
    have hbyte : bs[i]? = some 0x65 ∨ bs[i]? = some 0x45 ↔ c = 'e' ∨ c = 'E' := by
      rw [he, hE]
      simp
    rw [isSome_power?_cons]
    by_cases hc : c = 'e' ∨ c = 'E'
    · have hlt : c.toNat < 128 := by
        obtain rfl | rfl := hc <;> decide
      have hsign := (h.next hlt).sign
      rw [powerAt?, if_pos (hbyte.2 hc), hsign.digits.1, Option.map_some]
      simp only [hsign.digits_eq_length_iff, hc, true_and]
    · -- with no letter ahead the literal should have ended here
      have hrest : i ≠ bs.length := fun hi => nomatch h.eq_length_iff.1 hi
      rw [powerAt?, if_neg (hbyte.not.2 hc), decide_eq_false hrest,
        decide_eq_false (not_and_of_not_left _ hc)]

end Ahead

/-- No cut of the reader fails, and what it takes are the literals. -/
theorem inBytes?_eq (w : String) :
    inBytes? w.toByteArray.data.toList = some (parse? w.toList).isSome := by
  obtain ⟨hwhole, htail⟩ := (ahead_start w).sign.digits
  obtain ⟨j, hfraction, hend⟩ := htail.fraction
  rw [inBytes?, hwhole, Option.bind_eq_bind, Option.bind_some, hfraction, Option.bind_eq_bind,
    Option.bind_some, parse?]
  simp only [hend.power, List.length_eq_zero_iff]
  split
  · rfl
  · rw [Option.isSome_map]

end TokenScan.Decimal.Literal
