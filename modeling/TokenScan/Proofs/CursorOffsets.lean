import TokenScan.Cursor.Session
import TokenScan.Proofs.TextCuts

namespace TokenScan.Cursor

open Text (byteLength drop_bytes_of_append isValid_iff)

/-- An offset, and the offsets to come back to. -/
structure Offsets where
  pos : Nat
  saved : List Nat

namespace Offsets

/-- The text from byte `n` on, unless that is inside a character or past the end. -/
def ahead? (source : String) (n : Nat) : Option (List Char) :=
  Text.slice? source.toList n source.utf8ByteSize

theorem ahead?_eq_some_iff {source : String} {n : Nat} {cs : List Char} :
    ahead? source n = some cs ↔ ∃ before, source.toList = before ++ cs ∧ byteLength before = n := by
  rw [ahead?, Text.slice?_eq_some_iff]
  constructor
  · rintro ⟨before, b, hs, hn, hlen⟩
    have hb := congrArg byteLength hs
    rw [Text.byteLength_toList, Text.byteLength_append, Text.byteLength_append] at hb
    obtain rfl : b = [] := Text.byteLength_eq_zero.1 (by omega)
    exact ⟨before, by rwa [List.append_nil] at hs, hn⟩
  · rintro ⟨before, hs, hn⟩
    have hlen := congrArg byteLength hs
    rw [Text.byteLength_toList, Text.byteLength_append] at hlen
    exact ⟨before, [], by rwa [List.append_nil], hn, hlen.symm⟩

theorem sub_lt_of_ahead? {source : String} {n : Nat} {c : Char} {cs : List Char}
    (h : ahead? source n = some (c :: cs)) :
    source.utf8ByteSize - (n + c.utf8Size) < source.utf8ByteSize - n := by
  obtain ⟨before, hs, rfl⟩ := ahead?_eq_some_iff.1 h
  have hlen := congrArg byteLength hs
  have := c.utf8Size_pos
  rw [Text.byteLength_toList, Text.byteLength_append, Text.byteLength_cons] at hlen
  omega

/-- Past one character after another for as long as `p` holds, with a cut at each of them. -/
def skipWhile? (source : String) (p : Char → Bool) (n : Nat) : Option Nat :=
  match h : ahead? source n with
  | none => none
  | some [] => some n
  | some (c :: _) =>
    have := sub_lt_of_ahead? h
    if p c then skipWhile? source p (n + c.utf8Size) else some n
termination_by source.utf8ByteSize - n

/-- To the next byte `x`, or to the end. The jump goes by bytes. -/
def seek? (source : String) (x : UInt8) (n : Nat) : Option (Bool × Nat) :=
  if n ≤ source.utf8ByteSize then
    match (source.toByteArray.data.toList.drop n).findIdx? (· == x) with
    | some i => some (true, n + i)
    | none => some (false, source.utf8ByteSize)
  else none

/-- One move, unless a cut that it makes fails. -/
def step? (source : String) (o : Offsets) : Move → Option (Answer × Offsets)
  | .current => (ahead? source o.pos).map fun cs => (.char cs.head?, o)
  | .peek => (ahead? source o.pos).map fun cs => (.char cs.tail.head?, o)
  | .advance => (ahead? source o.pos).map fun cs =>
    (.char cs.head?, { o with pos := o.pos + cs.head?.elim 0 Char.utf8Size })
  | .source => some (.text source, o)
  | .length => some (.number source.utf8ByteSize, o)
  | .slice i j => some (Session.sliced ((Text.slice? source.toList i j).map String.ofList), o)
  | .since i => some (Session.sliced ((Text.slice? source.toList i o.pos).map String.ofList), o)
  | .skipWhile p => (skipWhile? source p o.pos).map fun n => (.done, { o with pos := n })
  | .seek x => (seek? source x o.pos).map fun r => (.flag r.1, { o with pos := r.2 })
  | .save => some (.done, { o with saved := o.pos :: o.saved })
  | .restore =>
    match o.saved with
    | [] => some (.done, o)
    | n :: ns => some (.done, ⟨n, ns⟩)

/-- Each answer, with the offset after it. -/
def run? (source : String) : Offsets → List Move → Option (List (Answer × Nat))
  | _, [] => some []
  | o, m :: ms => do
    let (a, o') ← step? source o m
    return (a, o'.pos) :: (← run? source o' ms)

end Offsets

namespace Offsets

theorem ahead?_of_append {source : String} {before cs : List Char}
    (h : source.toList = before ++ cs) : ahead? source (byteLength before) = some cs :=
  ahead?_eq_some_iff.2 ⟨before, h, rfl⟩

/-- Every cut on the way over a run is made where a character starts. -/
theorem skipWhile?_of_append {source : String} (p : Char → Bool) {before cs : List Char}
    (h : source.toList = before ++ cs) :
    skipWhile? source p (byteLength before) = some (byteLength (before ++ cs.takeWhile p)) := by
  induction cs generalizing before with
  | nil =>
    have ha := ahead?_of_append h
    rw [skipWhile?]
    split
    next hn => rw [ha] at hn; cases hn
    next => rw [List.takeWhile_nil, List.append_nil]
    next hc => rw [ha] at hc; cases hc
  | cons c cs ih =>
    have ha := ahead?_of_append h
    rw [skipWhile?]
    split
    next hn => rw [ha] at hn; cases hn
    next hn => rw [ha] at hn; cases hn
    next hc =>
      rw [ha] at hc
      obtain ⟨rfl, rfl⟩ := List.cons.inj (Option.some.inj hc)
      split
      next hp =>
        have hcut : source.toList = before ++ [c] ++ cs := by
          rw [h, List.append_assoc]
          rfl
        have hmore := ih hcut
        rw [Text.byteLength_append, Text.byteLength_cons, Text.byteLength_nil, Nat.add_zero] at hmore
        rw [hmore, List.takeWhile_cons_of_pos hp, List.append_assoc]
        rfl
      next hp => rw [List.takeWhile_cons_of_neg hp, List.append_nil]

end Offsets

open Offsets

theorem ahead?_pos (c : Cursor) : ahead? c.source c.pos = some c.rest :=
  ahead?_eq_some_iff.2 c.splits

theorem skipWhile?_pos (p : Char → Bool) (c : Cursor) :
    skipWhile? c.source p c.pos = some (c.skipWhile p).pos := by
  obtain ⟨before, hs, hp⟩ := c.splits
  rw [← hp, skipWhile?_of_append p hs, Text.byteLength_append, hp]
  rfl

theorem seek?_pos {x : UInt8} (hx : x.toNat < 128) (c : Cursor) :
    seek? c.source x c.pos = some ((c.seek x).1, (c.seek x).2.pos) := by
  obtain ⟨before, hs, hp⟩ := c.splits
  have hlen : c.pos + byteLength c.rest = c.source.utf8ByteSize := c.pos_add_byteLength_rest
  have hle : c.pos ≤ c.source.utf8ByteSize := by omega
  have hd : (Char.ofUInt8 x).toNat = x.toNat := UInt8.toNat_toUInt32 x
  have hbytes : (c.source.toByteArray.data.toList.drop c.pos).findIdx? (· == x) =
      Text.byteIndex? x c.rest := by
    rw [← hp, drop_bytes_of_append hs, Text.byteIndex?_eq]
  rw [seek?, if_pos hle, hbytes, seek, c.find?_of_lt hx hd, Text.byteIndex?,
    Text.byteIndexFrom_of_lt hx hd, Nat.zero_add]
  split_ifs
  · rfl
  · rw [← hlen]
    rfl

theorem pos_advance (c : Cursor) :
    c.advance.1 = c.rest.head? ∧ c.advance.2.pos = c.pos + c.rest.head?.elim 0 Char.utf8Size := by
  rw [advance]
  split
  next h => simp [h]
  next h => simp [h, skip]

theorem source_seek (x : UInt8) (c : Cursor) : (c.seek x).2.source = c.source := by
  rw [seek]
  split
  next d h =>
    rw [find?] at h
    split at h
    next => cases h
    next => cases h; rfl
  next => rfl

namespace Session

/-- What a session keeps when only offsets are kept. -/
def offsets (s : Session) : Offsets := ⟨s.cursor.pos, s.saved.map Cursor.pos⟩

/-- All cursors of a session are in one source. -/
structure Over (source : String) (s : Session) : Prop where
  cursor : s.cursor.source = source
  saved : ∀ c ∈ s.saved, c.source = source

theorem over_start (source : String) : Over source (start source) := ⟨rfl, nofun⟩

theorem Over.step {source : String} {s : Session} (h : Over source s) (m : Move) :
    Over source (s.step m).2 := by
  obtain ⟨hc, hs⟩ := h
  cases m with
  | advance => exact ⟨s.cursor.source_advance.trans hc, hs⟩
  | skipWhile p => exact ⟨hc, hs⟩
  | seek x => exact ⟨(source_seek x s.cursor).trans hc, hs⟩
  | save => exact ⟨hc, List.forall_mem_cons.2 ⟨hc, hs⟩⟩
  | restore =>
    obtain ⟨cursor, _ | ⟨c, cs⟩⟩ := s
    · exact ⟨hc, hs⟩
    · exact ⟨hs c List.mem_cons_self, (List.forall_mem_cons.1 hs).2⟩
  | current => exact ⟨hc, hs⟩
  | peek => exact ⟨hc, hs⟩
  | source => exact ⟨hc, hs⟩
  | length => exact ⟨hc, hs⟩
  | slice i j => exact ⟨hc, hs⟩
  | since i => exact ⟨hc, hs⟩

theorem step?_offsets {source : String} {s : Session} (h : Over source s) {m : Move}
    (hm : ∀ x, m = .seek x → x.toNat < 128) :
    step? source s.offsets m = some ((s.step m).1, (s.step m).2.offsets) := by
  obtain ⟨rfl, -⟩ := h
  have ha := s.cursor.ahead?_pos
  cases m with
  | current =>
    change (ahead? _ s.cursor.pos).map _ = _
    rw [ha]
    rfl
  | peek =>
    change (ahead? _ s.cursor.pos).map _ = _
    rw [ha]
    rfl
  | advance =>
    obtain ⟨hchar, hpos⟩ := s.cursor.pos_advance
    change (ahead? _ s.cursor.pos).map _ =
      some (Answer.char s.cursor.advance.1, Offsets.mk s.cursor.advance.2.pos _)
    rw [ha, hchar, hpos]
    rfl
  | skipWhile p =>
    change (skipWhile? _ p s.cursor.pos).map _ = _
    rw [skipWhile?_pos]
    rfl
  | seek x =>
    change (seek? _ x s.cursor.pos).map _ = _
    rw [seek?_pos (hm x rfl)]
    rfl
  | restore => obtain ⟨cursor, _ | ⟨c, cs⟩⟩ := s <;> rfl
  | source => rfl
  | length => rfl
  | slice i j => rfl
  | since i => rfl
  | save => rfl

theorem run?_offsets {source : String} {s : Session} (h : Over source s) {ms : List Move}
    (hms : ∀ x, .seek x ∈ ms → x.toNat < 128) :
    run? source s.offsets ms = some ((s.run ms).map fun r => (r.1, r.2.pos)) := by
  induction ms generalizing s with
  | nil => rfl
  | cons m ms ih =>
    have hstep := step?_offsets h (m := m) fun x hx => hms x (hx ▸ List.mem_cons_self)
    have hmore := ih (h.step m) fun x hx => hms x (List.mem_cons_of_mem m hx)
    rw [run?, hstep]
    dsimp only [bind, Option.bind]
    rw [hmore]
    rfl

/-- All cursors on the way of a session, from its start on. -/
def way (s : Session) (ms : List Move) : List Cursor := s.cursor :: (s.run ms).map Prod.snd

theorem Over.way {source : String} {s : Session} (h : Over source s) (ms : List Move) :
    ∀ c ∈ s.way ms, c.source = source := by
  induction ms generalizing s with
  | nil => exact List.forall_mem_singleton.2 h.cursor
  | cons m ms ih => exact List.forall_mem_cons.2 ⟨h.cursor, ih (h.step m)⟩

end Session

theorem isValid_pos (c : Cursor) : (String.Pos.Raw.mk c.pos).IsValid c.source := by
  obtain ⟨before, hs, hp⟩ := c.splits
  exact isValid_iff.2 ⟨before, c.rest, hs, hp⟩

theorem exists_slice? (c : Cursor) {i j : Nat} (hi : (String.Pos.Raw.mk i).IsValid c.source)
    (hj : (String.Pos.Raw.mk j).IsValid c.source) (hij : i ≤ j) :
    ∃ a t b, c.slice? i j = some t ∧ c.source = a ++ t ++ b ∧ a.utf8ByteSize = i ∧
      (a ++ t).utf8ByteSize = j := by
  obtain ⟨m, hslice⟩ := Text.exists_slice?_eq_some hi hj hij
  obtain ⟨before, after, hs, rfl, rfl⟩ := Text.slice?_eq_some_iff.1 hslice
  refine ⟨String.ofList before, String.ofList m, String.ofList after, ?_, ?_, ?_, ?_⟩
  · rw [slice?, hslice]
    rfl
  · rw [← String.ofList_append, ← String.ofList_append, ← hs, String.ofList_toList]
  · rw [← Text.byteLength_toList, String.toList_ofList]
  · rw [← String.ofList_append, ← Text.byteLength_toList, String.toList_ofList,
      Text.byteLength_append]

theorem slice?_eq_none_iff (c : Cursor) (i j : Nat) :
    c.slice? i j = none ↔ j < i ∨ c.source.utf8ByteSize < j ∨
      ¬ (String.Pos.Raw.mk i).IsValid c.source ∨ ¬ (String.Pos.Raw.mk j).IsValid c.source := by
  have hlong : c.source.utf8ByteSize < j → ¬ (String.Pos.Raw.mk j).IsValid c.source :=
    fun h hj => Nat.not_le_of_lt h (Text.le_of_isValid hj)
  rw [slice?, Option.map_eq_none_iff, Text.slice?_eq_none_iff]
  constructor
  · rintro (h | h)
    · exact .inl h
    · exact .inr (.inr h)
  · rintro (h | h | h)
    · exact .inl h
    · exact .inr (.inr (hlong h))
    · exact .inr h

theorem atEnd_iff_current (c : Cursor) : c.atEnd = true ↔ c.current = none := by
  rw [atEnd_iff, current, List.head?_eq_none_iff]

theorem current_eq_none_iff (c : Cursor) : c.current = none ↔ c.remaining = 0 := by
  rw [current, List.head?_eq_none_iff, ← Text.byteLength_eq_zero, remaining,
    ← c.pos_add_byteLength_rest, Nat.add_sub_cancel_left]

theorem current_advance (c : Cursor) : c.advance.2.current = c.peek := by
  rw [current, rest_advance]
  rfl

/-- Moves never leave the character boundaries. No cut fails that a move makes at its offset, also
after a jump to a byte below 128 and after a return. Where moves lead, the offset is a boundary, the
three tests for the end agree, and `peek` tells what comes after the next character. Two offsets on
the way bound a slice, and a slice fails exactly if its ends are out of order, past the end or
inside a character. -/
theorem run_on_boundaries (source : String) (ms : List Move)
    (hms : ∀ x, .seek x ∈ ms → x.toNat < 128) :
    let s := Session.start source
    run? source ⟨0, []⟩ ms = some ((s.run ms).map fun r => (r.1, r.2.pos)) ∧
    (∀ c ∈ s.way ms,
      c.source = source ∧ (String.Pos.Raw.mk c.pos).IsValid source ∧
      c.pos ≤ source.utf8ByteSize ∧ c.pos + c.remaining = c.length ∧
      (c.atEnd = true ↔ c.current = none) ∧ (c.current = none ↔ c.remaining = 0) ∧
      c.advance.2.current = c.peek) ∧
    (∀ c ∈ s.way ms, ∀ d ∈ s.way ms, ∀ e ∈ s.way ms, c.pos ≤ d.pos →
      ∃ a t b, e.slice? c.pos d.pos = some t ∧ source = a ++ t ++ b ∧
        a.utf8ByteSize = c.pos ∧ (a ++ t).utf8ByteSize = d.pos) ∧
    ∀ c ∈ s.way ms, ∀ i j, c.slice? i j = none ↔ j < i ∨ source.utf8ByteSize < j ∨
      ¬ (String.Pos.Raw.mk i).IsValid source ∨ ¬ (String.Pos.Raw.mk j).IsValid source := by
  intro s
  have hover : Session.Over source s := Session.over_start source
  have hsource := hover.way ms
  have hvalid : ∀ c ∈ s.way ms, (String.Pos.Raw.mk c.pos).IsValid source := by
    intro c hc
    rw [← hsource c hc]
    exact c.isValid_pos
  refine ⟨Session.run?_offsets hover hms, fun c hc => ?_, fun c hc d hd e he hle => ?_,
    fun c hc i j => ?_⟩
  · have hlen : c.pos + byteLength c.rest = c.length := c.pos_add_byteLength_rest
    have hsize : c.length = source.utf8ByteSize := congrArg String.utf8ByteSize (hsource c hc)
    have hle : c.pos ≤ c.length := by omega
    exact ⟨hsource c hc, hvalid c hc, hsize ▸ hle, Nat.add_sub_cancel' hle, c.atEnd_iff_current,
      c.current_eq_none_iff, c.current_advance⟩
  · have hc' := hvalid c hc
    have hd' := hvalid d hd
    rw [← hsource e he] at hc' hd' ⊢
    exact e.exists_slice? hc' hd' hle
  · rw [← hsource c hc]
    exact c.slice?_eq_none_iff i j

theorem run_on_boundaries_jump :
    let source := "aé\"b"
    let ms : List Move := [.advance, .save, .seek 0x22, .advance, .restore]
    let s := Session.start source
    (∀ x, .seek x ∈ ms → x.toNat < 128) ∧ (s.way ms).map Cursor.pos = [0, 1, 1, 3, 4, 1] ∧
      (∀ n ∈ [0, 1, 1, 3, 4, 1], (String.Pos.Raw.mk n).IsValid source) ∧
      ∃ a t b, s.cursor.slice? 1 4 = some t ∧ source = a ++ t ++ b ∧ a.utf8ByteSize = 1 ∧
        (a ++ t).utf8ByteSize = 4 := by
  intro source ms s
  have hms : ∀ x, .seek x ∈ ms → x.toNat < 128 := by
    intro x hx
    obtain rfl : x = 0x22 := by simpa [ms] using hx
    decide
  have hway : (s.way ms).map Cursor.pos = [0, 1, 1, 3, 4, 1] := by decide +kernel
  have hmem {n : Nat} (hn : n ∈ [0, 1, 1, 3, 4, 1]) : ∃ c ∈ s.way ms, c.pos = n := by
    rw [← hway] at hn
    exact List.mem_map.1 hn
  obtain ⟨-, hall, hslice, -⟩ := run_on_boundaries source ms hms
  refine ⟨hms, hway, fun n hn => ?_, ?_⟩
  · obtain ⟨c, hc, rfl⟩ := hmem hn
    exact (hall c hc).2.1
  · obtain ⟨c, hc, hc1⟩ := hmem (n := 1) (by decide)
    obtain ⟨d, hd, hd4⟩ := hmem (n := 4) (by decide)
    have h := hslice c hc d hd _ List.mem_cons_self (by omega)
    rwa [hc1, hd4] at h

end TokenScan.Cursor
