import TokenScan.Lexeme
import TokenScan.TokenSource

namespace TokenScan

/-- What a step tells about itself. -/
inductive ScanEvent where
  | scanned (t : LocatedToken)
  | endOfInput (pos : Nat)
  | failed (e : ScanError)
deriving DecidableEq

structure Scanner where
  cursor : Cursor
  scratch : Scratch
  stopped : Bool
  log : Array ScanEvent

namespace Scanner

def start (source : String) : Scanner := ⟨.start source, [], false, #[]⟩

def source (s : Scanner) : String := s.cursor.source

def pos (s : Scanner) : Nat := s.cursor.pos

def moveTo (s : Scanner) (c : Cursor) (e : ScanEvent) : Scanner :=
  { s with cursor := c, log := s.log.push e }

/-- The next token with its place, or nothing at the end of the source. -/
def next (s : Scanner) : Except ScanError (Option LocatedToken) × Scanner :=
  let c := s.cursor.skipWhile Text.isBlank
  if c.atEnd then (.ok none, s.moveTo c (.endOfInput c.pos))
  else
    let x := Lexeme.read s.scratch c
    let s := { s with scratch := x.scratch }
    let span := Span.clamp c.pos x.stop.pos
    match x.result with
    | .ok t => (.ok (some ⟨t, span⟩), s.moveTo x.stop (.scanned ⟨t, span⟩))
    | .error f => (.error ⟨f, span⟩, s.moveTo x.stop (.failed ⟨f, span⟩))

def nextToken (s : Scanner) : Except ScanError (Option Token) × Scanner :=
  (s.next.1.map (·.map LocatedToken.token), s.next.2)

/-- A step of the iteration: nothing at the end of the source, and nothing for ever after a fault
that the iteration itself has met. -/
def pull (s : Scanner) : Option (Except ScanError Token) × Scanner :=
  if s.stopped then (none, s)
  else
    match s.nextToken with
    | (.ok none, s') => (none, s')
    | (.ok (some t), s') => (some (.ok t), s')
    | (.error e, s') => (some (.error e), { s' with stopped := true })

/-- Characters not yet read. -/
def left (s : Scanner) : Nat := s.cursor.rest.length

theorem left_skipWhile_le (c : Cursor) (p : Char → Bool) :
    (c.skipWhile p).rest.length ≤ c.rest.length := by
  rw [Cursor.rest_skipWhile]
  exact (List.dropWhile_suffix p).length_le

theorem left_next_lt {s : Scanner} (h : s.next.1 ≠ .ok none) : s.next.2.left < s.left := by
  rw [next] at h ⊢
  have hle := left_skipWhile_le s.cursor Text.isBlank
  split
  next he => simp [he] at h
  next he =>
    have hr : (s.cursor.skipWhile Text.isBlank).rest ≠ [] := mt (Cursor.atEnd_iff _).2 he
    have := Lexeme.read_length_lt s.scratch hr
    dsimp only
    split <;> exact Nat.lt_of_lt_of_le this hle

theorem left_lt_of_next {s s' : Scanner} {r : Except ScanError (Option LocatedToken)}
    (h : s.next = (r, s')) (hr : r ≠ .ok none) : s'.left < s.left := by
  have hlt : s.next.2.left < s.left := by
    apply left_next_lt
    rwa [h]
  rwa [h] at hlt

theorem left_nextToken_lt {s s' : Scanner} {t : Token} (h : s.nextToken = (.ok (some t), s')) :
    s'.left < s.left := by
  obtain ⟨h₁, rfl⟩ := Prod.mk.inj h
  refine left_next_lt fun hn => ?_
  rw [hn] at h₁
  simp [Except.map] at h₁

theorem left_pull_lt {s s' : Scanner} {t : Token} (h : s.pull = (some (.ok t), s')) :
    s'.left < s.left := by
  rw [pull] at h
  split at h
  · simp at h
  · split at h
    · simp at h
    next t' s'' hn =>
      simp only [Prod.mk.injEq, Option.some.injEq, Except.ok.injEq] at h
      obtain ⟨rfl, rfl⟩ := h
      exact left_nextToken_lt hn
    · simp at h

end Scanner

instance : TokenSource Scanner where
  next := Scanner.nextToken
  left := Scanner.left
  left_lt := Scanner.left_nextToken_lt

end TokenScan
