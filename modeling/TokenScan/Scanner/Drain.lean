import TokenScan.Scanner

namespace TokenScan

/-- The tokens before the first error, and that error. -/
structure Scan where
  tokens : List LocatedToken
  error : Option ScanError
deriving DecidableEq

namespace Scanner

def locateOnto (read : Array LocatedToken) (s : Scanner) : Except ScanError (List LocatedToken) :=
  match h : s.next with
  | (.ok (some t), s') =>
    have := left_lt_of_next h nofun
    locateOnto (read.push t) s'
  | (.ok none, _) => .ok read.toList
  | (.error e, _) => .error e
termination_by s.left

/-- The tokens with their places; none of them if there is an error. -/
def locateAll (s : Scanner) : Except ScanError (List LocatedToken) := locateOnto #[] s

def keepOnto (read : Array LocatedToken) (s : Scanner) : Scan × Scanner :=
  match h : s.next with
  | (.ok (some t), s') =>
    have := left_lt_of_next h nofun
    keepOnto (read.push t) s'
  | (.ok none, s') => (⟨read.toList, none⟩, s')
  | (.error e, s') => (⟨read.toList, some e⟩, s')
termination_by s.left

/-- The tokens with their places up to the first error. -/
def keepAll (s : Scanner) : Scan × Scanner := keepOnto #[] s

def collectOnto (read : Array Token) (s : Scanner) : Except ScanError (List Token) × Scanner :=
  match h : s.pull with
  | (some (.ok t), s') =>
    have := left_pull_lt h
    collectOnto (read.push t) s'
  | (some (.error e), s') => (.error e, s')
  | (none, s') => (.ok read.toList, s')
termination_by s.left

def collect (s : Scanner) : Except ScanError (List Token) × Scanner := collectOnto #[] s

def countFrom (n : Nat) (s : Scanner) : Except ScanError Nat × Scanner :=
  match h : s.pull with
  | (some (.ok t), s') =>
    have := left_pull_lt h
    countFrom (n + 1) s'
  | (some (.error e), s') => (.error e, s')
  | (none, s') => (.ok n, s')
termination_by s.left

/-- How many tokens the iteration still gives. -/
def count (s : Scanner) : Except ScanError Nat × Scanner := countFrom 0 s

end Scanner

def tokensOf (source : String) : Except ScanError (List Token) :=
  (TokenSource.readAll (Scanner.start source)).1

/-- What the scan for `tokensOf` tells on its way. -/
def transcriptOf (source : String) : List ScanEvent :=
  (TokenSource.readAll (Scanner.start source)).2.log.toList

def locatedTokensOf (source : String) : Except ScanError (List LocatedToken) :=
  (Scanner.start source).locateAll

def scanOf (source : String) : Scan := (Scanner.start source).keepAll.1

def countOf (source : String) : Except ScanError Nat := (Scanner.start source).count.1

end TokenScan
