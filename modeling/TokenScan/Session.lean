import TokenScan.Replay
import TokenScan.Scanner.Drain

namespace TokenScan

inductive Reply where
  | token (r : Except ScanError (Option Token))
  | located (r : Except ScanError (Option LocatedToken))
  | tokens (r : Except ScanError (List Token))
  | text (s : String)

namespace Scanner

inductive Request where
  | token
  | located
  /-- A token asked for through the interface that all token sources share. -/
  | sourceToken
  | pull
  | readAll
  | collect
  | source
deriving DecidableEq

def serve : Request → Scanner → Reply × Scanner
  | .token, s => (.token s.nextToken.1, s.nextToken.2)
  | .located, s => (.located s.next.1, s.next.2)
  | .sourceToken, s => (.token (TokenSource.next s).1, (TokenSource.next s).2)
  | .pull, s =>
    match s.pull with
    | (none, s') => (.token (.ok none), s')
    | (some (.ok t), s') => (.token (.ok (some t)), s')
    | (some (.error e), s') => (.token (.error e), s')
  | .readAll, s => let (r, s') := TokenSource.readAll s; (.tokens r, s')
  | .collect, s => let (r, s') := s.collect; (.tokens r, s')
  | .source, s => (.text s.source, s)

/-- Each reply, with the position after it. -/
def serveAll : List Request → Scanner → List (Reply × Nat)
  | [], _ => []
  | q :: qs, s => let (r, s') := serve q s; (r, s'.pos) :: serveAll qs s'

end Scanner

namespace Replay

inductive Request where
  | token
  | readAll
  /-- Put to a copy, which is then dropped. -/
  | copied (q : Request)
deriving DecidableEq

def serve : Request → Replay → Reply × Replay
  | .token, r => (.token r.next.1, r.next.2)
  | .readAll, r => let (ts, r') := TokenSource.readAll r; (.tokens ts, r')
  | .copied q, r => ((serve q r).1, r)

def serveAll : List Request → Replay → List Reply
  | [], _ => []
  | q :: qs, r => let (x, r') := serve q r; x :: serveAll qs r'

end Replay
end TokenScan
