import TokenScan.Log

namespace TokenScan

/-- What is done with log records: which of them a value of `RUST_LOG` lets through, and the line
that shows a record after a time stamp. -/
structure Subscriber where
  admits : String → LogRecord → Bool
  line : String → LogRecord → String

/-- A subscriber at work under a value of `RUST_LOG`. Each record has a stamp of its own. -/
structure Logging where
  subscriber : Subscriber
  value : String
  stamps : Nat → String

namespace Logging

def admits (l : Logging) (r : LogRecord) : Bool := l.subscriber.admits l.value r

def line (l : Logging) (n : Nat) (r : LogRecord) : String := l.subscriber.line (l.stamps n) r

end Logging

/-- Up to a level, or nothing at all, of what comes from a target that starts with `target`. -/
structure LogRule where
  target : String
  level : Option Level
deriving DecidableEq

namespace LogRule

def level? (s : String) : Option (Option Level) :=
  match s.toLower with
  | "off" | "0" => some none
  | "error" | "1" => some (some .error)
  | "warn" | "2" => some (some .warn)
  | "info" | "3" => some (some .info)
  | "debug" | "4" => some (some .debug)
  | "trace" | "5" => some (some .trace)
  | _ => none

def isTarget (s : String) : Bool :=
  !s.isEmpty && s.toList.all fun c => c.isAlphanum || c = '_' || c = '-' || c = ':'

/-- A level, a target or `target=level`. A target alone is for all levels. -/
def parse? (s : String) : Option LogRule :=
  match (s.toList.splitOn '=').map String.ofList with
  | [one] =>
    match level? one with
    | some level => some ⟨"", level⟩
    | none => if isTarget one then some ⟨one, some .trace⟩ else none
  | [target, level] =>
    if !isTarget target then none
    else if level.isEmpty then some ⟨target, some .trace⟩
    else (level? level).map (⟨target, ·⟩)
  | _ => none

/-- The rules of a list that can be read; if there is none, errors are let through. -/
def parseAll (s : String) : List LogRule :=
  match (s.toList.splitOn ',').filterMap (parse? ∘ String.ofList) with
  | [] => [⟨"", some .error⟩]
  | rules => rules

def concerns (r : LogRecord) (rule : LogRule) : Bool :=
  rule.target.toList.isPrefixOf r.target.toList

/-- The rule with the longest target decides, and of two such rules the later one. -/
def decisive? (r : LogRecord) (rules : List LogRule) : Option LogRule :=
  (rules.filter (concerns r)).foldl (fun best rule =>
    if best.any (rule.target.length < ·.target.length) then best else some rule) none

def passes (rules : List LogRule) (r : LogRecord) : Bool :=
  ((decisive? r rules).bind LogRule.level).any (r.level.rank ≤ ·.rank)

end LogRule

namespace Subscriber

def standard : Subscriber where
  admits value := LogRule.passes (LogRule.parseAll value)
  line stamp r := stamp ++ " " ++ r.level.label ++ " " ++ r.target ++ ": " ++ r.message ++
    String.join (r.fields.map fun (k, v) => " " ++ k ++ "=" ++ v.show) ++ "\n"

end Subscriber
end TokenScan
