import TokenScan.Color

namespace TokenScan

structure Options where
  color : Coloring
  path : Option String
  ignored : List String
deriving DecidableEq

/-- A color mode that does not exist, and what had been ignored up to there. -/
structure Refusal where
  value : String
  ignored : List String
deriving DecidableEq

namespace Options

def empty : Options := ⟨.standard, none, []⟩

def colorValue? (arg : String) : Option String :=
  ("--color=".toList.isPrefixOf? arg.toList).map String.ofList

def isFlag (arg : String) : Bool := arg.toList.head? = some '-'

/-- The last color flag wins, and the first path. -/
def readOnto (o : Options) : List String → Except Refusal Options
  | [] => .ok o
  | arg :: args =>
    match colorValue? arg with
    | some value =>
      match Coloring.parse? value with
      | some mode => readOnto { o with color := mode } args
      | none => .error ⟨value, o.ignored⟩
    | none =>
      if isFlag arg || o.path.isSome then readOnto { o with ignored := o.ignored ++ [arg] } args
      else readOnto { o with path := some arg } args

def read (args : List String) : Except Refusal Options := readOnto empty args

end Options
end TokenScan
