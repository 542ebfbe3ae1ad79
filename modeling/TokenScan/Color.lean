namespace TokenScan

inductive Coloring where
  | auto
  | always
  | never
deriving DecidableEq

namespace Coloring

def standard : Coloring := auto

def parse? : String → Option Coloring
  | "auto" => some auto
  | "always" => some always
  | "never" => some never
  | _ => none

/-- Whether to color what goes to a terminal, or to something else. -/
def enabled (terminal : Bool) : Coloring → Bool
  | auto => terminal
  | always => true
  | never => false

end Coloring

inductive Paint where
  | error
  | help
  | gutter
deriving DecidableEq

namespace Paint

/-- Bold red, bold green and bold blue. -/
def code : Paint → String
  | error => "\x1b[1;31m"
  | help => "\x1b[1;32m"
  | gutter => "\x1b[1;34m"

def reset : String := "\x1b[0m"

end Paint

/-- A text and the paint it gets when colors are on. -/
structure Piece where
  text : String
  paint : Option Paint
deriving DecidableEq

namespace Piece

def plain (s : String) : Piece := ⟨s, none⟩

def render (colored : Bool) (p : Piece) : String :=
  match p.paint with
  | some k => if colored then k.code ++ p.text ++ Paint.reset else p.text
  | none => p.text

def renderAll (colored : Bool) (ps : List Piece) : String := String.join (ps.map (render colored))

end Piece
end TokenScan
