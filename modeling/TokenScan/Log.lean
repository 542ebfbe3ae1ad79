import TokenScan.Scanner

namespace TokenScan

/-- From the most to the least urgent. -/
inductive Level where
  | error
  | warn
  | info
  | debug
  | trace
deriving DecidableEq

namespace Level

def rank : Level → Nat
  | error => 1
  | warn => 2
  | info => 3
  | debug => 4
  | trace => 5

def label : Level → String
  | error => "ERROR"
  | warn => "WARN"
  | info => "INFO"
  | debug => "DEBUG"
  | trace => "TRACE"

def name : Level → String
  | error => "error"
  | warn => "warn"
  | info => "info"
  | debug => "debug"
  | trace => "trace"

end Level

inductive LogValue where
  | text (s : String)
  | number (n : Nat)
deriving DecidableEq

def LogValue.show : LogValue → String
  | text s => s
  | number n => toString n

structure LogRecord where
  level : Level
  target : String
  message : String
  fields : List (String × LogValue)
deriving DecidableEq

def scanTarget : String := "mathlang_lexer::tokenizer"

def ScanEvent.record : ScanEvent → LogRecord
  | scanned t =>
    ⟨.trace, scanTarget, "scanned token",
      [("token", .text t.token.describe), ("span", .text t.span.text)]⟩
  | endOfInput n => ⟨.debug, scanTarget, "end of input", [("pos", .number n)]⟩
  | failed e => ⟨.debug, scanTarget, "scan failed", [("error", .text e.message)]⟩

end TokenScan
