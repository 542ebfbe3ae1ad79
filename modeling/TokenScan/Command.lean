import TokenScan.Diagnostic
import TokenScan.Files
import TokenScan.Listing
import TokenScan.Logging
import TokenScan.Options
import TokenScan.Scanner.Drain

namespace TokenScan

inductive Write where
  | log (r : LogRecord)
  | out (s : String)
  | err (s : String)
  /-- The message of the runtime about a panic, to the error stream and in words of its own. -/
  | panic
deriving DecidableEq

structure Run where
  writes : List Write
  code : Nat
deriving DecidableEq

namespace Run

def panicCode : Nat := 101

/-- What is shown of the record number `n`. -/
def recordText (logging : Option Logging) (n : Nat) (r : LogRecord) : String :=
  match logging with
  | some l => if l.admits r then l.line n r else ""
  | none => ""

/-- Output and log lines; the records are counted from `n`. -/
def shown (logging : Option Logging) (n : Nat) : List Write → String
  | [] => ""
  | .log r :: ws => recordText logging n r ++ shown logging (n + 1) ws
  | .out s :: ws => s ++ shown logging n ws
  | .err _ :: ws => shown logging n ws
  | .panic :: ws => shown logging n ws

def stdout (logging : Option Logging) (r : Run) : String := shown logging 0 r.writes

/-- Without the message about a panic, which is not the program's. -/
def stderr (r : Run) : String :=
  String.join <| r.writes.map fun
    | .err s => s
    | _ => ""

def panics (r : Run) : Bool := r.writes.contains .panic

end Run

inductive Task where
  | lex
  | check
deriving DecidableEq

namespace Task

def name : Task → String
  | lex => "lex"
  | check => "check"

def record (path source : String) : Task → LogRecord
  | lex => ⟨.debug, "mathlangc::commands::debug", "lexing file", fields⟩
  | check => ⟨.debug, "mathlangc::commands::check", "checking file", fields⟩
where
  fields := [("path", .text (Text.quote path)), ("bytes", .number source.utf8ByteSize)]

/-- The listing, or the count, of the scan's tokens, the error that ended it, and its log. -/
def scan (path source : String) : Task → Option String × Option ScanError × List ScanEvent
  | lex =>
    let (r, s) := (Scanner.start source).keepAll
    (some (Listing.text path r.tokens), r.error, s.log.toList)
  | check =>
    match (Scanner.start source).count with
    | (.ok n, s) => (some ("OK: " ++ toString n ++ " tokens\n"), none, s.log.toList)
    | (.error e, s) => (none, some e, s.log.toList)

/-- The diagnostic of an error, and the exit code. An error that cannot be shown is a panic. -/
def conclusion (colored : Bool) (path source : String) : Option ScanError → List Write × Nat
  | none => ([], 0)
  | some e =>
    match Diagnostic.report? colored path source [e] with
    | some report => ([.err report], 1)
    | none => ([.panic], Run.panicCode)

/-- Logs first, then the result, then the diagnostic. -/
def run (colored : Bool) (path source : String) (t : Task) : Run :=
  let (out, error, events) := t.scan path source
  let logs := Write.log (t.record path source) :: events.map (Write.log ∘ ScanEvent.record)
  let (last, code) := conclusion colored path source error
  ⟨logs ++ (out.map Write.out).toList ++ last, code⟩

end Task

inductive Command where
  | usage
  | version
  | unknown (name : String)
  | file (t : Task) (o : Except Refusal Options)

namespace Command

def parse : List String → Command
  | [] => usage
  | name :: args =>
    match name with
    | "lex" => file .lex (Options.read args)
    | "check" => file .check (Options.read args)
    | "help" | "--help" | "-h" => usage
    | "version" | "--version" | "-V" => version
    | _ => unknown name

/-- The file the command reads. -/
def path? : Command → Option String
  | file _ (.ok o) => o.path
  | _ => none

def usageText : String :=
  "mathlang - token reader tools\n" ++
  "\n" ++
  "Usage: mathlang <command> [options]\n" ++
  "\n" ++
  "Commands:\n" ++
  "  lex <file>       Print the token stream of a file\n" ++
  "  check <file>     Scan a file and report the first error\n" ++
  "  help             Show this message\n" ++
  "  version          Show version information\n" ++
  "\n" ++
  "Options:\n" ++
  "  --color=<when>   Color diagnostics: auto (default), always, never\n" ++
  "\n" ++
  "Environment:\n" ++
  "  RUST_LOG         Log filter, e.g. RUST_LOG=mathlang_lexer=trace\n"

def warnings (ignored : List String) : List Write :=
  ignored.map fun arg => .err ("warning: ignoring argument '" ++ arg ++ "'\n")

/-- Runs the command where `read` gives the text of a file and errors go to a `terminal` or not. -/
def run (read : String → Except ReadError String) (terminal : Bool) : Command → Run
  | usage => ⟨[.out usageText], 0⟩
  | version => ⟨[.out "mathlang 0.1.0\n"], 0⟩
  | unknown name => ⟨[.err ("Unknown command: " ++ name ++ "\n\n"), .out usageText], 1⟩
  | file _ (.error r) =>
    ⟨warnings r.ignored ++
      [.err ("error: invalid --color value '" ++ r.value ++ "'\n"),
        .err "Expected one of: auto, always, never\n"], 1⟩
  | file t (.ok o) =>
    match o.path with
    | none =>
      ⟨warnings o.ignored ++
        [.err "error: missing file path\n",
          .err ("Usage: mathlang " ++ t.name ++ " <file> [--color=auto|always|never]\n")], 1⟩
    | some path =>
      match read path with
      | .error e => ⟨warnings o.ignored ++ [.err (e.message path ++ "\n")], 1⟩
      | .ok source =>
        let r := t.run (o.color.enabled terminal) path source
        ⟨warnings o.ignored ++ r.writes, r.code⟩

end Command
end TokenScan
