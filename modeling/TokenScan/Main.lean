import TokenScan.Command

namespace TokenScan.Main

def isCode (n code : UInt32) : Bool := code = n || code = 0 - n

def readError (e : IO.Error) : ReadError :=
  match e with
  | .noFileOrDirectory .. => .missing
  | .permissionDenied .. => .denied
  | .inappropriateType _ code _ =>
    if isCode 21 code then .isDirectory
    else if isCode 20 code then .notDirectory
    else .other (toString e)
  | .invalidArgument _ code _ => if isCode 36 code then .nameTooLong else .other (toString e)
  | _ => .other (toString e)

def readFile (path : String) : IO (Except ReadError String) := do
  try
    return Directory.decode (← IO.FS.readBinFile path)
  catch e => return .error (readError e)

/-- Seconds since the start, to the microsecond. -/
def stamp (start : Nat) : IO String := do
  let n := ((← IO.monoNanosNow) - start) / 1000
  let digits := (Nat.toDigits 10 (n % 1000000)).leftpad 6 '0'
  return toString (n / 1000000) ++ "." ++ String.ofList digits ++ "s"

end TokenScan.Main

open TokenScan TokenScan.Main in
def main (args : List String) : IO UInt32 := do
  let start ← IO.monoNanosNow
  let out ← IO.getStdout
  let err ← IO.getStderr
  let value ← IO.getEnv "RUST_LOG"
  let command := Command.parse args
  let content ← match command.path? with
    | some path => readFile path
    | none => pure (.error .missing)
  let r := command.run (fun _ => content) (← err.isTty)
  for w in r.writes do
    match w with
    | .log record =>
      if value.any (Subscriber.standard.admits · record) then
        out.putStr (Subscriber.standard.line (← stamp start) record)
    | .out s => out.putStr s
    | .err s => err.putStr s
    | .panic => err.putStr "thread 'main' panicked\n"
  out.flush
  err.flush
  return UInt32.ofNat r.code
