namespace TokenScan

inductive ReadError where
  | missing
  | denied
  /-- The bytes are not UTF-8. -/
  | notText
  | isDirectory
  /-- A path that goes on after a file. -/
  | notDirectory
  | nameTooLong
  | nulInPath
  | other (reason : String)
deriving DecidableEq

namespace ReadError

/-- What is said of a path for which the system gives a reason of its own. -/
def refused (path reason : String) : String := "error reading '" ++ path ++ "': " ++ reason

def message (path : String) : ReadError → String
  | missing => "cannot find file '" ++ path ++ "'"
  | denied => "permission denied reading '" ++ path ++ "'"
  | notText => "'" ++ path ++ "' contains invalid UTF-8 data"
  | isDirectory => refused path "Is a directory (os error 21)"
  | notDirectory => refused path "Not a directory (os error 20)"
  | nameTooLong => refused path "File name too long (os error 36)"
  | nulInPath => refused path "file name contained an unexpected NUL byte"
  | other reason => refused path reason

end ReadError

/-- The files below a directory, each with the names that lead to it. -/
structure Directory where
  files : List (List String × ByteArray)

namespace Directory

def names (path : String) : List String := (path.toList.splitOn '/').map String.ofList

def ofFiles (files : List (String × ByteArray)) : Directory :=
  ⟨files.map fun (path, bytes) => (names path, bytes)⟩

inductive Place where
  | directory (trail : List String)
  | file (bytes : ByteArray)
  /-- A directory that is not below this one. Nothing in it is known. -/
  | outside

/-- From a place along one name of a path. -/
def follow (d : Directory) (p : Place) (name : String) : Except ReadError Place :=
  match p with
  | .file _ => .error .notDirectory
  | .outside =>
    if name = "" ∨ name = "." ∨ name = ".." then .ok .outside
    else if 255 < name.utf8ByteSize then .error .nameTooLong
    else .error .missing
  | .directory trail =>
    if name = "" ∨ name = "." then .ok (.directory trail)
    else if name = ".." then .ok (if trail = [] then .outside else .directory trail.dropLast)
    else if 255 < name.utf8ByteSize then .error .nameTooLong
    else
      let trail := trail ++ [name]
      match d.files.find? (·.1 = trail) with
      | some (_, bytes) => .ok (.file bytes)
      | none =>
        if d.files.any fun f => trail.isPrefixOf f.1 then .ok (.directory trail)
        else .error .missing

def bytesAt (d : Directory) (path : String) : Except ReadError ByteArray := do
  if path.toList.contains '\x00' then throw .nulInPath
  if path = "" then throw .missing
  if 4096 ≤ path.utf8ByteSize then throw .nameTooLong
  let top := if path.toList.head? = some '/' then Place.outside else .directory []
  match ← (names path).foldlM d.follow top with
  | .file bytes => return bytes
  | _ => throw .isDirectory

def decode (bytes : ByteArray) : Except ReadError String :=
  match String.fromUTF8? bytes with
  | some s => .ok s
  | none => .error .notText

def read (d : Directory) (path : String) : Except ReadError String := do decode (← d.bytesAt path)

end Directory
end TokenScan
