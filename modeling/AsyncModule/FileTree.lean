import AsyncModule.Text.Utf8

/-!
# AsyncModule.FileTree

A file system as a value: files and directories by absolute path, and what reading a path yields.
Paths are bytes, cut at slashes; names are looked up one after the other from the root, `.` and
empty names stay, `..` goes up.
-/

namespace AsyncModule

/-- What lies at a path. -/
inductive Entry where
  | file (bytes : List UInt8)
  | directory
  deriving DecidableEq, Repr

inductive FileError where
  | notFound
  | isDirectory
  | notDirectory
  | nameTooLong
  | nulInPath
  | invalidUtf8
  deriving DecidableEq, Repr

def FileError.message : FileError → String
  | .notFound => "No such file or directory (os error 2)"
  | .isDirectory => "Is a directory (os error 21)"
  | .notDirectory => "Not a directory (os error 20)"
  | .nameTooLong => "File name too long (os error 36)"
  | .nulInPath => "file name contained an unexpected NUL byte"
  | .invalidUtf8 => "stream did not contain valid UTF-8"

/-- Entries by the names on the way to them; what lies above an entry is a directory. -/
structure FileTree where
  entries : List (List (List UInt8) × Entry)
  deriving Repr

namespace FileTree

def names (path : List UInt8) : List (List UInt8) := path.splitOn 0x2F

def empty : FileTree := ⟨[]⟩

def insert (t : FileTree) (path : List UInt8) (e : Entry) : FileTree :=
  ⟨((names path).filter (!·.isEmpty), e) :: t.entries⟩

def entry? (t : FileTree) (at' : List (List UInt8)) : Option Entry :=
  match t.entries.lookup at' with
  | some e => some e
  | none =>
    if at'.isEmpty || t.entries.any (at'.isPrefixOf ·.1) then some .directory else none

def follow (t : FileTree) (here : List (List UInt8)) :
    List (List UInt8) → Except FileError Entry
  | [] => .ok .directory
  | name :: rest =>
    if name.isEmpty || name == [0x2E] then t.follow here rest
    else if name == [0x2E, 0x2E] then t.follow here.dropLast rest
    else if 255 < name.length then .error .nameTooLong
    else
      match t.entry? (here ++ [name]) with
      | none => .error .notFound
      | some .directory => t.follow (here ++ [name]) rest
      | some (.file bytes) => if rest.isEmpty then .ok (.file bytes) else .error .notDirectory

def get (t : FileTree) (path : List UInt8) : Except FileError Entry :=
  if path.contains 0 then .error .nulInPath
  else if path.isEmpty then .error .notFound
  else if 4095 < path.length then .error .nameTooLong
  else t.follow [] (names path)

/-- The text of the file at an absolute path. -/
def readText (t : FileTree) (path : List UInt8) : Except FileError String :=
  match t.get path with
  | .error e => .error e
  | .ok .directory => .error .isDirectory
  | .ok (.file bytes) =>
    match Text.Utf8.decode? bytes with
    | some cs => .ok (String.ofList cs)
    | none => .error .invalidUtf8

end FileTree

end AsyncModule
