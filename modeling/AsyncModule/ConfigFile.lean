import AsyncModule.Config
import AsyncModule.FileTree
import AsyncModule.Toml.Document
import AsyncModule.Url.File

/-!
# AsyncModule.ConfigFile

Settings read from files. Without a file named by the user, the working directory and those above
it are searched, innermost first; without any file the settings are the default ones.
-/

namespace AsyncModule

/-- What a program can see around it: the names on the way to its working directory, and files. -/
structure Surroundings where
  workingDirectory : List String
  files : FileTree
  deriving Repr

/-- Why settings cannot be read. -/
inductive ConfigError where
  | unreadable (e : FileError)
  | malformed (path : String)
  deriving DecidableEq, Repr

def ConfigError.message : ConfigError → String
  | unreadable e => e.message
  | malformed path => "Failed to parse " ++ path

/-- The settings stand under `loader`; items of a list beyond the last setting are ignored. -/
def Config.ofDocument? (document : Data) : Option Config :=
  match document.field? "loader" with
  | none => some {}
  | some (.list items) => Config.ofData? (.list (items.take 5))
  | some d => Config.ofData? d

namespace Surroundings

def pathOf (names : List String) : String := "/" ++ Text.joinWith "/" names

def bytesOf (path : String) : List UInt8 := Text.Utf8.encode path.toList

/-- The path as seen from the root. -/
def absolute (s : Surroundings) (path : String) : String :=
  if path.toList.head? == some '/' then path else pathOf s.workingDirectory ++ "/" ++ path

def has (s : Surroundings) (path : String) : Bool :=
  match s.files.get (bytesOf (s.absolute path)) with
  | .ok _ => true
  | .error _ => false

def candidates (s : Surroundings) : List String :=
  (List.range (s.workingDirectory.length + 1)).reverse.flatMap fun n =>
    ["steep.toml", ".steeprc.toml"].map fun name => pathOf (s.workingDirectory.take n ++ [name])

def configFile? (s : Surroundings) (named : Option String) : Option String :=
  match named with
  | some path => if s.has path then some path else none
  | none => s.candidates.find? s.has

def config (s : Surroundings) (named : Option String) : Except ConfigError Config :=
  match s.configFile? named with
  | none => .ok {}
  | some path =>
    match s.files.readText (bytesOf (s.absolute path)) with
    | .error e => .error (.unreadable e)
    | .ok text =>
      match (Toml.parse? text).bind Config.ofDocument? with
      | some c => .ok c
      | none => .error (.malformed path)

def url (s : Surroundings) : Url := Url.ofDirectory (s.workingDirectory.map String.toList)

end Surroundings

end AsyncModule
