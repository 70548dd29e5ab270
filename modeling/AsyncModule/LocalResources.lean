import AsyncModule.Context
import AsyncModule.FileTree
import AsyncModule.Script
import AsyncModule.Url.File

/-!
# AsyncModule.LocalResources

Resources as this machine comes by them: code units registered by canonical URL, and markup read
from files or asked of servers. A unit registered for a markup resource is the script of its
fragment.
-/

namespace AsyncModule

/-- The status of a response, with the phrase that stands for its code. -/
structure Status where
  code : Nat
  phrase : String
  deriving DecidableEq, Repr

namespace Status

def isSuccess (s : Status) : Bool := 200 ≤ s.code && s.code < 300

def toString (s : Status) : String := Nat.repr s.code ++ " " ++ s.phrase

end Status

/-- What comes of asking a server for a resource. -/
inductive Response where
  /-- There is no response. -/
  | unreachable (reason : String)
  /-- There is one, with its text unless this breaks off. -/
  | answered (status : Status) (text : Except String String)

/-- What comes of asking for the resource at a URL. It does not matter when it is asked for. -/
abbrev Network := Url → Response

/-- Nobody can be reached. -/
def Network.offline : Network := fun _ => .unreachable "no network"

/-- The text of the resource at a URL that a server was asked for. -/
def Response.read (u : Url) : Response → Except LoadError String
  | unreachable reason => .error (.fetch u.toString reason)
  | answered status text =>
    if status.isSuccess then
      text.mapError fun reason => .fetch u.toString ("failed to read response: " ++ reason)
    else .error (.fetch u.toString ("HTTP " ++ status.toString))

structure LocalResources (ν : Type) where
  units : List (String × Script ν)
  files : FileTree

namespace LocalResources

variable {ν : Type}

def unit? (r : LocalResources ν) (url : String) : Option (Script ν) := r.units.lookup url

def hasUnit (r : LocalResources ν) (url : String) : Bool := (r.unit? url).isSome

/-- Register a unit under the canonical form of a URL, in place of an earlier one. -/
def register (r : LocalResources ν) (url : String) (unit : Script ν) :
    Except LoadError (LocalResources ν) := do
  let u ← Url.parseFor url (Text.trim url)
  pure { r with units := (u.toString, unit) :: r.units }

/-- The text behind a URL, which is that of a file or of what a server answers. -/
def readText (r : LocalResources ν) (u : Url) (network : Network := .offline) :
    Except LoadError String :=
  if u.scheme == "file" then
    match u.toFilePath? with
    | none => .error (.fetch u.toString "not a local file path")
    | some path =>
      match r.files.readText path with
      | .ok text => .ok text
      | .error e =>
        .error (.fetch u.toString
          (String.ofList (Text.Utf8.decodeLossy path) ++ ": " ++ e.message))
  else if u.scheme == "http" || u.scheme == "https" then (network u).read u
  else .error (.fetch u.toString ("unsupported URL scheme '" ++ u.scheme ++ "'"))

def load (r : LocalResources ν) (t : Target) (network : Network := .offline) :
    Fetched (Script ν) :=
  match t.kind with
  | .code =>
    match r.unit? t.key with
    | some unit => .code unit
    | none => .failed (.fetch t.key "no code unit registered for this URL")
  | .markup =>
    match r.readText t.url network with
    | .ok content => .markup (.ofTarget t content) (r.unit? t.key)
    | .error e => .failed e

end LocalResources

end AsyncModule
