import AsyncModule.Url.Host
import AsyncModule.Url.Path

/-!
# AsyncModule.Url.Basic

URLs as records, and how they are written. The written form of a URL is its identity: two
references name the same resource when their URLs are written alike.
-/

namespace AsyncModule

/-- A URL. An empty user name or password is absent; `host` is absent for URLs without an
authority. -/
structure Url where
  scheme : String
  username : String
  password : String
  host : Option Url.Host
  port : Option Nat
  path : Url.Path
  query : Option String
  fragment : Option String
  deriving DecidableEq, Repr

namespace Url

def kind (u : Url) : SchemeKind := .ofScheme u.scheme

def defaultPort? (scheme : String) : Option Nat :=
  if scheme == "http" || scheme == "ws" then some 80
  else if scheme == "https" || scheme == "wss" then some 443
  else if scheme == "ftp" then some 21
  else none

def credentials (u : Url) : String :=
  if u.username.isEmpty && u.password.isEmpty then ""
  else u.username ++ (if u.password.isEmpty then "" else ":" ++ u.password) ++ "@"

def authority (u : Url) : String :=
  match u.host with
  | none => ""
  | some host =>
    "//" ++ u.credentials ++ host.toString ++
      (match u.port with
        | none => ""
        | some n => ":" ++ n.repr)

/-- A path that begins with two slashes would read as an authority, so `/.` is put in front. -/
def guard (u : Url) : String :=
  match u.host, u.path with
  | none, .rooted ("" :: _ :: _) => "/."
  | _, _ => ""

def suffix (mark : String) : Option String → String
  | none => ""
  | some text => mark ++ text

def toString (u : Url) : String :=
  u.scheme ++ ":" ++ u.authority ++ u.guard ++ u.path.toString ++ suffix "?" u.query ++
    suffix "#" u.fragment

instance : ToString Url := ⟨toString⟩

def isRootless (u : Url) : Bool :=
  match u.path with
  | .rootless _ => true
  | .rooted _ => false

def segments (u : Url) : List String :=
  match u.path with
  | .rooted segments => segments
  | .rootless _ => []

/-- The last segment; empty when the path ends in a slash or has no segments. -/
def lastSegment (u : Url) : String := u.segments.getLastD ""

def withoutSuffix (u : Url) : Url := { u with query := none, fragment := none }

/-- Replace the path by a path text, which is escaped and walked like any other. -/
def setPath (u : Url) (text : String) : Url :=
  let cs := text.toList.filter (!Text.isTabOrBreak ·)
  match u.path with
  | .rooted _ => { u with path := Path.ofText u.kind cs }
  | .rootless _ =>
    let cs := match cs with
      | '/' :: rest => ['%', '2', 'F'] ++ rest
      | _ => cs
    { u with path := .rootless (String.ofList (Percent.encode Percent.control cs)) }

end Url

end AsyncModule
