import AsyncModule.Config
import AsyncModule.LoadError
import AsyncModule.Resource
import AsyncModule.Url.Parser

/-!
# AsyncModule.Context

Where specifiers are resolved. A specifier is, in this order, a complete URL of a network scheme;
absolute, beginning with a slash; relative, beginning with a dot; or bare. Absolute and relative
specifiers read the context of whoever asks, bare ones the default base. The canonical URL is the
directory reached with the resource name put in it, so different spellings of one place meet.
-/

namespace AsyncModule

/-- The directory and the root that specifiers are resolved against. -/
structure Context where
  base : Url
  root : Url
  deriving DecidableEq, Repr

namespace Url

def joinFor (base : Url) (specifier reference : String) : Except LoadError Url :=
  match base.join reference with
  | .ok u => .ok u
  | .error e => .error (.unresolved specifier e.message)

def parseFor (specifier text : String) : Except LoadError Url :=
  match parse text with
  | .ok u => .ok u
  | .error e => .error (.unresolved specifier e.message)

def directory (u : Url) : Except LoadError Url := u.joinFor u.toString "./"

/-- Read a URL as a directory, whether or not its path ends in a slash. -/
def asDirectory (text : String) : Except LoadError Url := do
  let u ← parseFor text (Text.trim text)
  if u.isRootless then throw (.unresolved text "URL cannot be used as a base")
  let path := u.path.toString
  let u := if path.toList.getLast? == some '/' then u else u.setPath (path ++ "/")
  pure u.withoutSuffix

end Url

namespace Context

/-- The context of what was fetched from a URL. -/
def ofUrl (u : Url) : Except LoadError Context := do
  pure { base := ← u.directory, root := ← u.joinFor u.toString "/" }

def parse (text : String) : Except LoadError Context := do
  ofUrl (← Url.parseFor text (Text.trim text))

end Context

/-- What resolving depends on besides the context. -/
structure Resolver where
  defaultBase : Option Url
  config : Config
  deriving DecidableEq, Repr

namespace Resolver

def isFullyQualified (r : Resolver) (spec : String) : Bool :=
  match Text.before? [':', '/', '/'] spec.toList with
  | some scheme => r.config.isNetworkScheme (String.ofList scheme)
  | none => false

def absolute (r : Resolver) (spec : String) (ctx : Context) : Except LoadError Url :=
  if r.isFullyQualified spec then Url.parseFor spec spec
  else
    match spec.toList.head? with
    | some '/' => ctx.root.joinFor spec spec
    | some '.' => ctx.base.joinFor spec spec
    | _ =>
      match r.defaultBase with
      | some base => base.joinFor spec spec
      | none => .error (.unresolved spec "no default base URL configured")

/-- The name of the resource at the end of a path, given an extension if it has none. -/
def resourceName (r : Resolver) (segment : String) : String :=
  if segment.toList.contains '.' then segment else segment ++ "." ++ r.config.defaultExtension

def kindOf (r : Resolver) (name : String) : ResourceKind :=
  if r.config.isMarkup name then .markup else .code

/-- Find the resource that a specifier names. -/
def resolve (r : Resolver) (specifier : String) (ctx : Context) : Except LoadError Target := do
  let spec := Text.trim specifier
  if spec.isEmpty then throw (.unresolved specifier "empty specifier")
  let url ← r.absolute spec ctx
  if url.lastSegment.isEmpty then throw (.unresolved spec "does not name a resource")
  let name := r.resourceName url.lastSegment
  let directory ← url.directory
  pure
    { url := directory.setPath (directory.path.toString ++ name)
      name, kind := r.kindOf name }

end Resolver

end AsyncModule
