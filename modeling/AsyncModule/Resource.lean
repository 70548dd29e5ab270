import AsyncModule.Text
import AsyncModule.Url.Basic

/-!
# AsyncModule.Resource

Resources before they are fetched: where they are, what they are called and what they are.
-/

namespace AsyncModule

/-- What a resource is, settled with its canonical URL. -/
inductive ResourceKind where
  /-- A unit of code that may define a module. -/
  | code
  /-- Markup, which is its own module value. -/
  | markup
  deriving DecidableEq, Repr

def ResourceKind.toString : ResourceKind → String
  | .code => "code"
  | .markup => "markup"

structure Target where
  url : Url
  /-- The last segment of the path, with its extension. -/
  name : String
  kind : ResourceKind
  deriving DecidableEq, Repr

namespace Target

/-- The canonical URL as text, by which modules are kept. -/
def key (t : Target) : String := t.url.toString

def stem (t : Target) : String :=
  match Text.splitLast? '.' t.name with
  | some (stem, _) => stem
  | none => t.name

end Target

/-- The value of a markup resource. -/
structure Fragment where
  name : String
  url : String
  content : String
  deriving DecidableEq, Repr

def Fragment.ofTarget (t : Target) (content : String) : Fragment := ⟨t.stem, t.key, content⟩

end AsyncModule
