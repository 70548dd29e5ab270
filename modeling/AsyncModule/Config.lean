import AsyncModule.Data
import AsyncModule.Text

/-!
# AsyncModule.Config

The settings of a loader, and how they are read from data.
-/

namespace AsyncModule

structure Config where
  /-- Where bare specifiers are resolved, read as a directory. -/
  baseUrl : Option String := none
  /-- The resource that a loader starts with. -/
  main : Option String := none
  /-- Given to names without an extension. -/
  defaultExtension : String := "js"
  markupExtensions : List String := ["html"]
  /-- Schemes that make `scheme://` a complete URL. -/
  networkSchemes : List String := ["http", "https", "file"]
  deriving DecidableEq, Repr

namespace Config

instance : Inhabited Config := ⟨{}⟩

def withBaseUrl (c : Config) (url : String) : Config := { c with baseUrl := some url }

def withMain (c : Config) (main : String) : Config := { c with main := some main }

def isMarkup (c : Config) (name : String) : Bool :=
  match Text.splitLast? '.' name with
  | none => false
  | some (_, ext) => c.markupExtensions.any (Text.sameLetters · ext)

def isNetworkScheme (c : Config) (scheme : String) : Bool :=
  c.networkSchemes.any (Text.sameLetters · scheme)

/-- A text or nothing; `none` for data of another kind. -/
def optionalText? : Data → Option (Option String)
  | .null => some none
  | .text s => some (some s)
  | _ => none

def setting {α : Type} (read : Data → Option α) (missing : α) : Option Data → Option α
  | none => some missing
  | some d => read d

def ofSettings (baseUrl main extension markup network : Option Data) : Option Config := do
  let base : Config := {}
  pure
    { baseUrl := ← setting optionalText? base.baseUrl baseUrl
      main := ← setting optionalText? base.main main
      defaultExtension := ← setting Data.asText? base.defaultExtension extension
      markupExtensions := ← setting Data.asTexts? base.markupExtensions markup
      networkSchemes := ← setting Data.asTexts? base.networkSchemes network }

/-- Read settings from a record by name, or from a list by position; other fields of a record
are ignored, while a list longer than the settings is refused. -/
def ofData? : Data → Option Config
  | d@(.record _) =>
    ofSettings (d.field? "base_url") (d.field? "main") (d.field? "default_extension")
      (d.field? "markup_extensions") (d.field? "network_schemes")
  | .list items =>
    if 5 < items.length then none
    else ofSettings items[0]? items[1]? items[2]? items[3]? items[4]?
  | _ => none

end Config

end AsyncModule
