import AsyncModule.Command.Output
import AsyncModule.ConfigFile
import AsyncModule.Context
import AsyncModule.Text.Quoted

/-!
# AsyncModule.Command.Resolve

The command that says what specifiers name, without loading anything.
-/

namespace AsyncModule.Command

def settings (config : Config) (base : Option String) : Config :=
  match base with
  | some url => config.withBaseUrl url
  | none => config

/-- Resolve specifiers for a resource at `origin`, or else for one in the base directory: that of
the settings, or else the working directory. -/
def resolveAll (config : Config) (workingDirectory : Url) (origin : Option String)
    (specifiers : List String) : Except LoadError (List (Except LoadError Target)) := do
  let base ← match config.baseUrl with
    | some url => Url.asDirectory url
    | none => pure workingDirectory
  let ctx ← match origin with
    | some url => Context.parse url
    | none => Context.ofUrl base
  let resolver : Resolver := ⟨some base, config⟩
  pure (specifiers.map fun s => resolver.resolve s ctx)

def targetObject (specifier : String) (t : Target) : String :=
  let field (name value : String) : String :=
    Text.Quoted.encode name ++ ":" ++ Text.Quoted.encode value
  "\x7b" ++ Text.joinWith ","
    [field "specifier" specifier, field "url" t.key, field "kind" t.kind.toString] ++ "\x7d"

def targetLine (json : Bool) (specifier : String) (t : Target) : String :=
  if json then targetObject specifier t else t.kind.toString ++ "\t" ++ t.key

def resolve (config : Config) (workingDirectory : Url) (origin : Option String) (json : Bool)
    (specifiers : List String) : Output :=
  match resolveAll config workingDirectory origin specifiers with
  | .error e => .failure e.message
  | .ok results =>
    .ofResults " specifiers failed to resolve" <|
      (specifiers.zip results).map fun
        | (s, .ok t) => .ok (targetLine json s t)
        | (_, .error e) => .error e.message

end AsyncModule.Command
