import AsyncModule.Command.Output
import AsyncModule.LocalResources
import AsyncModule.Machine

/-!
# AsyncModule.Command.Fetch

The command that loads what specifiers name. All of them are required at once, outside of any
unit, and every finished fetch is taken up before their outcomes are looked at. What servers answer
and in which order fetches finish is given.
-/

namespace AsyncModule.Command

/-- What came of a specifier, by its place on the command line. -/
structure Answer where
  index : Nat
  result : Except LoadError ModuleValue

/-- Require what a specifier names and note what comes of it. -/
def ask (index : Nat) (specifier : String) (next : Script Answer) : Script Answer :=
  .require [specifier]
    (fun values =>
      match values with
      | v :: _ => .note ⟨index, .ok v⟩ (.finish .done)
      | [] => .finish .done)
    (some fun e => .note ⟨index, .error e⟩ (.finish .done)) next

def askAll (specifiers : List String) : Script Answer :=
  specifiers.zipIdx.foldr (fun (s, i) next => ask i s next) (.settle fun _ => .finish .done)

/-- No specifier takes more steps than this many, and neither does a main resource. -/
def stepsPerSpecifier : Nat := 32

/-- Load what specifiers name, with bare ones read in the base directory of the settings or else
in the working directory; the answer is the loader afterwards. -/
def fetchAll (config : Config) (workingDirectory : Url) (files : FileTree)
    (specifiers : List String) (network : Network := .offline)
    (order : Machine.Order Answer := .asStarted) : Except LoadError (Loader Answer) := do
  let config := match config.baseUrl with
    | some _ => config
    | none => config.withBaseUrl workingDirectory.toString
  let resources : LocalResources Answer := ⟨[], files⟩
  let l ← Loader.ofConfig config fun t => some (resources.load t network)
  let fuel := stepsPerSpecifier * (specifiers.length + 2)
  pure (Machine.runIn order fuel (.start l (askAll specifiers))).loader

def answer? (journal : List (Event Answer)) (index : Nat) :
    Option (Except LoadError ModuleValue) :=
  journal.findSome? fun
    | .note a => if a.index == index then some a.result else none
    | _ => none

def valueLine (v : ModuleValue) : String :=
  match v.payload with
  | .fragment f =>
    f.name ++ "\t" ++ f.url ++ "\t" ++ toString f.content.utf8ByteSize ++ " bytes"
  | .data _ => "module"

def fetch (config : Config) (workingDirectory : Url) (files : FileTree)
    (specifiers : List String) (network : Network := .offline)
    (order : Machine.Order Answer := .asStarted) : Output :=
  match fetchAll config workingDirectory files specifiers network order with
  | .error e => .failure e.message
  | .ok l =>
    .ofResults " requests failed" <|
      specifiers.zipIdx.map fun (s, i) =>
        match answer? l.journal i with
        | some (.ok v) => .ok (valueLine v)
        | some (.error e) => .error (s ++ ": " ++ e.message)
        | none => .error (s ++ ": request never completed")

end AsyncModule.Command
