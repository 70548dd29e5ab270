import AsyncModule.Context
import AsyncModule.Value

/-!
# AsyncModule.Journal

What happened in a run, as a list of events with the newest first. The journal is the whole
history that programs running on a loader can see, and what statements about runs speak of.
-/

namespace AsyncModule

/-- A request is known by the place it is kept at and by its serial number. A place is used again
once its request is gone; a serial number never is. -/
structure RequestId where
  key : Nat
  serial : Nat
  deriving DecidableEq, Repr

/-- On whose behalf a resource is loaded. -/
inductive LoadRole where
  /-- A dependency of some request; what it yields becomes a module. -/
  | module
  /-- The resource that a loader starts with, which is run and defines nothing. -/
  | main
  deriving DecidableEq, Repr

/-- A condition worth a line in a log. -/
inductive Report where
  | extraDefinition (url : String)
  | unhandled (error : LoadError)
  | mainIsMarkup (url : String)
  | mainFailed (error : LoadError)
  | mainNotLoaded (error : LoadError)
  deriving DecidableEq, Repr

namespace Report

def message : Report → String
  | extraDefinition _ => "code unit defined more than once; extra definition is anonymous"
  | unhandled _ => "request failed with no error handler"
  | mainIsMarkup _ => "main resource is a markup fragment; nothing to execute"
  | mainFailed _ => "main resource failed"
  | mainNotLoaded _ => "main resource failed to load"

/-- Whether a report is an error rather than a warning. -/
def isError : Report → Bool
  | mainFailed _ => true
  | mainNotLoaded _ => true
  | _ => false

end Report

/-- How a script ends. -/
inductive Outcome where
  | done
  | value (v : ModuleValue)
  | error (reason : String)
  deriving Repr

namespace Outcome

/-- How a callback fails by ending so: by an error of its own, or by giving no value to the module
that it was to define. -/
def failure (definition : Option String) : Outcome → Option LoadError
  | error reason => some (.factory reason)
  | value _ => none
  | done => definition.map LoadError.nonConforming

end Outcome

/-- One thing that happened; `ν` is what programs may note themselves. -/
inductive Event (ν : Type) where
  /-- A request is made, by a definition that is bound to a module or by another call. -/
  | submitted (request : RequestId) (dependencies : List String) (definition : Option String)
  /-- The dependencies of a request are about to be resolved in a context. -/
  | linked (request : RequestId) (resolver : Resolver) (ctx : Context)
  | load (target : Target) (role : LoadRole)
  /-- A finished fetch was taken up. -/
  | arrived (target : Target) (role : LoadRole)
  /-- A unit or script starts to run. -/
  | entered (target : Target) (role : LoadRole)
  /-- The callback or factory of a request starts. -/
  | called (request : RequestId) (values : List ModuleValue)
  /-- The callback or factory of a request ends. -/
  | returned (request : RequestId) (outcome : Outcome)
  /-- The failure of a request is reported. -/
  | failed (request : RequestId) (error : LoadError)
  /-- The error handler of a request starts. -/
  | handled (request : RequestId) (error : LoadError)
  | report (r : Report)
  | note (n : ν)
  deriving Repr

end AsyncModule
