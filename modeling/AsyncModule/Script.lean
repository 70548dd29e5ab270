import AsyncModule.Journal

/-!
# AsyncModule.Script

Programs that run on a loader: code units, scripts of markup, callbacks, factories and error
handlers. A script is the tree of what it asks of the loader; where it gets an answer, it goes on
by a function of the answer, so that any terminating program is a script. Scripts share state
through what they note in the journal and read back from it.
-/

namespace AsyncModule

/-- How far a loader is in having a context for requests made outside of any unit. -/
inductive BootstrapState where
  | uninitialized
  | resolving
  | established
  deriving DecidableEq, Repr

inductive ModuleStatus where
  /-- Heard of, but not asked for. -/
  | known
  | loading
  | ready
  | failed
  deriving DecidableEq, Repr

/-- What one turn found: a finished fetch, none in flight, or only unfinished ones. -/
inductive Turn where
  | completed
  | idle
  | blocked
  deriving DecidableEq, Repr

/-- What a fetch yields; `σ` is the type of scripts. -/
inductive Fetched (σ : Type) where
  | failed (error : LoadError)
  | code (unit : σ)
  | markup (fragment : Fragment) (script : Option σ)
  deriving Inhabited

/-- All that a program can see of a loader. -/
structure View (ν : Type) where
  state : BootstrapState
  config : Config
  /-- Where bare specifiers are resolved. -/
  baseUrl : Option Url
  /-- Where the unit or callback that looks was fetched. -/
  localUrl : Option Url
  /-- Whether a definition would become the value of the unit that looks. -/
  isDefining : Bool
  resolve : String → Except LoadError Target
  status : String → Option ModuleStatus
  value : String → Option ModuleValue
  pendingRequests : Nat
  deferredRequests : Nat
  inFlight : Nat
  moduleCount : Nat
  journal : List (Event ν)

inductive Script (ν : Type) where
  | finish (outcome : Outcome)
  | require (dependencies : List String) (callback : List ModuleValue → Script ν)
      (errback : Option (LoadError → Script ν)) (next : Script ν)
  | define (dependencies : List String) (factory : List ModuleValue → Script ν)
      (errback : Option (LoadError → Script ν)) (next : Script ν)
  | configure (base : String) (next : Option LoadError → Script ν)
  | bootstrap (entry : String) (main : Option String) (next : Option LoadError → Script ν)
  /-- Take up the next finished fetch. -/
  | turn (next : Turn → Script ν)
  /-- Take up finished fetches as long as there are any; the answer is whether none is left. -/
  | settle (next : Bool → Script ν)
  /-- Finish the oldest open fetch of a URL; the answer is whether there is one. -/
  | deliver (url : String) (result : Target → Fetched (Script ν)) (next : Bool → Script ν)
  /-- Make a value. -/
  | make (payload : Payload) (next : ModuleValue → Script ν)
  | look (next : View ν → Script ν)
  | note (n : ν) (next : Script ν)

namespace Script

variable {ν : Type}

instance : Inhabited (Script ν) := ⟨.finish .done⟩

/-- Set the default base, then require; a base that cannot be one stops it. -/
def requireFrom (base : String) (dependencies : List String)
    (callback : List ModuleValue → Script ν) (next : Option LoadError → Script ν) : Script ν :=
  .configure base fun
    | some e => next (some e)
    | none => .require dependencies callback none (next none)

end Script

end AsyncModule
