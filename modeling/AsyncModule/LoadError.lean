import AsyncModule.Text

/-!
# AsyncModule.LoadError

Everything that can go wrong between a specifier and a module value.

* `rootCause_eq_self_iff` — exactly the errors that blame no dependency are their own root cause.
-/

namespace AsyncModule

/-- Why a request or a module failed. -/
inductive LoadError where
  | unresolved (specifier reason : String)
  | fetch (url reason : String)
  | execution (url reason : String)
  /-- A unit ran without leaving a value. -/
  | nonConforming (url : String)
  | factory (reason : String)
  /-- A definition would wait for itself; the chain begins and ends with it. -/
  | cycle (chain : List String)
  /-- A module that was waited for failed. -/
  | dependency (url : String) (source : LoadError)
  deriving DecidableEq, Repr, Inhabited

namespace LoadError

def message : LoadError → String
  | unresolved specifier reason => "Cannot resolve '" ++ specifier ++ "': " ++ reason
  | fetch url reason => "Failed to load '" ++ url ++ "': " ++ reason
  | execution url reason => "Failed to execute '" ++ url ++ "': " ++ reason
  | nonConforming url => "Module '" ++ url ++ "' did not produce a value"
  | factory reason => "Factory failed: " ++ reason
  | cycle chain => "Circular dependency detected: " ++ Text.joinWith " -> " chain
  | dependency url source => "Dependency '" ++ url ++ "' failed: " ++ source.message

def rootCause : LoadError → LoadError
  | dependency _ source => source.rootCause
  | error => error

/-- The errors an error blames, from the nearest to the root cause. -/
def sources : LoadError → List LoadError
  | dependency _ source => source :: source.sources
  | _ => []

def IsDependency : LoadError → Prop
  | dependency _ _ => True
  | _ => False

theorem not_isDependency_rootCause (e : LoadError) : ¬ e.rootCause.IsDependency := by
  induction e with
  | dependency _ _ ih => exact ih
  | _ => simp [rootCause, IsDependency]

theorem rootCause_eq_self_iff (e : LoadError) : e.rootCause = e ↔ ¬ e.IsDependency := by
  constructor
  · intro h
    rw [← h]
    exact not_isDependency_rootCause e
  · intro h
    cases e with
    | dependency => exact absurd trivial h
    | _ => rfl

end LoadError

end AsyncModule
