import AsyncModule.LoadError

/-!
# AsyncModule.Command.Output

What a command leaves behind: lines for the standard output and for errors, and an exit code.
-/

namespace AsyncModule.Command

structure Output where
  lines : List String := []
  errors : List String := []
  exitCode : Nat := 0
  deriving DecidableEq, Repr

def Output.failure (reason : String) : Output :=
  { errors := ["Error: " ++ reason], exitCode := 1 }

/-- One line for every success and one for every failure, each in the order of the results, and
if there are failures a line that counts them. -/
def Output.ofResults (verdict : String) (results : List (Except String String)) : Output :=
  let lines := results.filterMap fun
    | .ok line => some line
    | .error _ => none
  let errors := results.filterMap fun
    | .ok _ => none
    | .error reason => some ("error: " ++ reason)
  if errors.isEmpty then { lines }
  else
    { lines
      errors := errors ++
        ["Error: " ++ toString errors.length ++ " of " ++ toString results.length ++ verdict]
      exitCode := 1 }

end AsyncModule.Command
