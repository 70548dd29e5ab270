import AsyncModule.Command.Arguments
import AsyncModule.Command.Fetch
import AsyncModule.Command.Resolve

/-!
# AsyncModule.Command.Run

Carrying out a command line: its arguments, then the file of settings, then the command. Where
nothing else is given no server can be reached, and fetches finish as they were started.
-/

namespace AsyncModule.Command

def usage : List String :=
  ["Usage: steep [--config PATH] [-v] resolve [--base URL] [--from URL] [--json] SPECIFIER...",
    "       steep [--config PATH] [-v] fetch [--base URL] SPECIFIER..."]

def perform (s : Surroundings) (i : Invocation) (config : Config) (network : Network := .offline)
    (order : Machine.Order Answer := .asStarted) : Output :=
  match i.job with
  | .resolve base origin json => resolve (settings config base) s.url origin json i.specifiers
  | .fetch base => fetch (settings config base) s.url s.files i.specifiers network order

def run (s : Surroundings) (args : List String) (network : Network := .offline)
    (order : Machine.Order Answer := .asStarted) : Output :=
  match Invocation.ofArguments args with
  | .error .misuse => { errors := usage, exitCode := 2 }
  | .error .help => { lines := usage }
  | .error .version => { lines := ["steep 0.1.0"] }
  | .ok i =>
    match s.config i.config with
    | .error e => .failure e.message
    | .ok config => perform s i config network order

end AsyncModule.Command
