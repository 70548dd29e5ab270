import AsyncModule.Text

/-!
# AsyncModule.Command.Arguments

Command lines. Options may stand before and behind other words, with their values behind them or
behind an equals sign; two hyphens end the options. No option is given twice in one place, while
those that belong to no command may be given once before and once behind its name.
-/

namespace AsyncModule.Command

inductive Job where
  /-- Say what each of them names, for a resource at `origin` if one is given. -/
  | resolve (base origin : Option String) (json : Bool)
  /-- Load each of them. -/
  | fetch (base : Option String)
  deriving DecidableEq, Repr

/-- A command line that makes sense. -/
structure Invocation where
  config : Option String
  /-- Whether activity is to be logged; nothing that a command prints depends on it. -/
  verbose : Bool
  job : Job
  specifiers : List String
  deriving DecidableEq, Repr

/-- Why a command line is not carried out. -/
inductive Stop where
  | misuse
  | help
  | version
  deriving DecidableEq, Repr

structure Switch where
  name : String
  letter : Option Char
  takesValue : Bool
  deriving DecidableEq, Repr

inductive Argument where
  /-- Two hyphens, behind which there are no options. -/
  | terminator
  | long (name : String) (value : Option String)
  | short (letters : List Char)
  | word (text : String)
  deriving DecidableEq, Repr

def splitValue (cs : List Char) : String × Option String :=
  let name := String.ofList (cs.takeWhile (· != '='))
  match cs.dropWhile (· != '=') with
  | [] => (name, none)
  | _ :: value => (name, some (String.ofList value))

def Argument.ofText (s : String) : Argument :=
  match s.toList with
  | ['-', '-'] => .terminator
  | '-' :: '-' :: cs =>
    let (name, value) := splitValue cs
    .long name value
  | ['-'] => .word s
  | '-' :: cs => .short cs
  | _ => .word s

structure Given where
  values : List (String × String) := []
  flags : List String := []
  words : List String := []
  deriving DecidableEq, Repr

namespace Given

def raise (g : Given) (name : String) : Except Stop Given :=
  if name == "help" then .error .help
  else if name == "version" then .error .version
  else if g.flags.contains name then .error .misuse
  else .ok { g with flags := g.flags ++ [name] }

def assign (g : Given) (name value : String) : Except Stop Given :=
  if (g.values.lookup name).isSome || (name == "config" && value.isEmpty) then .error .misuse
  else .ok { g with values := g.values ++ [(name, value)] }

def raiseLetters (g : Given) (switches : List Switch) : List Char → Except Stop Given
  | [] => .ok g
  | c :: cs =>
    match switches.find? (·.letter == some c) with
    | none => .error .misuse
    | some s =>
      match g.raise s.name with
      | .error e => .error e
      | .ok g => g.raiseLetters switches cs

end Given

/-- Read arguments, up to the first word if that is the name of a command; what is left is the
word and what follows it. -/
def scan (switches : List Switch) (named : Bool) (g : Given) :
    List String → Except Stop (Given × List String)
  | [] => .ok (g, [])
  | a :: rest =>
    match Argument.ofText a with
    | .terminator =>
      if named then .error .misuse else .ok ({ g with words := g.words ++ rest }, [])
    | .word w =>
      if named then .ok (g, a :: rest)
      else scan switches named { g with words := g.words ++ [w] } rest
    | .short letters =>
      match g.raiseLetters switches letters with
      | .error e => .error e
      | .ok g => scan switches named g rest
    | .long name value =>
      match switches.find? (·.name == name) with
      | none => .error .misuse
      | some s =>
        if s.takesValue then
          match value, rest with
          | some v, rest =>
            match g.assign name v with
            | .error e => .error e
            | .ok g => scan switches named g rest
          | none, [] => .error .misuse
          | none, b :: rest =>
            match Argument.ofText b with
            | .word v =>
              match g.assign name v with
              | .error e => .error e
              | .ok g => scan switches named g rest
            | _ => .error .misuse
        else if value.isSome then .error .misuse
        else
          match g.raise name with
          | .error e => .error e
          | .ok g => scan switches named g rest

/-- The options that belong to no command. -/
def commonSwitches : List Switch :=
  [⟨"config", none, true⟩, ⟨"verbose", some 'v', false⟩, ⟨"help", some 'h', false⟩]

def scanCommand (own : List Switch) (args : List String) : Except Stop Given :=
  match scan (commonSwitches ++ own) false {} args with
  | .error e => .error e
  | .ok (g, _) => if g.words.isEmpty then .error .misuse else .ok g

def invocation (before behind : Given) (job : Job) : Invocation :=
  { config := (behind.values.lookup "config").or (before.values.lookup "config")
    verbose := before.flags.contains "verbose" || behind.flags.contains "verbose"
    job
    specifiers := behind.words }

def helpTopics : List (List String) := [[], ["resolve"], ["fetch"], ["help"]]

def Invocation.ofArguments (args : List String) : Except Stop Invocation :=
  match scan (commonSwitches ++ [⟨"version", some 'V', false⟩]) true {} args with
  | .error e => .error e
  | .ok (_, []) => .error .misuse
  | .ok (before, name :: rest) =>
    if name == "resolve" then
      match scanCommand [⟨"base", none, true⟩, ⟨"from", none, true⟩, ⟨"json", none, false⟩] rest with
      | .error e => .error e
      | .ok g => .ok <| invocation before g <|
          .resolve (g.values.lookup "base") (g.values.lookup "from") (g.flags.contains "json")
    else if name == "fetch" then
      match scanCommand [⟨"base", none, true⟩] rest with
      | .error e => .error e
      | .ok g => .ok (invocation before g (.fetch (g.values.lookup "base")))
    else if name == "help" && helpTopics.contains rest then .error .help
    else .error .misuse

end AsyncModule.Command
