import AsyncModule.LocalResources
import AsyncModule.Machine

/-!
# AsyncModule.Scenario

Scripted hosts: loaders driven by lists of actions, every one of which notes what came of it. An
action that fails ends the list it stands in. Values are written by number, in the order in which
they are first written.
-/

namespace AsyncModule.Scenario

/-- What can be seen of a loader at a glance. -/
structure Snapshot where
  state : BootstrapState
  base : Option Url
  localUrl : Option Url
  defining : Bool
  pending : Nat
  deferred : Nat
  inFlight : Nat
  modules : Nat
  /-- How many of the URLs asked for are in each status; `none` for those that are no modules. -/
  statuses : List (Option ModuleStatus × Nat)
  deriving Repr

inductive Note where
  | unit (url : String)
  | call (label : Data) (values : List ModuleValue)
  | errback (label : Data) (error : LoadError)
  | uncaught (reason : String)
  | requireFailed (error : LoadError)
  | configured (error : Option LoadError)
  | bootstrapped (error : Option LoadError)
  | resolved (result : Except LoadError Target)
  | status (status : Option ModuleStatus)
  | value (v : Option ModuleValue)
  | probe (s : Snapshot)
  | config (c : Config)
  | nothingPending
  | turn (t : Turn)
  | settled (idle : Bool)
  | unregistered (error : LoadError)

abbrev Program := Script Note

def loadedUrls {ν : Type} (journal : List (Event ν)) : List String :=
  (journal.reverse.filterMap fun
    | .load t _ => some t.key
    | _ => none).eraseDups

def Snapshot.ofView {ν : Type} (v : View ν) : Snapshot :=
  let statuses := (loadedUrls v.journal).map v.status
  { state := v.state
    base := v.baseUrl
    localUrl := v.localUrl
    defining := v.isDefining
    pending := v.pendingRequests
    deferred := v.deferredRequests
    inFlight := v.inFlight
    modules := v.moduleCount
    statuses := statuses.eraseDups.map fun s => (s, statuses.count s) }

/-- The values an event writes. -/
def writtenBy : Event Note → List ModuleValue
  | .note (.call _ values) => values
  | .note (.value (some v)) => [v]
  | _ => []

/-- The identities of values in the order in which they are first written. -/
def numbering (values : List ModuleValue) : List Nat := (values.map (·.id)).eraseDups

def written (journal : List (Event Note)) : List ModuleValue := journal.reverse.flatMap writtenBy

def fragmentData (f : Fragment) : Data :=
  .record [("name", .text f.name), ("url", .text f.url), ("content", .text f.content)]

def valueData (numbers : List Nat) (v : ModuleValue) : Data :=
  let id : Data := .int (numbers.idxOf v.id)
  match v.payload with
  | .fragment f => .record [("id", id), ("fragment", fragmentData f)]
  | .data d => .record [("id", id), ("v", d)]

/-- What a factory makes of its dependencies. -/
inductive Expr where
  | const (d : Data)
  /-- The sum of the dependencies that are whole numbers, and a number more. -/
  | sum (n : Int)
  /-- One of the dependencies itself. -/
  | pass (index : Option Nat)
  | list
  | fail (reason : String)
  | nothing

def produce (d : Data) : Program := .make (.data d) fun v => .finish (.value v)

def ModuleValue.asInt? (v : ModuleValue) : Option Int :=
  match v.payload with
  | .data d => d.asInt?
  | .fragment _ => none

def Expr.finish (values : List ModuleValue) : Expr → Program
  | const d => produce d
  | sum n => produce (.int ((values.filterMap ModuleValue.asInt?).foldl (· + ·) n))
  | pass index =>
    match index.bind (values[·]?) with
    | some v => .finish (.value v)
    | none => .finish .done
  | list =>
    .look fun view =>
      produce (.list (values.map (valueData (numbering (written view.journal)))))
  | fail reason => .finish (.error reason)
  | nothing => .finish .done

/-- An action: given what follows if it fails and what follows it, a program. -/
abbrev Action := (String → Program) → Program → Program

/-- The texts of an error, outermost first, as one. -/
def reason (texts : List String) : String := Text.joinWith ": " texts

def perform (actions : List Action) (failed : String → Program) (next : Program) : Program :=
  actions.foldr (fun a next => a failed next) next

def body (actions : List Action) : Program :=
  perform actions (fun reason => .finish (.error reason)) (.finish .done)

/-- Actions whose failure nobody hears of but the journal. -/
def guarded (actions : List Action) : Program :=
  perform actions (fun reason => .note (.uncaught reason) (.finish .done)) (.finish .done)

def unit (url : String) (actions : List Action) : Program := .note (.unit url) (body actions)

def errback (label : Data) (actions : List Action) (e : LoadError) : Program :=
  .note (.errback label e) (guarded actions)

namespace Action

def require (dependencies : List String) (label : Data) (actions : List Action)
    (onError : Option (List Action)) : Action := fun _ next =>
  .require dependencies (fun values => .note (.call label values) (body actions))
    (onError.map (errback label)) next

def requireFrom (base : String) (dependencies : List String) (label : Data)
    (actions : List Action) : Action := fun _ next =>
  Script.requireFrom base dependencies
    (fun values => .note (.call label values) (body actions)) fun
      | some e => .note (.requireFailed e) next
      | none => next

def define (dependencies : List String) (label : Data) (actions : List Action) (value : Expr)
    (onError : Option (List Action)) : Action := fun _ next =>
  .define dependencies
    (fun values =>
      .note (.call label values)
        (perform actions (fun reason => .finish (.error reason)) (value.finish values)))
    (onError.map (errback label)) next

def configure (base : String) : Action := fun _ next =>
  .configure base fun e => .note (.configured e) next

def bootstrap (entry : String) (main : Option String) : Action := fun _ next =>
  .bootstrap entry main fun e => .note (.bootstrapped e) next

def resolve (specifier : String) : Action := fun _ next =>
  .look fun view => .note (.resolved (view.resolve specifier)) next

def status (url : String) : Action := fun _ next =>
  .look fun view => .note (.status (view.status url)) next

def value (url : String) : Action := fun _ next =>
  .look fun view => .note (.value (view.value url)) next

def probe : Action := fun _ next =>
  .look fun view => .note (.probe (.ofView view)) next

def config : Action := fun _ next =>
  .look fun view => .note (.config view.config) next

def throw (texts : List String) : Action := fun failed _ => failed (reason texts)

def deliver (url : String) (result : Target → Fetched Program) : Action := fun _ next =>
  .deliver url result fun found => if found then next else .note .nothingPending next

def turn : Action := fun _ next => .turn fun t => .note (.turn t) next

def settle : Action := fun _ next => .settle fun idle => .note (.settled idle) next

end Action

def act (fuel : Nat) (l : Loader Note) (a : Action) : Loader Note :=
  (Machine.run fuel (.start l (guarded [a]))).loader

/-- What is new in a journal that had `n` events, oldest first. -/
def news (n : Nat) (journal : List (Event Note)) : List (Event Note) :=
  (journal.take (journal.length - n)).reverse

/-- Run actions one after the other: after each, the news and a snapshot. -/
def play (fuel : Nat) (l : Loader Note) : List Action →
    List (List (Event Note) × Snapshot) × Loader Note
  | [] => ([], l)
  | a :: rest =>
    let l' := act fuel l a
    let (steps, last) := play fuel l' rest
    ((news l.journal.length l'.journal, .ofView (l'.view none)) :: steps, last)

/-- Resources from a table, available at once; a URL that is not in it stays open. -/
def tableResources (table : List (String × (Target → Fetched Program))) (t : Target) :
    Option (Fetched Program) := (table.lookup t.key).map (· t)

/-- Register units, noting those that cannot be, and serve them with the files of the machine. -/
def localResources (units : List (String × Program)) (files : FileTree) :
    List Note × LocalResources Note :=
  units.foldl
    (fun (notes, resources) (url, unit) =>
      match resources.register url unit with
      | .ok resources => (notes, resources)
      | .error e => (notes ++ [.unregistered e], resources))
    ([], ⟨[], files⟩)

end AsyncModule.Scenario
