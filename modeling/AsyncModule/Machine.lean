import AsyncModule.Loader

/-!
# AsyncModule.Machine

Running programs on a loader. The machine keeps a stack of tasks: programs that are running, each
with what its end means, and the work of the loader between them. One step does one thing to the
topmost task and never runs long, so every moment at which a program can look at the loader is a
state of the machine.
-/

namespace AsyncModule

/-- What the end of a program means. -/
inductive Ending (ν : Type) where
  /-- Nothing: it was run for its own sake. -/
  | plain
  /-- A unit ends, that was fetched as a module. -/
  | unit (target : Target)
  /-- The script of a markup resource ends; the fragment becomes the module's value. -/
  | script (target : Target) (fragment : Fragment)
  | main (target : Target)
  /-- The callback or factory of a request ends. -/
  | callback (request : RequestId) (r : Request ν)
  /-- An error handler ends, whereupon the module that its request was to define fails. -/
  | errback (definition : Option String) (e : LoadError)

inductive Task (ν : Type) where
  | body (frame : Option Frame) (script : Script ν) (ending : Ending ν)
  /-- A program that waits for finished fetches to be taken up. -/
  | settling (frame : Option Frame) (next : Bool → Script ν) (ending : Ending ν)
  /-- Work off the worklist, unless that is under way. -/
  | dispatch
  | draining

/-- A loader and the stack of tasks on it, topmost first. -/
structure Machine (ν : Type) where
  loader : Loader ν
  stack : List (Task ν)

namespace Machine

variable {ν : Type}

open Loader

/-- Run the error handler of a request whose failure has been reported. -/
def handle (l : Loader ν) (id : RequestId) (r : Request ν) (e : LoadError)
    (errback : LoadError → Script ν) (definition : Option String) : Loader ν × List (Task ν) :=
  (l.record (.handled id e),
    [.body (some (.callback r.context)) (errback e) (.errback definition e)])

/-- Fail a module; the handler of the definition dropped with it runs. -/
def failModule (l : Loader ν) (url : String) (e : LoadError) : Loader ν × List (Task ν) :=
  match l.failModule url e with
  | (none, l) => (l, [])
  | (some (id, r), l) =>
    match r.errback with
    | some errback => handle l id r e errback none
    | none =>
      if r.definitionUrl.isSome then (l, []) else (l.record (.report (.unhandled e)), [])

def failDefinition (l : Loader ν) (definition : Option String) (e : LoadError) :
    Loader ν × List (Task ν) :=
  match definition with
  | some url => failModule l url e
  | none => (l, [])

def report (l : Loader ν) (id : RequestId) (r : Request ν) (e : LoadError) :
    Loader ν × List (Task ν) :=
  let l := l.record (.failed id e)
  match r.errback with
  | some errback => handle l id r e errback r.definitionUrl
  | none =>
    match r.definitionUrl with
    | some url => failModule l url e
    | none => (l.record (.report (.unhandled e)), [])

def fire (l : Loader ν) (id : RequestId) : Loader ν × List (Task ν) :=
  match l.requests.get? id with
  | none => (l, [])
  | some r =>
    let l := record { l with requests := l.requests.erase id } (.called id r.values)
    (l, [.body (some (.callback r.context)) (r.callback r.values) (.callback id r)])

def failRequest (l : Loader ν) (id : RequestId) (e : LoadError) : Loader ν × List (Task ν) :=
  match l.requests.get? id with
  | none => (l, [])
  | some r => report (l.withdraw id r) id r e

/-- Fill a slot, and run the callback once no slot is empty. -/
def fill (l : Loader ν) (id : RequestId) (slot : Nat) (v : ModuleValue) :
    Loader ν × List (Task ν) :=
  match l.requests.get? id with
  | none => (l, [])
  | some r =>
    let l : Loader ν := { l with requests := l.requests.modify id (·.fill slot v) }
    if (r.fill slot v).isSatisfied then fire l id else (l, [])

def process (l : Loader ν) : Step → Loader ν × List (Task ν)
  | .fill id slot v => fill l id slot v
  | .fire id => fire l id
  | .fail id e => failRequest l id e

/-- A callback has ended; its value becomes that of the module that it was to define. -/
def concludeCallback (l : Loader ν) (id : RequestId) (r : Request ν) (o : Outcome) :
    Loader ν × List (Task ν) :=
  let l := l.record (.returned id o)
  match o.failure r.definitionUrl with
  | some e => report l id r e
  | none =>
    match r.definitionUrl, o with
    | some url, .value v => (l.readyModule url v, [])
    | _, _ => (l, [])

def concludeUnit (l : Loader ν) (t : Target) (defined : Bool) :
    Outcome → Loader ν × List (Task ν)
  | .error reason => failModule l t.key (.execution t.key reason)
  | _ => if defined then (l, []) else failModule l t.key (.nonConforming t.key)

def readyFragment (l : Loader ν) (t : Target) (fragment : Fragment) : Loader ν :=
  let (v, l) := l.make (.fragment fragment)
  l.readyModule t.key v

def concludeScript (l : Loader ν) (t : Target) (fragment : Fragment) :
    Outcome → Loader ν × List (Task ν)
  | .error reason => failModule l t.key (.execution t.key reason)
  | _ => (readyFragment l t fragment, [])

def concludeMain (l : Loader ν) (t : Target) : Outcome → Loader ν
  | .error reason => (l.record (.report (.mainFailed (.execution t.key reason)))).finishMain t
  | _ => l.finishMain t

def hasDefined : Option Frame → Bool
  | some (.unit _ _ _ defined) => defined
  | _ => false

def conclude (l : Loader ν) (frame : Option Frame) (o : Outcome) :
    Ending ν → Loader ν × List (Task ν)
  | .plain => (l, [])
  | .unit t => concludeUnit l t (hasDefined frame) o
  | .script t fragment => concludeScript l t fragment o
  | .main t => (concludeMain l t o, [])
  | .callback id r => concludeCallback l id r o
  | .errback definition e => failDefinition l definition e

def execute (l : Loader ν) (t : Target) (role : LoadRole) (binds : Bool) (ctx : Context)
    (s : Script ν) (ending : Ending ν) : Loader ν × List (Task ν) :=
  (l.record (.entered t role), [.body (some (.unit t.key ctx binds false)) s ending])

def completeModule (l : Loader ν) (t : Target) :
    Fetched (Script ν) → Loader ν × List (Task ν)
  | .failed e => failModule l t.key e
  | .code s =>
    match Context.ofUrl t.url with
    | .error e => failModule l t.key e
    | .ok ctx => execute l t .module true ctx s (.unit t)
  | .markup fragment none => (readyFragment l t fragment, [])
  | .markup fragment (some s) =>
    match Context.ofUrl t.url with
    | .error e => failModule l t.key e
    | .ok ctx => execute l t .module false ctx s (.script t fragment)

def completeMain (l : Loader ν) (t : Target) :
    Fetched (Script ν) → Loader ν × List (Task ν)
  | .failed e => ((l.record (.report (.mainNotLoaded e))).finishMain t, [])
  | .code s =>
    match Context.ofUrl t.url with
    | .error e => ((l.record (.report (.mainFailed e))).finishMain t, [])
    | .ok ctx => execute l t .main false ctx s (.main t)
  | .markup _ _ => ((l.record (.report (.mainIsMarkup t.key))).finishMain t, [])

def complete (l : Loader ν) (f : Fetch ν) (result : Fetched (Script ν)) :
    Loader ν × List (Task ν) :=
  let l := l.record (.arrived f.target f.role)
  match f.role with
  | .module => completeModule l f.target result
  | .main => completeMain l f.target result

/-- Take up the next finished fetch, if there is one; what is to be done on its account comes
before the worklist. -/
def takeUp (l : Loader ν) : Turn × Loader ν × List (Task ν) :=
  match l.fetches.take with
  | (none, fetches) =>
    (if fetches.inFlight.isEmpty then .idle else .blocked, { l with fetches }, [])
  | (some (f, result), fetches) =>
    let (l, tasks) := complete { l with fetches } f result
    (.completed, l, tasks ++ [.dispatch])

/-- Go on after a change of contexts; the worklist comes first if deferred requests were linked. -/
def afterChange (frame : Option Frame) (next : Option LoadError → Script ν) (ending : Ending ν) :
    Except LoadError Bool × Loader ν → Loader ν × List (Task ν)
  | (.error e, l) => (l, [.body frame (next (some e)) ending])
  | (.ok true, l) => (l, [.dispatch, .body frame (next none) ending])
  | (.ok false, l) => (l, [.body frame (next none) ending])

/-- Do what a script asks for first: the loader afterwards, and the tasks that take its place. -/
def perform (l : Loader ν) (frame : Option Frame) (ending : Ending ν) :
    Script ν → Loader ν × List (Task ν)
  | .finish o => conclude l frame o ending
  | .require dependencies callback errback next =>
    (l.submit frame dependencies callback errback none, [.dispatch, .body frame next ending])
  | .define dependencies factory errback next =>
    let (definition, frame', l) := l.bindDefinition frame
    (l.submit frame dependencies factory errback definition,
      [.dispatch, .body frame' next ending])
  | .configure base next => afterChange frame next ending (l.configure base)
  | .bootstrap entry main next => afterChange frame next ending (l.boot entry main)
  | .turn next =>
    let (t, l, tasks) := takeUp l
    (l, tasks ++ [.body frame (next t) ending])
  | .settle next => (l, [.settling frame next ending])
  | .deliver url result next =>
    match l.fetches.deliver url result with
    | some fetches => ({ l with fetches }, [.body frame (next true) ending])
    | none => (l, [.body frame (next false) ending])
  | .make payload next =>
    let (v, l) := l.make payload
    (l, [.body frame (next v) ending])
  | .look next => (l, [.body frame (next (l.view frame)) ending])
  | .note n next => (l.record (.note n), [.body frame next ending])

def advance (l : Loader ν) : Task ν → Loader ν × List (Task ν)
  | .body frame script ending => perform l frame ending script
  | .settling frame next ending =>
    match takeUp l with
    | (.completed, l, tasks) => (l, tasks ++ [.settling frame next ending])
    | (t, l, _) => (l, [.body frame (next (t == .idle)) ending])
  | .dispatch => if l.dispatching then (l, []) else ({ l with dispatching := true }, [.draining])
  | .draining =>
    match l.worklist with
    | [] => ({ l with dispatching := false }, [])
    | s :: rest =>
      let (l, tasks) := process { l with worklist := rest } s
      (l, tasks ++ [.draining])

def step (m : Machine ν) : Machine ν :=
  match m.stack with
  | [] => m
  | task :: rest =>
    let (l, tasks) := advance m.loader task
    ⟨l, tasks ++ rest⟩

def isDone (m : Machine ν) : Bool := m.stack.isEmpty

/-- Go on for at most `fuel` steps. -/
def run : Nat → Machine ν → Machine ν
  | 0, m => m
  | fuel + 1, m => if m.isDone then m else run fuel m.step

/-- Whether a task looks next for a fetch that has finished. -/
def looksForFetch : Task ν → Bool
  | .body _ (.turn _) _ => true
  | .settling _ _ _ => true
  | _ => false

/-- In which order fetches finish, as far as it shows: whenever one is looked for, those to look at
are put in some order. It may depend on the journal, and so on all that has happened. -/
structure Order (ν : Type) where
  queue : Machine ν → List Nat
  perm : ∀ m, (queue m).Perm m.loader.fetches.queue

namespace Order

/-- Fetches finish in the order in which they were started. -/
def asStarted : Order ν := ⟨fun m => m.loader.fetches.queue, fun _ => .refl _⟩

def arrange (o : Order ν) (m : Machine ν) : Machine ν :=
  { m with loader := { m.loader with fetches := { m.loader.fetches with queue := o.queue m } } }

def step (o : Order ν) (m : Machine ν) : Machine ν :=
  if m.stack.head?.any looksForFetch then (o.arrange m).step else m.step

end Order

/-- Go on for at most `fuel` steps, while fetches finish in an order. -/
def runIn (o : Order ν) : Nat → Machine ν → Machine ν
  | 0, m => m
  | fuel + 1, m => if m.isDone then m else runIn o fuel (o.step m)

@[simp] theorem Order.step_asStarted (m : Machine ν) : Order.asStarted.step m = m.step := by
  unfold Order.step
  split <;> rfl

@[simp] theorem runIn_asStarted (fuel : Nat) (m : Machine ν) :
    runIn .asStarted fuel m = run fuel m := by
  induction fuel generalizing m with
  | zero => rfl
  | succ fuel ih => simp only [runIn, run, Order.step_asStarted, ih]

/-- A program about to run outside of units. -/
def start (l : Loader ν) (s : Script ν) : Machine ν := ⟨l, [.body none s .plain]⟩

end Machine

namespace Loader

variable {ν : Type}

def changed : Except LoadError Bool × Loader ν → Except LoadError (Loader ν)
  | (.error e, _) => .error e
  | (.ok _, l) => .ok l

/-- A loader with the settings applied: with a base, as after `configure`; with a main resource
too, as after `boot`. What was deferred is nothing yet, so no program runs. -/
def ofConfig (config : Config) (resources : Target → Option (Fetched (Script ν))) :
    Except LoadError (Loader ν) :=
  let l := Loader.new config resources
  match config.baseUrl, config.main with
  | some base, some main =>
    match Url.asDirectory base with
    | .error e => .error e
    | .ok entry => changed (l.boot entry.toString (some main))
  | some base, none => changed (l.configure base)
  | none, some main => .error (.unresolved main "a main resource needs a base URL")
  | none, none => .ok l

end Loader

end AsyncModule
