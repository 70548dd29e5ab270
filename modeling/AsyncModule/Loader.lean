import AsyncModule.Bootstrap
import AsyncModule.Fetches
import AsyncModule.Registry

/-!
# AsyncModule.Loader

The state of a loader and what its operations do to it short of running any program: linking a
request to its modules, settling a module, setting the default base. What is to be done about
requests goes into a worklist, first in, first out; the machine that runs programs works it off.
-/

namespace AsyncModule

inductive Step where
  | fill (request : RequestId) (slot : Nat) (v : ModuleValue)
  | fire (request : RequestId)
  | fail (request : RequestId) (e : LoadError)
  deriving Repr

namespace Step

def request : Step → RequestId
  | fill id _ _ => id
  | fire id => id
  | fail id _ => id

end Step

/-- The program that is running: a unit or script with the URL it was fetched from, or a callback
with the context of its request. -/
inductive Frame where
  /-- `binds` says whether a definition supplies the unit's value, `defined` whether one has. -/
  | unit (url : String) (ctx : Context) (binds defined : Bool)
  | callback (ctx : Option Context)
  deriving Repr

namespace Frame

def context? : Frame → Option Context
  | unit _ ctx _ _ => some ctx
  | callback ctx => ctx

end Frame

structure Loader (ν : Type) where
  resolver : Resolver
  registry : Registry
  requests : Requests ν
  bootstrap : Bootstrap
  /-- The results that are there as soon as a resource is asked for. -/
  resources : Target → Option (Fetched (Script ν))
  fetches : Fetches ν
  worklist : List Step
  /-- Whether the worklist is being worked off. -/
  dispatching : Bool
  /-- How many values have been made. -/
  values : Nat
  journal : List (Event ν)

namespace Loader

variable {ν : Type}

def new (config : Config) (resources : Target → Option (Fetched (Script ν))) : Loader ν :=
  { resolver := ⟨none, config⟩
    registry := .empty
    requests := .empty
    bootstrap := .initial
    resources
    fetches := .empty
    worklist := []
    dispatching := false
    values := 0
    journal := [] }

def record (l : Loader ν) (e : Event ν) : Loader ν := { l with journal := e :: l.journal }

def enqueue (l : Loader ν) (s : Step) : Loader ν := { l with worklist := l.worklist ++ [s] }

def make (l : Loader ν) (payload : Payload) : ModuleValue × Loader ν :=
  (⟨l.values, payload⟩, { l with values := l.values + 1 })

/-! ## What can be seen -/

/-- The context of the running program, or the one for requests outside of units. -/
def context? (l : Loader ν) (frame : Option Frame) : Option Context :=
  match frame.bind Frame.context? with
  | some ctx => some ctx
  | none => l.bootstrap.context?

def localUrl (frame : Option Frame) : Option Url := (frame.bind Frame.context?).map (·.base)

def status (l : Loader ν) (url : String) : Option ModuleStatus :=
  (l.registry.state? url).map ModuleState.status

def value (l : Loader ν) (url : String) : Option ModuleValue :=
  (l.registry.state? url).bind ModuleState.value?

/-- Whether a definition would become the value of the running unit, and is waited for. -/
def isDefining (l : Loader ν) : Option Frame → Bool
  | some (.unit url _ true _) => l.status url == some .loading
  | _ => false

/-- Resolve a specifier for the running program; outside of units the root context serves before
requests can be linked. -/
def resolve (l : Loader ν) (frame : Option Frame) (specifier : String) :
    Except LoadError Target :=
  match (l.context? frame).or l.bootstrap.root with
  | some ctx => l.resolver.resolve specifier ctx
  | none => .error (.unresolved specifier "no resolution context established")

def view (l : Loader ν) (frame : Option Frame) : View ν :=
  { state := l.bootstrap.state
    config := l.resolver.config
    baseUrl := l.resolver.defaultBase
    localUrl := localUrl frame
    isDefining := l.isDefining frame
    resolve := l.resolve frame
    status := l.status
    value := l.value
    pendingRequests := l.requests.size
    deferredRequests := l.bootstrap.deferred.length
    inFlight := l.fetches.inFlight.length
    moduleCount := l.registry.size
    journal := l.journal }

/-! ## Requests and modules -/

def load (l : Loader ν) (t : Target) (role : LoadRole) : Loader ν :=
  record { l with fetches := l.fetches.start t role (l.resources t) } (.load t role)

/-- Link one slot of a request to the module of a target. A module first heard of is loaded, one
still loading is waited for, and one already settled makes a step. -/
def attach (l : Loader ν) (id : RequestId) (slot : Nat) (t : Target) : Loader ν :=
  let l : Loader ν :=
    { l with
      requests := l.requests.modify id (·.link slot t.key)
      registry := l.registry.insertNew t }
  let await : Record → Record := fun r => { r with waiters := r.waiters ++ [⟨id, slot⟩] }
  match l.registry.state? t.key with
  | some .known =>
    let l : Loader ν :=
      { l with registry := l.registry.modify t.key fun r => await { r with state := .loading } }
    l.load t .module
  | some (.ready v) => l.enqueue (.fill id slot v)
  | some (.failed e) => l.enqueue (.fail id (.dependency t.key e))
  | _ => { l with registry := l.registry.modify t.key await }

/-- Link the slots of a request, one after the other; a specifier that cannot be resolved or
would close a cycle ends it. -/
def linkSlots (ctx : Context) (id : RequestId) (definer : Option String) :
    List (String × Nat) → Loader ν → Loader ν
  | [], l => l
  | (specifier, slot) :: rest, l =>
    match l.resolver.resolve specifier ctx with
    | .error e => l.enqueue (.fail id e)
    | .ok t =>
      match definer.bind fun d => l.registry.findCycle l.requests d t.key with
      | some chain => l.enqueue (.fail id (.cycle chain))
      | none => linkSlots ctx id definer rest (l.attach id slot t)

def link (l : Loader ν) (id : RequestId) (ctx : Context) : Loader ν :=
  match l.requests.get? id with
  | none => l
  | some r =>
    let l : Loader ν :=
      { l with requests := l.requests.modify id fun r => { r with context := some ctx } }
    linkSlots ctx id r.definitionUrl r.dependencies.zipIdx (l.record (.linked id l.resolver ctx))

/-- The module that a definition made by the running program is bound to. A unit is bound to its
first definition; any other stands for itself. -/
def bindDefinition (l : Loader ν) :
    Option Frame → Option String × Option Frame × Loader ν
  | some (.unit url ctx true false) => (some url, some (.unit url ctx true true), l)
  | some (.unit url ctx true true) =>
    (none, some (.unit url ctx true true), l.record (.report (.extraDefinition url)))
  | frame => (none, frame, l)

def enter (l : Loader ν) (r : Request ν) : RequestId × Loader ν :=
  let (id, requests) := l.requests.insert r
  let registry :=
    match r.definitionUrl with
    | some url => l.registry.setDefinition url (some id)
    | none => l.registry
  (id, record { l with requests, registry } (.submitted id r.dependencies r.definitionUrl))

/-- Set a request going that has just been entered: without dependencies it is due, otherwise it
is linked at once if it has a context. -/
def begin (l : Loader ν) (id : RequestId) (r : Request ν) : Loader ν :=
  if r.slots.isEmpty then l.enqueue (.fire id)
  else
    match r.context with
    | some ctx => l.link id ctx
    | none => { l with bootstrap := l.bootstrap.defer id }

def submit (l : Loader ν) (frame : Option Frame) (dependencies : List String)
    (callback : List ModuleValue → Script ν) (errback : Option (LoadError → Script ν))
    (definitionUrl : Option String) : Loader ν :=
  let r := Request.ofCall dependencies callback errback (l.context? frame) definitionUrl
  let (id, l) := l.enter r
  l.begin id r

def withdraw (l : Loader ν) (id : RequestId) (r : Request ν) : Loader ν :=
  { l with
    requests := l.requests.erase id
    registry := r.modules.foldl (fun g url => g.dropWaiters url id) l.registry
    bootstrap := l.bootstrap.forget id }

/-- The module has its value: fill the slots that wait for it. -/
def readyModule (l : Loader ν) (url : String) (v : ModuleValue) : Loader ν :=
  let (waiters, registry) := l.registry.markReady url v
  { l with
    registry
    worklist := l.worklist ++ waiters.map fun w => .fill w.request w.slot v }

/-- The module will have no value, nor a definition: fail the requests that wait for it. -/
def abandonModule (l : Loader ν) (url : String) (e : LoadError) : Loader ν :=
  let (waiters, registry) := (l.registry.setDefinition url none).markFailed url e
  { l with
    registry
    worklist := l.worklist ++ waiters.map fun w => .fail w.request (.dependency url e) }

/-- The module has failed. The request that would have defined it is handed back, removed. -/
def failModule (l : Loader ν) (url : String) (e : LoadError) :
    Option (RequestId × Request ν) × Loader ν :=
  match l.registry.definition? url with
  | none => (none, l.abandonModule url e)
  | some id =>
    match l.requests.get? id with
    | none => (none, l.abandonModule url e)
    | some r => (some (id, r), ((l.abandonModule url e).withdraw id r).record (.failed id e))

/-! ## Contexts -/

/-- Link what was deferred, in order, now that there is a context. -/
def drainDeferred (l : Loader ν) : Loader ν :=
  match l.bootstrap.context? with
  | none => l
  | some ctx =>
    l.bootstrap.deferred.foldl (fun l id => l.link id ctx)
      { l with bootstrap := { l.bootstrap with deferred := [] } }

/-- Install the outcome of a change of contexts, and link what was deferred if that is due; with
whether it was. -/
def afterEstablishing (l : Loader ν) (change : Bool × Bootstrap) : Bool × Loader ν :=
  let l : Loader ν := { l with bootstrap := change.2 }
  (change.1, if change.1 then l.drainDeferred else l)

def setDefaultBase (l : Loader ν) (base : Url) : Loader ν :=
  { l with resolver := { l.resolver with defaultBase := some base } }

/-- Set the default base, which also becomes the context for requests outside of units. The answer
is whether deferred requests have been linked. -/
def configure (l : Loader ν) (base : String) : Except LoadError Bool × Loader ν :=
  match Url.asDirectory base with
  | .error e => (.error e, l)
  | .ok base =>
    match Context.ofUrl base with
    | .error e => (.error e, l)
    | .ok ctx =>
      let l := l.setDefaultBase base
      let (drained, l) := l.afterEstablishing (l.bootstrap.establish ctx)
      (.ok drained, l)

/-- Start from an entry point. Without a main resource its directory becomes the default base and
the context; with one, the main resource's directory does, and requests outside of units are
deferred until the main resource has run. The answer is whether deferred requests have been
linked. -/
def boot (l : Loader ν) (entry : String) (main : Option String) :
    Except LoadError Bool × Loader ν :=
  match Context.parse entry with
  | .error e => (.error e, l)
  | .ok ctx =>
    let l := l.setDefaultBase ctx.base
    match main with
    | none =>
      let (drained, l) := l.afterEstablishing (l.bootstrap.establish ctx)
      (.ok drained, l)
    | some main =>
      match l.resolver.resolve main ctx with
      | .error e => (.error e, l)
      | .ok t =>
        match t.url.directory with
        | .error e => (.error e, l)
        | .ok directory =>
          let l := l.setDefaultBase directory
          match Context.ofUrl directory with
          | .error e => (.error e, l)
          | .ok root =>
            (.ok false, load { l with bootstrap := l.bootstrap.beginEstablishing root } t .main)

/-- A main resource has been dealt with: its context serves requests outside of units. -/
def finishMain (l : Loader ν) (t : Target) : Loader ν :=
  let ctx := match Context.ofUrl t.url with
    | .ok ctx => some ctx
    | .error _ => l.bootstrap.root
  match ctx with
  | some ctx => (l.afterEstablishing (l.bootstrap.finishEstablishing ctx)).2
  | none => l

end Loader

end AsyncModule
