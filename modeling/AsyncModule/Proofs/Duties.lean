import AsyncModule.Machine

/-!
# AsyncModule.Proofs.Duties

What the tasks on the stack are bound to see to, and what a step of the machine can do. A module
that is loading, a main resource on its way and a callback that is running are all somebody's
duty; the stack is the list of duties, and a step turns the duties of the topmost task into what
it does to the loader and the duties of the tasks that take its place.

* `KeptByFailing`   — a property of loader and duties that is kept by everything a step can do short
  of making requests, changing the contexts that they are resolved in, and giving modules values.
* `KeptByTending`   — one that is kept by the last as well.
* `KeptByWork`      — one that is kept by everything short of making requests.
* `Maintained`      — one that is kept by everything a step can do.
* `KeptByTending.advance`, `KeptByWork.advance`, `Maintained.step` — so it is by the steps of the
  machine.
-/

namespace AsyncModule

variable {ν : Type}

/-- What a task is bound to see to. -/
inductive Duty where
  /-- A module is to be settled. -/
  | settle (url : String)
  /-- A unit is to be brought to its end, whose definition sees to its module. -/
  | watch (url : String)
  /-- The main resource is to be dealt with. -/
  | main
  /-- The callback of a request is to be brought to its end. -/
  | conclude (request : RequestId) (definition : Option String)
  /-- The worklist is to be worked off. -/
  | dispatch
  /-- The worklist is being worked off. -/
  | drain
  deriving DecidableEq

namespace Duty

def ofDefinition : Option String → List Duty
  | some url => [settle url]
  | none => []

/-- Whether somebody with this duty may fail a module. -/
def MayFail (url : String) (d : Duty) : Prop := d = settle url ∨ d = watch url

/-- What the result of a fetch is for. -/
def ofRole (t : Target) : LoadRole → Duty
  | .module => settle t.key
  | .main => main

end Duty

def Ending.duties (frame : Option Frame) : Ending ν → List Duty
  | .plain => []
  | .unit t => [if Machine.hasDefined frame then .watch t.key else .settle t.key]
  | .script t _ => [.settle t.key]
  | .main _ => [.main]
  | .callback id r => .conclude id r.definitionUrl :: Duty.ofDefinition r.definitionUrl
  | .errback definition _ => Duty.ofDefinition definition

namespace Task

def duties : Task ν → List Duty
  | .body frame _ ending => ending.duties frame
  | .settling frame _ ending => ending.duties frame
  | .dispatch => [.dispatch]
  | .draining => [.drain]

/-- Exactly the units that were fetched as modules bind a definition, to the module fetched; and
what runs as a main resource leaves a context. -/
structure FrameFits (frame : Option Frame) (ending : Ending ν) : Prop where
  unit_of_binds : ∀ url ctx defined, frame = some (.unit url ctx true defined) →
    ∃ t : Target, ending = .unit t ∧ t.key = url
  binds_of_unit : ∀ t, ending = .unit t → ∃ ctx defined, frame = some (.unit t.key ctx true defined)
  context_of_main : ∀ t, ending = .main t → ∃ ctx, Context.ofUrl t.url = .ok ctx

def Fits : Task ν → Prop
  | .body frame _ ending => FrameFits frame ending
  | .settling frame _ ending => FrameFits frame ending
  | .dispatch => True
  | .draining => True

theorem frameFits_of_ne {frame : Option Frame} {ending : Ending ν}
    (hf : ∀ url ctx defined, frame ≠ some (.unit url ctx true defined))
    (he : ∀ t, ending ≠ .unit t)
    (hm : ∀ t, ending = .main t → ∃ ctx, Context.ofUrl t.url = .ok ctx) :
    FrameFits frame ending :=
  ⟨fun url ctx defined h => absurd h (hf url ctx defined), fun t h => absurd h (he t), hm⟩

end Task

def dutiesOf (stack : List (Task ν)) : List Duty := stack.flatMap Task.duties

@[simp] theorem dutiesOf_nil : dutiesOf ([] : List (Task ν)) = [] := rfl

@[simp] theorem dutiesOf_cons (task : Task ν) (stack : List (Task ν)) :
    dutiesOf (task :: stack) = task.duties ++ dutiesOf stack := rfl

@[simp] theorem dutiesOf_append (stack stack' : List (Task ν)) :
    dutiesOf (stack ++ stack') = dutiesOf stack ++ dutiesOf stack' := by
  simp [dutiesOf]

/-- Whether a program makes a request next. -/
def Script.submits : Script ν → Bool
  | .require _ _ _ _ => true
  | .define _ _ _ _ => true
  | _ => false

def Task.submits : Task ν → Bool
  | .body _ script _ => script.submits
  | _ => false

/-- Whether the next finished fetch is that of a main resource. -/
def Loader.takesMain (l : Loader ν) : Bool :=
  match l.fetches.take with
  | (some (f, _), _) => f.role == .main
  | (none, _) => false

/-- Whether a task goes on without making requests or changing contexts. Contexts are changed by
setting them up, and by main resources that have been dealt with. -/
def Task.tends (l : Loader ν) : Task ν → Bool
  | .body _ (.finish _) (.main _) => false
  | .body _ (.require _ _ _ _) _ => false
  | .body _ (.define _ _ _ _) _ => false
  | .body _ (.configure _ _) _ => false
  | .body _ (.bootstrap _ _ _) _ => false
  | .body _ (.turn _) _ => !l.takesMain
  | .settling _ _ _ => !l.takesMain
  | _ => true

/-- The module whose value is a fragment that is taken up next, with this value. -/
def Loader.readiesNext? (l : Loader ν) : Option (String × ModuleValue) :=
  match l.fetches.take with
  | (some (f, .markup fragment none), _) =>
    match f.role with
    | .module => some (f.target.key, ⟨l.values, .fragment fragment⟩)
    | .main => none
  | _ => none

def Ending.readies? (l : Loader ν) (o : Outcome) : Ending ν → Option (String × ModuleValue)
  | .callback _ r =>
    match o with
    | .value v => r.definitionUrl.map (·, v)
    | _ => none
  | .script t fragment =>
    match o with
    | .error _ => none
    | _ => some (t.key, ⟨l.values, .fragment fragment⟩)
  | _ => none

/-- The module that a task is about to give its value, with this value. -/
def Task.readies? (l : Loader ν) : Task ν → Option (String × ModuleValue)
  | .body _ (.finish o) ending => ending.readies? l o
  | .body _ (.turn _) _ => l.readiesNext?
  | .settling _ _ _ => l.readiesNext?
  | _ => none

namespace Event

/-- Whether an event says nothing of requests, loads or units. -/
def IsAside : Event ν → Prop
  | report _ => True
  | note _ => True
  | _ => False

end Event

open Loader in
/-- What a step can do short of making requests, changing contexts and giving modules their values,
one thing after the other, keeps a property of the loader and the duties that are left. -/
structure KeptByFailing (P : Loader ν → List Duty → Prop) : Prop where
  aside : ∀ {l k e}, P l k → e.IsAside → P (l.record e) k
  make : ∀ {l k} payload, P l k → P (l.make payload).2 k
  fetches : ∀ {l k fs}, P l k → l.fetches.Agree fs → P { l with fetches := fs } k
  /-- A finished fetch is taken up. -/
  arrive : ∀ {l k f result fs}, P l k → l.fetches.take = (some (f, result), fs) →
    P (record { l with fetches := fs } (.arrived f.target f.role))
      (.ofRole f.target f.role :: .dispatch :: k)
  /-- A unit or script that has just been fetched starts to run. -/
  enter : ∀ {l k t older} role, P l (.ofRole t role :: k) →
    l.journal = .arrived t role :: older →
    P (l.record (.entered t role)) (.ofRole t role :: k)
  unwatch : ∀ {l k url}, P l (.watch url :: k) → P l k
  /-- A module without a live definition fails. -/
  abandon : ∀ {l k d url} e, P l (d :: k) → d.MayFail url →
    (∀ id, l.registry.definition? url = some id → l.requests.get? id = none) →
    P (l.abandonModule url e) k
  /-- A module fails, and its definition with it. -/
  abandonDefinition : ∀ {l k d url id r} e, P l (d :: k) → d.MayFail url →
    l.registry.definition? url = some id → l.requests.get? id = some r →
    P (((l.abandonModule url e).withdraw id r).record (.failed id e)) k
  /-- A callback has ended well. -/
  finish : ∀ {l k id definition o}, P l (.conclude id definition :: k) →
    o.failure definition = none → P (l.record (.returned id o)) k
  /-- A callback has failed. -/
  fault : ∀ {l k id definition o e}, P l (.conclude id definition :: k) →
    o.failure definition = some e → P ((l.record (.returned id o)).record (.failed id e)) k
  /-- The handler of a failure that has just been reported starts. -/
  handle : ∀ {l k id e older}, P l k → l.journal = .failed id e :: older →
    P (l.record (.handled id e)) k
  dispatch : ∀ {l k}, P l (.dispatch :: k) → l.dispatching = false →
    P { l with dispatching := true } (.drain :: k)
  redispatch : ∀ {l k}, P l (.dispatch :: k) → l.dispatching = true → P l k
  drained : ∀ {l k}, P l (.drain :: k) → l.worklist = [] → P { l with dispatching := false } k
  /-- A step of a request that is gone. -/
  dead : ∀ {l k s rest}, P l (.drain :: k) → l.worklist = s :: rest →
    l.requests.get? s.request = none → P { l with worklist := rest } (.drain :: k)
  fill : ∀ {l k id i v rest r}, P l (.drain :: k) → l.worklist = .fill id i v :: rest →
    l.requests.get? id = some r → (r.fill i v).isSatisfied = false →
    P { l with worklist := rest, requests := l.requests.modify id (·.fill i v) } (.drain :: k)
  /-- The last slot is filled. -/
  fillFire : ∀ {l k id i v rest r}, P l (.drain :: k) → l.worklist = .fill id i v :: rest →
    l.requests.get? id = some r → (r.fill i v).isSatisfied = true →
    P (record { l with
        worklist := rest, requests := (l.requests.modify id (·.fill i v)).erase id }
      (.called id (r.fill i v).values))
      (.conclude id r.definitionUrl :: Duty.ofDefinition r.definitionUrl ++ .drain :: k)
  fire : ∀ {l k id rest r}, P l (.drain :: k) → l.worklist = .fire id :: rest →
    l.requests.get? id = some r →
    P (record { l with worklist := rest, requests := l.requests.erase id } (.called id r.values))
      (.conclude id r.definitionUrl :: Duty.ofDefinition r.definitionUrl ++ .drain :: k)
  fail : ∀ {l k id e rest r}, P l (.drain :: k) → l.worklist = .fail id e :: rest →
    l.requests.get? id = some r →
    P ((withdraw { l with worklist := rest } id r).record (.failed id e))
      (Duty.ofDefinition r.definitionUrl ++ .drain :: k)

/-- What a step can do short of making requests and changing contexts, one thing after the other,
keeps a property of the loader and the duties that are left. -/
structure KeptByTending (P : Loader ν → List Duty → Prop) : Prop extends KeptByFailing P where
  ready : ∀ {l k url} v, P l (.settle url :: k) → P (l.readyModule url v) k

open Loader in
/-- What a step can do short of making requests, one thing after the other, keeps a property of the
loader and the duties that are left. -/
structure KeptByWork (P : Loader ν → List Duty → Prop) : Prop extends KeptByTending P where
  setDefaultBase : ∀ {l k} base, P l k → P (l.setDefaultBase base) k
  establish : ∀ {l k} ctx, P l k → P (l.afterEstablishing (l.bootstrap.establish ctx)).2
    (if (l.afterEstablishing (l.bootstrap.establish ctx)).1 then .dispatch :: k else k)
  /-- A main resource is asked for, which names a directory. -/
  beginMain : ∀ {l k directory} root t, P l k → t.url.directory = .ok directory →
    P (load { l with bootstrap := l.bootstrap.beginEstablishing root } t .main) k
  finishMain : ∀ {l k} t, P l (.main :: k) → P (l.finishMain t) k

/-- What a step can do, one thing after the other, keeps a property of the loader and the duties
that are left. -/
structure Maintained (P : Loader ν → List Duty → Prop) : Prop extends KeptByWork P where
  require : ∀ {l k} frame dependencies callback errback, P l k →
    P (l.submit frame dependencies callback errback none) (.dispatch :: k)
  /-- A unit makes the definition that is bound to its module. -/
  define : ∀ {l k url} ctx defined dependencies factory errback, P l (.settle url :: k) →
    P (l.submit (some (.unit url ctx true defined)) dependencies factory errback (some url))
      (.dispatch :: .watch url :: k)

namespace KeptByFailing

variable {P : Loader ν → List Duty → Prop} {l : Loader ν} {k : List Duty}

/-- If a module is to be given its value, doing so keeps a property. -/
def Readies (P : Loader ν → List Duty → Prop) (what : Option (String × ModuleValue)) : Prop :=
  ∀ ⦃url v l k⦄, what = some (url, v) → P l (.settle url :: k) → P (l.readyModule url v) k

def Holds (P : Loader ν → List Duty → Prop) (k : List Duty) (out : Loader ν × List (Task ν)) :
    Prop :=
  P out.1 (dutiesOf out.2 ++ k) ∧ ∀ task ∈ out.2, task.Fits

theorem holds_nil (h : P l k) : Holds P k (l, []) := ⟨h, by simp⟩

theorem holds_append {tasks tasks' : List (Task ν)}
    (h : Holds P (dutiesOf tasks' ++ k) (l, tasks)) (hfit : ∀ task ∈ tasks', task.Fits) :
    Holds P k (l, tasks ++ tasks') := by
  refine ⟨?_, ?_⟩
  · have h1 := h.1
    simpa using h1
  · intro task hmem
    rcases List.mem_append.mp hmem with hmem | hmem
    · exact h.2 task hmem
    · exact hfit task hmem

/-! ## Failing and calling back -/

theorem handle_body (hP : KeptByFailing P) {id : RequestId} {e : LoadError} {older : List (Event ν)}
    (definition : Option String) (h : P l (Duty.ofDefinition definition ++ k))
    (hj : l.journal = .failed id e :: older) (r : Request ν) (errback : LoadError → Script ν) :
    Holds P k (Machine.handle l id r e errback definition) := by
  refine ⟨by simpa [Machine.handle, Task.duties, Ending.duties] using hP.handle h hj, ?_⟩
  intro task htask
  rw [List.mem_singleton.mp htask]
  exact Task.frameFits_of_ne (by simp) (by simp) (by simp)

theorem failModule (hP : KeptByFailing P) {d : Duty} {url : String} (h : P l (d :: k))
    (hm : d.MayFail url) (e : LoadError) : Holds P k (Machine.failModule l url e) := by
  unfold Machine.failModule Loader.failModule
  cases hd : l.registry.definition? url with
  | none => exact holds_nil (hP.abandon e h hm (by simp [hd]))
  | some id =>
    cases hr : l.requests.get? id with
    | none =>
      simp only [hr]
      refine holds_nil (hP.abandon e h hm ?_)
      intro id' hd'
      rw [hd] at hd'
      cases hd'
      exact hr
    | some r =>
      have h1 := hP.abandonDefinition e h hm hd hr
      simp only [hr]
      cases r.errback with
      | some errback => exact hP.handle_body none h1 rfl r errback
      | none =>
        dsimp only
        split
        · exact holds_nil h1
        · exact holds_nil (hP.aside h1 trivial)

theorem failDefinition (hP : KeptByFailing P) {definition : Option String}
    (h : P l (Duty.ofDefinition definition ++ k)) (e : LoadError) :
    Holds P k (Machine.failDefinition l definition e) := by
  cases definition with
  | none => exact holds_nil h
  | some url => exact hP.failModule h (.inl rfl) e

theorem report (hP : KeptByFailing P) {id : RequestId} {r : Request ν} {e : LoadError}
    (h : P (l.record (.failed id e)) (Duty.ofDefinition r.definitionUrl ++ k)) :
    Holds P k (Machine.report l id r e) := by
  unfold Machine.report
  dsimp only
  cases r.errback with
  | some errback => exact hP.handle_body r.definitionUrl h rfl r errback
  | none =>
    cases hd : r.definitionUrl with
    | some url =>
      rw [hd] at h
      exact hP.failModule h (.inl rfl) e
    | none =>
      rw [hd] at h
      exact holds_nil (hP.aside h trivial)

theorem holds_callback {ctx : Option Context} {script : Script ν} {id : RequestId}
    {r : Request ν}
    (h : P l (.conclude id r.definitionUrl :: Duty.ofDefinition r.definitionUrl ++ k)) :
    Holds P k (l, [.body (some (.callback ctx)) script (.callback id r)]) := by
  refine ⟨by simpa [Task.duties, Ending.duties] using h, ?_⟩
  intro task htask
  rw [List.mem_singleton.mp htask]
  exact Task.frameFits_of_ne (by simp) (by simp) (by simp)

theorem process (hP : KeptByFailing P) {s : Step} {rest : List Step} (h : P l (.drain :: k))
    (hw : l.worklist = s :: rest) :
    Holds P (.drain :: k) (Machine.process { l with worklist := rest } s) := by
  cases s with
  | fill id i v =>
    simp only [Machine.process, Machine.fill]
    cases hr : l.requests.get? id with
    | none => exact holds_nil (hP.dead h hw hr)
    | some r =>
      dsimp only
      cases hs : (r.fill i v).isSatisfied with
      | false => exact holds_nil (hP.fill h hw hr hs)
      | true =>
        have hget := Requests.get?_modify_self (·.fill i v) hr
        simp only [if_true, Machine.fire, hget]
        refine holds_callback ?_
        rw [Request.definitionUrl_fill]
        exact hP.fillFire h hw hr hs
  | fire id =>
    simp only [Machine.process, Machine.fire]
    cases hr : l.requests.get? id with
    | none => exact holds_nil (hP.dead h hw hr)
    | some r => exact holds_callback (hP.fire h hw hr)
  | fail id e =>
    simp only [Machine.process, Machine.failRequest]
    cases hr : l.requests.get? id with
    | none => exact holds_nil (hP.dead h hw hr)
    | some r => exact hP.report (hP.fail h hw hr)

/-! ## The ends of programs -/

theorem concludeCallback (hP : KeptByFailing P) {id : RequestId} {r : Request ν}
    (h : P l (.conclude id r.definitionUrl :: Duty.ofDefinition r.definitionUrl ++ k))
    (o : Outcome) (hready : Readies P ((Ending.callback id r).readies? l o)) :
    Holds P k (Machine.concludeCallback l id r o) := by
  unfold Machine.concludeCallback
  cases hf : o.failure r.definitionUrl with
  | some e => exact hP.report (hP.fault h hf)
  | none =>
    have h1 := hP.finish h hf
    cases hd : r.definitionUrl with
    | none =>
      rw [hd] at h1
      exact holds_nil h1
    | some url =>
      rw [hd] at h1 hf
      cases o with
      | done => cases hf
      | error reason => cases hf
      | value v => exact holds_nil (hready (by simp [Ending.readies?, hd]) h1)

theorem readyFragment (hP : KeptByFailing P) {t : Target} (h : P l (.settle t.key :: k))
    (fragment : Fragment) (hready : Readies P (some (t.key, ⟨l.values, .fragment fragment⟩))) :
    P (Machine.readyFragment l t fragment) k :=
  hready rfl (hP.make (.fragment fragment) h)

theorem conclude (hP : KeptByFailing P) {frame : Option Frame} {ending : Ending ν}
    (h : P l (ending.duties frame ++ k)) (hne : ∀ t, ending ≠ .main t) (o : Outcome)
    (hready : Readies P (ending.readies? l o)) :
    Holds P k (Machine.conclude l frame o ending) := by
  cases ending with
  | plain => exact holds_nil h
  | unit t =>
    cases hd : Machine.hasDefined frame with
    | true =>
      have h' : P l (.watch t.key :: k) := by simpa [Ending.duties, hd] using h
      simp only [Machine.conclude, hd]
      cases o with
      | error reason => exact hP.failModule h' (.inr rfl) _
      | done => exact holds_nil (hP.unwatch h')
      | value v => exact holds_nil (hP.unwatch h')
    | false =>
      have h' : P l (.settle t.key :: k) := by simpa [Ending.duties, hd] using h
      simp only [Machine.conclude, hd]
      cases o with
      | error reason => exact hP.failModule h' (.inl rfl) _
      | done => exact hP.failModule h' (.inl rfl) _
      | value v => exact hP.failModule h' (.inl rfl) _
  | script t fragment =>
    cases o with
    | error reason => exact hP.failModule h (.inl rfl) _
    | done => exact holds_nil (hP.readyFragment h fragment hready)
    | value v => exact holds_nil (hP.readyFragment h fragment hready)
  | main t => exact absurd rfl (hne t)
  | callback id r => exact hP.concludeCallback h o hready
  | errback definition e => exact hP.failDefinition h e

/-! ## Taking up what has been fetched -/

theorem completeModule (hP : KeptByFailing P) {t : Target} {older : List (Event ν)}
    (h : P l (.settle t.key :: k)) (hj : l.journal = .arrived t .module :: older)
    (result : Fetched (Script ν))
    (hready : ∀ fragment, result = .markup fragment none →
      Readies P (some (t.key, ⟨l.values, .fragment fragment⟩))) :
    Holds P k (Machine.completeModule l t result) := by
  have hfail : ∀ e, Holds P k (Machine.failModule l t.key e) :=
    fun e => hP.failModule h (.inl rfl) e
  cases result with
  | failed e => exact hfail e
  | code s =>
    simp only [Machine.completeModule]
    split
    · exact hfail _
    · rename_i ctx _
      refine ⟨hP.enter .module h hj, ?_⟩
      intro task htask
      rw [List.mem_singleton.mp htask]
      exact ⟨fun url ctx' defined heq => ⟨t, rfl, by cases heq; rfl⟩,
        fun t' heq => ⟨ctx, false, by cases heq; rfl⟩, by simp⟩
  | markup fragment script =>
    cases script with
    | none => exact holds_nil (hP.readyFragment h fragment (hready fragment rfl))
    | some s =>
      simp only [Machine.completeModule]
      split
      · exact hfail _
      · refine ⟨hP.enter .module h hj, ?_⟩
        intro task htask
        rw [List.mem_singleton.mp htask]
        exact Task.frameFits_of_ne (by simp) (by simp) (by simp)

theorem holds_takeUp {tasks : List (Task ν)} (h : Holds P (.dispatch :: k) (l, tasks)) :
    Holds P k (l, tasks ++ [.dispatch]) := by
  refine holds_append h ?_
  intro task htask
  rw [List.mem_singleton.mp htask]
  trivial

theorem takeUp (hP : KeptByFailing P) (h : P l k) (hmain : l.takesMain = false)
    (hready : Readies P l.readiesNext?) : Holds P k (Machine.takeUp l).2 := by
  unfold Machine.takeUp
  unfold Loader.takesMain at hmain
  cases htake : l.fetches.take with
  | mk found fs =>
    cases found with
    | none => exact holds_nil (hP.fetches h (Fetches.agree_of_take htake))
    | some p =>
      obtain ⟨f, result⟩ := p
      have h1 := hP.arrive h htake
      dsimp only
      refine holds_takeUp ?_
      unfold Machine.complete
      dsimp only
      cases hrole : f.role with
      | module =>
        rw [hrole] at h1
        refine hP.completeModule h1 rfl result ?_
        rintro fragment rfl
        have hnext : l.readiesNext? = some (f.target.key, ⟨l.values, .fragment fragment⟩) := by
          simp [Loader.readiesNext?, htake, hrole]
        rw [hnext] at hready
        exact hready
      | main =>
        rw [htake] at hmain
        simp [hrole] at hmain

/-- Unless a finished fetch is taken up there is nothing to do. -/
theorem tasks_of_takeUp {t : Turn} {l' : Loader ν} {tasks : List (Task ν)}
    (h : Machine.takeUp l = (t, l', tasks)) (ht : t ≠ .completed) : tasks = [] := by
  unfold Machine.takeUp at h
  split at h
  · cases h
    rfl
  · cases h
    exact absurd rfl ht

/-! ## What programs ask for -/

variable {frame : Option Frame} {ending : Ending ν}

theorem holds_body (h : P l (ending.duties frame ++ k)) (hfit : Task.FrameFits frame ending)
    (script : Script ν) : Holds P k (l, [.body frame script ending]) := by
  refine ⟨by simpa [Task.duties] using h, ?_⟩
  intro task htask
  rw [List.mem_singleton.mp htask]
  exact hfit

/-- A program goes on when the worklist has been worked off. -/
theorem holds_dispatch_body (h : P l (.dispatch :: (ending.duties frame ++ k)))
    (hfit : Task.FrameFits frame ending) (script : Script ν) :
    Holds P k (l, [.dispatch, .body frame script ending]) := by
  refine ⟨by simpa [Task.duties] using h, ?_⟩
  intro task htask
  rcases List.mem_cons.mp htask with rfl | htask
  · trivial
  · rw [List.mem_singleton.mp htask]
    exact hfit

/-- A program goes on behind what a finished fetch has made to do. -/
theorem holds_turn {out : Turn × Loader ν × List (Task ν)}
    (h : Holds P (ending.duties frame ++ k) out.2) (hfit : Task.FrameFits frame ending)
    (script : Script ν) : Holds P k (out.2.1, out.2.2 ++ [.body frame script ending]) := by
  refine holds_append (by simpa [Task.duties] using h) ?_
  intro task htask
  rw [List.mem_singleton.mp htask]
  exact hfit

theorem holds_settling (hfit : Task.FrameFits frame ending)
    (h : Holds P (ending.duties frame ++ k) (Machine.takeUp l).2) (next : Bool → Script ν) :
    Holds P k (Machine.advance l (.settling frame next ending)) := by
  simp only [Machine.advance]
  cases htake : Machine.takeUp l with
  | mk t out =>
    obtain ⟨l', tasks⟩ := out
    rw [htake] at h
    have hgo : t ≠ .completed → ∀ script, Holds P k (l', [.body frame script ending]) := by
      intro ht script
      rw [tasks_of_takeUp htake ht] at h
      exact holds_body h.1 hfit script
    cases t with
    | completed =>
      refine holds_append (by simpa [Task.duties] using h) ?_
      intro task htask
      rw [List.mem_singleton.mp htask]
      exact hfit
    | idle => exact hgo (by simp) _
    | blocked => exact hgo (by simp) _

theorem perform (hP : KeptByFailing P) (h : P l (ending.duties frame ++ k))
    (hfit : Task.FrameFits frame ending) {script : Script ν}
    (ht : (Task.body frame script ending).tends l = true)
    (hready : Readies P ((Task.body frame script ending).readies? l)) :
    Holds P k (Machine.perform l frame ending script) := by
  cases script with
  | finish o =>
    refine hP.conclude h ?_ o hready
    rintro t rfl
    cases ht
  | require => cases ht
  | define => cases ht
  | configure => cases ht
  | bootstrap => cases ht
  | turn next => exact holds_turn (hP.takeUp h (by simpa [Task.tends] using ht) hready) hfit _
  | settle next =>
    refine ⟨by simpa [Machine.perform, Task.duties] using h, ?_⟩
    intro task htask
    rw [List.mem_singleton.mp htask]
    exact hfit
  | deliver url result next =>
    simp only [Machine.perform]
    split
    · rename_i fs hfs
      obtain ⟨f, _, _, _, rfl⟩ := Fetches.deliver_eq_some hfs
      exact holds_body (hP.fetches h (Fetches.agree_finish l.fetches f.id _)) hfit _
    · exact holds_body h hfit _
  | make payload next => exact holds_body (hP.make payload h) hfit _
  | look next => exact holds_body h hfit _
  | note n next => exact holds_body (hP.aside (e := .note n) h trivial) hfit _

theorem advance (hP : KeptByFailing P) {task : Task ν} (h : P l (task.duties ++ k))
    (hfit : task.Fits) (ht : task.tends l = true) (hready : Readies P (task.readies? l)) :
    Holds P k (Machine.advance l task) := by
  cases task with
  | body frame script ending => exact hP.perform h hfit ht hready
  | settling frame next ending =>
    exact holds_settling hfit (hP.takeUp h (by simpa [Task.tends] using ht) hready) next
  | dispatch =>
    simp only [Machine.advance]
    cases hd : l.dispatching with
    | true => exact holds_nil (hP.redispatch h hd)
    | false =>
      refine ⟨hP.dispatch h hd, ?_⟩
      intro task htask
      rw [List.mem_singleton.mp htask]
      trivial
  | draining =>
    simp only [Machine.advance]
    split
    · rename_i hw
      exact holds_nil (hP.drained h hw)
    · rename_i s rest hw
      refine holds_append (hP.process h hw) ?_
      intro task htask
      rw [List.mem_singleton.mp htask]
      trivial

end KeptByFailing

namespace KeptByTending

open KeptByFailing

variable {P : Loader ν → List Duty → Prop} {l : Loader ν} {k : List Duty}

theorem readies (hP : KeptByTending P) (what : Option (String × ModuleValue)) : Readies P what :=
  fun _ v _ _ _ h => hP.ready v h

theorem takeUp (hP : KeptByTending P) (h : P l k) (hmain : l.takesMain = false) :
    Holds P k (Machine.takeUp l).2 :=
  hP.toKeptByFailing.takeUp h hmain (hP.readies _)

theorem advance (hP : KeptByTending P) {task : Task ν} (h : P l (task.duties ++ k))
    (hfit : task.Fits) (ht : task.tends l = true) : Holds P k (Machine.advance l task) :=
  hP.toKeptByFailing.advance h hfit ht (hP.readies _)

end KeptByTending

namespace KeptByWork

open KeptByFailing

variable {P : Loader ν → List Duty → Prop} {l : Loader ν} {k : List Duty} {frame : Option Frame}
  {ending : Ending ν}

/-! ## Main resources -/

theorem concludeMain (hP : KeptByWork P) {t : Target} (h : P l (.main :: k)) (o : Outcome) :
    P (Machine.concludeMain l t o) k := by
  cases o with
  | error reason => exact hP.finishMain t (hP.aside h trivial)
  | done => exact hP.finishMain t h
  | value v => exact hP.finishMain t h

theorem completeMain (hP : KeptByWork P) {t : Target} {older : List (Event ν)}
    (h : P l (.main :: k)) (hj : l.journal = .arrived t .main :: older)
    (result : Fetched (Script ν)) : Holds P k (Machine.completeMain l t result) := by
  have haside : ∀ r, Holds P k ((l.record (.report r)).finishMain t, []) :=
    fun r => holds_nil (hP.finishMain t (hP.aside h trivial))
  cases result with
  | failed e => exact haside _
  | code s =>
    simp only [Machine.completeMain]
    split
    · exact haside _
    · rename_i ctx hctx
      refine ⟨hP.enter .main h hj, ?_⟩
      intro task htask
      rw [List.mem_singleton.mp htask]
      refine Task.frameFits_of_ne (by simp) (by simp) ?_
      intro t' heq
      cases heq
      exact ⟨ctx, hctx⟩
  | markup fragment script => exact haside _

theorem takeUp (hP : KeptByWork P) (h : P l k) : Holds P k (Machine.takeUp l).2 := by
  cases hmain : l.takesMain with
  | false => exact hP.toKeptByTending.takeUp h hmain
  | true =>
    unfold Machine.takeUp
    unfold Loader.takesMain at hmain
    cases htake : l.fetches.take with
    | mk found fs =>
      rw [htake] at hmain
      cases found with
      | none => cases hmain
      | some p =>
        obtain ⟨f, result⟩ := p
        have hrole : f.role = .main := by simpa using hmain
        have h1 := hP.arrive h htake
        rw [hrole] at h1
        dsimp only
        refine holds_takeUp ?_
        unfold Machine.complete
        simp only [hrole]
        exact hP.completeMain h1 rfl result

/-! ## Setting up contexts -/

theorem establish_body (hP : KeptByWork P) (h : P l (ending.duties frame ++ k))
    (hfit : Task.FrameFits frame ending) (ctx : Context) (next : Option LoadError → Script ν) :
    Holds P k (Machine.afterChange frame next ending
      (.ok (l.afterEstablishing (l.bootstrap.establish ctx)).1,
        (l.afterEstablishing (l.bootstrap.establish ctx)).2)) := by
  have h1 := hP.establish ctx h
  cases hb : (l.afterEstablishing (l.bootstrap.establish ctx)).1 with
  | true =>
    rw [hb, if_pos rfl] at h1
    exact holds_dispatch_body h1 hfit _
  | false =>
    rw [hb] at h1
    exact holds_body h1 hfit _

theorem configure_body (hP : KeptByWork P) (h : P l (ending.duties frame ++ k))
    (hfit : Task.FrameFits frame ending) (base : String) (next : Option LoadError → Script ν) :
    Holds P k (Machine.perform l frame ending (.configure base next)) := by
  simp only [Machine.perform]
  unfold Loader.configure
  split
  · exact holds_body h hfit _
  · split
    · exact holds_body h hfit _
    · exact hP.establish_body (hP.setDefaultBase _ h) hfit _ next

theorem bootstrap_body (hP : KeptByWork P) (h : P l (ending.duties frame ++ k))
    (hfit : Task.FrameFits frame ending) (entry : String) (main : Option String)
    (next : Option LoadError → Script ν) :
    Holds P k (Machine.perform l frame ending (.bootstrap entry main next)) := by
  simp only [Machine.perform]
  unfold Loader.boot
  have hbase : ∀ base, P (l.setDefaultBase base) (ending.duties frame ++ k) :=
    fun base => hP.setDefaultBase base h
  split
  · exact holds_body h hfit _
  · dsimp only
    split
    · exact hP.establish_body (hbase _) hfit _ next
    · split
      · exact holds_body (hbase _) hfit _
      · split
        · exact holds_body (hbase _) hfit _
        · rename_i directory hdirectory
          split
          · exact holds_body (hP.setDefaultBase _ (hbase _)) hfit _
          · exact holds_body (hP.beginMain _ _ (hP.setDefaultBase _ (hbase _)) hdirectory) hfit _

theorem advance (hP : KeptByWork P) {task : Task ν} (h : P l (task.duties ++ k))
    (hfit : task.Fits) (hs : task.submits = false) : Holds P k (Machine.advance l task) := by
  cases ht : task.tends l with
  | true => exact hP.toKeptByTending.advance h hfit ht
  | false =>
    cases task with
    | body frame script ending =>
      cases script with
      | finish o =>
        cases ending with
        | main t => exact holds_nil (hP.concludeMain h o)
        | _ => cases ht
      | require => cases hs
      | define => cases hs
      | configure base next => exact hP.configure_body h hfit base next
      | bootstrap entry main next => exact hP.bootstrap_body h hfit entry main next
      | turn next => exact holds_turn (hP.takeUp h) hfit _
      | _ => cases ht
    | settling frame next ending => exact holds_settling hfit (hP.takeUp h) next
    | dispatch => cases ht
    | draining => cases ht

end KeptByWork

namespace Maintained

open KeptByFailing

variable {P : Loader ν → List Duty → Prop} {l : Loader ν} {k : List Duty} {frame : Option Frame}
  {ending : Ending ν}

theorem and {Q : Loader ν → List Duty → Prop} (hP : Maintained P) (hQ : Maintained Q) :
    Maintained fun l k => P l k ∧ Q l k where
  aside h ha := ⟨hP.aside h.1 ha, hQ.aside h.2 ha⟩
  make payload h := ⟨hP.make payload h.1, hQ.make payload h.2⟩
  fetches h ha := ⟨hP.fetches h.1 ha, hQ.fetches h.2 ha⟩
  arrive h ht := ⟨hP.arrive h.1 ht, hQ.arrive h.2 ht⟩
  enter role h hj := ⟨hP.enter role h.1 hj, hQ.enter role h.2 hj⟩
  require f d c e h := ⟨hP.require f d c e h.1, hQ.require f d c e h.2⟩
  define x b d c e h := ⟨hP.define x b d c e h.1, hQ.define x b d c e h.2⟩
  unwatch h := ⟨hP.unwatch h.1, hQ.unwatch h.2⟩
  setDefaultBase b h := ⟨hP.setDefaultBase b h.1, hQ.setDefaultBase b h.2⟩
  establish x h := ⟨hP.establish x h.1, hQ.establish x h.2⟩
  beginMain x t h hd := ⟨hP.beginMain x t h.1 hd, hQ.beginMain x t h.2 hd⟩
  finishMain t h := ⟨hP.finishMain t h.1, hQ.finishMain t h.2⟩
  ready v h := ⟨hP.ready v h.1, hQ.ready v h.2⟩
  abandon e h hm hd := ⟨hP.abandon e h.1 hm hd, hQ.abandon e h.2 hm hd⟩
  abandonDefinition e h hm hd hr :=
    ⟨hP.abandonDefinition e h.1 hm hd hr, hQ.abandonDefinition e h.2 hm hd hr⟩
  finish h hn := ⟨hP.finish h.1 hn, hQ.finish h.2 hn⟩
  fault h he := ⟨hP.fault h.1 he, hQ.fault h.2 he⟩
  handle h hj := ⟨hP.handle h.1 hj, hQ.handle h.2 hj⟩
  dispatch h hd := ⟨hP.dispatch h.1 hd, hQ.dispatch h.2 hd⟩
  redispatch h hd := ⟨hP.redispatch h.1 hd, hQ.redispatch h.2 hd⟩
  drained h hw := ⟨hP.drained h.1 hw, hQ.drained h.2 hw⟩
  dead h hw hr := ⟨hP.dead h.1 hw hr, hQ.dead h.2 hw hr⟩
  fill h hw hr hs := ⟨hP.fill h.1 hw hr hs, hQ.fill h.2 hw hr hs⟩
  fillFire h hw hr hs := ⟨hP.fillFire h.1 hw hr hs, hQ.fillFire h.2 hw hr hs⟩
  fire h hw hr := ⟨hP.fire h.1 hw hr, hQ.fire h.2 hw hr⟩
  fail h hw hr := ⟨hP.fail h.1 hw hr, hQ.fail h.2 hw hr⟩

theorem define_body (hP : Maintained P) (h : P l (ending.duties frame ++ k))
    (hfit : Task.FrameFits frame ending) (dependencies : List String)
    (factory : List ModuleValue → Script ν) (errback : Option (LoadError → Script ν))
    (next : Script ν) :
    Holds P k (Machine.perform l frame ending (.define dependencies factory errback next)) := by
  have hother : ∀ {l : Loader ν}, P l (ending.duties frame ++ k) →
      Holds P k (l.submit frame dependencies factory errback none,
        [.dispatch, .body frame next ending]) := by
    intro l h
    exact holds_dispatch_body (hP.require frame dependencies factory errback h) hfit next
  simp only [Machine.perform]
  unfold Loader.bindDefinition
  split
  · -- the first definition of a unit takes over the duty of the unit
    rename_i url ctx
    obtain ⟨t, rfl, rfl⟩ := hfit.unit_of_binds url ctx false rfl
    have h1 : P l (.settle t.key :: k) := by simpa [Ending.duties, Machine.hasDefined] using h
    refine holds_dispatch_body ?_ ⟨?_, ?_, by simp⟩ next
    · simpa [Ending.duties, Machine.hasDefined] using
        hP.define ctx false dependencies factory errback h1
    · intro url' ctx' defined heq
      cases heq
      exact ⟨t, rfl, rfl⟩
    · intro t' heq
      cases heq
      exact ⟨ctx, true, rfl⟩
  · exact hother (hP.aside h trivial)
  · exact hother h

theorem advance (hP : Maintained P) {task : Task ν} (h : P l (task.duties ++ k))
    (hfit : task.Fits) : Holds P k (Machine.advance l task) := by
  cases hs : task.submits with
  | false => exact hP.toKeptByWork.advance h hfit hs
  | true =>
    cases task with
    | body frame script ending =>
      cases script with
      | require dependencies callback errback next =>
        exact holds_dispatch_body (hP.require frame dependencies callback errback h) hfit next
      | define dependencies factory errback next =>
        exact hP.define_body h hfit dependencies factory errback next
      | _ => cases hs
    | settling => cases hs
    | dispatch => cases hs
    | draining => cases hs

theorem step (hP : Maintained P) {m : Machine ν} (h : P m.loader (dutiesOf m.stack))
    (hfit : ∀ task ∈ m.stack, task.Fits) :
    P m.step.loader (dutiesOf m.step.stack) ∧ ∀ task ∈ m.step.stack, task.Fits := by
  obtain ⟨l, stack⟩ := m
  cases stack with
  | nil => exact ⟨h, hfit⟩
  | cons task rest =>
    obtain ⟨h1, h2⟩ := hP.advance (l := l) (k := dutiesOf rest) h (hfit task List.mem_cons_self)
    refine ⟨by simpa [Machine.step] using h1, ?_⟩
    intro task' hmem
    rcases List.mem_append.mp hmem with hmem | hmem
    · exact h2 task' hmem
    · exact hfit task' (List.mem_cons_of_mem _ hmem)

end Maintained
end AsyncModule
