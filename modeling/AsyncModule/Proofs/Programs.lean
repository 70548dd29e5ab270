import AsyncModule.Proofs.Attach
import AsyncModule.Proofs.Duties

/-!
# AsyncModule.Proofs.Programs

The programs that the machine runs. A step starts at most one, on top of the stack, and tells so in
the journal: a unit or script that has been fetched, a callback, or an error handler. It runs in the
context of where it was fetched, or in that of its request. A program that was running goes on
beneath it, with the same end and in the same context.

* `Runs`             — which program is run for what has been fetched.
* `Starts`           — the program that a step starts, with the event that tells of it.
* `launches_advance` — what a step starts, and what goes on.
* `started_advance`  — an event that tells of a program is told of the topmost one.
-/

namespace AsyncModule

variable {ν : Type}

/-- Whether an event tells that a program starts. -/
def Event.starts : Event ν → Bool
  | entered _ _ => true
  | called _ _ => true
  | handled _ _ => true
  | _ => false

namespace Task

/-- The program that a task runs: its frame, and what its end means. -/
def program? : Task ν → Option (Option Frame × Ending ν)
  | body frame _ ending => some (frame, ending)
  | settling frame _ ending => some (frame, ending)
  | _ => none

/-- Whether a program ends next. -/
def ends : Task ν → Bool
  | body _ (.finish _) _ => true
  | _ => false

end Task

namespace Loader

/-- What has happened since one loader was another, as far as the journal tells, is not that a
program has started. -/
def StartsNone (l l' : Loader ν) : Prop :=
  ∃ events, l'.journal = events ++ l.journal ∧ ∀ e ∈ events, e.starts = false

namespace StartsNone

variable {l l' l'' : Loader ν}

theorem of_eq (h : l'.journal = l.journal) : l.StartsNone l' := ⟨[], h, by simp⟩

theorem trans (h : l.StartsNone l') (h' : l'.StartsNone l'') : l.StartsNone l'' := by
  obtain ⟨events, hj, hall⟩ := h
  obtain ⟨events', hj', hall'⟩ := h'
  exact ⟨events' ++ events, by rw [hj', hj, List.append_assoc],
    List.forall_mem_append.mpr ⟨hall', hall⟩⟩

theorem record (h : l.StartsNone l') {e : Event ν} (he : e.starts = false) :
    l.StartsNone (l'.record e) :=
  h.trans ⟨[e], rfl, List.forall_mem_singleton.mpr he⟩

theorem keptByLinking (l : Loader ν) : KeptByLinking fun l' : Loader ν => l.StartsNone l' where
  linked _ _ h := h.record rfl
  context _ _ h := h
  stop _ h _ := h
  attach {l' id _} i t h _ _ := by
    rcases attach_cases l' id i t with ⟨_, hj⟩ | ⟨_, hj⟩
    · exact h.trans (of_eq hj)
    · exact h.trans ⟨[.load t .module], hj, List.forall_mem_singleton.mpr rfl⟩

theorem submit (l : Loader ν) (frame : Option Frame) (dependencies : List String)
    (callback : List ModuleValue → Script ν) (errback : Option (LoadError → Script ν))
    (definitionUrl : Option String) :
    l.StartsNone (l.submit frame dependencies callback errback definitionUrl) :=
  (keptByLinking l).submit (fun _ h => h) (fun _ h => h)
    ⟨[.submitted _ _ _], rfl, List.forall_mem_singleton.mpr rfl⟩

theorem finishMain (l : Loader ν) (t : Target) : l.StartsNone (l.finishMain t) :=
  (keptByLinking l).finishMain (fun _ h => h) (of_eq rfl) t

theorem configure (l : Loader ν) (base : String) : l.StartsNone (l.configure base).2 :=
  (keptByLinking l).configure (fun _ h => h) (fun _ h => h) (of_eq rfl) base

theorem boot (l : Loader ν) (entry : String) (main : Option String) :
    l.StartsNone (l.boot entry main).2 :=
  (keptByLinking l).boot (fun _ h => h) (fun _ h => h) (fun _ h => h.record rfl) (of_eq rfl) entry
    main

end StartsNone
end Loader

namespace Machine

/-- The program that is run for what a resource yields, what its end means, and whether a definition
that it makes becomes the value of a module. -/
inductive Runs (t : Target) : LoadRole → Fetched (Script ν) → Script ν → Ending ν → Bool → Prop where
  | unit (s : Script ν) : Runs t .module (.code s) s (.unit t) true
  | script (fragment : Fragment) (s : Script ν) :
    Runs t .module (.markup fragment (some s)) s (.script t fragment) false
  | main (s : Script ν) : Runs t .main (.code s) s (.main t) false

theorem Runs.ne_callback {t : Target} {role : LoadRole} {result : Fetched (Script ν)}
    {script : Script ν} {ending : Ending ν} {binds : Bool}
    (h : Runs t role result script ending binds) (id : RequestId) (r : Request ν) :
    ending ≠ .callback id r := by
  rintro rfl
  cases h

theorem context_of_filled {r₀ r : Request ν} (h : r = r₀ ∨ ∃ slot v, r = r₀.fill slot v) :
    r.context = r₀.context := by
  obtain rfl | ⟨slot, v, rfl⟩ := h
  · rfl
  · rw [Request.fill_eq]

/-- The program that a task starts, with the event that tells of it: that of a resource whose fetch
has finished, the callback of a live request that may just have been filled, or the handler of a
request that is live or whose callback has just ended. -/
inductive Starts (l : Loader ν) (task : Task ν) : Event ν → Task ν → Prop where
  | enter {f : Fetch ν} {result : Fetched (Script ν)} {ctx : Context} {script : Script ν}
      {ending : Ending ν} {binds : Bool} (hf : f ∈ l.fetches.inFlight)
      (hresult : f.result = some result) (hruns : Runs f.target f.role result script ending binds)
      (hctx : Context.ofUrl f.target.url = .ok ctx) :
      Starts l task (.entered f.target f.role)
        (.body (some (.unit f.target.key ctx binds false)) script ending)
  | call {id : RequestId} {r₀ r : Request ν} (hlive : l.requests.get? id = some r₀)
      (hr : r = r₀ ∨ ∃ slot v, r = r₀.fill slot v) :
      Starts l task (.called id r.values)
        (.body (some (.callback r.context)) (r.callback r.values) (.callback id r))
  | handle {id : RequestId} {r : Request ν} {e : LoadError} {errback : LoadError → Script ν}
      {definition : Option String} (hr : l.requests.get? id = some r ∨
        ∃ frame, task.program? = some (frame, .callback id r))
      (herrback : r.errback = some errback)
      (hdefinition : definition = none ∨ definition = r.definitionUrl) :
      Starts l task (.handled id e)
        (.body (some (.callback r.context)) (errback e) (.errback definition e))

/-- What is put on the stack for a task: it may start with a program that the task starts, and there
is no other among it. -/
inductive Launches (l : Loader ν) (task : Task ν) : Loader ν × List (Task ν) → Prop where
  | nothing {l' : Loader ν} {tasks : List (Task ν)} (hj : l.StartsNone l')
      (htasks : ∀ task' ∈ tasks, task'.program? = none) : Launches l task (l', tasks)
  | program {l₁ l' : Loader ν} {event : Event ν} {new : Task ν} {tasks : List (Task ν)}
      (hstarts : Starts l task event new) (hj : l.StartsNone l₁)
      (hevent : l'.journal = event :: l₁.journal)
      (htasks : ∀ task' ∈ tasks, task'.program? = none) : Launches l task (l', new :: tasks)

variable {l l₁ l' : Loader ν} {task : Task ν} {tasks : List (Task ν)}

theorem launches_nil (hj : l.StartsNone l') : Launches l task (l', []) :=
  .nothing hj (by simp)

theorem Launches.append {out : Loader ν × List (Task ν)} (h : Launches l task out)
    {more : List (Task ν)} (hmore : ∀ task' ∈ more, task'.program? = none) :
    Launches l task (out.1, out.2 ++ more) := by
  cases h with
  | nothing hj htasks => exact .nothing hj (List.forall_mem_append.mpr ⟨htasks, hmore⟩)
  | program hstarts hj hevent htasks =>
    exact .program hstarts hj hevent (List.forall_mem_append.mpr ⟨htasks, hmore⟩)

/-! ## Failing and calling back -/

theorem launches_handle {id : RequestId} {r : Request ν} {errback : LoadError → Script ν}
    {definition : Option String} (hj : l.StartsNone l₁)
    (hr : l.requests.get? id = some r ∨ ∃ frame, task.program? = some (frame, .callback id r))
    (herrback : r.errback = some errback)
    (hdefinition : definition = none ∨ definition = r.definitionUrl) (e : LoadError) :
    Launches l task (handle l₁ id r e errback definition) :=
  .program (.handle hr herrback hdefinition) hj rfl (by simp)

theorem launches_failModule (hj : l.StartsNone l₁)
    (hlive : ∀ {id r}, l₁.requests.get? id = some r → l.requests.get? id = some r)
    (url : String) (e : LoadError) : Launches l task (failModule l₁ url e) := by
  unfold failModule Loader.failModule
  cases hd : l₁.registry.definition? url with
  | none => exact launches_nil (hj.trans (.of_eq rfl))
  | some id =>
    cases hr : l₁.requests.get? id with
    | none =>
      simp only [hr]
      exact launches_nil (hj.trans (.of_eq rfl))
    | some r =>
      have hfailed : l.StartsNone
          (((l₁.abandonModule url e).withdraw id r).record (.failed id e)) :=
        (hj.trans (.of_eq rfl)).record rfl
      simp only [hr]
      cases herrback : r.errback with
      | some errback => exact launches_handle hfailed (.inl (hlive hr)) herrback (.inl rfl) e
      | none =>
        dsimp only
        split
        · exact launches_nil hfailed
        · exact launches_nil (hfailed.record rfl)

theorem launches_report {id : RequestId} {r : Request ν} (hj : l.StartsNone l₁)
    (hlive : ∀ {id r}, l₁.requests.get? id = some r → l.requests.get? id = some r)
    (hr : l.requests.get? id = some r ∨ ∃ frame, task.program? = some (frame, .callback id r))
    (e : LoadError) : Launches l task (report l₁ id r e) := by
  have hfailed : l.StartsNone (l₁.record (.failed id e)) := hj.record rfl
  unfold report
  dsimp only
  cases herrback : r.errback with
  | some errback => exact launches_handle hfailed hr herrback (.inr rfl) e
  | none =>
    cases r.definitionUrl with
    | some url => exact launches_failModule hfailed hlive url e
    | none => exact launches_nil (hfailed.record rfl)

theorem launches_process {s : Step} {rest : List Step} :
    Launches l task (process { l with worklist := rest } s) := by
  have hsame : l.StartsNone { l with worklist := rest } := .of_eq rfl
  cases s with
  | fill id i v =>
    simp only [process, fill]
    cases hr : l.requests.get? id with
    | none => exact launches_nil hsame
    | some r =>
      dsimp only
      split
      · simp only [fire, Requests.get?_modify_self (·.fill i v) hr]
        exact .program (.call hr (.inr ⟨i, v, rfl⟩)) hsame rfl (by simp)
      · exact launches_nil (.of_eq rfl)
  | fire id =>
    simp only [process, fire]
    cases hr : l.requests.get? id with
    | none => exact launches_nil hsame
    | some r => exact .program (.call hr (.inl rfl)) hsame rfl (by simp)
  | fail id e =>
    simp only [process, failRequest]
    cases hr : l.requests.get? id with
    | none => exact launches_nil hsame
    | some r =>
      have hwithdrawn : l.StartsNone (Loader.withdraw { l with worklist := rest } id r) :=
        .of_eq rfl
      refine launches_report hwithdrawn ?_ (.inl hr) e
      intro id' r' hr'
      simp only [Loader.withdraw, Requests.get?_erase] at hr'
      split at hr'
      · cases hr'
      · exact hr'

/-! ## The ends of programs -/

theorem launches_conclude (frame : Option Frame) (o : Outcome) (ending : Ending ν)
    (hending : ∃ frame', task.program? = some (frame', ending)) :
    Launches l task (conclude l frame o ending) := by
  have hsame : Launches l task (l, []) := launches_nil (.of_eq rfl)
  have hfail : ∀ url e, Launches l task (failModule l url e) :=
    launches_failModule (.of_eq rfl) fun hr => hr
  cases ending with
  | plain => exact hsame
  | unit t =>
    simp only [conclude, concludeUnit]
    split
    · exact hfail _ _
    · split
      · exact hsame
      · exact hfail _ _
  | script t fragment =>
    simp only [conclude, concludeScript]
    split
    · exact hfail _ _
    · exact launches_nil (.of_eq rfl)
  | main t =>
    refine launches_nil ?_
    cases o with
    | error reason => exact (Loader.StartsNone.record (.of_eq rfl) rfl).trans (.finishMain _ t)
    | done => exact .finishMain l t
    | value v => exact .finishMain l t
  | callback id r =>
    have hreturned : l.StartsNone (l.record (.returned id o)) :=
      Loader.StartsNone.record (.of_eq rfl) rfl
    simp only [conclude, concludeCallback]
    split
    · exact launches_report hreturned (fun hr => hr) (.inr hending) _
    · split
      · exact launches_nil (hreturned.trans (.of_eq rfl))
      · exact launches_nil hreturned
  | errback definition e =>
    cases definition with
    | none => exact hsame
    | some url => exact hfail url e

/-! ## Taking up what has been fetched -/

section Complete

variable {f : Fetch ν} {result : Fetched (Script ν)} (hj : l.StartsNone l₁)
  (hf : f ∈ l.fetches.inFlight) (hresult : f.result = some result)

include hj hf hresult

theorem launches_completeModule (hrole : f.role = .module)
    (hlive : ∀ {id r}, l₁.requests.get? id = some r → l.requests.get? id = some r) :
    Launches l task (completeModule l₁ f.target result) := by
  have hfail : ∀ e, Launches l task (failModule l₁ f.target.key e) :=
    launches_failModule hj hlive _
  have hexecute : ∀ {ctx script ending binds}, Runs f.target .module result script ending binds →
      Context.ofUrl f.target.url = .ok ctx →
      Launches l task (execute l₁ f.target .module binds ctx script ending) :=
    fun hruns hctx => .program (hrole ▸ .enter hf hresult (hrole ▸ hruns) hctx) hj rfl (by simp)
  cases result with
  | failed e => exact hfail e
  | code s =>
    simp only [completeModule]
    split
    · exact hfail _
    · rename_i hctx
      exact hexecute (.unit s) hctx
  | markup fragment script =>
    cases script with
    | none => exact launches_nil (hj.trans (.of_eq rfl))
    | some s =>
      simp only [completeModule]
      split
      · exact hfail _
      · rename_i hctx
        exact hexecute (.script fragment s) hctx

theorem launches_completeMain (hrole : f.role = .main) :
    Launches l task (completeMain l₁ f.target result) := by
  have hidle : ∀ r, Launches l task ((l₁.record (.report r)).finishMain f.target, []) :=
    fun r => launches_nil ((hj.record rfl).trans (.finishMain _ _))
  cases result with
  | failed e => exact hidle _
  | code s =>
    simp only [completeMain]
    split
    · exact hidle _
    · rename_i hctx
      exact .program (hrole ▸ .enter hf hresult (hrole ▸ .main s) hctx) hj rfl (by simp)
  | markup fragment script => exact hidle _

end Complete

theorem launches_takeUp : Launches l task (takeUp l).2 := by
  unfold takeUp
  split
  · exact launches_nil (.of_eq rfl)
  · rename_i f result fs htake
    obtain ⟨hf, hresult, _⟩ := Fetches.take_eq_some htake
    have harrived : l.StartsNone
        (Loader.record { l with fetches := fs } (.arrived f.target f.role)) :=
      Loader.StartsNone.record (.of_eq rfl) rfl
    have hcomplete : Launches l task (complete { l with fetches := fs } f result) := by
      unfold complete
      dsimp only
      split
      · rename_i hrole
        exact launches_completeModule harrived hf hresult hrole fun hr => hr
      · rename_i hrole
        exact launches_completeMain harrived hf hresult hrole
    refine hcomplete.append ?_
    intro task' htask
    rw [List.mem_singleton.mp htask]
    rfl

/-! ## What goes on -/

/-- What is kept on the stack in the place of a task: a program that does not end goes on, with the
same end and in the same context. -/
inductive Continues (task : Task ν) : List (Task ν) → Prop where
  | ended {kept : List (Task ν)} (hover : task.ends = true ∨ task.program? = none)
      (hkept : ∀ task' ∈ kept, task'.program? = none) : Continues task kept
  | resumed {task' : Task ν} {frame frame' : Option Frame} {ending : Ending ν}
      (hends : task.ends = false) (htask : task.program? = some (frame, ending))
      (htask' : task'.program? = some (frame', ending))
      (hctx : frame'.bind Frame.context? = frame.bind Frame.context?) : Continues task [task']

/-- A program that does not end goes on when nothing but the worklist is to be seen to before. -/
theorem goes_on (tasks : List (Task ν)) {frame frame' : Option Frame} {script script' : Script ν}
    {ending : Ending ν} (hj : l.StartsNone l') (htasks : ∀ task ∈ tasks, task.program? = none)
    (hends : (Task.body frame script ending).ends = false)
    (hctx : frame'.bind Frame.context? = frame.bind Frame.context?) :
    ∃ tasks' kept, tasks ++ [.body frame' script' ending] = tasks' ++ kept ∧
      Launches l (.body frame script ending) (l', tasks') ∧
      Continues (.body frame script ending) kept :=
  ⟨tasks, _, rfl, .nothing hj htasks, .resumed hends rfl rfl hctx⟩

theorem context?_bindDefinition (l : Loader ν) (frame : Option Frame) :
    (l.bindDefinition frame).2.1.bind Frame.context? = frame.bind Frame.context? := by
  unfold Loader.bindDefinition
  split <;> rfl

theorem startsNone_bindDefinition (l : Loader ν) (frame : Option Frame) :
    l.StartsNone (l.bindDefinition frame).2.2 := by
  unfold Loader.bindDefinition
  split
  · exact .of_eq rfl
  · exact Loader.StartsNone.record (.of_eq rfl) rfl
  · exact .of_eq rfl

/-- A step of a task starts at most one program, and the one that it runs goes on. -/
theorem launches_advance (l : Loader ν) (task : Task ν) :
    ∃ tasks kept, (advance l task).2 = tasks ++ kept ∧
      Launches l task ((advance l task).1, tasks) ∧ Continues task kept := by
  cases task with
  | body frame script ending =>
    have hsame : l.StartsNone l := .of_eq rfl
    have hchange : ∀ (next : Option LoadError → Script ν) out,
        (Task.body frame script ending).ends = false → l.StartsNone out.2 →
        ∃ tasks kept, (afterChange frame next ending out).2 = tasks ++ kept ∧
          Launches l (.body frame script ending) ((afterChange frame next ending out).1, tasks) ∧
          Continues (.body frame script ending) kept := by
      rintro next ⟨result, l'⟩ hends hj
      rcases result with e | (_ | _)
      · exact goes_on [] hj (by simp) hends rfl
      · exact goes_on [] hj (by simp) hends rfl
      · exact goes_on [.dispatch] hj (by simp [Task.program?]) hends rfl
    cases script with
    | finish o =>
      exact ⟨_, [], (List.append_nil _).symm, launches_conclude frame o ending ⟨frame, rfl⟩,
        .ended (.inl rfl) (by simp)⟩
    | require dependencies callback errback next =>
      exact goes_on [.dispatch] (.submit _ _ _ _ _ _) (by simp [Task.program?]) rfl rfl
    | define dependencies factory errback next =>
      exact goes_on [.dispatch] ((startsNone_bindDefinition l frame).trans
        (.submit _ _ _ _ _ _)) (by simp [Task.program?]) rfl (context?_bindDefinition l frame)
    | configure base next =>
      simp only [advance, perform]
      exact hchange next _ rfl (.configure l base)
    | bootstrap entry main next =>
      simp only [advance, perform]
      exact hchange next _ rfl (.boot l entry main)
    | turn next => exact ⟨_, _, rfl, launches_takeUp, .resumed rfl rfl rfl rfl⟩
    | settle next => exact ⟨[], _, rfl, launches_nil hsame, .resumed rfl rfl rfl rfl⟩
    | deliver url result next =>
      simp only [advance, perform]
      split
      · exact goes_on [] (.of_eq rfl) (by simp) rfl rfl
      · exact goes_on [] hsame (by simp) rfl rfl
    | make payload next => exact goes_on [] (.of_eq rfl) (by simp) rfl rfl
    | look next => exact goes_on [] hsame (by simp) rfl rfl
    | note n next => exact goes_on [] (hsame.record rfl) (by simp) rfl rfl
  | settling frame next ending =>
    have htakeUp := @launches_takeUp _ l (.settling frame next ending)
    simp only [advance]
    split
    · rename_i l' tasks heq
      rw [heq] at htakeUp
      exact ⟨tasks, _, rfl, htakeUp, .resumed rfl rfl rfl rfl⟩
    · rename_i t l' tasks hne heq
      rw [heq, KeptByFailing.tasks_of_takeUp heq hne] at htakeUp
      exact ⟨[], _, rfl, htakeUp, .resumed rfl rfl rfl rfl⟩
  | dispatch =>
    simp only [advance]
    split
    · exact ⟨[], [], rfl, launches_nil (.of_eq rfl), .ended (.inr rfl) (by simp)⟩
    · exact ⟨[], [.draining], rfl, launches_nil (.of_eq rfl),
        .ended (.inr rfl) (by simp [Task.program?])⟩
  | draining =>
    simp only [advance]
    split
    · exact ⟨[], [], rfl, launches_nil (.of_eq rfl), .ended (.inr rfl) (by simp)⟩
    · exact ⟨_, _, rfl, launches_process, .ended (.inr rfl) (by simp [Task.program?])⟩

/-- An event that tells of a program is told of the topmost one. -/
theorem started_advance {event : Event ν} {older : List (Event ν)}
    (hj : (advance l task).1.journal = event :: older) (hstarts : event.starts = true)
    (hnew : l.journal.length ≤ older.length) :
    ∃ new rest, (advance l task).2 = new :: rest ∧ Starts l task event new := by
  obtain ⟨tasks, kept, htasks, hlaunches, _⟩ := launches_advance l task
  rw [htasks]
  generalize (advance l task).1 = l' at hj hlaunches
  cases hlaunches with
  | nothing hnone _ =>
    -- What has been told since is no start; and something has been told.
    obtain ⟨events, hevents, hall⟩ := hnone
    rw [hj] at hevents
    cases events with
    | nil =>
      have hlength := congrArg List.length hevents
      simp at hlength
      omega
    | cons e events =>
      cases hevents
      rw [hall event List.mem_cons_self] at hstarts
      cases hstarts
  | program hprogram _ hevent _ =>
    rw [hevent] at hj
    cases hj
    exact ⟨_, _, rfl, hprogram⟩

/-- Whoever is called back afterwards is running already, or has just been called. -/
theorem callback_advance {task' : Task ν} {frame : Option Frame} {id : RequestId} {r : Request ν}
    (hmem : task' ∈ (advance l task).2) (htask' : task'.program? = some (frame, .callback id r)) :
    (∃ r₀, l.requests.get? id = some r₀ ∧ r.context = r₀.context) ∨
      ∃ frame', task.program? = some (frame', .callback id r) := by
  obtain ⟨tasks, kept, htasks, hlaunches, hcontinues⟩ := launches_advance l task
  rw [htasks, List.mem_append] at hmem
  have hnone : ∀ {tasks : List (Task ν)}, (∀ task ∈ tasks, task.program? = none) →
      task' ∉ tasks := by
    intro tasks hall hmem
    rw [hall task' hmem] at htask'
    cases htask'
  rcases hmem with hmem | hmem
  · cases hlaunches with
    | nothing _ hall => exact absurd hmem (hnone hall)
    | program hstarts _ _ hall =>
      obtain rfl := (List.mem_cons.mp hmem).resolve_right (hnone hall)
      cases hstarts with
      | enter _ _ hruns _ =>
        cases htask'
        exact absurd rfl (hruns.ne_callback id r)
      | call hlive hr =>
        cases htask'
        exact .inl ⟨_, hlive, context_of_filled hr⟩
      | handle => cases htask'
  · cases hcontinues with
    | ended _ hall => exact absurd hmem (hnone hall)
    | resumed _ htask hkept _ =>
      rw [List.mem_singleton.mp hmem, hkept] at htask'
      cases htask'
      exact .inr ⟨_, htask⟩

/-- The program that a task runs goes on at the bottom of what takes its place, unless it ends. -/
theorem continued_advance {frame : Option Frame} {ending : Ending ν}
    (hends : task.ends = false) (htask : task.program? = some (frame, ending)) :
    ∃ tasks task' frame', (advance l task).2 = tasks ++ [task'] ∧
      task'.program? = some (frame', ending) ∧
      frame'.bind Frame.context? = frame.bind Frame.context? := by
  obtain ⟨tasks, kept, htasks, _, hcontinues⟩ := launches_advance l task
  cases hcontinues with
  | ended hover _ =>
    rw [hends, htask] at hover
    simp at hover
  | resumed _ htask₁ htask' hctx =>
    rw [htask] at htask₁
    cases htask₁
    exact ⟨tasks, _, _, htasks, htask', hctx⟩

end Machine

end AsyncModule
