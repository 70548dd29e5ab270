import AsyncModule.Proofs.Deeds
import AsyncModule.Proofs.Deferral
import AsyncModule.Proofs.Loads
import AsyncModule.Proofs.Resolved
import AsyncModule.Proofs.Rest

/-!
# AsyncModule.Proofs.Tally

Runs along which a tally is kept: of whether a context has been set up, and of how many main
resources have been dealt with.

* `Machine.Tallied` — a machine that can be reached, with its tally.
* `Machine.of_finishing` — whatever has been dealt with has been on its way, and leaves a context.
* `Machine.changes_step` — what one step makes of contexts, and of what waits for one.
* `Tallied.counts`  — the counter of main resources agrees with the tally.
-/

namespace AsyncModule

variable {ν : Type}

/-! ## What is counted -/

/-- How many main resources have been asked for. -/
def mainsOf (ps : List (Target × LoadRole)) : Nat := ps.countP (·.2 = .main)

namespace Machine

/-- Whether the next step sets up a context. -/
def setsUp (m : Machine ν) : Bool := m.stack.head?.any (Task.setsUp m.loader)

/-- The main resource that the next step has dealt with. -/
def finishing? (m : Machine ν) : Option Target := m.stack.head?.bind (Task.finishing? m.loader)

/-- A machine that can be reached; with whether a context has been set up by then, and how many main
resources have been dealt with. -/
inductive Tallied : Bool → Nat → Machine ν → Prop where
  | start (config : Config) (resources : Target → Option (Fetched (Script ν))) (script : Script ν) :
      Tallied false 0 (start (Loader.new config resources) script)
  | configured {config : Config} {resources : Target → Option (Fetched (Script ν))} {l : Loader ν}
      (hl : Loader.ofConfig config resources = .ok l) (script : Script ν) :
      Tallied config.baseUrl.isSome 0 (Machine.start l script)
  | step {setUp : Bool} {finished : Nat} {m : Machine ν} (h : Tallied setUp finished m) :
      Tallied (setUp || m.setsUp) (finished + m.finishing?.toList.length) m.step
  | pass {setUp : Bool} {finished : Nat} {m : Machine ν} (h : Tallied setUp finished m)
      {fetches : Fetches ν} (hagree : m.loader.fetches.Agree fetches) :
      Tallied setUp finished { m with loader := { m.loader with fetches } }
  | call {setUp : Bool} {finished : Nat} {m : Machine ν} (h : Tallied setUp finished m)
      (script : Script ν) (hs : m.stack = []) :
      Tallied setUp finished { m with stack := [.body none script .plain] }

variable {m m' : Machine ν} {setUp : Bool} {finished : Nat}

theorem Tallied.reachable (h : m.Tallied setUp finished) : m.Reachable := by
  induction h with
  | start config resources script => exact reachable_start config resources script
  | configured hl script => exact ⟨_, ⟨_, _, _, script, .inr hl, rfl⟩, .refl⟩
  | step _ ih => exact ih.goes (.step _)
  | pass _ hagree ih => exact ih.goes (.pass _ hagree)
  | call _ script hs ih => exact ih.goes (.call script hs)

theorem Reachable.tallied (h : m.Reachable) : ∃ setUp finished, m.Tallied setUp finished := by
  obtain ⟨m₀, ⟨config, resources, l, script, hl, rfl⟩, hrun⟩ := h
  induction hrun with
  | refl =>
    rcases hl with rfl | hl
    · exact ⟨_, _, .start config resources script⟩
    · exact ⟨_, _, .configured hl script⟩
  | tail _ hgo ih =>
    obtain ⟨setUp, finished, ih⟩ := ih
    cases hgo with
    | step => exact ⟨_, _, ih.step⟩
    | pass hagree => exact ⟨_, _, ih.pass hagree⟩
    | call script hs => exact ⟨_, _, ih.call script hs⟩

end Machine

/-! ## Main resources that have been dealt with -/

/-- Every main resource on its way leaves a context. -/
def Loader.MainsFit (l : Loader ν) : Prop :=
  ∀ e ∈ l.fetches.errands, e.2.2 = .main → ∃ ctx, Context.ofUrl e.2.1.url = .ok ctx

namespace Loader

variable {l : Loader ν}

theorem keptByLinking_mainsFit : KeptByLinking fun l : Loader ν => l.MainsFit where
  linked _ _ h := h
  context _ _ h := h
  stop _ h _ := h
  attach {l id _} i t h _ _ := by
    rcases attach_cases l id i t with ⟨hf, _⟩ | ⟨hf, _⟩
    · unfold MainsFit
      rw [hf]
      exact h
    · intro e he hmain
      rw [hf, Fetches.errands_start, List.mem_append, List.mem_singleton] at he
      rcases he with he | rfl
      · exact h e he hmain
      · cases hmain

end Loader

open Loader in
theorem maintained_mainsFit : Maintained fun (l : Loader ν) _ => l.MainsFit where
  aside h _ := h
  make _ h := h
  fetches h ha := by
    unfold MainsFit
    rw [show _ = _ from ha.1]
    exact h
  arrive h htake := by
    intro e he
    obtain ⟨f, hf, rfl⟩ := List.mem_map.mp he
    exact h _ (List.mem_map_of_mem (Fetches.inFlight_of_take htake hf))
  enter _ h _ := h
  require _ _ _ _ h := keptByLinking_mainsFit.submit (fun _ h => h) (fun _ h => h) h
  define _ _ _ _ _ h := keptByLinking_mainsFit.submit (fun _ h => h) (fun _ h => h) h
  unwatch h := h
  setDefaultBase _ h := h
  establish _ h := keptByLinking_mainsFit.afterEstablishing (fun _ h => h) h _
  beginMain {l _ _} root t h hd := by
    intro e he hmain
    have he : e ∈ (l.fetches.start t .main (l.resources t)).errands := he
    rw [Fetches.errands_start, List.mem_append, List.mem_singleton] at he
    rcases he with he | rfl
    · exact h e he hmain
    · exact Context.exists_ofUrl (Url.rooted_of_directory hd).1
  finishMain t h := keptByLinking_mainsFit.finishMain (fun _ h => h) h t
  ready _ h := h
  abandon _ h _ _ := h
  abandonDefinition _ h _ _ _ := h
  finish h _ := h
  fault h _ := h
  handle h _ := h
  dispatch h _ := h
  redispatch h _ := h
  drained h _ := h
  dead h _ _ := h
  fill h _ _ _ := h
  fillFire h _ _ _ := h
  fire h _ _ := h
  fail h _ _ := h

theorem Loader.mem_of_idleMain {l : Loader ν} {t : Target} (h : l.idleMain? = some t) :
    ∃ e ∈ l.fetches.errands, e.2.1 = t ∧ e.2.2 = .main := by
  unfold Loader.idleMain? at h
  split at h
  · rename_i f result fs htake
    cases hrole : f.role with
    | module =>
      rw [hrole] at h
      cases h
    | main =>
      rw [hrole] at h
      have hidle : result.idle? f.target = some t := h
      refine ⟨f.errand, List.mem_map_of_mem (Fetches.take_eq_some htake).1, ?_, hrole⟩
      cases result with
      | code s =>
        simp only [Fetched.idle?] at hidle
        cases hctx : Context.ofUrl f.target.url with
        | ok ctx =>
          rw [hctx] at hidle
          cases hidle
        | error e =>
          rw [hctx] at hidle
          exact Option.some.inj hidle
      | failed e => exact Option.some.inj hidle
      | markup fragment script => exact Option.some.inj hidle
  · cases h

namespace Machine

variable {m : Machine ν} {t : Target}

/-- The main resource that has been dealt with has been on its way, and leaves a context. -/
theorem of_finishing (h : m.Reachable) (ht : m.finishing? = some t) :
    0 < m.loader.bootstrap.inFlight ∧ ∃ ctx, Context.ofUrl t.url = .ok ctx := by
  have hcounter := h.mains.counter
  obtain ⟨task, hhead, ht⟩ := Option.bind_eq_some_iff.mp ht
  obtain ⟨rest, hstack⟩ := List.head?_eq_some_iff.mp hhead
  have hmem : task ∈ m.stack := by rw [hstack]; exact List.mem_cons_self
  have hidle : m.loader.idleMain? = some t →
      0 < m.loader.bootstrap.inFlight ∧ ∃ ctx, Context.ofUrl t.url = .ok ctx := by
    intro hidle
    obtain ⟨e, he, rfl, hrole⟩ := Loader.mem_of_idleMain hidle
    have hpos : 0 < m.loader.fetches.mains := List.countP_pos_iff.mpr ⟨e, he, by simpa using hrole⟩
    have hfit : m.loader.MainsFit :=
      maintained_mainsFit.reachable (fun _ _ _ he => nomatch he) h
    exact ⟨by omega, hfit e he hrole⟩
  cases task with
  | body frame script ending =>
    cases script with
    | finish o =>
      cases ending with
      | main t' =>
        cases ht
        have hfit := h.fits _ hmem
        have hduty : .main ∈ dutiesOf m.stack :=
          List.mem_flatMap.mpr ⟨_, hmem, List.mem_singleton.mpr rfl⟩
        have hpos := List.count_pos_iff.mpr hduty
        exact ⟨by omega, hfit.context_of_main t rfl⟩
      | _ => cases ht
    | turn next => exact hidle ht
    | _ => cases ht
  | settling frame next ending => exact hidle ht
  | dispatch => cases ht
  | draining => cases ht

end Machine

/-! ## What becomes of contexts -/

/-- Two states of the contexts differ at most in what is deferred. -/
structure Bootstrap.SameContexts (b b' : Bootstrap) : Prop where
  state : b'.state = b.state
  inFlight : b'.inFlight = b.inFlight
  root : b'.root = b.root
  ambient : b'.ambient = b.ambient

theorem Bootstrap.SameContexts.refl (b : Bootstrap) : b.SameContexts b := ⟨rfl, rfl, rfl, rfl⟩

theorem Bootstrap.SameContexts.forget {b b' : Bootstrap} (h : b.SameContexts b')
    (id : RequestId) : b.SameContexts (b'.forget id) := ⟨h.state, h.inFlight, h.root, h.ambient⟩

/-- Whether an event tells that something is asked for: a request is made or linked, or a resource
loaded. -/
def Event.asks : Event ν → Bool
  | .submitted _ _ _ => true
  | .linked _ _ _ => true
  | .load _ _ => true
  | _ => false

namespace Loader

variable {l l' l'' l₀ : Loader ν} {t : Target}

/-- Whoever tends asks for nothing. -/
theorem keptByTending_filterMap {α : Type} {f : Event ν → Option α}
    (hf : ∀ e, e.asks = false → f e = none) (xs : List α) :
    KeptByTending fun (l : Loader ν) _ => l.journal.filterMap f = xs := by
  have hcons : ∀ {e j}, j.filterMap f = xs → e.asks = false → (e :: j).filterMap f = xs := by
    intro e j hj he
    rw [List.filterMap_cons_none (hf e he), hj]
  refine ⟨?_, fun _ h => h⟩
  refine
    { aside := fun {l k e} h ha => hcons h (by cases e <;> first | rfl | cases ha)
      make := fun _ h => h
      fetches := fun h _ => h
      arrive := fun h _ => hcons h rfl
      enter := fun _ h _ => hcons h rfl
      unwatch := fun h => h
      abandon := fun _ h _ _ => h
      abandonDefinition := fun _ h _ _ _ => hcons h rfl
      finish := fun h _ => hcons h rfl
      fault := fun h _ => hcons (hcons h rfl) rfl
      handle := fun h _ => hcons h rfl
      dispatch := fun h _ => h
      redispatch := fun h _ => h
      drained := fun h _ => h
      dead := fun h _ _ => h
      fill := fun h _ _ _ => h
      fillFire := fun h _ _ _ => hcons h rfl
      fire := fun h _ _ => hcons h rfl
      fail := fun h _ _ => hcons h rfl }

theorem keptByTending_contexts (b : Bootstrap) :
    KeptByTending fun (l : Loader ν) _ => b.SameContexts l.bootstrap where
  aside h _ := h
  make _ h := h
  fetches h _ := h
  arrive h _ := h
  enter _ h _ := h
  unwatch h := h
  ready _ h := h
  abandon _ h _ _ := h
  abandonDefinition _ h _ _ _ := h.forget _
  finish h _ := h
  fault h _ := h
  handle h _ := h
  dispatch h _ := h
  redispatch h _ := h
  drained h _ := h
  dead h _ _ := h
  fill h _ _ _ := h
  fillFire h _ _ _ := h
  fire h _ _ := h
  fail h _ _ := h.forget _

theorem keptByLinking_bootstrap (b : Bootstrap) :
    KeptByLinking fun l : Loader ν => l.bootstrap = b where
  linked _ _ h := h
  context _ _ h := h
  stop _ h _ := h
  attach {l id _} i t h _ _ := (bootstrap_attach l id i t).trans h

/-- Linking loads modules only, so whatever tells nothing of these stays as it was. -/
theorem keptByLinking_loads {α : Type} {f : List (Target × LoadRole) → α}
    (hf : ∀ t ps, f ((t, .module) :: ps) = f ps) (a : α) :
    KeptByLinking fun l : Loader ν => f (loads l.journal) = a where
  linked _ _ h := h
  context _ _ h := h
  stop _ h _ := h
  attach {l id _} i t h _ _ := by
    rcases attach_cases l id i t with ⟨_, hj⟩ | ⟨_, hj⟩
    · rw [hj]
      exact h
    · rw [hj]
      exact (hf t _).trans h

theorem mainsOf_module (t : Target) (ps : List (Target × LoadRole)) :
    mainsOf ((t, .module) :: ps) = mainsOf ps := rfl

theorem mains_afterEstablishing (l : Loader ν) (change : Bool × Bootstrap) :
    mainsOf (loads (l.afterEstablishing change).2.journal) = mainsOf (loads l.journal) :=
  (keptByLinking_loads mainsOf_module _).afterEstablishing (fun _ h => h) rfl change

theorem bootstrap_afterEstablishing (l : Loader ν) (change : Bool × Bootstrap) :
    (l.afterEstablishing change).2.bootstrap = change.2 ∨
      change.1 = true ∧
        (l.afterEstablishing change).2.bootstrap = { change.2 with deferred := [] } := by
  unfold afterEstablishing
  cases change.1 with
  | false => exact .inl rfl
  | true =>
    simp only [if_true]
    unfold drainDeferred
    split
    · exact .inl rfl
    · exact .inr ⟨trivial, (keptByLinking_bootstrap _).linkAll _ _ rfl⟩

theorem finishMain_eq {ctx : Context} (hctx : Context.ofUrl t.url = .ok ctx) :
    l.finishMain t = (l.afterEstablishing (l.bootstrap.finishEstablishing ctx)).2 := by
  unfold finishMain
  rw [hctx]

/-- What a step makes of contexts, and of what waits for one. -/
structure Changes (l : Loader ν) (setsUp : Bool) (finished : Option Target) (l' : Loader ν) :
    Prop where
  uninitialized : l'.bootstrap.state = .uninitialized ↔
    l.bootstrap.state = .uninitialized ∧ setsUp = false
  counted : l'.bootstrap.inFlight + finished.toList.length + mainsOf (loads l.journal) =
    l.bootstrap.inFlight + mainsOf (loads l'.journal)
  deferred : 0 < l'.bootstrap.inFlight → l.bootstrap.deferred <+: l'.bootstrap.deferred

/-- Nothing is set up, nor is a main resource asked for or dealt with. -/
theorem changes_of_same (h : l.bootstrap.SameContexts l'.bootstrap)
    (hmains : mainsOf (loads l'.journal) = mainsOf (loads l.journal))
    (hd : l.bootstrap.deferred <+: l'.bootstrap.deferred) : l.Changes false none l' where
  uninitialized := by simp [h.state]
  counted := by
    rw [h.inFlight, hmains]
    rfl
  deferred _ := hd

/-- A request that is made without a context may be deferred; nothing else becomes of contexts. -/
theorem bootstrap_submit (l : Loader ν) (frame : Option Frame) (dependencies : List String)
    (callback : List ModuleValue → Script ν) (errback : Option (LoadError → Script ν))
    (definitionUrl : Option String) :
    (l.submit frame dependencies callback errback definitionUrl).bootstrap = l.bootstrap ∨
      l.context? frame = none ∧
        (l.submit frame dependencies callback errback definitionUrl).bootstrap =
          l.bootstrap.defer (l.enter (.ofCall dependencies callback errback (l.context? frame)
            definitionUrl)).1 := by
  unfold submit
  dsimp only
  unfold begin
  split
  · exact .inl rfl
  · split
    · exact .inl (bootstrap_link _ _ _)
    · rename_i hctx
      exact .inr ⟨hctx, rfl⟩

theorem changes_submit (l : Loader ν) (frame : Option Frame) (dependencies : List String)
    (callback : List ModuleValue → Script ν) (errback : Option (LoadError → Script ν))
    (definitionUrl : Option String) :
    l.Changes false none (l.submit frame dependencies callback errback definitionUrl) := by
  have hmains : mainsOf (loads
      (l.submit frame dependencies callback errback definitionUrl).journal) =
      mainsOf (loads l.journal) :=
    (keptByLinking_loads mainsOf_module _).submit (fun _ h => h) (fun _ h => h) rfl
  rcases bootstrap_submit l frame dependencies callback errback definitionUrl with hb | ⟨_, hb⟩
  · exact changes_of_same (hb ▸ .refl _) hmains (hb ▸ List.prefix_rfl)
  · exact changes_of_same (hb ▸ ⟨rfl, rfl, rfl, rfl⟩) hmains (hb ▸ List.prefix_append _ _)

/-- Of what has been noted nothing tells of a request or a load. -/
theorem told_of_notes {α : Type} {f : Event ν → Option α} (hf : ∀ e, e.IsNotice → f e = none)
    (h : Notes l l') : l'.journal.filterMap f = l.journal.filterMap f := by
  obtain ⟨events, hj, hnotices⟩ := h.journal
  rw [hj, List.filterMap_append,
    List.filterMap_eq_nil_iff.mpr fun e he => hf e (hnotices e he), List.nil_append]

theorem loads_of_notes (h : Notes l l') : loads l'.journal = loads l.journal :=
  told_of_notes (fun e he => by cases e <;> first | rfl | exact he.elim) h

/-- Whoever concludes establishes the loader, unless main resources are on their way. -/
theorem bootstrap_conclude (l : Loader ν) (b : Bootstrap) :
    (l.afterEstablishing b.conclude).2.bootstrap.inFlight = b.inFlight ∧
    (l.afterEstablishing b.conclude).2.bootstrap.ambient = b.ambient ∧
    (b.inFlight = 0 → (l.afterEstablishing b.conclude).2.bootstrap.state = .established) ∧
    (0 < b.inFlight → (l.afterEstablishing b.conclude).2.bootstrap = b) := by
  by_cases hz : b.inFlight = 0
  · have hc : b.conclude = (true, { b with state := .established }) := by
      simp [Bootstrap.conclude, hz]
    rw [hc]
    rcases bootstrap_afterEstablishing l (true, { b with state := .established }) with
      hb | ⟨_, hb⟩
    · rw [hb]
      exact ⟨rfl, rfl, fun _ => rfl, fun hpos => absurd hz (Nat.ne_of_gt hpos)⟩
    · rw [hb]
      exact ⟨rfl, rfl, fun _ => rfl, fun hpos => absurd hz (Nat.ne_of_gt hpos)⟩
  · have hc : b.conclude = (false, b) := by simp [Bootstrap.conclude, hz]
    rw [hc]
    exact ⟨rfl, rfl, fun h => absurd h hz, fun _ => rfl⟩

/-- What has only been noted before makes no difference. -/
theorem Changes.notes {setsUp : Bool} {finished : Option Target}
    (h : l'.Changes setsUp finished l'') (hl : Notes l l') : l.Changes setsUp finished l'' where
  uninitialized := by
    rw [← hl.bootstrap]
    exact h.uninitialized
  counted := by
    rw [← hl.bootstrap, ← loads_of_notes hl]
    exact h.counted
  deferred := by
    rw [← hl.bootstrap]
    exact h.deferred

theorem changes_establish (hresolving : 0 < l.bootstrap.inFlight →
      l.bootstrap.state ≠ .uninitialized) (base : Url) (ctx : Context) :
    l.Changes true none
      ((l.setDefaultBase base).afterEstablishing (l.bootstrap.establish ctx)).2 := by
  obtain ⟨hflight, _, hestablished, hsame⟩ := bootstrap_conclude (l.setDefaultBase base)
    { l.bootstrap with root := some ctx, ambient := some ctx }
  refine ⟨?_, ?_, ?_⟩
  · refine iff_of_false ?_ (by simp)
    rcases Nat.eq_zero_or_pos l.bootstrap.inFlight with hzero | hpos
    · rw [Bootstrap.establish, hestablished hzero]
      simp
    · rw [Bootstrap.establish, hsame hpos]
      exact hresolving hpos
  · rw [mains_afterEstablishing]
    exact congrArg (· + mainsOf (loads l.journal)) hflight
  · intro hpos
    rw [Bootstrap.establish, hflight] at hpos
    rw [Bootstrap.establish, hsame hpos]

theorem changes_begin (l : Loader ν) (base : Url) (root : Context) (t : Target) :
    l.Changes true none (load { l.setDefaultBase base with
      bootstrap := l.bootstrap.beginEstablishing root } t .main) where
  uninitialized := iff_of_false (fun h => by cases h) (by simp)
  counted := by
    show l.bootstrap.inFlight + 1 + mainsOf (loads l.journal) =
      l.bootstrap.inFlight + mainsOf ((t, .main) :: loads l.journal)
    rw [mainsOf, mainsOf, List.countP_cons]
    simp
    omega
  deferred _ := List.prefix_rfl

theorem changes_finish (hresolving : l.bootstrap.state = .resolving)
    (hpos : 0 < l.bootstrap.inFlight) {ctx : Context} (hctx : Context.ofUrl t.url = .ok ctx) :
    l.Changes false (some t) (l.finishMain t) := by
  obtain ⟨hflight, _, hestablished, hsame⟩ := bootstrap_conclude l
    { l.bootstrap with inFlight := l.bootstrap.inFlight - 1, ambient := some ctx }
  rw [finishMain_eq hctx]
  refine ⟨?_, ?_, ?_⟩
  · refine iff_of_false ?_ (by simp [hresolving])
    rcases Nat.eq_zero_or_pos (l.bootstrap.inFlight - 1) with hzero | hmore
    · rw [Bootstrap.finishEstablishing, hestablished hzero]
      simp
    · rw [Bootstrap.finishEstablishing, hsame hmore]
      simp [hresolving]
  · rw [mains_afterEstablishing, Bootstrap.finishEstablishing, hflight]
    simp
    omega
  · intro hmore
    rw [Bootstrap.finishEstablishing, hflight] at hmore
    rw [Bootstrap.finishEstablishing, hsame hmore]

theorem changes_of_deed {setsUp : Bool} {finished : Option Target} {k : List Duty} (h : Mains l k)
    (hfinish : ∀ t, finished = some t →
      0 < l.bootstrap.inFlight ∧ ∃ ctx, Context.ofUrl t.url = .ok ctx)
    (hdeed : Deed l setsUp finished l') : l.Changes setsUp finished l' := by
  have hresolving : 0 < l.bootstrap.inFlight → l.bootstrap.state = .resolving :=
    h.resolving_iff.mpr
  cases hdeed with
  | submit hl => exact (changes_submit _ _ _ _ _ _).notes hl
  | refuse hl =>
    rcases hl with rfl | ⟨base, rfl⟩
    · exact changes_of_same (.refl _) rfl List.prefix_rfl
    · exact changes_of_same (.refl _) rfl List.prefix_rfl
  | establish base ctx => exact changes_establish (fun hpos => by simp [hresolving hpos]) base ctx
  | begin base root t => exact changes_begin l base root t
  | @enter l₁ t hl =>
    have hentered : l₁.Changes false none (l₁.record (.entered t .main)) :=
      changes_of_same (.refl _) rfl List.prefix_rfl
    exact hentered.notes hl
  | finish t hl =>
    obtain ⟨hpos, ctx, hctx⟩ := hfinish t rfl
    rw [← hl.bootstrap] at hresolving hpos
    exact (changes_finish (hresolving hpos) hpos hctx).notes hl

end Loader

namespace Machine

variable {m : Machine ν}

/-- Whoever tends asks for nothing. -/
theorem asked_of_tends {α : Type} {f : Event ν → Option α}
    (hf : ∀ e, e.asks = false → f e = none) (h : m.Reachable) {task : Task ν}
    {rest : List (Task ν)} (hstack : m.stack = task :: rest) (ht : task.tends m.loader = true) :
    m.step.loader.journal.filterMap f = m.loader.journal.filterMap f := by
  have hfit := h.fits task (by rw [hstack]; exact List.mem_cons_self)
  rw [step_of_cons hstack]
  exact ((Loader.keptByTending_filterMap hf _).advance (k := []) rfl hfit ht).1

theorem loads_of_tends (h : m.Reachable) {task : Task ν} {rest : List (Task ν)}
    (hstack : m.stack = task :: rest) (ht : task.tends m.loader = true) :
    loads m.step.loader.journal = loads m.loader.journal :=
  asked_of_tends (fun e he => by cases e <;> first | rfl | cases he) h hstack ht

/-- Nor does it change a context. -/
theorem changes_of_tends (h : m.Reachable) {task : Task ν} {rest : List (Task ν)}
    (hstack : m.stack = task :: rest) (ht : task.tends m.loader = true) :
    m.loader.Changes false none m.step.loader := by
  have hfit := h.fits task (by rw [hstack]; exact List.mem_cons_self)
  have hsame : m.loader.bootstrap.SameContexts m.step.loader.bootstrap := by
    rw [step_of_cons hstack]
    exact ((Loader.keptByTending_contexts m.loader.bootstrap).advance (k := []) (.refl _) hfit ht).1
  have hdependents : dependents m.step.loader.journal = dependents m.loader.journal :=
    asked_of_tends (fun e he => by cases e <;> first | rfl | cases he) h hstack ht
  have hlinkings : linkings m.step.loader.journal = linkings m.loader.journal :=
    asked_of_tends (fun e he => by cases e <;> first | rfl | cases he) h hstack ht
  refine Loader.changes_of_same hsame (by rw [loads_of_tends h hstack ht]) ?_
  -- Tending takes requests out, and among them could be deferred ones. But what is deferred is told
  -- by what has been made and linked, and of this there is no more than before.
  rw [h.deferring.order, (h.goes (.step m)).deferring.order,
    unlinked_of_eq hdependents hlinkings]

theorem changes_step (h : m.Reachable) :
    m.loader.Changes m.setsUp m.finishing? m.step.loader := by
  cases hstack : m.stack with
  | nil =>
    unfold setsUp finishing? step
    rw [hstack]
    exact Loader.changes_of_same (.refl _) rfl List.prefix_rfl
  | cons task rest =>
    have hsetsUp : m.setsUp = task.setsUp m.loader := by simp [setsUp, hstack]
    have hfinishing : m.finishing? = task.finishing? m.loader := by simp [finishing?, hstack]
    cases ht : task.tends m.loader with
    | false =>
      have hdeed := deed_of_not_tends ht
      rw [← hsetsUp, ← hfinishing] at hdeed
      rw [step_of_cons hstack]
      exact Loader.changes_of_deed h.mains (fun _ => of_finishing h) hdeed
    | true =>
      rw [hsetsUp, hfinishing, (of_tends ht).1, (of_tends ht).2]
      exact changes_of_tends h hstack ht

theorem counts_ofConfig {config : Config} {resources : Target → Option (Fetched (Script ν))}
    {l : Loader ν} (hl : Loader.ofConfig config resources = .ok l) :
    l.bootstrap.inFlight = mainsOf (loads l.journal) ∧
      (l.bootstrap.state = .uninitialized ↔ config.baseUrl.isSome = false) := by
  rcases Loader.ofConfig_eq_ok hl with
    ⟨hbase, _, rfl⟩ | ⟨base, _, hbase, _, hconfigure⟩ | ⟨base, _, _, _, hbase, _, _, hboot⟩
  · exact ⟨rfl, by simp [hbase, Loader.new, Bootstrap.initial]⟩
  · obtain ⟨url, ctx, _, _, rfl⟩ := Loader.configure_eq_ok hconfigure
    have hchanges := Loader.changes_establish (l := Loader.new config resources)
      (fun h => absurd h (Nat.lt_irrefl 0)) url ctx
    refine ⟨?_, hchanges.uninitialized.trans (by simp [hbase])⟩
    have hcounted := hchanges.counted
    simpa [Loader.new, Bootstrap.initial, loads, mainsOf] using hcounted
  · obtain ⟨ctx, t, directory, root, _, rfl⟩ := Loader.boot_main_eq_ok hboot
    exact ⟨rfl, iff_of_false (fun h => by cases h) (by simp [hbase])⟩

theorem Tallied.counts {setUp : Bool} {finished : Nat} (h : m.Tallied setUp finished) :
    m.loader.bootstrap.inFlight + finished = mainsOf (loads m.loader.journal) ∧
      (m.loader.bootstrap.state = .uninitialized ↔ setUp = false) := by
  induction h with
  | start config resources script => exact ⟨rfl, iff_of_true rfl rfl⟩
  | configured hl script => exact counts_ofConfig hl
  | @step setUp finished m h ih =>
    obtain ⟨hcounted, hstate⟩ := ih
    have hchanges := changes_step h.reachable
    have hstep := hchanges.counted
    refine ⟨by omega, ?_⟩
    rw [hchanges.uninitialized, hstate, Bool.or_eq_false_iff]
  | pass _ _ ih => exact ih
  | call _ _ _ ih => exact ih

end Machine

end AsyncModule
