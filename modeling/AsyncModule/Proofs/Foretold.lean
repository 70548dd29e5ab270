import AsyncModule.Proofs.Contexts
import AsyncModule.Proofs.Directories
import AsyncModule.Proofs.SetUp

/-!
# AsyncModule.Proofs.Foretold

What resolving a specifier says of a request that names it. A request that is linked at once is
linked as resolving has foretold. One that is deferred is linked in the context of the main resource
that has been dealt with last; which one that is nobody can tell when the request is made, so
resolving takes the root context for it, that of the main resource asked for last.

* `Machine.Guided`     — a machine that can be reached, with the main resource asked for last.
* `linked_at_once`, `linked_when_drained` — how a request is linked.
* `resolve_foretells`  — the whole statement.
* `overtaken_misleads` — of two main resources the first may be the last to be dealt with.
-/

namespace AsyncModule

open Relation

variable {ν : Type}

/-! ## Runs in which no context is set up -/

def Script.callsSetUp : Script ν → Bool
  | .configure _ _ => true
  | .bootstrap _ _ _ => true
  | _ => false

/-- Whether a task calls to set up a context next, whatever comes of it. -/
def Task.callsSetUp : Task ν → Bool
  | .body _ script _ => script.callsSetUp
  | _ => false

namespace Machine

def callsSetUp (m : Machine ν) : Bool := m.stack.head?.any Task.callsSetUp

/-- What can happen to a machine without a call to set up a context. -/
def GoesOn (m m' : Machine ν) : Prop := m.callsSetUp = false ∧ m.Goes m'

theorem goes_of_goesOn {m m' : Machine ν} (h : ReflTransGen GoesOn m m') :
    ReflTransGen Goes m m' := ReflTransGen.mono (fun _ _ hgo => hgo.2) _ _ h

end Machine

namespace Loader

/-- Specifiers are resolved in the same way, and outside of units in the same root context. -/
structure SameRoot (l l' : Loader ν) : Prop where
  resolver : l'.resolver = l.resolver
  root : l'.bootstrap.root = l.bootstrap.root

variable {l l' : Loader ν}

theorem SameRoot.trans {l'' : Loader ν} (h : l.SameRoot l') (h' : l'.SameRoot l'') :
    l.SameRoot l'' := ⟨h'.resolver.trans h.resolver, h'.root.trans h.root⟩

theorem keptByLinking_resolver (ρ : Resolver) :
    KeptByLinking fun l : Loader ν => l.resolver = ρ where
  linked _ _ h := h
  context _ _ h := h
  stop _ h _ := h
  attach i t h _ _ := (resolver_attach _ _ i t).trans h

theorem keptByTending_sameRoot (l₀ : Loader ν) :
    KeptByTending fun (l : Loader ν) _ => l₀.SameRoot l where
  aside h _ := ⟨h.resolver, h.root⟩
  make _ h := ⟨h.resolver, h.root⟩
  fetches h _ := ⟨h.resolver, h.root⟩
  arrive h _ := ⟨h.resolver, h.root⟩
  enter _ h _ := ⟨h.resolver, h.root⟩
  unwatch h := h
  ready _ h := ⟨h.resolver, h.root⟩
  abandon _ h _ _ := ⟨h.resolver, h.root⟩
  abandonDefinition _ h _ _ _ := ⟨h.resolver, h.root⟩
  finish h _ := ⟨h.resolver, h.root⟩
  fault h _ := ⟨h.resolver, h.root⟩
  handle h _ := ⟨h.resolver, h.root⟩
  dispatch h _ := ⟨h.resolver, h.root⟩
  redispatch h _ := h
  drained h _ := ⟨h.resolver, h.root⟩
  dead h _ _ := ⟨h.resolver, h.root⟩
  fill h _ _ _ := ⟨h.resolver, h.root⟩
  fillFire h _ _ _ := ⟨h.resolver, h.root⟩
  fire h _ _ := ⟨h.resolver, h.root⟩
  fail h _ _ := ⟨h.resolver, h.root⟩

theorem sameRoot_submit (l : Loader ν) (frame : Option Frame) (dependencies : List String)
    (callback : List ModuleValue → Script ν) (errback : Option (LoadError → Script ν))
    (definitionUrl : Option String) :
    l.SameRoot (l.submit frame dependencies callback errback definitionUrl) where
  resolver := (keptByLinking_resolver _).submit (fun _ h => h) (fun _ h => h) rfl
  root := by
    unfold submit
    dsimp only
    unfold begin
    split
    · rfl
    · split
      · rw [bootstrap_link]
        rfl
      · rfl

theorem sameRoot_finishMain (l : Loader ν) (t : Target) : l.SameRoot (l.finishMain t) where
  resolver := (keptByLinking_resolver _).finishMain (fun _ h => h) rfl t
  root := by
    have hconclude : ∀ ctx, (l.bootstrap.finishEstablishing ctx).2.root = l.bootstrap.root := by
      intro ctx
      unfold Bootstrap.finishEstablishing Bootstrap.conclude
      split <;> rfl
    unfold finishMain
    dsimp only
    split
    · rename_i ctx _
      rcases bootstrap_afterEstablishing l (l.bootstrap.finishEstablishing ctx) with hb | ⟨_, hb⟩
      · rw [hb, hconclude]
      · rw [hb]
        exact hconclude ctx
    · rfl

theorem sameRoot_of_notes (h : Notes l l') : l.SameRoot l' :=
  ⟨h.resolver, by rw [h.bootstrap]⟩

end Loader

namespace Machine

variable {l : Loader ν} {m m' : Machine ν}

theorem sameRoot_of_deals {finished : Option Target} {l' : Loader ν}
    (h : Deals l finished l') : l.SameRoot l' := by
  cases h with
  | enter t hl => exact (Loader.sameRoot_of_notes hl).trans ⟨rfl, rfl⟩
  | finish t hl => exact (Loader.sameRoot_of_notes hl).trans (Loader.sameRoot_finishMain _ t)

theorem sameRoot_advance {task : Task ν} (rest : List (Task ν)) (hfit : task.Fits)
    (hcalls : task.callsSetUp = false) : l.SameRoot (advance l task).1 := by
  cases ht : task.tends l with
  | true =>
    exact ((Loader.keptByTending_sameRoot l).advance (k := dutiesOf rest) ⟨rfl, rfl⟩ hfit ht).1
  | false =>
    cases task with
    | body frame script ending =>
      cases script with
      | finish o =>
        cases ending with
        | main t => exact sameRoot_of_deals (deals_concludeMain l t o)
        | _ => cases ht
      | require dependencies callback errback next => exact Loader.sameRoot_submit l _ _ _ _ _
      | define dependencies factory errback next =>
        simp only [advance, perform]
        unfold Loader.bindDefinition
        split
        · exact Loader.sameRoot_submit l _ _ _ _ _
        · rename_i url ctx
          have hreport : l.SameRoot (l.record (.report (.extraDefinition url))) := ⟨rfl, rfl⟩
          exact hreport.trans (Loader.sameRoot_submit _ _ _ _ _ _)
        · exact Loader.sameRoot_submit l _ _ _ _ _
      | configure base next => cases hcalls
      | bootstrap entry main next => cases hcalls
      | turn next => exact sameRoot_of_deals (deals_takeUp (by simpa [Task.tends] using ht))
      | _ => cases ht
    | settling frame next ending =>
      rw [fst_settling]
      exact sameRoot_of_deals (deals_takeUp (by simpa [Task.tends] using ht))
    | dispatch => cases ht
    | draining => cases ht

theorem sameRoot_goesOn (h : m.Reachable) (hgo : m.GoesOn m') : m.loader.SameRoot m'.loader := by
  obtain ⟨hcalls, hgo⟩ := hgo
  cases hgo with
  | step =>
    have hfits := h.fits
    obtain ⟨l, stack⟩ := m
    cases stack with
    | nil => exact ⟨rfl, rfl⟩
    | cons task rest =>
      exact sameRoot_advance rest (hfits task List.mem_cons_self)
        (by simpa [callsSetUp] using hcalls)
  | pass _ => exact ⟨rfl, rfl⟩
  | call script _ => exact ⟨rfl, rfl⟩

theorem sameRoot_run (h : m.Reachable) (hrun : ReflTransGen GoesOn m m') :
    m.loader.SameRoot m'.loader := by
  induction hrun with
  | refl => exact ⟨rfl, rfl⟩
  | tail hbefore hgo ih => exact ih.trans (sameRoot_goesOn (h.trans (goes_of_goesOn hbefore)) hgo)

/-! ## The main resource asked for last -/

/-- A machine that can be reached; with the main resource that the last call has asked for by which
a context was set up, if it has asked for one. -/
inductive Guided : Option Target → Machine ν → Prop where
  | start (config : Config) (resources : Target → Option (Fetched (Script ν))) (script : Script ν) :
      Guided none (start (Loader.new config resources) script)
  | configured {config : Config} {resources : Target → Option (Fetched (Script ν))} {l : Loader ν}
      (hl : Loader.ofConfig config resources = .ok l) (hmain : config.main = none)
      (script : Script ν) : Guided none (Machine.start l script)
  | booted {config : Config} {resources : Target → Option (Fetched (Script ν))} {l : Loader ν}
      {main : String} {t : Target} (hl : Loader.ofConfig config resources = .ok l)
      (hmain : config.main = some main) (hj : l.journal = [.load t .main]) (script : Script ν) :
      Guided (some t) (Machine.start l script)
  | step {latest : Option Target} {m : Machine ν} (h : Guided latest m) (hs : m.setsUp = false) :
      Guided latest m.step
  | establish {latest : Option Target} {m : Machine ν} (h : Guided latest m)
      (hs : m.setsUp = true)
      (hj : mainsOf (loads m.step.loader.journal) = mainsOf (loads m.loader.journal)) :
      Guided none m.step
  | begin {latest : Option Target} {m : Machine ν} {t : Target} (h : Guided latest m)
      (hs : m.setsUp = true) (hj : m.step.loader.journal = .load t .main :: m.loader.journal) :
      Guided (some t) m.step
  | pass {latest : Option Target} {m : Machine ν} (h : Guided latest m) {fetches : Fetches ν}
      (hagree : m.loader.fetches.Agree fetches) :
      Guided latest { m with loader := { m.loader with fetches } }
  | call {latest : Option Target} {m : Machine ν} (h : Guided latest m) (script : Script ν)
      (hs : m.stack = []) : Guided latest { m with stack := [.body none script .plain] }

theorem Guided.reachable {latest : Option Target} (h : m.Guided latest) : m.Reachable := by
  induction h with
  | start config resources script => exact reachable_start config resources script
  | configured hl _ script => exact ⟨_, ⟨_, _, _, script, .inr hl, rfl⟩, .refl⟩
  | booted hl _ _ script => exact ⟨_, ⟨_, _, _, script, .inr hl, rfl⟩, .refl⟩
  | step _ _ ih => exact ih.goes (.step _)
  | establish _ _ _ ih => exact ih.goes (.step _)
  | begin _ _ _ ih => exact ih.goes (.step _)
  | pass _ hagree ih => exact ih.goes (.pass _ hagree)
  | call _ script hs ih => exact ih.goes (.call script hs)

end Machine

namespace Loader

/-- A main resource has been asked for, and its context is the root context. -/
structure Begins (l : Loader ν) (t : Target) (l' : Loader ν) : Prop where
  journal : l'.journal = .load t .main :: l.journal
  root : ∃ root, l'.bootstrap.root = some root ∧ Context.ofUrl t.url = .ok root

variable {l l' : Loader ν} {drained : Bool}

/-- Starting with a main resource loads it, and its directory becomes the default base. -/
theorem boot_main_loads {entry main : String}
    (h : l.boot entry (some main) = (.ok drained, l')) :
    ∃ t directory root, t.url.directory = .ok directory ∧
      Context.ofUrl directory = .ok root ∧ Context.ofUrl t.url = .ok root ∧
      l' = load { l with
        resolver := ⟨some directory, l.resolver.config⟩
        bootstrap := l.bootstrap.beginEstablishing root } t .main := by
  unfold boot at h
  split at h
  · cases h
  · dsimp only at h
    split at h
    · cases h
    · rename_i t hresolve
      split at h
      · cases h
      · rename_i directory hdirectory
        split at h
        · cases h
        · rename_i root hroot
          cases h
          have hsame := Resolver.ofUrl_directory_of_resolve hresolve hdirectory
          exact ⟨t, directory, root, hdirectory, hroot, hsame ▸ hroot, rfl⟩

theorem begins_of_boot {entry main : String} (h : l.boot entry (some main) = (.ok drained, l')) :
    ∃ t, l.Begins t l' := by
  obtain ⟨t, _, root, _, _, hroot, rfl⟩ := boot_main_loads h
  exact ⟨t, rfl, root, rfl, hroot⟩

theorem begins_of_ofConfig {config : Config} {resources : Target → Option (Fetched (Script ν))}
    {main : String} (hl : ofConfig config resources = .ok l) (hmain : config.main = some main) :
    ∃ t, (Loader.new config resources).Begins t l := by
  rcases ofConfig_eq_ok hl with
    ⟨_, hnone, _⟩ | ⟨_, _, _, hnone, _⟩ | ⟨base, main', entry, drained, _, _, _, hboot⟩
  · rw [hmain] at hnone
    cases hnone
  · rw [hmain] at hnone
    cases hnone
  · exact begins_of_boot hboot

theorem mains_establish (l : Loader ν) (base : Url) (ctx : Context) :
    mainsOf (loads ((l.setDefaultBase base).afterEstablishing
      (l.bootstrap.establish ctx)).2.journal) = mainsOf (loads l.journal) :=
  mains_afterEstablishing (l.setDefaultBase base) _

/-- Setting up a context either asks for a main resource or for none. -/
theorem begins_or_establishes {task : Task ν} (h : task.setsUp l = true) :
    mainsOf (loads (Machine.advance l task).1.journal) = mainsOf (loads l.journal) ∨
      ∃ t, l.Begins t (Machine.advance l task).1 := by
  cases task with
  | body frame script ending =>
    cases script with
    | configure base next =>
      simp only [Machine.advance, Machine.perform, Machine.fst_afterChange]
      have hdeed := Machine.deed_configure l base
      have h : (l.configure base).1.toBool = true := h
      cases hout : l.configure base with
      | mk result l' =>
        rw [hout] at h
        cases result with
        | error e => cases h
        | ok drained =>
          obtain ⟨url, ctx, _, _, rfl⟩ := configure_eq_ok hout
          exact .inl (mains_establish l url ctx)
    | bootstrap entry main next =>
      simp only [Machine.advance, Machine.perform, Machine.fst_afterChange]
      have h : (l.boot entry main).1.toBool = true := h
      cases hout : l.boot entry main with
      | mk result l' =>
        rw [hout] at h
        cases result with
        | error e => cases h
        | ok drained =>
          cases main with
          | some main => exact .inr (begins_of_boot hout)
          | none =>
            unfold boot at hout
            split at hout
            · cases hout
            · cases hout
              exact .inl (mains_establish l _ _)
    | _ => cases h
  | _ => cases h

end Loader

namespace Machine

variable {m m' : Machine ν} {latest : Option Target} {t : Target}

theorem begins_or_establishes_step (hs : m.setsUp = true) :
    mainsOf (loads m.step.loader.journal) = mainsOf (loads m.loader.journal) ∨
      ∃ t, m.loader.Begins t m.step.loader := by
  obtain ⟨l, stack⟩ := m
  cases stack with
  | nil => cases hs
  | cons task rest => exact Loader.begins_or_establishes (l := l) (by simpa [setsUp] using hs)

/-- Every machine that can be reached has been guided, by one main resource or by none. -/
theorem Reachable.guided (h : m.Reachable) : ∃ latest, m.Guided latest := by
  obtain ⟨m₀, ⟨config, resources, l, script, hl, rfl⟩, hrun⟩ := h
  induction hrun with
  | refl =>
    rcases hl with rfl | hl
    · exact ⟨none, .start config resources script⟩
    · cases hmain : config.main with
      | none => exact ⟨none, .configured hl hmain script⟩
      | some main =>
        obtain ⟨t, hbegins⟩ := Loader.begins_of_ofConfig hl hmain
        exact ⟨some t, .booted hl hmain hbegins.journal script⟩
  | @tail m m' _ hgo ih =>
    obtain ⟨latest, ih⟩ := ih
    cases hgo with
    | step =>
      cases hs : m.setsUp with
      | false => exact ⟨latest, ih.step hs⟩
      | true =>
        rcases begins_or_establishes_step hs with hj | ⟨t, hbegins⟩
        · exact ⟨none, ih.establish hs hj⟩
        · exact ⟨some t, ih.begin hs hbegins.journal⟩
    | pass hagree => exact ⟨latest, ih.pass hagree⟩
    | call script hs => exact ⟨latest, ih.call script hs⟩

/-- A call by which no context is set up leaves the root context alone. -/
theorem root_step (h : m.Reachable) (hs : m.setsUp = false) :
    m.step.loader.bootstrap.root = m.loader.bootstrap.root := by
  cases hcalls : m.callsSetUp with
  | false => exact (sameRoot_goesOn h ⟨hcalls, .step m⟩).root
  | true =>
    obtain ⟨l, stack⟩ := m
    cases stack with
    | nil => cases hcalls
    | cons task rest =>
      have hcalls : task.callsSetUp = true := by simpa [callsSetUp] using hcalls
      have hs : task.setsUp l = false := by simpa [setsUp] using hs
      show (advance l task).1.bootstrap.root = l.bootstrap.root
      cases task with
      | body frame script ending =>
        cases script with
        | configure base next =>
          simp only [advance, perform, fst_afterChange]
          have hs : (l.configure base).1.toBool = false := hs
          cases hout : l.configure base with
          | mk result l' =>
            rw [hout] at hs
            cases result with
            | ok drained => cases hs
            | error e => rw [Loader.configure_eq_error hout]
        | bootstrap entry main next =>
          simp only [advance, perform, fst_afterChange]
          have hs : (l.boot entry main).1.toBool = false := hs
          cases hout : l.boot entry main with
          | mk result l' =>
            rw [hout] at hs
            cases result with
            | ok drained => cases hs
            | error e =>
              rcases Loader.boot_eq_error hout with ⟨_, rfl⟩ | ⟨_, _, _, _, rfl, _⟩
              · rfl
              · rfl
        | _ => cases hcalls
      | _ => cases hcalls

/-- The root context is that of the main resource asked for last, if the last call has asked for
one. -/
theorem Guided.root (h : m.Guided latest) (ht : latest = some t) :
    ∃ root, m.loader.bootstrap.root = some root ∧ Context.ofUrl t.url = .ok root := by
  induction h with
  | start => cases ht
  | configured => cases ht
  | booted hl hmain hj script =>
    cases ht
    obtain ⟨t', hbegins⟩ := Loader.begins_of_ofConfig hl hmain
    have heq := hj.symm.trans hbegins.journal
    cases heq
    exact hbegins.root
  | step h hs ih =>
    rw [root_step h.reachable hs]
    exact ih ht
  | establish => cases ht
  | @begin _ m t _ hs hj _ =>
    cases ht
    rcases begins_or_establishes_step hs with hsame | ⟨t', hbegins⟩
    · have hcons : loads m.step.loader.journal = (t, .main) :: loads m.loader.journal := by
        rw [hj]
        rfl
      rw [hcons, mainsOf, List.countP_cons_of_pos (by simp)] at hsame
      exact absurd hsame (Nat.succ_ne_self _)
    · have heq := hj.symm.trans hbegins.journal
      cases heq
      exact hbegins.root
  | pass _ _ ih => exact ih ht
  | call _ _ _ ih => exact ih ht

end Machine

/-! ## How a request with one dependency is linked -/

namespace Loader

variable {l l' : Loader ν} {ctx : Context} {id : RequestId} {specifier : String}

/-- A request with one dependency has been linked to what a specifier turned out to name: it is live
and linked to the module, or about to fail with the error. -/
def LinkedAs (l : Loader ν) (id : RequestId) : Except LoadError Target → Prop
  | .ok t => ∃ r, l.requests.get? id = some r ∧ r.modules = [t.key]
  | .error e => .fail id e ∈ l.worklist

theorem linkedAs_of_linkedIn {r : Request ν} {n : Nat} {loaded : List Target}
    (h : LinkedIn l l' ctx id r n loaded) (hr : r.dependencies = [specifier])
    {result : Except LoadError Target} (hresult : l.resolver.resolve specifier ctx = result) :
    l'.LinkedAs id result := by
  obtain ⟨r', hr', hdependencies, hlinked⟩ := h.linked
  rcases h.stops with hend | ⟨specifier', e, hn, he, hfail⟩
  · -- All dependencies are linked, and this is one.
    rw [hr, List.getElem?_eq_none_iff] at hend
    rw [hr, Request.dependencies, List.map_eq_singleton_iff] at hdependencies
    obtain ⟨s, hs, rfl⟩ := hdependencies
    have hslot : r'.slot? 0 = some s := by simp [Request.slot?, hs]
    obtain ⟨t, ht, hm⟩ := hlinked.linked hslot hend
    rw [ht] at hresult
    subst hresult
    exact ⟨r', hr', by simp [Request.modules, hs, hm]⟩
  · rw [hr, List.getElem?_singleton] at hn
    split at hn
    · cases hn
      rw [he] at hresult
      subst hresult
      exact hfail
    · cases hn

/-- A request that is made where there is a context is linked at once. -/
theorem linked_at_once {frame : Option Frame} (hctx : l.context? frame = some ctx)
    (callback : List ModuleValue → Script ν) (errback : Option (LoadError → Script ν)) :
    ∃ id, submissions (l.submit frame [specifier] callback errback none).journal =
        id :: submissions l.journal ∧
      id ∈ linkings (l.submit frame [specifier] callback errback none).journal ∧
      (l.submit frame [specifier] callback errback none).LinkedAs id
        (l.resolver.resolve specifier ctx) := by
  generalize hresult : l.resolver.resolve specifier ctx = result
  have hget := get?_enter_self l (.ofCall [specifier] callback errback (l.context? frame) none)
  obtain ⟨_, n, loaded, hlinked, hj⟩ := linkedIn_link hget rfl (unlinked_ofCall _ _ _ _ _) ctx
  have hdependencies : (Request.ofCall [specifier] callback errback (l.context? frame)
      none).dependencies = [specifier] := rfl
  have hlinkedAs := linkedAs_of_linkedIn hlinked hdependencies hresult
  refine ⟨_, submissions_submit l frame [specifier] callback errback none, ?_⟩
  have hsubmit : l.submit frame [specifier] callback errback none =
      (l.enter (.ofCall [specifier] callback errback (l.context? frame) none)).2.link
        (l.enter (.ofCall [specifier] callback errback (l.context? frame) none)).1 ctx := by
    simp [submit, begin, Request.ofCall, hctx]
  rw [hsubmit]
  refine ⟨?_, hlinkedAs⟩
  rw [hj]
  simp [linkings, Event.linked?]

/-- One that is made where there is none is deferred. -/
theorem deferred_without_context {frame : Option Frame} (hctx : l.context? frame = none)
    (callback : List ModuleValue → Script ν) (errback : Option (LoadError → Script ν)) :
    ∃ id, submissions (l.submit frame [specifier] callback errback none).journal =
        id :: submissions l.journal ∧
      .submitted id [specifier] none ∈
        (l.submit frame [specifier] callback errback none).journal ∧
      id ∈ (l.submit frame [specifier] callback errback none).bootstrap.deferred := by
  refine ⟨_, submissions_submit l frame [specifier] callback errback none, ?_⟩
  simp [submit, begin, enter, record, Request.ofCall, Request.dependencies, Slot.ofSpecifier,
    hctx, Bootstrap.defer]

end Loader

namespace Machine

variable {m m' : Machine ν} {latest : Option Target} {id : RequestId} {specifier : String}

/-- Once a context has been set up, or main resources are on their way, this is so for ever. -/
theorem not_uninitialized_run (h : m.Reachable) (hrun : ReflTransGen Goes m m')
    (hstate : m.loader.bootstrap.state ≠ .uninitialized) :
    m'.loader.bootstrap.state ≠ .uninitialized := by
  induction hrun with
  | refl => exact hstate
  | tail hbefore hgo ih =>
    cases hgo with
    | step => exact fun hs => ih ((changes_step (h.trans hbefore)).uninitialized.mp hs).1
    | pass _ => exact ih
    | call _ _ => exact ih

/-- A deferred request is linked when the last main resource has been dealt with, in the context of
this one. -/
theorem linked_when_drained (h : m.Reachable)
    (hstate : m.loader.bootstrap.state ≠ .uninitialized)
    (hmade : .submitted id [specifier] none ∈ m.loader.journal)
    (hbefore : id ∉ linkings m.loader.journal) (hafter : id ∈ linkings m.step.loader.journal) :
    ∃ t ctx, m.finishing? = some t ∧ Context.ofUrl t.url = .ok ctx ∧
      m.step.loader.LinkedAs id (m.loader.resolver.resolve specifier ctx) := by
  have hdeferred : id ∈ m.loader.bootstrap.deferred := by
    rw [h.deferring.order, List.mem_reverse, unlinked, List.mem_filter]
    exact ⟨List.mem_filterMap.mpr ⟨_, hmade, rfl⟩, by simpa using hbefore⟩
  have hpos : 0 < m.loader.bootstrap.inFlight := by
    rw [← h.mains.resolving_iff]
    cases hs : m.loader.bootstrap.state with
    | uninitialized => exact absurd hs hstate
    | resolving => rfl
    | established =>
      rw [(h.mains.established hs).2] at hdeferred
      cases hdeferred
  have hzero : m.step.loader.bootstrap.inFlight = 0 :=
    Nat.eq_zero_of_not_pos fun hpos => (deferred_of_pos h hpos).2 id hdeferred hafter
  obtain ⟨t, ctx, _, told, ht, hctx, _, _, htold, _⟩ := drains_of_zero h hpos hzero
  obtain ⟨hlength, hall⟩ := List.forall₂_iff_get.mp htold
  obtain ⟨⟨i, hi⟩, rfl⟩ := List.get_of_mem hdeferred
  obtain ⟨r, n, loaded, hlinked, _⟩ := hall i hi (hlength ▸ hi)
  -- The live request is the one that was made, for no number is used twice.
  have heq := eq_of_nodup_filterMap h.accounts.orderly.nodup_submissions hmade
    (h.traced.made hlinked.live) rfl rfl
  injection heq with _ hdependencies
  refine ⟨t, ctx, ht, hctx, ?_⟩
  generalize hresult : m.loader.resolver.resolve specifier ctx = result
  exact Loader.linkedAs_of_linkedIn hlinked hdependencies.symm hresult

theorem goesOn_run (fuel : Nat) (h : ∀ n < fuel, (run n m).callsSetUp = false) :
    ReflTransGen GoesOn m (run fuel m) := by
  induction fuel generalizing m with
  | zero => exact .refl
  | succ fuel ih =>
    rw [run]
    split
    · exact .refl
    · rename_i hdone
      refine .head ⟨h 0 (Nat.succ_pos _), .step m⟩ (ih fun n hn => ?_)
      have hnext := h (n + 1) (Nat.succ_lt_succ hn)
      rwa [run, if_neg hdone] at hnext

/-- Unless deferred requests have been linked, a program goes on at once. -/
theorem stack_bootstrap {frame : Option Frame} {entry : String} {main : Option String}
    {next : Option LoadError → Script ν} {ending : Ending ν} {rest : List (Task ν)}
    (htop : m.stack = .body frame (.bootstrap entry main next) ending :: rest)
    (hboot : (m.loader.boot entry main).1 = .ok false) :
    m.step.stack = .body frame (next none) ending :: rest := by
  rw [step_of_cons htop]
  simp only [advance, perform]
  generalize m.loader.boot entry main = out at hboot ⊢
  obtain ⟨result, l⟩ := out
  cases hboot
  rfl

end Machine

open Machine in
/-- Unless no context has ever been set up, nor a main resource been asked for, whatever program is
running: what a specifier resolves to is what a request for it is linked to. It is linked so at once
or else deferred; and then, if meanwhile nobody calls to set up a context, it is linked when the
last main resource has been dealt with, in the context of this one, and so as it has been resolved
if this is the main resource that has been asked for last. -/
theorem resolve_foretells {m : Machine ν} {latest : Option Target} {frame : Option Frame}
    {specifier : String} {callback : List ModuleValue → Script ν}
    {errback : Option (LoadError → Script ν)} {next : Script ν} {ending : Ending ν}
    {rest : List (Task ν)} (h : m.Guided latest)
    (htop : m.stack = .body frame (.require [specifier] callback errback next) ending :: rest)
    (hstate : (m.loader.view frame).state ≠ .uninitialized) :
    ∃ id, submissions m.step.loader.journal = id :: submissions m.loader.journal ∧
      (id ∈ linkings m.step.loader.journal ∧
          m.step.loader.LinkedAs id ((m.loader.view frame).resolve specifier) ∨
        id ∈ m.step.loader.bootstrap.deferred ∧
        ∀ m', ReflTransGen GoesOn m.step m' → m'.callsSetUp = false →
          id ∉ linkings m'.loader.journal → id ∈ linkings m'.step.loader.journal →
          ∃ t ctx, m'.finishing? = some t ∧ Context.ofUrl t.url = .ok ctx ∧
            m'.step.loader.LinkedAs id (m.loader.resolver.resolve specifier ctx) ∧
            (latest = some t →
              m'.step.loader.LinkedAs id ((m.loader.view frame).resolve specifier))) := by
  have hstep : m.step.loader = m.loader.submit frame [specifier] callback errback none := by
    rw [step_of_cons htop]
    rfl
  cases hctx : m.loader.context? frame with
  | some ctx =>
    obtain ⟨id, hmade, hlinked, hlinkedAs⟩ := Loader.linked_at_once hctx callback errback
    rw [hstep]
    refine ⟨id, hmade, .inl ⟨hlinked, ?_⟩⟩
    have hresolve : (m.loader.view frame).resolve specifier =
        m.loader.resolver.resolve specifier ctx := by
      simp [Loader.view, Loader.resolve, hctx]
    rw [hresolve]
    exact hlinkedAs
  | none =>
    obtain ⟨id, hmade, hsubmitted, hdeferred⟩ :=
      Loader.deferred_without_context hctx callback errback
    rw [← hstep] at hmade hsubmitted hdeferred
    refine ⟨id, hmade, .inr ⟨hdeferred, ?_⟩⟩
    intro m' hrun hcalls hbefore hafter
    have hreach := h.reachable
    have hcalled : m.callsSetUp = false := by
      unfold callsSetUp
      rw [htop]
      rfl
    have hfirst : m.GoesOn m.step := ⟨hcalled, .step m⟩
    have hlater := hreach.trans (goes_of_goesOn (.head hfirst hrun))
    obtain ⟨t, ctx, ht, hofUrl, hlinkedAs⟩ := linked_when_drained hlater
      (not_uninitialized_run hreach (goes_of_goesOn (.head hfirst hrun)) hstate)
      (((hreach.goes (.step m)).lasts (goes_of_goesOn hrun)).journal.mem hsubmitted) hbefore hafter
    rw [(sameRoot_run hreach (.head hfirst hrun)).resolver] at hlinkedAs
    refine ⟨t, ctx, ht, hofUrl, hlinkedAs, fun hlatest => ?_⟩
    obtain ⟨root, hroot, hofRoot⟩ := h.root hlatest
    rw [hofUrl] at hofRoot
    cases hofRoot
    have hresolve : (m.loader.view frame).resolve specifier =
        m.loader.resolver.resolve specifier ctx := by
      simp [Loader.view, Loader.resolve, hctx, hroot]
    rw [hresolve]
    exact hlinkedAs

/-- A loader that is about to ask for a main resource, whereupon a request is made that has to wait
for it. -/
def foreseen : Machine Unit :=
  Machine.start (Loader.new {} idlingResources)
    (.bootstrap "a:/" (some "./d/m.js") fun _ =>
      .require ["./x.js"] (fun _ => .finish .done) none (.turn fun _ => .finish .done))

open Machine in
theorem resolve_foretells_drained :
    ((foreseen.step.loader.view none).resolve "./x.js").map Target.key = .ok "a:/d/x.js" ∧
    foreseen.step.step.loader.bootstrap.deferred = [⟨0, 1⟩] ∧
    (run 4 foreseen.step.step).loader.LinkedAs ⟨0, 1⟩
      ((foreseen.step.loader.view none).resolve "./x.js") := by
  have hs : foreseen.setsUp = true := by decide +kernel
  have hmains : mainsOf (loads foreseen.step.loader.journal) ≠
      mainsOf (loads foreseen.loader.journal) := by decide +kernel
  obtain ⟨t, hbegins⟩ := (begins_or_establishes_step hs).resolve_left hmains
  have hguided : foreseen.step.Guided (some t) := (Guided.start _ _ _).begin hs hbegins.journal
  have htop := stack_bootstrap (m := foreseen) rfl (by decide +kernel)
  obtain ⟨id, hmade, hcases⟩ := resolve_foretells hguided htop (by decide +kernel)
  have hone : submissions foreseen.step.step.loader.journal = [⟨0, 1⟩] := by decide +kernel
  rw [hone] at hmade
  obtain ⟨rfl, _⟩ := List.cons.inj hmade
  have hnone : linkings foreseen.step.step.loader.journal = [] := by decide +kernel
  have hlast : (run 3 foreseen.step.step).finishing? =
      (loads foreseen.step.loader.journal).head?.map (·.1) := by decide +kernel
  refine ⟨by decide +kernel, by decide +kernel, ?_⟩
  rcases hcases with ⟨hlinked, _⟩ | ⟨_, hlater⟩
  · rw [hnone] at hlinked
    cases hlinked
  · obtain ⟨t', ctx, ht', _, _, hlinkedAs⟩ := hlater (run 3 foreseen.step.step)
      (goesOn_run 3 (by decide +kernel)) (by decide +kernel) (by decide +kernel)
      (by decide +kernel)
    rw [ht', hbegins.journal] at hlast
    exact hlinkedAs hlast.symm

/-- Of two main resources only the second is there as soon as it is asked for. -/
def overtakingResources (t : Target) : Option (Fetched (Script Unit)) :=
  if t.key = "a:/e/n.js" then some (.code (.finish .done)) else none

/-- A loader that asks for two main resources, of which the first is the last to come. -/
def overtaken : Machine Unit :=
  Machine.start (Loader.new {} overtakingResources)
    (.bootstrap "a:/" (some "./d/m.js") fun _ =>
      .bootstrap "a:/" (some "./e/n.js") fun _ =>
        .require ["./x.js"] (fun _ => .finish .done) none
          (.turn fun _ =>
            .deliver "a:/d/m.js" (fun _ => .code (.finish .done)) fun _ =>
              .turn fun _ => .finish .done))

open Machine in
/-- What is linked in the context of a main resource that another has overtaken is not what
resolving has foretold, though nobody has called to set up a context in between. -/
theorem overtaken_misleads :
    overtaken.step.step.Reachable ∧
    (∃ callback errback next ending rest, overtaken.step.step.stack =
      .body none (.require ["./x.js"] callback errback next) ending :: rest) ∧
    (overtaken.step.step.loader.view none).state ≠ .uninitialized ∧
    submissions overtaken.step.step.step.loader.journal = [⟨0, 1⟩] ∧
    ReflTransGen GoesOn overtaken.step.step.step (run 8 overtaken.step.step.step) ∧
    (run 8 overtaken.step.step.step).callsSetUp = false ∧
    ⟨0, 1⟩ ∉ linkings (run 8 overtaken.step.step.step).loader.journal ∧
    ⟨0, 1⟩ ∈ linkings (run 9 overtaken.step.step.step).loader.journal ∧
    ((overtaken.step.step.loader.view none).resolve "./x.js").map Target.key =
      .ok "a:/e/x.js" ∧
    ¬ (run 9 overtaken.step.step.step).loader.LinkedAs ⟨0, 1⟩
      ((overtaken.step.step.loader.view none).resolve "./x.js") := by
  have hfirst := stack_bootstrap (m := overtaken) rfl (by decide +kernel)
  have hsecond := stack_bootstrap hfirst (by decide +kernel)
  have hresolve : ((overtaken.step.step.loader.view none).resolve "./x.js").map Target.key =
      .ok "a:/e/x.js" := by decide +kernel
  have hmodules : ((run 9 overtaken.step.step.step).loader.requests.get? ⟨0, 1⟩).map
      Request.modules = some ["a:/d/x.js"] := by decide +kernel
  refine ⟨((reachable_start _ _ _).goes (.step _)).goes (.step _), ⟨_, _, _, _, _, hsecond⟩,
    by decide +kernel, by decide +kernel, goesOn_run 8 (by decide +kernel), by decide +kernel,
    by decide +kernel, by decide +kernel, hresolve, ?_⟩
  intro hlinkedAs
  cases ht : (overtaken.step.step.loader.view none).resolve "./x.js" with
  | error e =>
    rw [ht] at hresolve
    cases hresolve
  | ok t =>
    rw [ht] at hresolve hlinkedAs
    obtain ⟨r, hr, hm⟩ := hlinkedAs
    rw [hr, Option.map_some, hm] at hmodules
    have hkey : t.key = "a:/e/x.js" := Except.ok.inj hresolve
    rw [hkey] at hmodules
    exact absurd hmodules (by decide)

end AsyncModule
