import AsyncModule.Proofs.Deeds
import AsyncModule.Proofs.Dropped
import AsyncModule.Proofs.Loads
import AsyncModule.Proofs.Tracing

/-!
# AsyncModule.Proofs.Progress

How modules come along. A module is loading from the step by which it is first heard of until it is
settled, once and for good. While a factory runs that is to define it nobody else settles it, so it
gets the value that the factory ends with, or its failure.

* `advances_goes`     — what one step can make of a module.
* `loading_of_called` — a module is loading while its factory runs.
* `settles_for_good`  — the whole statement, for every moment of every run.
-/

namespace AsyncModule

open Relation

variable {ν : Type}

/-- How a module can come along at one go. -/
inductive Advances : Option ModuleState → Option ModuleState → Prop where
  | stays (s : Option ModuleState) : Advances s s
  | asked : Advances none (some .loading)
  | ready (v : ModuleValue) : Advances (some .loading) (some (.ready v))
  | failed (e : LoadError) : Advances (some .loading) (some (.failed e))

namespace Loader

variable {l l' : Loader ν} {url : String}

/-- The module has not been heard of, or it is loading. -/
def Unsettled (l : Loader ν) (url : String) : Prop :=
  ∀ s, l.registry.state? url = some s → s = .loading

theorem unsettled_of_unheard (h : l.registry.state? url = none) : l.Unsettled url := by
  intro s hs
  rw [h] at hs
  cases hs

theorem keptByLinking_unsettled (url : String) :
    KeptByLinking fun l : Loader ν => l.Unsettled url where
  linked _ _ h := h
  context _ _ h := h
  stop _ h _ := h
  attach i t h _ _ := by
    intro s hs
    rcases state?_of_attach hs with hold | ⟨_, hloading, _⟩
    · exact h s hold
    · exact hloading

theorem Unsettled.congr (h : l.Unsettled url) (hg : l'.registry = l.registry) :
    l'.Unsettled url := by
  unfold Unsettled
  rw [hg]
  exact h

theorem Unsettled.submit (h : l.Unsettled url) (frame : Option Frame) (dependencies : List String)
    (callback : List ModuleValue → Script ν) (errback : Option (LoadError → Script ν))
    (definitionUrl : Option String) :
    (l.submit frame dependencies callback errback definitionUrl).Unsettled url := by
  refine (keptByLinking_unsettled url).submit (fun _ h => h) (fun _ h => h) ?_
  intro s hs
  unfold Loader.enter at hs
  dsimp only [record] at hs
  split at hs
  · rw [Registry.state?_setDefinition] at hs
    exact h s hs
  · exact h s hs

/-- Nothing but tending settles a module. -/
theorem Unsettled.deed (h : l.Unsettled url) {setsUp : Bool} {finished : Option Target}
    (hdeed : Deed l setsUp finished l') : l'.Unsettled url := by
  have hlinking := keptByLinking_unsettled (ν := ν) url
  cases hdeed with
  | submit hl => exact (h.congr hl.registry).submit _ _ _ _ _
  | refuse hl =>
    rcases hl with rfl | ⟨base, rfl⟩
    · exact h
    · exact h
  | establish base ctx =>
    exact hlinking.afterEstablishing (fun _ h => h) (l := l.setDefaultBase base) h _
  | begin base root t => exact h
  | enter t hl => exact h.congr hl.registry
  | finish t hl => exact hlinking.finishMain (fun _ h => h) (h.congr hl.registry) t

theorem urls_abandonModule (l : Loader ν) (url : String) (e : LoadError) :
    (l.abandonModule url e).registry.urls = l.registry.urls :=
  (Registry.urls_settle _ _ _).trans (Registry.urls_modify _ _ _)

theorem urls_withdraw (l : Loader ν) (id : RequestId) (r : Request ν) :
    (l.withdraw id r).registry.urls = l.registry.urls :=
  Registry.urls_foldl_dropWaiters r.modules l.registry id

/-- Tending makes no record. -/
theorem keptByTending_urls (urls : List String) :
    KeptByTending fun (l : Loader ν) _ => l.registry.urls = urls where
  aside h _ := h
  make _ h := h
  fetches h _ := h
  arrive h _ := h
  enter _ h _ := h
  unwatch h := h
  ready _ h := (Registry.urls_settle _ _ _).trans h
  abandon e h _ _ := (urls_abandonModule _ _ e).trans h
  abandonDefinition e h _ _ _ := (urls_withdraw _ _ _).trans ((urls_abandonModule _ _ e).trans h)
  finish h _ := h
  fault h _ := h
  handle h _ := h
  dispatch h _ := h
  redispatch h _ := h
  drained h _ := h
  dead h _ _ := h
  fill h _ _ _ := h
  fillFire h _ _ _ := h
  fire h _ _ := h
  fail h _ _ := (urls_withdraw _ _ _).trans h

end Loader

namespace Machine

variable {m m' : Machine ν} {url : String}

/-- A module that has not been heard of is not settled by the same step by which it is. -/
theorem unsettled_step (h : m.Reachable) (hurl : m.loader.registry.state? url = none) :
    m.step.loader.Unsettled url := by
  have hunsettled := Loader.unsettled_of_unheard hurl
  cases hstack : m.stack with
  | nil =>
    unfold step
    rw [hstack]
    exact hunsettled
  | cons task rest =>
    rw [step_of_cons hstack]
    cases ht : task.tends m.loader with
    | false => exact hunsettled.deed (deed_of_not_tends ht)
    | true =>
      have hfit := h.fits task (by rw [hstack]; exact List.mem_cons_self)
      have hkept : (advance m.loader task).1.registry.urls = m.loader.registry.urls :=
        ((Loader.keptByTending_urls m.loader.registry.urls).advance (k := []) rfl hfit ht).1
      intro s hs
      have hmem := Registry.state?_ne_none_iff.mp (Option.ne_none_iff_exists'.mpr ⟨s, hs⟩)
      rw [hkept, ← Registry.state?_ne_none_iff] at hmem
      exact absurd hurl hmem

/-- Records are never given up. -/
theorem heard_goes (h : m.Reachable) (hgo : m.Goes m')
    (hurl : m.loader.registry.state? url ≠ none) : m'.loader.registry.state? url ≠ none := by
  have hjournal := (h.lasts (.single hgo)).journal
  have hmodules : modulesOf (loads m.loader.journal) ⊆ modulesOf (loads m'.loader.journal) :=
    ((hjournal.sublist.filterMap _).filterMap _).subset
  rw [Registry.state?_ne_none_iff, (h.goes hgo).loaded.urls, List.mem_reverse]
  rw [Registry.state?_ne_none_iff, h.loaded.urls, List.mem_reverse] at hurl
  exact hmodules hurl

theorem advances_goes (h : m.Reachable) (hgo : m.Goes m') (url : String) :
    Advances (m.loader.registry.state? url) (m'.loader.registry.state? url) := by
  have hlasts := h.lasts (.single hgo)
  cases hurl : m.loader.registry.state? url with
  | none =>
    have hunsettled : m'.loader.Unsettled url := by
      cases hgo with
      | step => exact unsettled_step h hurl
      | pass => exact Loader.unsettled_of_unheard hurl
      | call => exact Loader.unsettled_of_unheard hurl
    cases hurl' : m'.loader.registry.state? url with
    | none => exact .stays none
    | some s =>
      rw [hunsettled s hurl']
      exact .asked
  | some s =>
    have hheard : m.loader.registry.state? url ≠ none := by simp [hurl]
    obtain ⟨s', hs'⟩ := Option.ne_none_iff_exists'.mp (heard_goes h hgo hheard)
    cases s with
    | known => exact absurd hurl (h.loaded.asked url)
    | ready v =>
      rw [hlasts.settled hurl rfl]
      exact .stays _
    | failed e =>
      rw [hlasts.settled hurl rfl]
      exact .stays _
    | loading =>
      rw [hs']
      cases s' with
      | known => exact absurd hs' ((h.goes hgo).loaded.asked url)
      | loading => exact .stays _
      | ready v => exact .ready v
      | failed e => exact .failed e

end Machine

/-! ## Factories that run -/

namespace Event

def returned? : Event ν → Option RequestId
  | returned id _ => some id
  | _ => none

/-- Whether an event tells of a callback that starts or ends. -/
def isCall : Event ν → Bool
  | called _ _ => true
  | returned _ _ => true
  | _ => false

end Event

/-- The requests whose callbacks have ended. -/
def returns (j : List (Event ν)) : List RequestId := j.filterMap Event.returned?

/-- Every callback that has started and has not ended is on the stack. -/
def Calling (j : List (Event ν)) (k : List Duty) : Prop :=
  ∀ id ∈ calls j, id ∈ returns j ∨ ∃ definition, .conclude id definition ∈ k

namespace Calling

variable {j : List (Event ν)} {k k' : List Duty} {e : Event ν} {id : RequestId}
  {definition : Option String}

theorem duties (h : Calling j k)
    (hk : ∀ id definition, .conclude id definition ∈ k → .conclude id definition ∈ k') :
    Calling j k' := by
  intro id hid
  rcases h id hid with hreturned | ⟨definition, hmem⟩
  · exact .inl hreturned
  · exact .inr ⟨definition, hk id definition hmem⟩

theorem cons (h : Calling j k) (he : e.isCall = false) : Calling (e :: j) k := by
  have hcalls : calls (e :: j) = calls j := by
    cases e with
    | called id values => cases he
    | _ => rfl
  have hreturns : returns (e :: j) = returns j := by
    cases e with
    | returned id o => cases he
    | _ => rfl
  intro id hid
  rw [hcalls] at hid
  rw [hreturns]
  exact h id hid

theorem called (h : Calling j k) (id : RequestId) (values : List ModuleValue)
    (definition : Option String) :
    Calling (.called id values :: j) (.conclude id definition :: k) := by
  intro id' hid'
  rcases List.mem_cons.mp hid' with rfl | hid'
  · exact .inr ⟨definition, List.mem_cons_self⟩
  · exact (h.duties fun _ _ => List.mem_cons_of_mem _) id' hid'

theorem returned (h : Calling j (.conclude id definition :: k)) (o : Outcome) :
    Calling (.returned id o :: j) k := by
  intro id' hid'
  rcases h id' hid' with hreturned | ⟨definition', hmem⟩
  · exact .inl (List.mem_cons_of_mem _ hreturned)
  · rcases List.mem_cons.mp hmem with heq | hmem
    · cases heq
      exact .inl List.mem_cons_self
    · exact .inr ⟨definition', hmem⟩

end Calling

namespace Loader

theorem keptByLinking_calling (k : List Duty) :
    KeptByLinking fun l : Loader ν => Calling l.journal k where
  linked _ _ h := h.cons rfl
  context _ _ h := h
  stop _ h _ := h
  attach {l id _} i t h _ _ := by
    rcases attach_cases l id i t with ⟨_, hj⟩ | ⟨_, hj⟩
    · rw [hj]
      exact h
    · rw [hj]
      exact h.cons rfl

end Loader

theorem maintained_calling : Maintained fun (l : Loader ν) k => Calling l.journal k where
  aside {l k e} h ha := by
    cases e with
    | report r => exact h.cons rfl
    | note n => exact h.cons rfl
    | _ => cases ha
  make _ h := h
  fetches h _ := h
  arrive h _ := (h.cons rfl).duties fun _ _ hmem =>
    List.mem_cons_of_mem _ (List.mem_cons_of_mem _ hmem)
  enter _ h _ := h.cons rfl
  require _ _ _ _ h := ((Loader.keptByLinking_calling _).submit (fun _ h => h) (fun _ h => h)
    (h.cons rfl)).duties (by simp)
  define {l k url} ctx defined dependencies factory errback h := by
    have h : Calling l.journal k := h.duties (by simp)
    exact ((Loader.keptByLinking_calling k).submit (fun _ h => h) (fun _ h => h)
      (h.cons rfl)).duties (by simp)
  unwatch h := h.duties (by simp)
  setDefaultBase _ h := h
  establish {l k} ctx h := by
    have h1 := (Loader.keptByLinking_calling k).afterEstablishing (fun _ h => h) h
      (l.bootstrap.establish ctx)
    split
    · exact h1.duties (by simp)
    · exact h1
  beginMain _ _ h _ := h.cons rfl
  finishMain t h :=
    (Loader.keptByLinking_calling _).finishMain (fun _ h => h) (h.duties (by simp)) t
  ready _ h := h.duties (by simp)
  abandon _ h hm _ := h.duties (by rcases hm with rfl | rfl <;> simp)
  abandonDefinition _ h hm _ _ := (h.duties (by rcases hm with rfl | rfl <;> simp)).cons rfl
  finish h _ := h.returned _
  fault h _ := (h.returned _).cons rfl
  handle h _ := h.cons rfl
  dispatch h _ := h.duties (by simp)
  redispatch h _ := h.duties (by simp)
  drained h _ := h.duties (by simp)
  dead h _ _ := h
  fill h _ _ _ := h
  fillFire h _ _ _ := (h.duties fun _ _ => List.mem_append_right _).called _ _ _
  fire h _ _ := (h.duties fun _ _ => List.mem_append_right _).called _ _ _
  fail h _ _ := (h.duties fun _ _ => List.mem_append_right _).cons rfl

/-- What the end of a task's program means. -/
def Task.ending? : Task ν → Option (Ending ν)
  | .body _ _ ending => some ending
  | .settling _ _ ending => some ending
  | _ => none

theorem settle_of_conclude {stack : List (Task ν)} {id : RequestId} {url : String}
    (h : .conclude id (some url) ∈ dutiesOf stack) : .settle url ∈ dutiesOf stack := by
  have hending : ∀ (frame : Option Frame) (ending : Ending ν),
      .conclude id (some url) ∈ ending.duties frame → .settle url ∈ ending.duties frame := by
    intro frame ending hmem
    cases ending with
    | callback id' r =>
      rcases List.mem_cons.mp hmem with heq | hmem
      · injection heq with _ hd
        refine List.mem_cons_of_mem _ ?_
        rw [← hd]
        exact List.mem_singleton.mpr rfl
      · cases hd : r.definitionUrl with
        | none => simp [hd, Duty.ofDefinition] at hmem
        | some u => simp [hd, Duty.ofDefinition] at hmem
    | errback definition e =>
      cases definition with
      | none => cases hmem
      | some u => simp [Ending.duties, Duty.ofDefinition] at hmem
    | unit t =>
      rw [Ending.duties, List.mem_singleton] at hmem
      split at hmem <;> cases hmem
    | plain => cases hmem
    | script t fragment => simp [Ending.duties] at hmem
    | main t => simp [Ending.duties] at hmem
  obtain ⟨task, htask, hmem⟩ := List.mem_flatMap.mp h
  refine List.mem_flatMap.mpr ⟨task, htask, ?_⟩
  cases task with
  | body frame script ending => exact hending frame ending hmem
  | settling frame next ending => exact hending frame ending hmem
  | dispatch => simp [Task.duties] at hmem
  | draining => simp [Task.duties] at hmem

namespace Machine

variable {m : Machine ν} {url : String} {id : RequestId} {r : Request ν}

theorem loading_of_settle (h : m.Reachable) (hk : .settle url ∈ dutiesOf m.stack) :
    m.loader.registry.state? url = some .loading := by
  refine h.owned.held ?_
  have hcount := List.count_pos_iff.mpr hk
  rw [hands]
  omega

theorem loading_of_errback (h : m.Reachable) {task : Task ν} (htask : task ∈ m.stack)
    {e : LoadError} (hending : task.ending? = some (.errback (some url) e)) :
    m.loader.registry.state? url = some .loading := by
  refine loading_of_settle h (List.mem_flatMap.mpr ⟨task, htask, ?_⟩)
  cases task with
  | body frame script ending =>
    cases hending
    exact List.mem_singleton.mpr rfl
  | settling frame next ending =>
    cases hending
    exact List.mem_singleton.mpr rfl
  | dispatch => cases hending
  | draining => cases hending

/-- While its factory runs a module is loading. -/
theorem loading_of_called (h : m.Reachable) {dependencies : List String}
    (hsubmitted : .submitted id dependencies (some url) ∈ m.loader.journal)
    (hcalled : id ∈ calls m.loader.journal) (hreturned : id ∉ returns m.loader.journal) :
    m.loader.registry.state? url = some .loading := by
  have hcalling : Calling m.loader.journal (dutiesOf m.stack) :=
    maintained_calling.reachable (fun _ _ _ hid => nomatch hid) h
  obtain ⟨definition, hk⟩ := (hcalling id hcalled).resolve_left hreturned
  obtain ⟨_, _, dependencies', hmade⟩ := h.accounts.running hk
  have heq := eq_of_nodup_filterMap h.accounts.orderly.nodup_submissions hsubmitted hmade rfl rfl
  injection heq with _ _ hd
  rw [← hd] at hk
  exact loading_of_settle h (settle_of_conclude hk)

end Machine

namespace Loader

variable {l : Loader ν} {url : String}

theorem state?_readyModule (hurl : l.registry.state? url = some .loading) (v : ModuleValue) :
    (l.readyModule url v).registry.state? url = some (.ready v) := by
  have hsettle := Registry.state?_settle (s := .ready v) ⟨_, hurl, rfl⟩
    (f := fun r => { r with state := .ready v, definition := none }) (fun _ => rfl) url
  exact hsettle.trans (if_pos rfl)

end Loader

namespace Outcome

variable {o : Outcome} {url : String} {e : LoadError}

/-- What a definition's factory makes of the module by ending so. -/
def settles (url : String) : Outcome → ModuleState
  | .value v => .ready v
  | .error reason => .failed (.factory reason)
  | .done => .failed (.nonConforming url)

theorem eq_value_of_failure (h : o.failure (some url) = none) : ∃ v, o = .value v := by
  cases o with
  | value v => exact ⟨v, rfl⟩
  | error reason => cases h
  | done => cases h

theorem settles_of_failure (h : o.failure (some url) = some e) : o.settles url = .failed e := by
  cases o with
  | value v => cases h
  | error reason =>
    cases h
    rfl
  | done =>
    cases h
    rfl

end Outcome

namespace Machine

variable {m : Machine ν} {frame : Option Frame} {o : Outcome} {rest : List (Task ν)} {url : String}
  {id : RequestId} {r : Request ν} {e : LoadError}

/-- What a definition's factory ends with settles the module, but a handler comes before the
failure. -/
theorem step_of_factory (h : m.Reachable)
    (hstack : m.stack = .body frame (.finish o) (.callback id r) :: rest)
    (hd : r.definitionUrl = some url) :
    m.loader.registry.state? url = some .loading ∧
      (m.step.stack = rest ∧ m.step.loader.registry.state? url = some (o.settles url) ∨
        ∃ e handler, o.settles url = .failed e ∧ r.errback = some handler ∧
          m.step.stack =
            .body (some (.callback r.context)) (handler e) (.errback (some url) e) :: rest ∧
          m.step.loader.registry.state? url = some .loading) := by
  have howned := h.owned
  have hduties : dutiesOf m.stack = .conclude id (some url) :: .settle url :: dutiesOf rest := by
    rw [hstack, dutiesOf_cons]
    simp [Task.duties, Ending.duties, hd, Duty.ofDefinition]
  rw [hduties] at howned
  -- From here on the module is in the hand of the factory alone: it is loading, and failing it
  -- drops no definition.
  have howned : Owned m.loader (.settle url :: dutiesOf rest) := howned.drop (by simp)
  have hurl := howned.settling.1
  have hstep : m.step = ⟨(concludeCallback m.loader id r o).1,
      (concludeCallback m.loader id r o).2 ++ rest⟩ := step_of_cons hstack
  refine ⟨hurl, ?_⟩
  rw [hstep]
  cases hfailure : o.failure (some url) with
  | none =>
    obtain ⟨v, rfl⟩ := Outcome.eq_value_of_failure hfailure
    have hvalue : concludeCallback m.loader id r (.value v) =
        ((m.loader.record (.returned id (.value v))).readyModule url v, []) := by
      simp [concludeCallback, Outcome.failure, hd]
    rw [hvalue]
    exact .inl ⟨rfl, Loader.state?_readyModule hurl v⟩
  | some e =>
    have hfails : concludeCallback m.loader id r o =
        report (m.loader.record (.returned id o)) id r e := by
      simp [concludeCallback, hd, hfailure]
    rw [hfails, Outcome.settles_of_failure hfailure]
    cases herrback : r.errback with
    | none =>
      have hreport : report (m.loader.record (.returned id o)) id r e =
          failModule ((m.loader.record (.returned id o)).record (.failed id e)) url e := by
        simp [report, herrback, hd]
      have hnoted : Owned ((m.loader.record (.returned id o)).record (.failed id e))
          (.settle url :: dutiesOf rest) := howned.loader rfl rfl rfl
      rw [hreport, failModule_of_settling hnoted h.wellDefining]
      exact .inl ⟨rfl, state?_abandonModule hurl e⟩
    | some handler =>
      have hreport : report (m.loader.record (.returned id o)) id r e =
          handle ((m.loader.record (.returned id o)).record (.failed id e)) id r e handler
            (some url) := by
        simp [report, herrback, hd]
      rw [hreport]
      exact .inr ⟨e, handler, rfl, rfl, rfl, hurl⟩

/-- A module whose factory has failed fails when the handler has ended. -/
theorem step_of_handler (h : m.Reachable)
    (hstack : m.stack = .body frame (.finish o) (.errback (some url) e) :: rest) :
    m.loader.registry.state? url = some .loading ∧ m.step.stack = rest ∧
      m.step.loader.registry.state? url = some (.failed e) := by
  have howned := h.owned
  have hduties : dutiesOf m.stack = .settle url :: dutiesOf rest := by
    rw [hstack]
    rfl
  rw [hduties] at howned
  have hurl := howned.settling.1
  have hstep : m.step = ⟨(failModule m.loader url e).1, (failModule m.loader url e).2 ++ rest⟩ :=
    step_of_cons hstack
  rw [hstep, failModule_of_settling howned h.wellDefining]
  exact ⟨hurl, rfl, state?_abandonModule hurl e⟩

end Machine

/-! ## Values -/

/-- The module that is about to be given its value, with this value. -/
def Machine.readies? (m : Machine ν) : Option (String × ModuleValue) :=
  m.stack.head?.bind (Task.readies? m.loader)

namespace Loader

variable {l₀ : Loader ν}

/-- Since the loader was `l₀` no module has been given a value but the one in question. -/
def ReadyBy (l₀ : Loader ν) (what : Option (String × ModuleValue)) (l : Loader ν) : Prop :=
  ∀ ⦃url v⦄, l.registry.state? url = some (.ready v) →
    l₀.registry.state? url = some (.ready v) ∨ what = some (url, v)

namespace ReadyBy

variable {l l' : Loader ν} {what : Option (String × ModuleValue)}

theorem congr (h : l₀.ReadyBy what l)
    (hstate : ∀ u, l'.registry.state? u = l.registry.state? u) : l₀.ReadyBy what l' := by
  intro url v hurl
  rw [hstate] at hurl
  exact h hurl

theorem abandonModule (h : l₀.ReadyBy what l) (url : String) (e : LoadError) :
    l₀.ReadyBy what (l.abandonModule url e) := by
  intro u v hu
  rcases state?_of_abandonModule hu with ⟨_, heq⟩ | hold
  · cases heq
  · exact h hold

theorem withdraw (h : l₀.ReadyBy what l) (id : RequestId) (r : Request ν) :
    l₀.ReadyBy what (l.withdraw id r) :=
  h.congr (state?_foldl_dropWaiters r.modules l.registry id)

theorem readyModule (h : l₀.ReadyBy what l) {url : String} {v : ModuleValue}
    (hwhat : what = some (url, v)) : l₀.ReadyBy what (l.readyModule url v) := by
  intro u w hu
  rcases state?_of_readyModule hu with ⟨rfl, heq⟩ | hold
  · cases heq
    exact .inr hwhat
  · exact h hold

end ReadyBy

theorem keptByFailing_readyBy (l₀ : Loader ν) (what : Option (String × ModuleValue)) :
    KeptByFailing fun (l : Loader ν) _ => l₀.ReadyBy what l where
  aside h _ := h
  make _ h := h
  fetches h _ := h
  arrive h _ := h
  enter _ h _ := h
  unwatch h := h
  abandon e h _ _ := h.abandonModule _ e
  abandonDefinition e h _ _ _ := (h.abandonModule _ e).withdraw _ _
  finish h _ := h
  fault h _ := h
  handle h _ := h
  dispatch h _ := h
  redispatch h _ := h
  drained h _ := h
  dead h _ _ := h
  fill h _ _ _ := h
  fillFire h _ _ _ := h
  fire h _ _ := h
  fail h _ _ := h.withdraw _ _

end Loader

namespace Machine

variable {m : Machine ν} {url : String} {v : ModuleValue}

/-- No module is given a value but the one that is to be given it. -/
theorem ready_of_step (h : m.Reachable)
    (hready : m.step.loader.registry.state? url = some (.ready v)) :
    m.loader.registry.state? url = some (.ready v) ∨ m.readies? = some (url, v) := by
  cases hstack : m.stack with
  | nil =>
    unfold step at hready
    rw [hstack] at hready
    exact .inl hready
  | cons task rest =>
    cases ht : task.tends m.loader with
    | true =>
      have hfit := h.fits task (by rw [hstack]; exact List.mem_cons_self)
      have hby : m.loader.ReadyBy (task.readies? m.loader) (advance m.loader task).1 :=
        ((Loader.keptByFailing_readyBy m.loader (task.readies? m.loader)).advance (k := [])
          (fun _ _ hurl => .inl hurl) hfit ht fun _ _ _ _ hwhat h => h.readyModule hwhat).1
      rw [step_of_cons hstack] at hready
      rcases hby hready with hold | hwhat
      · exact .inl hold
      · refine .inr ?_
        rw [readies?, hstack]
        exact hwhat
    | false =>
      -- Whoever does not tend settles nothing, so the module is not among those that are open.
      have hopen : ¬ m.loader.Unsettled url := by
        intro hunsettled
        rw [step_of_cons hstack] at hready
        cases hunsettled.deed (deed_of_not_tends ht) _ hready
      have hadvances := advances_goes h (.step m) url
      rw [hready] at hadvances
      cases hurl : m.loader.registry.state? url with
      | none =>
        rw [hurl] at hadvances
        cases hadvances
      | some s =>
        rw [hurl] at hadvances
        cases hadvances with
        | stays => exact .inl rfl
        | ready => exact absurd (fun s hs => by rw [hurl] at hs; cases hs; rfl) hopen

/-- A module whose fetch is in flight is loading. -/
theorem loading_of_fetch (h : m.Reachable) {f : Fetch ν} (hf : f ∈ m.loader.fetches.inFlight)
    (hrole : f.role = .module) : m.loader.registry.state? f.target.key = some .loading := by
  refine h.owned.held (Nat.add_pos_left ?_ _)
  rw [Fetches.bringing, List.countP_pos_iff]
  exact ⟨f.errand, List.mem_map_of_mem hf, by simp [Fetch.errand, hrole]⟩

theorem state?_readyFragment {l : Loader ν} {t : Target}
    (hurl : l.registry.state? t.key = some .loading) (fragment : Fragment) :
    (readyFragment l t fragment).registry.state? t.key =
      some (.ready ⟨l.values, .fragment fragment⟩) :=
  Loader.state?_readyModule (l := (l.make (.fragment fragment)).2) hurl _

theorem takeUp_of_readiesNext (h : m.Reachable) (hnext : m.loader.readiesNext? = some (url, v)) :
    m.loader.registry.state? url = some .loading ∧
      (takeUp m.loader).2.1.registry.state? url = some (.ready v) := by
  unfold Loader.readiesNext? at hnext
  split at hnext
  · rename_i f fragment fs htake
    cases hrole : f.role with
    | main =>
      rw [hrole] at hnext
      cases hnext
    | module =>
      rw [hrole] at hnext
      cases hnext
      have hurl := loading_of_fetch h (Fetches.take_eq_some htake).1 hrole
      refine ⟨hurl, ?_⟩
      simp only [takeUp, htake, complete, hrole, completeModule]
      exact state?_readyFragment
        (l := Loader.record { m.loader with fetches := fs } (.arrived f.target .module)) hurl
        fragment
  · cases hnext

/-- The module that is to be given its value has been loading, and gets it. -/
theorem step_of_readies (h : m.Reachable) (hwhat : m.readies? = some (url, v)) :
    m.loader.registry.state? url = some .loading ∧
      m.step.loader.registry.state? url = some (.ready v) := by
  obtain ⟨task, hhead, hwhat⟩ := Option.bind_eq_some_iff.mp hwhat
  obtain ⟨rest, hstack⟩ := List.head?_eq_some_iff.mp hhead
  unfold Task.readies? at hwhat
  split at hwhat
  · rename_i frame o ending
    cases ending with
    | callback id r =>
      cases o with
      | value w =>
        obtain ⟨url', hd, heq⟩ := Option.map_eq_some_iff.mp hwhat
        cases heq
        obtain ⟨hurl, ⟨_, hready⟩ | ⟨e, _, hsettles, _⟩⟩ := step_of_factory h hstack hd
        · exact ⟨hurl, hready⟩
        · cases hsettles
      | _ => cases hwhat
    | script t fragment =>
      have hurl : m.loader.registry.state? t.key = some .loading := by
        refine loading_of_settle h ?_
        rw [hstack]
        exact List.mem_cons_self
      rw [step_of_cons hstack]
      cases o with
      | error reason => cases hwhat
      | done =>
        cases hwhat
        exact ⟨hurl, state?_readyFragment hurl fragment⟩
      | value w =>
        cases hwhat
        exact ⟨hurl, state?_readyFragment hurl fragment⟩
    | _ => cases hwhat
  · obtain ⟨hurl, hready⟩ := takeUp_of_readiesNext h hwhat
    rw [step_of_cons hstack]
    exact ⟨hurl, hready⟩
  · obtain ⟨hurl, hready⟩ := takeUp_of_readiesNext h hwhat
    rw [step_of_cons hstack, fst_settling]
    exact ⟨hurl, hready⟩
  · cases hwhat

end Machine

/-- At every moment of every run. A module comes to be loading, and then to be ready or to have
failed; it never goes back, and once it has been settled it stays as it is. From the start of the
factory that is to define it until its end a module is loading. It is settled as the factory ends,
or, if there is a handler for its failure, it is loading until the handler ends, and settled then.
Whoever is about to give a module its value finds it loading, and gives it this value; nobody else
gives it one. -/
theorem settles_for_good {m : Machine ν} (h : m.Reachable) (url : String) :
    (∀ m', m.Goes m' →
      Advances (m.loader.registry.state? url) (m'.loader.registry.state? url)) ∧
    (∀ m' s, ReflTransGen Machine.Goes m m' → m.loader.registry.state? url = some s →
      s.isSettled = true → m'.loader.registry.state? url = some s) ∧
    (∀ id dependencies, .submitted id dependencies (some url) ∈ m.loader.journal →
      id ∈ calls m.loader.journal → id ∉ returns m.loader.journal →
        m.loader.registry.state? url = some .loading) ∧
    (∀ frame o id r rest, m.stack = .body frame (.finish o) (.callback id r) :: rest →
      r.definitionUrl = some url →
        m.loader.registry.state? url = some .loading ∧
          (m.step.stack = rest ∧ m.step.loader.registry.state? url = some (o.settles url) ∨
            ∃ e handler, o.settles url = .failed e ∧ r.errback = some handler ∧
              m.step.stack =
                .body (some (.callback r.context)) (handler e) (.errback (some url) e) :: rest ∧
              m.step.loader.registry.state? url = some .loading)) ∧
    (∀ task ∈ m.stack, ∀ e, task.ending? = some (.errback (some url) e) →
      m.loader.registry.state? url = some .loading) ∧
    (∀ frame o e rest, m.stack = .body frame (.finish o) (.errback (some url) e) :: rest →
      m.step.stack = rest ∧ m.step.loader.registry.state? url = some (.failed e)) ∧
    ∀ v, (m.readies? = some (url, v) → m.loader.registry.state? url = some .loading ∧
        m.step.loader.registry.state? url = some (.ready v)) ∧
      (m.step.loader.registry.state? url = some (.ready v) →
        m.loader.registry.state? url = some (.ready v) ∨ m.readies? = some (url, v)) := by
  refine ⟨?_, ?_, ?_, ?_, ?_, ?_, ?_⟩
  · exact fun m' hgo => Machine.advances_goes h hgo url
  · exact fun m' s hrun hurl hs => (h.lasts hrun).settled hurl hs
  · exact fun id dependencies => Machine.loading_of_called h
  · exact fun frame o id r rest => Machine.step_of_factory h
  · exact fun task htask e => Machine.loading_of_errback h htask
  · exact fun frame o e rest hstack => (Machine.step_of_handler h hstack).2
  · exact fun v => ⟨Machine.step_of_readies h, Machine.ready_of_step h⟩

/-- The moment at which the factory of the module that is shared is at its end. -/
def defining : Machine Unit :=
  (Machine.start (Loader.new {} sharingResources)
    (.bootstrap "a:/" (some "./m.js") fun _ => .settle fun _ => .finish .done)).run 14

theorem settles_for_good_shared :
    defining.loader.registry.state? "a:/x.js" = some .loading ∧
    ∃ v : ModuleValue, v.id = 0 ∧ ∀ m', ReflTransGen Machine.Goes defining.step m' →
      m'.loader.registry.state? "a:/x.js" = some (.ready v) := by
  have hreach : defining.Reachable := (Machine.reachable_start _ _ _).run 14
  have hreadies : defining.readies?.map (fun p => (p.1, p.2.id)) = some ("a:/x.js", 0) := by
    decide +kernel
  obtain ⟨⟨url, v⟩, hwhat, heq⟩ := Option.map_eq_some_iff.mp hreadies
  obtain ⟨rfl, hid⟩ := Prod.mk.inj heq
  obtain ⟨_, _, _, _, _, _, hvalues⟩ := settles_for_good hreach "a:/x.js"
  obtain ⟨hloading, hready⟩ := (hvalues v).1 hwhat
  obtain ⟨_, hstays, _⟩ := settles_for_good (hreach.goes (.step defining)) "a:/x.js"
  exact ⟨hloading, v, hid, fun m' hrun => hstays m' _ hrun hready rfl⟩

end AsyncModule
