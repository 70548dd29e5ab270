import AsyncModule.Proofs.Once
import AsyncModule.Proofs.Rest
import AsyncModule.Proofs.Truth

/-!
# AsyncModule.Proofs.Faithful

Runs by a table keep what a loader holds true. The programs on the stack are those that call from
outside, and units, callbacks and handlers on the way to the one thing that they do to the loader.

* `Lands`                    — what a unit, callback or handler may do.
* `Truthful.failModule`, `Truthful.report`, `Truthful.process` — the work of the loader.
* `Faithful.step`, `Faithful.runs` — one step, and a whole run.
-/

namespace AsyncModule

open Relation

variable {ν : Type}

/-- What a unit, callback or handler may do when it has come to the point: end as it should, or
make the definition of its module. -/
inductive Lands (σ : Setting) : Option Frame → Ending ν → Script ν → Prop where
  | undefined {t : Target} {ctx : Context} {o : Outcome} (h : σ.DoomedAt t.key) :
    Lands σ (some (.unit t.key ctx true false)) (.unit t) (.finish o)
  | defined {t : Target} {ctx : Context} {o : Outcome} (h : o.IsOk) :
    Lands σ (some (.unit t.key ctx true true)) (.unit t) (.finish o)
  | define {t : Target} {ctx : Context} {dependencies : List String}
    {callback : List ModuleValue → Script ν} {errback : Option (LoadError → Script ν)}
    {next : Script ν} (hpurpose : σ.Purpose ctx dependencies callback errback (some t.key))
    (hhandler : ∀ handler ∈ errback, ∀ e, (handler e).Ends fun _ => True)
    (hnext : next.Ends Outcome.IsOk) :
    Lands σ (some (.unit t.key ctx true false)) (.unit t)
      (.define dependencies callback errback next)
  | callback {frame : Option Frame} {id : RequestId} {q : Request ν} {ctx : Context} {o : Outcome}
    (hq : q.Apt σ ctx) (h : σ.Right q.definitionUrl o) :
    Lands σ frame (.callback id q) (.finish o)
  | errback {frame : Option Frame} {definition : Option String} {e : LoadError} {o : Outcome}
    (h : ∀ url ∈ definition, σ.DoomedAt url) : Lands σ frame (.errback definition e) (.finish o)

inductive Task.Apt (σ : Setting) : Task ν → Prop where
  | host {script : Script ν} (h : script.Hosts σ.table) : Apt σ (.body none script .plain)
  | settling {next : Bool → Script ν} (h : ∀ b, (next b).Hosts σ.table) :
    Apt σ (.settling none next .plain)
  | inner {frame : Option Frame} {script : Script ν} {ending : Ending ν}
    (h : script.Quietly (Lands σ frame ending)) : Apt σ (.body frame script ending)
  | dispatch : Apt σ .dispatch
  | draining : Apt σ .draining

/-- What the loader holds is true, and the tasks are those of a run by a table. -/
def Sound (σ : Setting) (out : Loader ν × List (Task ν)) : Prop :=
  out.1.Truthful σ ∧ ∀ task ∈ out.2, task.Apt σ

section
variable {σ : Setting} {l : Loader ν} {tasks tasks' : List (Task ν)} {task : Task ν}

theorem sound_nil (h : l.Truthful σ) : Sound σ (l, []) := ⟨h, by simp⟩

theorem sound_cons (htask : task.Apt σ) (h : Sound σ (l, tasks)) : Sound σ (l, task :: tasks) :=
  ⟨h.1, List.forall_mem_cons.mpr ⟨htask, h.2⟩⟩

theorem sound_append (h : Sound σ (l, tasks)) (h' : ∀ task ∈ tasks', task.Apt σ) :
    Sound σ (l, tasks ++ tasks') :=
  ⟨h.1, List.forall_mem_append.mpr ⟨h.2, h'⟩⟩

end

/-! ## Filled slots -/

theorem Setting.supplied_of_slots {σ : Setting} {ctx : Context} {slots : List Slot}
    (h : ∀ s ∈ slots, ∃ v, s.value = some v ∧ σ.Supplies ctx s.specifier v.payload) :
    σ.Supplied ctx (slots.map (·.specifier)) ((slots.filterMap (·.value)).map (·.payload)) := by
  induction slots with
  | nil => exact .nil
  | cons s slots ih =>
    obtain ⟨v, hv, hsupplies⟩ := h s List.mem_cons_self
    rw [List.filterMap_cons_some hv]
    exact .cons hsupplies (ih fun s' hs' => h s' (List.mem_cons_of_mem _ hs'))

namespace Loader.Truthful

variable {σ : Setting} {l : Loader ν} {id : RequestId} {q : Request ν} {ctx : Context}
  {url : String} {dependencies : List String} {definition : Option String}

theorem supplies (h : l.Truthful σ) (hq : q.Apt σ ctx) {i : Nat} {s : Slot} {v : ModuleValue}
    (hs : q.slot? i = some s) (hm : s.module = some url)
    (hready : l.registry.state? url = some (.ready v)) :
    σ.Supplies ctx s.specifier v.payload := by
  obtain ⟨t, ht, rfl⟩ := hq.linked i s url hs hm
  exact Setting.supplies_of_goodAt hq.wellFormed ht (h.recorded _ _ hready)

/-- Once its last slot is filled, a request has the values of good modules. -/
theorem supplied_fill (h : l.Truthful σ) (hlinked : l.AllLinked)
    (hq : l.requests.get? id = some q) (hapt : q.Apt σ ctx) {i : Nat} {v : ModuleValue}
    (hdue : .fill id i v ∈ l.worklist) (hfull : (q.fill i v).isSatisfied = true) :
    σ.Supplied ctx (q.fill i v).dependencies ((q.fill i v).values.map (·.payload)) := by
  refine Setting.supplied_of_slots fun s hs => ?_
  obtain ⟨j, hj⟩ := Request.mem_slots.mp hs
  obtain ⟨url, w, hm, hw, hready⟩ := hlinked.ready_of_fill hq hdue hfull hj
  exact ⟨w, hw, h.supplies (hapt.fill i v) hj hm hready⟩

/-! ## Failures -/

theorem failed (h : l.Truthful σ) (e : LoadError)
    (hsubmitted : .submitted id dependencies definition ∈ l.journal) (hinside : definition ≠ none) :
    (l.record (.failed id e)).Truthful σ :=
  { h with told := h.told.fail (.inl rfl) hsubmitted fun hnone => absurd hnone hinside }

theorem handled (h : l.Truthful σ) (e : LoadError)
    (hsubmitted : .submitted id dependencies definition ∈ l.journal)
    (houtside : definition = none → σ.Denied σ.context dependencies) :
    ((l.record (.failed id e)).record (.handled id e)).Truthful σ :=
  { h with
    told := h.told.fail (.inr rfl) hsubmitted fun hnone => ⟨houtside hnone, by simp⟩ }

/-- The handler of a request runs, whereupon a doomed module fails, or none. -/
theorem sound_handle {e : LoadError} {errback : LoadError → Script ν}
    (h : (l.record (.handled id e)).Truthful σ) (herrback : (errback e).Ends fun _ => True)
    (hdoomed : ∀ url ∈ definition, σ.DoomedAt url) :
    Sound σ (Machine.handle l id q e errback definition) := by
  refine sound_cons (.inner (Script.Quietly.mono herrback ?_)) (sound_nil h)
  rintro s ⟨o, rfl, _⟩
  exact .errback hdoomed

theorem failModule (h : l.Truthful σ) (hlinked : l.AllLinked) (hdefining : l.WellDefining)
    (e : LoadError) (hdoomed : σ.DoomedAt url) : Sound σ (Machine.failModule l url e) := by
  have h1 := h.abandon hlinked e hdoomed
  unfold Machine.failModule Loader.failModule
  cases hd : l.registry.definition? url with
  | none => exact sound_nil h1
  | some id =>
    cases hq : l.requests.get? id with
    | none =>
      simp only [hq]
      exact sound_nil h1
    | some q =>
      have h2 := h1.withdraw id q
      have hbound := hdefining.bound hd hq
      have hmade := h.told.made hq
      obtain ⟨ctx, hapt⟩ := h.apt id q hq
      rw [hbound] at hmade
      simp only [hq]
      cases herr : q.errback with
      | some errback =>
        have h3 := h2.handled e hmade (by simp)
        exact h3.sound_handle (hapt.handler errback herr e) (by simp)
      | none =>
        rw [hbound]
        exact sound_nil (h2.failed e hmade (by simp))

theorem report (h : l.Truthful σ) (hlinked : l.AllLinked) (hdefining : l.WellDefining)
    (hapt : q.Apt σ ctx) (e : LoadError)
    (hsubmitted : .submitted id dependencies q.definitionUrl ∈ l.journal)
    (houtside : q.definitionUrl = none → σ.Denied σ.context dependencies)
    (hdoomed : ∀ url ∈ q.definitionUrl, σ.DoomedAt url) : Sound σ (Machine.report l id q e) := by
  unfold Machine.report
  dsimp only
  cases herr : q.errback with
  | some errback =>
    have h1 := h.handled e hsubmitted houtside
    exact h1.sound_handle (hapt.handler errback herr e) hdoomed
  | none =>
    cases hd : q.definitionUrl with
    | some url =>
      have h1 := h.failed e hsubmitted (by simp [hd])
      exact h1.failModule hlinked hdefining e (hdoomed url hd)
    | none => exact absurd herr (hapt.outside hd).2

/-! ## The worklist -/

theorem pop (h : l.Truthful σ) {s : Step} {rest : List Step} (hw : l.worklist = s :: rest) :
    Truthful σ { l with worklist := rest } :=
  { h with
    failing := by
      intro id e q hmem hq
      exact h.failing id e q (by rw [hw]; exact List.mem_cons_of_mem _ hmem) hq }

theorem fill (h : l.Truthful σ) (id : RequestId) (i : Nat) (v : ModuleValue) :
    Truthful σ { l with requests := l.requests.modify id (·.fill i v) } := by
  have hback : ∀ id' q', (l.requests.modify id (·.fill i v)).get? id' = some q' →
      ∃ q, l.requests.get? id' = some q ∧ (q' = q ∨ q' = q.fill i v) := by
    intro id' q' hq'
    rcases Requests.get?_modify_eq_some hq' with ⟨rfl, q, hq, rfl⟩ | ⟨_, hq⟩
    · exact ⟨q, hq, .inr rfl⟩
    · exact ⟨q', hq, .inl rfl⟩
  exact { h with
    apt := by
      intro id' q' hq'
      obtain ⟨q, hq, rfl | rfl⟩ := hback id' q' hq'
      · exact h.apt id' _ hq
      · obtain ⟨ctx, hapt⟩ := h.apt id' q hq
        exact ⟨ctx, hapt.fill i v⟩
    failing := by
      intro id' e q' hmem hq'
      obtain ⟨q, hq, rfl | rfl⟩ := hback id' q' hq'
      · exact h.failing id' e _ hmem hq
      · exact (h.failing id' e q hmem hq).fill i v
    told := h.told.requests (Requests.serial_modify _ _ _) fun id' q' hq' => by
      obtain ⟨q, hq, rfl | rfl⟩ := hback id' q' hq'
      · exact ⟨_, hq, rfl, rfl⟩
      · exact ⟨q, hq, Request.dependencies_fill q i v, Request.definitionUrl_fill q i v⟩ }

theorem fire (h : l.Truthful σ) (hvalues : ∀ q ctx, l.requests.get? id = some q → q.Apt σ ctx →
    σ.Supplied ctx q.dependencies (q.values.map (·.payload))) : Sound σ (Machine.fire l id) := by
  unfold Machine.fire
  split
  · exact sound_nil h
  · rename_i q hq
    obtain ⟨ctx, hapt⟩ := h.apt id q hq
    have hsupplied := hvalues q ctx hq hapt
    have h1 := h.erase id
    have houtside : q.definitionUrl = none →
        σ.Supplied σ.context q.dependencies (q.values.map (·.payload)) := by
      intro hnone
      rw [← (hapt.outside hnone).1]
      exact hsupplied
    refine sound_cons (.inner (Script.Quietly.mono (hapt.purpose.ends hsupplied) ?_))
      (sound_nil { h1 with told := h1.told.call (h.told.made hq) houtside })
    rintro s ⟨o, rfl, ho⟩
    exact .callback hapt ho

theorem process (h : l.Truthful σ) (hlinked : l.AllLinked) (hdefining : l.WellDefining)
    {s : Step} {rest : List Step} (hw : l.worklist = s :: rest) :
    Sound σ (Machine.process { l with worklist := rest } s) := by
  have hs : s ∈ l.worklist := by
    rw [hw]
    exact List.mem_cons_self
  have h1 := h.pop hw
  cases s with
  | fill id i v =>
    simp only [Machine.process, Machine.fill]
    cases hq : l.requests.get? id with
    | none => exact sound_nil h1
    | some q =>
      have h2 := h1.fill id i v
      dsimp only
      split
      · rename_i hfull
        refine h2.fire fun q' ctx hq' hapt => ?_
        have hget := Requests.get?_modify_self (·.fill i v) hq
        have hq' : (l.requests.modify id (·.fill i v)).get? id = some q' := hq'
        rw [hget] at hq'
        cases hq'
        obtain ⟨ctx', hapt'⟩ := h.apt id q hq
        obtain rfl : ctx' = ctx := by
          have hsame := (hapt'.fill i v).context
          rw [hapt.context] at hsame
          exact (Option.some.inj hsame).symm
        exact h.supplied_fill hlinked hq hapt' hs hfull
      · exact sound_nil h2
  | fire id =>
    refine h1.fire fun q ctx hq _ => ?_
    have hnone : q.slots = [] := hlinked.fire_due hs hq
    rw [Request.dependencies, Request.values, hnone]
    exact .nil
  | fail id e =>
    simp only [Machine.process, Machine.failRequest]
    cases hq : l.requests.get? id with
    | none => exact sound_nil h1
    | some q =>
      obtain ⟨ctx, hapt⟩ := h.apt id q hq
      have hdenied := h.failing id e q hs hq ctx hapt.context
      obtain ⟨hkeep, hsub⟩ := keep_of_worklist hw rfl
      refine (h1.withdraw id q).report (hlinked.withdraw hq hkeep hsub) (hdefining.withdraw id q)
        hapt e (h.told.made hq) ?_ (hapt.purpose.doomedAt hdenied)
      intro hnone
      rw [← (hapt.outside hnone).1]
      exact hdenied

/-! ## The ends of programs -/

theorem concludeCallback (h : l.Truthful σ) (hlinked : l.AllLinked) (hdefining : l.WellDefining)
    (hapt : q.Apt σ ctx) {o : Outcome} (hright : σ.Right q.definitionUrl o)
    (hsubmitted : ∃ dependencies, .submitted id dependencies q.definitionUrl ∈ l.journal) :
    Sound σ (Machine.concludeCallback l id q o) := by
  obtain ⟨dependencies, hsubmitted⟩ := hsubmitted
  have h1 : (l.record (.returned id o)).Truthful σ := h.record rfl rfl rfl
  have hsubmitted1 := List.mem_cons_of_mem (.returned id o) hsubmitted
  unfold Machine.concludeCallback
  dsimp only
  cases hd : q.definitionUrl with
  | none =>
    rw [hd] at hright
    cases o with
    | done => exact sound_nil h1
    | value v => exact sound_nil h1
    | error reason => exact False.elim hright
  | some url =>
    have hreport : ∀ e, σ.DoomedAt url →
        Sound σ (Machine.report (l.record (.returned id o)) id q e) := by
      intro e hdoomed
      refine h1.report hlinked hdefining hapt e hsubmitted1 (by simp [hd]) ?_
      intro url' hurl'
      rw [hd] at hurl'
      cases hurl'
      exact hdoomed
    rw [hd] at hright
    cases o with
    | value v => exact sound_nil (h1.ready hright)
    | done => exact hreport _ hright
    | error reason => exact hreport _ hright

theorem conclude (h : l.Truthful σ) (hlinked : l.AllLinked) (hdefining : l.WellDefining)
    {frame : Option Frame} {ending : Ending ν} {k : List Duty}
    (haccounts : l.Accounted (ending.duties frame ++ k)) {o : Outcome}
    (hlands : Lands σ frame ending (.finish o)) : Sound σ (Machine.conclude l frame o ending) := by
  cases hlands with
  | undefined hdoomed =>
    cases o with
    | error reason => exact h.failModule hlinked hdefining _ hdoomed
    | done => exact h.failModule hlinked hdefining _ hdoomed
    | value v => exact h.failModule hlinked hdefining _ hdoomed
  | defined hok =>
    cases o with
    | error reason => exact False.elim hok
    | done => exact sound_nil h
    | value v => exact sound_nil h
  | callback hapt hright =>
    obtain ⟨_, _, hsubmitted⟩ := haccounts.running List.mem_cons_self
    exact h.concludeCallback hlinked hdefining hapt hright hsubmitted
  | @errback _ definition e _ hdoomed =>
    cases definition with
    | none => exact sound_nil h
    | some url => exact h.failModule hlinked hdefining e (hdoomed url rfl)

end Loader.Truthful

/-! ## Finished fetches -/

section
variable {σ : Setting} {t : Target}

theorem Setting.doomedAt_of_fate (hcanonical : t.url.Canonical)
    (hmarkup : ∀ fragment, σ.table t.key ≠ .markup fragment)
    (hdefining : ∀ dependencies factory, σ.table t.key ≠ .defining dependencies factory) :
    σ.DoomedAt t.key :=
  ⟨t.url, hcanonical, rfl, doomed_of_fate hmarkup hdefining⟩

theorem Setting.doomedAt_of_ofUrl {e : LoadError} (hcanonical : t.url.Canonical)
    (hmarkup : ∀ fragment, σ.table t.key ≠ .markup fragment)
    (hctx : Context.ofUrl t.url = .error e) : σ.DoomedAt t.key := by
  refine ⟨t.url, hcanonical, rfl, fun p hgood => ?_⟩
  cases hgood with
  | markup h => exact hmarkup _ h
  | defining _ h =>
    rw [hctx] at h
    cases h

theorem lands_of_serves {ctx : Context} {s : Script ν} (hcanonical : t.url.Canonical)
    (hctx : Context.ofUrl t.url = .ok ctx) (h : (σ.table t.key).Serves (.code s)) :
    s.Quietly (Lands σ (some (.unit t.key ctx true false)) (.unit t)) := by
  cases hfate : σ.table t.key with
  | missing =>
    rw [hfate] at h
    exact False.elim h
  | markup fragment =>
    rw [hfate] at h
    exact False.elim h
  | broken =>
    rw [hfate] at h
    refine Script.Quietly.mono h ?_
    rintro s ⟨o, rfl, _⟩
    exact .undefined (Setting.doomedAt_of_fate hcanonical (by simp [hfate]) (by simp [hfate]))
  | silent =>
    rw [hfate] at h
    refine Script.Quietly.mono h ?_
    rintro s ⟨o, rfl, _⟩
    exact .undefined (Setting.doomedAt_of_fate hcanonical (by simp [hfate]) (by simp [hfate]))
  | defining dependencies factory =>
    rw [hfate] at h
    refine Script.Quietly.mono h ?_
    rintro s ⟨callback, errback, next, rfl, hcallback, hhandler, hnext⟩
    exact .define ⟨factory, ⟨t.url, hcanonical, rfl, hctx, hfate⟩, hcallback⟩ hhandler hnext

end

namespace Loader.Truthful

variable {σ : Setting} {l : Loader ν}

theorem completeModule (h : l.Truthful σ) (hlinked : l.AllLinked) (hdefining : l.WellDefining)
    {t : Target} (hcanonical : t.url.Canonical) {result : Fetched (Script ν)}
    (hserves : (σ.table t.key).Serves result) : Sound σ (Machine.completeModule l t result) := by
  cases result with
  | failed e =>
    refine h.failModule hlinked hdefining e (Setting.doomedAt_of_fate hcanonical ?_ ?_)
    · intro fragment hfate
      rw [hfate] at hserves
      exact hserves
    · intro dependencies factory hfate
      rw [hfate] at hserves
      exact hserves
  | code s =>
    simp only [Machine.completeModule]
    split
    · rename_i e hctx
      refine h.failModule hlinked hdefining e (Setting.doomedAt_of_ofUrl hcanonical ?_ hctx)
      intro fragment hfate
      rw [hfate] at hserves
      exact hserves
    · rename_i ctx hctx
      have h1 : (l.record (.entered t .module)).Truthful σ := h.record rfl rfl rfl
      exact sound_cons (.inner (lands_of_serves hcanonical hctx hserves)) (sound_nil h1)
  | markup fragment script =>
    cases hfate : σ.table t.key with
    | markup fragment' =>
      rw [hfate] at hserves
      cases script with
      | some s => exact False.elim hserves
      | none =>
        cases hserves
        have h1 := h.make (.fragment fragment)
        exact sound_nil (h1.ready ⟨t.url, hcanonical, rfl, .markup hfate⟩)
    | _ =>
      rw [hfate] at hserves
      exact False.elim hserves

theorem takeUp (h : l.Truthful σ) (hlinked : l.AllLinked) (hdefining : l.WellDefining) :
    Sound σ (Machine.takeUp l).2 := by
  have hless : ∀ {found fetches}, l.fetches.take = (found, fetches) →
      Truthful σ { l with fetches } := by
    intro found fetches htake
    have hsub := Fetches.inFlight_of_take htake
    exact { h with
      served := fun f hf => h.served f (hsub hf)
      errands := fun e he => h.errands e (List.map_subset _ hsub he) }
  unfold Machine.takeUp
  split
  · rename_i fetches htake
    exact sound_nil (hless htake)
  · rename_i f result fetches htake
    obtain ⟨hmem, hresult, _, _⟩ := Fetches.take_eq_some htake
    obtain ⟨hrole, hcanonical⟩ := h.errands _ (List.mem_map_of_mem hmem)
    have hrole : f.role = .module := hrole
    have h1 : Truthful σ (Loader.record { l with fetches } (.arrived f.target f.role)) :=
      (hless htake).record rfl rfl rfl
    refine sound_append ?_ (by simpa using Task.Apt.dispatch)
    simp only [Machine.complete, hrole]
    rw [hrole] at h1
    exact h1.completeModule hlinked hdefining hcanonical (h.served f hmem result hresult)

/-! ## Steps and runs -/

theorem perform (h : l.Truthful σ) (hlinked : l.AllLinked) (hdefining : l.WellDefining)
    (hnumbered : l.fetches.Numbered) {frame : Option Frame} {script : Script ν}
    {ending : Ending ν} {k : List Duty} (haccounts : l.Accounted (ending.duties frame ++ k))
    (hapt : Task.Apt σ (.body frame script ending)) :
    Sound σ (Machine.perform l frame ending script) := by
  cases hapt with
  | host hhost =>
    cases hhost with
    | finish o => exact sound_nil h
    | @require dependencies callback errback next hcallback herrback hnext =>
      have hpurpose : σ.Purpose σ.context dependencies callback (some errback) none :=
        ⟨rfl, by simp, hcallback⟩
      have hctx : l.context? none = some σ.context := h.context
      have h1 := h.submit hlinked hdefining hctx hpurpose (by simpa using herrback)
      exact sound_cons .dispatch (sound_cons (.host hnext) (sound_nil h1))
    | turn hnext =>
      have h1 := h.takeUp hlinked hdefining
      exact sound_append h1 (by simpa using Task.Apt.host (hnext _))
    | settle hnext => exact sound_cons (.settling hnext) (sound_nil h)
    | @deliver url result next hresult hnext =>
      simp only [Machine.perform]
      split
      · rename_i fetches hdeliver
        have h1 : Truthful σ { l with fetches } :=
          { h with
            served := Fetches.ServedBy.deliver h.served hnumbered hresult hdeliver
            errands := by
              rw [Fetches.errands_of_deliver hdeliver]
              exact h.errands }
        exact sound_cons (.host (hnext _)) (sound_nil h1)
      · exact sound_cons (.host (hnext _)) (sound_nil h)
    | @make payload _ hnext => exact sound_cons (.host (hnext _)) (sound_nil (h.make payload))
    | look hnext => exact sound_cons (.host (hnext _)) (sound_nil h)
    | note hnext => exact sound_cons (.host hnext) (sound_nil (h.record rfl rfl rfl))
  | inner hinner =>
    cases hinner with
    | here hlands =>
      cases hlands with
      | @define t ctx _ _ _ _ hpurpose hhandler hnext =>
        have hctx : l.context? (some (.unit t.key ctx true false)) = some ctx := rfl
        have h1 := h.submit hlinked hdefining hctx hpurpose hhandler
        refine sound_cons .dispatch (sound_cons (.inner (Script.Quietly.mono hnext ?_))
          (sound_nil h1))
        rintro s ⟨o, rfl, ho⟩
        exact .defined ho
      | undefined hdoomed => exact h.conclude hlinked hdefining haccounts (.undefined hdoomed)
      | defined hok => exact h.conclude hlinked hdefining haccounts (.defined hok)
      | callback hq hright => exact h.conclude hlinked hdefining haccounts (.callback hq hright)
      | @errback _ _ _ o hdoomed =>
        exact h.conclude hlinked hdefining haccounts (.errback (o := o) hdoomed)
    | @make payload _ hnext =>
      exact sound_cons (.inner (hnext _ rfl)) (sound_nil (h.make payload))
    | look hnext => exact sound_cons (.inner (hnext _)) (sound_nil h)
    | note hnext => exact sound_cons (.inner hnext) (sound_nil (h.record rfl rfl rfl))

theorem advance (h : l.Truthful σ) (hlinked : l.AllLinked) (hdefining : l.WellDefining)
    (hnumbered : l.fetches.Numbered) {task : Task ν} {k : List Duty}
    (haccounts : l.Accounted (task.duties ++ k)) (hapt : task.Apt σ) :
    Sound σ (Machine.advance l task) := by
  cases task with
  | body frame script ending => exact h.perform hlinked hdefining hnumbered haccounts hapt
  | settling frame next ending =>
    cases hapt with
    | settling hnext =>
      have h1 := h.takeUp hlinked hdefining
      simp only [Machine.advance]
      split
      · rename_i l' tasks htake
        rw [htake] at h1
        exact sound_append h1 (by simpa using Task.Apt.settling hnext)
      · rename_i l' tasks htake
        rw [htake] at h1
        exact sound_cons (.host (hnext _)) (sound_nil h1.1)
  | dispatch =>
    simp only [Machine.advance]
    split
    · exact sound_nil h
    · exact sound_cons .draining (sound_nil { h with })
  | draining =>
    simp only [Machine.advance]
    split
    · exact sound_nil { h with }
    · rename_i s rest hw
      exact sound_append (h.process hlinked hdefining hw) (by simpa using Task.Apt.draining)

end Loader.Truthful

/-- The loader holds what is true, and the programs are those of a run by a table. -/
structure Faithful (σ : Setting) (m : Machine ν) : Prop where
  truthful : m.loader.Truthful σ
  apt : ∀ task ∈ m.stack, task.Apt σ

namespace Faithful

variable {σ : Setting} {m m' : Machine ν}

theorem step (h : Faithful σ m) (hreach : m.Reachable) : Faithful σ m.step := by
  unfold Machine.step
  split
  · exact h
  · rename_i task rest hstack
    have haccounts : m.loader.Accounted (task.duties ++ dutiesOf rest) := by
      have haccounts := hreach.accounts
      rw [hstack] at haccounts
      exact haccounts
    have hapt := h.apt
    rw [hstack, List.forall_mem_cons] at hapt
    obtain ⟨htruthful, htasks⟩ := h.truthful.advance hreach.allLinked hreach.wellDefining
      hreach.mains.numbered haccounts hapt.1
    exact ⟨htruthful, List.forall_mem_append.mpr ⟨htasks, hapt.2⟩⟩

theorem goesBy (h : Faithful σ m) (hreach : m.Reachable) (hgo : Machine.GoesBy σ.table m m') :
    Faithful σ m' := by
  cases hgo with
  | step => exact h.step hreach
  | pass hagree hserved =>
    refine ⟨{ h.truthful with served := hserved, errands := ?_ }, h.apt⟩
    rw [hagree.1]
    exact h.truthful.errands
  | call hscript _ => exact ⟨h.truthful, by simpa using Task.Apt.host hscript⟩

theorem runs (h : Faithful σ m) (hreach : m.Reachable)
    (hrun : ReflTransGen (Machine.GoesBy σ.table) m m') : Faithful σ m' ∧ m'.Reachable := by
  induction hrun with
  | refl => exact ⟨h, hreach⟩
  | tail _ hgo ih => exact ⟨ih.1.goesBy ih.2 hgo, ih.2.goes hgo.goes⟩

end Faithful
end AsyncModule
