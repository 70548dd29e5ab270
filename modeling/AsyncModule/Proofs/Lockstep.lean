import AsyncModule.Proofs.Mirroring

/-!
# AsyncModule.Proofs.Lockstep

Two machines on loaders that are the same to discreet programs go in lockstep, whatever programs
they run.

* `Machine.Mirrors`      — the same loaders, and the same programs on the stack.
* `Machine.Mirrors.step` — so they are after one step.
* `Machine.Together`     — what happens to two machines alike.
-/

namespace AsyncModule

open List (Forall₂)

variable {ν : Type}

namespace Matching

variable (μ : Matching ν)

inductive SameEnding : Ending ν → Ending ν → Prop where
  | plain : SameEnding .plain .plain
  | unit (t : Target) : SameEnding (.unit t) (.unit t)
  | script (t : Target) (fragment : Fragment) : SameEnding (.script t fragment) (.script t fragment)
  | main (t : Target) : SameEnding (.main t) (.main t)
  | callback {id id' : RequestId} (hid : μ.Pairs id id') {r : Request ν}
    (hr : r.Discreet μ.past μ.past') : SameEnding (.callback id r) (.callback id' r)
  | errback (definition : Option String) (e : LoadError) :
    SameEnding (.errback definition e) (.errback definition e)

inductive SameTask : Task ν → Task ν → Prop where
  | body (frame : Option Frame) {script : Script ν} (hscript : script.Discreet μ.past μ.past')
    {ending ending' : Ending ν} (hending : μ.SameEnding ending ending') :
    SameTask (.body frame script ending) (.body frame script ending')
  | settling (frame : Option Frame) {next : Bool → Script ν}
    (hnext : ∀ b, (next b).Discreet μ.past μ.past') {ending ending' : Ending ν}
    (hending : μ.SameEnding ending ending') :
    SameTask (.settling frame next ending) (.settling frame next ending')
  | dispatch : SameTask .dispatch .dispatch
  | draining : SameTask .draining .draining

/-- What two machines make of their loaders, and what they do next, is the same. -/
structure Mirror (out out' : Loader ν × List (Task ν)) : Prop where
  loader : μ.Mirrors out.1 out'.1
  tasks : Forall₂ μ.SameTask out.2 out'.2

variable {μ} {l l' : Loader ν} {id id' : RequestId} {r : Request ν} {e : LoadError}
  {frame : Option Frame}

theorem SameEnding.add (hnew : μ.places id.serial = none) {ending ending' : Ending ν}
    (h : μ.SameEnding ending ending') : (μ.add id id').SameEnding ending ending' := by
  cases h with
  | plain => exact .plain
  | unit t => exact .unit t
  | script t fragment => exact .script t fragment
  | main t => exact .main t
  | callback hid hr => exact .callback (hid.add hnew) hr
  | errback definition e => exact .errback definition e

theorem SameTask.add (hnew : μ.places id.serial = none) {task task' : Task ν}
    (h : μ.SameTask task task') : (μ.add id id').SameTask task task' := by
  cases h with
  | body frame hscript hending =>
    exact SameTask.body (μ := μ.add id id') frame hscript (hending.add hnew)
  | settling frame hnext hending =>
    exact SameTask.settling (μ := μ.add id id') frame hnext (hending.add hnew)
  | dispatch => exact .dispatch
  | draining => exact .draining

theorem Mirror.append {out out' : Loader ν × List (Task ν)} (h : μ.Mirror out out')
    {tasks tasks' : List (Task ν)} (htasks : Forall₂ μ.SameTask tasks tasks') :
    μ.Mirror (out.1, out.2 ++ tasks) (out'.1, out'.2 ++ tasks') :=
  ⟨h.loader, List.rel_append h.tasks htasks⟩

namespace Mirrors

theorem nil (h : μ.Mirrors l l') : μ.Mirror (l, []) (l', []) := ⟨h, .nil⟩

theorem one (h : μ.Mirrors l l') {task task' : Task ν} (htask : μ.SameTask task task') :
    μ.Mirror (l, [task]) (l', [task']) := ⟨h, .cons htask .nil⟩

/-! ## Failing and calling back -/

theorem handle (h : μ.Mirrors l l') (hid : μ.Pairs id id') (r : Request ν) (e : LoadError)
    {errback : LoadError → Script ν} (herrback : ∀ e, (errback e).Discreet μ.past μ.past')
    (definition : Option String) :
    μ.Mirror (Machine.handle l id r e errback definition)
      (Machine.handle l' id' r e errback definition) :=
  (h.recordOf hid (.handled · e) fun _ => rfl).one
    (.body _ (herrback e) (.errback definition e))

theorem failModule (h : μ.Mirrors l l') (url : String) (e : LoadError) :
    μ.Mirror (Machine.failModule l url e) (Machine.failModule l' url e) := by
  have habandon := h.abandonModule url e
  unfold Machine.failModule Loader.failModule
  have hd := h.modules.definition url
  generalize l.registry.definition? url = d at hd
  generalize l'.registry.definition? url = d' at hd
  cases hd with
  | none => exact habandon.nil
  | some hid =>
    rename_i id id'
    dsimp only
    rw [h.get? hid]
    cases hr : l.requests.get? id with
    | none => exact habandon.nil
    | some r =>
      have hfailed := (habandon.withdraw hid r).recordOf hid (.failed · e) fun _ => rfl
      dsimp only
      cases herrback : r.errback with
      | some errback =>
        exact hfailed.handle hid r e ((h.discreetRequests id r hr).errback errback herrback) none
      | none =>
        dsimp only
        split
        · exact hfailed.nil
        · exact (hfailed.record rfl).nil

theorem failDefinition (h : μ.Mirrors l l') (definition : Option String) (e : LoadError) :
    μ.Mirror (Machine.failDefinition l definition e) (Machine.failDefinition l' definition e) := by
  cases definition with
  | none => exact h.nil
  | some url => exact h.failModule url e

theorem report (h : μ.Mirrors l l') (hid : μ.Pairs id id') (hr : r.Discreet μ.past μ.past')
    (e : LoadError) : μ.Mirror (Machine.report l id r e) (Machine.report l' id' r e) := by
  have hfailed := h.recordOf hid (.failed · e) fun _ => rfl
  unfold Machine.report
  dsimp only
  cases herrback : r.errback with
  | some errback => exact hfailed.handle hid r e (hr.errback errback herrback) _
  | none =>
    cases r.definitionUrl with
    | some url => exact hfailed.failModule url e
    | none => exact (hfailed.record rfl).nil

theorem fire (h : μ.Mirrors l l') (hid : μ.Pairs id id') :
    μ.Mirror (Machine.fire l id) (Machine.fire l' id') := by
  unfold Machine.fire
  rw [h.get? hid]
  cases hr : l.requests.get? id with
  | none => exact h.nil
  | some r =>
    have hdiscreet := h.discreetRequests id r hr
    exact ((h.erase hid).recordOf hid (.called · r.values) fun _ => rfl).one
      (.body _ (hdiscreet.callback _) (.callback hid hdiscreet))

theorem failRequest (h : μ.Mirrors l l') (hid : μ.Pairs id id') (e : LoadError) :
    μ.Mirror (Machine.failRequest l id e) (Machine.failRequest l' id' e) := by
  unfold Machine.failRequest
  rw [h.get? hid]
  cases hr : l.requests.get? id with
  | none => exact h.nil
  | some r => exact (h.withdraw hid r).report hid (h.discreetRequests id r hr) e

theorem process (h : μ.Mirrors l l') {s s' : Step} (hs : μ.SameStep s s') :
    μ.Mirror (Machine.process l s) (Machine.process l' s') := by
  cases hs with
  | fill hid slot v =>
    rename_i id id'
    simp only [Machine.process, Machine.fill]
    rw [h.get? hid]
    cases l.requests.get? id with
    | none => exact h.nil
    | some r =>
      dsimp only
      split
      · exact (h.fill hid slot v).fire hid
      · exact (h.fill hid slot v).nil
  | fire hid => exact h.fire hid
  | fail hid e => exact h.failRequest hid e

/-! ## The ends of programs -/

theorem concludeCallback (h : μ.Mirrors l l') (hid : μ.Pairs id id')
    (hr : r.Discreet μ.past μ.past') (o : Outcome) :
    μ.Mirror (Machine.concludeCallback l id r o) (Machine.concludeCallback l' id' r o) := by
  have hreturned := h.recordOf hid (.returned · o) fun _ => rfl
  unfold Machine.concludeCallback
  dsimp only
  split
  · exact hreturned.report hid hr _
  · split
    · exact (hreturned.readyModule _ _).nil
    · exact hreturned.nil

theorem readyFragment (h : μ.Mirrors l l') (t : Target) (fragment : Fragment) :
    μ.Mirrors (Machine.readyFragment l t fragment) (Machine.readyFragment l' t fragment) := by
  obtain ⟨hvalue, hmade⟩ := h.make (.fragment fragment)
  simp only [Machine.readyFragment, hvalue]
  exact hmade.readyModule t.key _

theorem conclude (h : μ.Mirrors l l') (frame : Option Frame) (o : Outcome)
    {ending ending' : Ending ν} (hending : μ.SameEnding ending ending') :
    μ.Mirror (Machine.conclude l frame o ending) (Machine.conclude l' frame o ending') := by
  cases hending with
  | plain => exact h.nil
  | unit t =>
    simp only [Machine.conclude, Machine.concludeUnit]
    split
    · exact h.failModule _ _
    · split
      · exact h.nil
      · exact h.failModule _ _
  | script t fragment =>
    simp only [Machine.conclude, Machine.concludeScript]
    split
    · exact h.failModule _ _
    · exact (h.readyFragment t fragment).nil
  | main t =>
    simp only [Machine.conclude, Machine.concludeMain]
    split
    · exact ((h.record rfl).finishMain t).nil
    · exact (h.finishMain t).nil
  | callback hid hr => exact h.concludeCallback hid hr o
  | errback definition e => exact h.failDefinition definition e

/-! ## Taking up what has been fetched -/

theorem execute (h : μ.Mirrors l l') (t : Target) (role : LoadRole) (binds : Bool) (ctx : Context)
    {script : Script ν} (hscript : script.Discreet μ.past μ.past') {ending : Ending ν}
    (hending : μ.SameEnding ending ending) :
    μ.Mirror (Machine.execute l t role binds ctx script ending)
      (Machine.execute l' t role binds ctx script ending) :=
  (h.record rfl).one (.body _ hscript hending)

theorem completeModule (h : μ.Mirrors l l') (t : Target) {result : Fetched (Script ν)}
    (hresult : result.Discreet μ.past μ.past') :
    μ.Mirror (Machine.completeModule l t result) (Machine.completeModule l' t result) := by
  cases result with
  | failed e => exact h.failModule _ _
  | code script =>
    simp only [Machine.completeModule]
    split
    · exact h.failModule _ _
    · exact h.execute t _ _ _ (hresult script rfl) (.unit t)
  | markup fragment script =>
    cases script with
    | none => exact (h.readyFragment t fragment).nil
    | some script =>
      simp only [Machine.completeModule]
      split
      · exact h.failModule _ _
      · exact h.execute t _ _ _ (hresult script rfl) (.script t fragment)

theorem completeMain (h : μ.Mirrors l l') (t : Target) {result : Fetched (Script ν)}
    (hresult : result.Discreet μ.past μ.past') :
    μ.Mirror (Machine.completeMain l t result) (Machine.completeMain l' t result) := by
  have hidle : ∀ report : Report, μ.Mirror ((l.record (.report report)).finishMain t, [])
      ((l'.record (.report report)).finishMain t, []) :=
    fun _ => ((h.record rfl).finishMain t).nil
  cases result with
  | failed e => exact hidle _
  | code script =>
    simp only [Machine.completeMain]
    split
    · exact hidle _
    · exact h.execute t _ _ _ (hresult script rfl) (.main t)
  | markup fragment script => exact hidle _

theorem takeUp (h : μ.Mirrors l l') : (Machine.takeUp l').1 = (Machine.takeUp l).1 ∧
    μ.Mirror (Machine.takeUp l).2 (Machine.takeUp l').2 := by
  unfold Machine.takeUp
  rw [h.fetches]
  split
  · rename_i fs htake
    have hsub := Fetches.inFlight_of_take htake
    refine ⟨rfl, Mirrors.nil ?_⟩
    exact { h with
      fetches := rfl
      discreetFetches := fun f hf => h.discreetFetches f (hsub hf) }
  · rename_i f result fs htake
    have hsub := Fetches.inFlight_of_take htake
    obtain ⟨hmem, hresult, _⟩ := Fetches.take_eq_some htake
    have hdiscreet := h.discreetFetches f hmem result hresult
    have htaken : μ.Mirrors { l with fetches := fs } { l' with fetches := fs } :=
      { h with
        fetches := rfl
        discreetFetches := fun f hf => h.discreetFetches f (hsub hf) }
    have harrived : μ.Mirrors (Loader.record { l with fetches := fs } (.arrived f.target f.role))
        (Loader.record { l' with fetches := fs } (.arrived f.target f.role)) := htaken.record rfl
    refine ⟨rfl, Mirror.append ?_ (.cons .dispatch .nil)⟩
    unfold Machine.complete
    dsimp only
    split
    · exact harrived.completeModule f.target hdiscreet
    · exact harrived.completeMain f.target hdiscreet

/-! ## One step -/

theorem afterChange {out out' : Except LoadError Bool × Loader ν} (hresult : out'.1 = out.1)
    (h : μ.Mirrors out.2 out'.2) (frame : Option Frame) {next : Option LoadError → Script ν}
    (hnext : ∀ r, (next r).Discreet μ.past μ.past') {ending ending' : Ending ν}
    (hending : μ.SameEnding ending ending') :
    μ.Mirror (Machine.afterChange frame next ending out)
      (Machine.afterChange frame next ending' out') := by
  obtain ⟨result, l⟩ := out
  obtain ⟨result', l'⟩ := out'
  cases hresult
  rcases result with e | (_ | _)
  · exact h.one (.body frame (hnext _) hending)
  · exact h.one (.body frame (hnext _) hending)
  · exact ⟨h, .cons .dispatch (.cons (.body frame (hnext _) hending) .nil)⟩

end Mirrors

/-- More requests may be the same than before, each new one by its number. -/
inductive Grows (μ : Matching ν) : Matching ν → Prop where
  | refl : Grows μ μ
  | add {id : RequestId} (id' : RequestId) (hnew : μ.places id.serial = none) :
    Grows μ (μ.add id id')

theorem Grows.task {μ' : Matching ν} (h : μ.Grows μ') {task task' : Task ν}
    (htask : μ.SameTask task task') : μ'.SameTask task task' := by
  cases h with
  | refl => exact htask
  | add id' hnew => exact htask.add hnew

theorem Grows.past {μ' : Matching ν} (h : μ.Grows μ') : μ'.past = μ.past ∧ μ'.past' = μ.past' := by
  cases h <;> exact ⟨rfl, rfl⟩

namespace Mirrors

/-- A request is made, and seen to before the program goes on. -/
theorem submitted (h : μ.Mirrors l l') (frame frame' : Option Frame) (dependencies : List String)
    {callback : List ModuleValue → Script ν} {errback : Option (LoadError → Script ν)}
    (definitionUrl : Option String)
    (hcallback : ∀ values, (callback values).Discreet μ.past μ.past')
    (herrback : ∀ handler, errback = some handler → ∀ e, (handler e).Discreet μ.past μ.past')
    {next : Script ν} (hnext : next.Discreet μ.past μ.past') {ending ending' : Ending ν}
    (hending : μ.SameEnding ending ending') :
    ∃ μ', μ.Grows μ' ∧ μ'.Mirror
      (l.submit frame dependencies callback errback definitionUrl,
        [.dispatch, .body frame' next ending])
      (l'.submit frame dependencies callback errback definitionUrl,
        [.dispatch, .body frame' next ending']) := by
  obtain ⟨id, id', hnew, hsubmitted⟩ := h.submit frame dependencies definitionUrl hcallback herrback
  have hbody : (μ.add id id').SameTask _ _ := (SameTask.body frame' hnext hending).add hnew
  exact ⟨_, .add id' hnew, hsubmitted, .cons .dispatch (.cons hbody .nil)⟩

theorem bindDefinition (h : μ.Mirrors l l') (frame : Option Frame) :
    (l'.bindDefinition frame).1 = (l.bindDefinition frame).1 ∧
      (l'.bindDefinition frame).2.1 = (l.bindDefinition frame).2.1 ∧
      μ.Mirrors (l.bindDefinition frame).2.2 (l'.bindDefinition frame).2.2 := by
  unfold Loader.bindDefinition
  split
  · exact ⟨rfl, rfl, h⟩
  · exact ⟨rfl, rfl, h.record rfl⟩
  · exact ⟨rfl, rfl, h⟩

theorem perform (h : μ.Mirrors l l') (frame : Option Frame) {script : Script ν}
    (hscript : script.Discreet μ.past μ.past') {ending ending' : Ending ν}
    (hending : μ.SameEnding ending ending') :
    ∃ μ', μ.Grows μ' ∧ μ'.Mirror (Machine.perform l frame ending script)
      (Machine.perform l' frame ending' script) := by
  cases hscript with
  | finish o => exact ⟨μ, .refl, h.conclude frame o hending⟩
  | require hcallback herrback hnext =>
    exact h.submitted frame frame _ none hcallback herrback hnext hending
  | define hfactory herrback hnext =>
    obtain ⟨hdefinition, hframe, hbound⟩ := h.bindDefinition frame
    simp only [Machine.perform, hdefinition, hframe]
    exact hbound.submitted frame _ _ _ hfactory herrback hnext hending
  | @configure base next hnext =>
    obtain ⟨hresult, hl⟩ := h.configure base
    simp only [Machine.perform]
    exact ⟨μ, .refl, afterChange hresult hl frame hnext hending⟩
  | @bootstrap entry main next hnext =>
    obtain ⟨hresult, hl⟩ := h.boot entry main
    simp only [Machine.perform]
    exact ⟨μ, .refl, afterChange hresult hl frame hnext hending⟩
  | turn hnext =>
    obtain ⟨hturn, htaken⟩ := h.takeUp
    simp only [Machine.perform, hturn]
    exact ⟨μ, .refl, htaken.append (.cons (.body frame (hnext _) hending) .nil)⟩
  | settle hnext => exact ⟨μ, .refl, h.one (.settling frame hnext hending)⟩
  | deliver hresult hnext =>
    simp only [Machine.perform]
    rw [h.fetches]
    split
    · rename_i fs hdelivered
      refine ⟨μ, .refl, one ?_ (.body frame (hnext _) hending)⟩
      exact { h with
        fetches := rfl
        discreetFetches := h.discreetFetches.deliver hdelivered hresult }
    · exact ⟨μ, .refl, h.one (.body frame (hnext _) hending)⟩
  | @make payload next hnext =>
    obtain ⟨hvalue, hmade⟩ := h.make payload
    simp only [Machine.perform, hvalue]
    exact ⟨μ, .refl, hmade.one (.body frame (hnext _ rfl) hending)⟩
  | look hnext halike =>
    simp only [Machine.perform, halike _ _ (h.view frame)]
    exact ⟨μ, .refl, h.one (.body frame (hnext _) hending)⟩
  | note hnext => exact ⟨μ, .refl, (h.record rfl).one (.body frame hnext hending)⟩

theorem advance (h : μ.Mirrors l l') {task task' : Task ν} (htask : μ.SameTask task task') :
    ∃ μ', μ.Grows μ' ∧ μ'.Mirror (Machine.advance l task) (Machine.advance l' task') := by
  cases htask with
  | body frame hscript hending => exact h.perform frame hscript hending
  | settling frame hnext hending =>
    obtain ⟨hturn, htaken⟩ := h.takeUp
    refine ⟨μ, .refl, ?_⟩
    simp only [Machine.advance]
    generalize Machine.takeUp l = out at hturn htaken
    generalize Machine.takeUp l' = out' at hturn htaken
    obtain ⟨t, out⟩ := out
    obtain ⟨t', out'⟩ := out'
    cases hturn
    cases t with
    | completed => exact htaken.append (.cons (.settling frame hnext hending) .nil)
    | idle => exact htaken.loader.one (.body frame (hnext _) hending)
    | blocked => exact htaken.loader.one (.body frame (hnext _) hending)
  | dispatch =>
    have hdraining : μ.Mirrors { l with dispatching := true } { l' with dispatching := true } :=
      { h with dispatching := rfl }
    refine ⟨μ, .refl, ?_⟩
    simp only [Machine.advance, h.dispatching]
    split
    · exact h.nil
    · exact hdraining.one .draining
  | draining =>
    refine ⟨μ, .refl, ?_⟩
    simp only [Machine.advance]
    have hw := h.worklist
    rw [List.filter_eq_self.mpr fun s _ => h.total.shown _] at hw
    generalize l.worklist = work at hw
    generalize l'.worklist = work' at hw
    cases hw with
    | nil => exact nil { h with dispatching := rfl, worklist := .nil }
    | @cons s s' rest rest' hs hrest =>
      have hleft : μ.Mirrors { l with worklist := rest } { l' with worklist := rest' } :=
        { h with
          worklist := by rwa [List.filter_eq_self.mpr fun s _ => h.total.shown _] }
      exact (hleft.process hs).append (.cons .draining .nil)

end Mirrors
end Matching

namespace Machine

/-- Two machines are the same to discreet programs: so are their loaders, and on their stacks they
have the same such programs. -/
def Mirrors (past past' : List (Event ν)) (m m' : Machine ν) : Prop :=
  ∃ μ : Matching ν, μ.past = past ∧ μ.past' = past' ∧ μ.Mirrors m.loader m'.loader ∧
    Forall₂ μ.SameTask m.stack m'.stack

variable {past past' : List (Event ν)} {m m' : Machine ν}

theorem Mirrors.step (h : Mirrors past past' m m') : Mirrors past past' m.step m'.step := by
  obtain ⟨μ, rfl, rfl, hloader, hstack⟩ := h
  obtain ⟨l, stack⟩ := m
  obtain ⟨l', stack'⟩ := m'
  cases hstack with
  | nil => exact ⟨μ, rfl, rfl, hloader, .nil⟩
  | cons htask hrest =>
    obtain ⟨μ', hgrows, hadvance⟩ := hloader.advance htask
    refine ⟨μ', hgrows.past.1, hgrows.past.2, hadvance.loader, ?_⟩
    exact List.rel_append hadvance.tasks (hrest.imp fun _ _ => hgrows.task)

/-- What can happen to two machines alike: both make a step; the same has come of the same fetches,
which are to be looked at in the same order; or the same program calls from outside. -/
inductive Together (past past' : List (Event ν)) (m₀ m₀' : Machine ν) :
    Machine ν → Machine ν → Prop where
  | refl : Together past past' m₀ m₀' m₀ m₀'
  | step {m m' : Machine ν} (h : Together past past' m₀ m₀' m m') :
    Together past past' m₀ m₀' m.step m'.step
  | pass {m m' : Machine ν} (h : Together past past' m₀ m₀' m m') {fetches : Fetches ν}
    (hagree : m.loader.fetches.Agree fetches) (hdiscreet : fetches.Discreet past past') :
    Together past past' m₀ m₀' { m with loader := { m.loader with fetches } }
      { m' with loader := { m'.loader with fetches } }
  | call {m m' : Machine ν} (h : Together past past' m₀ m₀' m m') {script : Script ν}
    (hidle : m.stack = []) (hdiscreet : script.Discreet past past') :
    Together past past' m₀ m₀' { m with stack := [.body none script .plain] }
      { m' with stack := [.body none script .plain] }

/-- Whatever happens to two machines alike, they stay the same to discreet programs. -/
theorem Mirrors.together {m₀ m₀' : Machine ν} (h : Mirrors past past' m₀ m₀')
    (hrun : Together past past' m₀ m₀' m m') : Mirrors past past' m m' := by
  induction hrun with
  | refl => exact h
  | step _ ih => exact ih.step
  | pass _ _ hdiscreet ih =>
    obtain ⟨μ, rfl, rfl, hloader, hstack⟩ := ih
    refine ⟨μ, rfl, rfl, ?_, hstack⟩
    exact { hloader with fetches := rfl, discreetFetches := hdiscreet }
  | call _ _ hdiscreet ih =>
    obtain ⟨μ, rfl, rfl, hloader, _⟩ := ih
    exact ⟨μ, rfl, rfl, hloader, .cons (.body none hdiscreet .plain) .nil⟩

end Machine
end AsyncModule
