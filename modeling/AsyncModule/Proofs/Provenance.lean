import AsyncModule.Proofs.Blame
import AsyncModule.Proofs.Nesting
import AsyncModule.Proofs.Programs

/-!
# AsyncModule.Proofs.Provenance

Where errors come from. Provided that no resource fails to be fetched with an error that blames a
dependency, whoever is told that a dependency has failed is told the truth: it is linked to that
module, and the module has failed with the very error that is passed on. So an error leads from one
failed module to the next, down to the one that its root cause is about.

* `Loader.Blames`      — what may be told and stored on account of errors, from loader to loader.
* `justified_advance`  — a step tells and stores nothing else.
* `HonestRun`          — a run, with the moments that it has come past.
* `failure_provenance` — the whole statement.
-/

namespace AsyncModule

open Relation

variable {ν : Type}

/-! ## Telling of errors -/

namespace LoadError

/-- The errors of a program's own making: it fails, or it leaves a module without a value. -/
def IsOfProgram : LoadError → Prop
  | execution _ _ => True
  | nonConforming _ => True
  | factory _ => True
  | _ => False

theorem IsOfProgram.not_isDependency {e : LoadError} (h : e.IsOfProgram) : ¬ e.IsDependency := by
  cases e <;> first | exact fun hd => hd | cases h

end LoadError

theorem Outcome.isOfProgram_of_failure {o : Outcome} {definition : Option String} {e : LoadError}
    (h : o.failure definition = some e) : e.IsOfProgram := by
  cases o with
  | done =>
    obtain ⟨url, _, rfl⟩ := Option.map_eq_some_iff.mp h
    trivial
  | value v => cases h
  | error reason =>
    cases h
    trivial

/-- Whether an event is one that may be told when just what is `due` fails: the error it tells of is
due, or of a program's own making. A main resource never fails for a dependency. -/
def Event.MayTell (due : RequestId → LoadError → Prop) : Event ν → Prop
  | failed id e => e.IsOfProgram ∨ due id e
  | handled id e => e.IsOfProgram ∨ due id e
  | report (.unhandled e) => e.IsOfProgram ∨ ∃ id, due id e
  | report (.mainFailed e) => ¬ e.IsDependency
  | report (.mainNotLoaded e) => ¬ e.IsDependency
  | _ => True

namespace Loader

/-- If a module fails for a dependency, so has its definition before. -/
def Excused (l : Loader ν) (url : String) (e : LoadError) : Prop :=
  e.IsDependency → ∃ id dependencies,
    .submitted id dependencies (some url) ∈ l.journal ∧ .failed id e ∈ l.journal

/-- What has been told since one loader was another may be told, and the modules that have failed
since are excused. -/
structure Blames (due : RequestId → LoadError → Prop) (l l' : Loader ν) : Prop where
  told : ∃ events, l'.journal = events ++ l.journal ∧ ∀ event ∈ events, event.MayTell due
  stored : ∀ {url e}, l'.registry.state? url = some (.failed e) →
    l.registry.state? url = some (.failed e) ∨ l'.Excused url e

variable {l l' l'' : Loader ν} {due : RequestId → LoadError → Prop} {url : String} {e : LoadError}

theorem Excused.suffix (h : l.Excused url e) (hj : l.journal <:+ l'.journal) :
    l'.Excused url e := by
  intro hd
  obtain ⟨id, dependencies, hmade, hfailed⟩ := h hd
  exact ⟨id, dependencies, hj.mem hmade, hj.mem hfailed⟩

theorem excused_of_isOfProgram (h : e.IsOfProgram) : l.Excused url e :=
  fun hd => absurd hd h.not_isDependency

namespace Blames

theorem suffix (h : Blames due l l') : l.journal <:+ l'.journal := by
  obtain ⟨events, hj, _⟩ := h.told
  exact hj ▸ List.suffix_append _ _

theorem of_eq (hj : l'.journal = l.journal)
    (hstate : ∀ u, l'.registry.state? u = l.registry.state? u) : Blames due l l' :=
  ⟨⟨[], hj, by simp⟩, fun hu => .inl (hstate _ ▸ hu)⟩

theorem same (hj : l'.journal = l.journal) (hg : l'.registry = l.registry) : Blames due l l' :=
  of_eq hj fun _ => by rw [hg]

theorem refl (l : Loader ν) : Blames due l l := same rfl rfl

theorem trans (h : Blames due l l') (h' : Blames due l' l'') : Blames due l l'' where
  told := by
    obtain ⟨events, hj, hall⟩ := h.told
    obtain ⟨events', hj', hall'⟩ := h'.told
    exact ⟨events' ++ events, by rw [hj', hj, List.append_assoc],
      List.forall_mem_append.mpr ⟨hall', hall⟩⟩
  stored hu := by
    rcases h'.stored hu with hu | hexcused
    · exact (h.stored hu).imp_right fun hexcused => hexcused.suffix h'.suffix
    · exact .inr hexcused

/-- Neither the requests nor the worklist matter. -/
theorem congr (h : Blames due l l') (hj : l''.journal = l'.journal)
    (hg : l''.registry = l'.registry) : Blames due l l'' := h.trans (same hj hg)

theorem record (h : Blames due l l') (event : Event ν) (hevent : event.MayTell due) :
    Blames due l (l'.record event) :=
  h.trans ⟨⟨[event], rfl, List.forall_mem_singleton.mpr hevent⟩, .inl⟩

theorem keptByLinking (due : RequestId → LoadError → Prop) (l : Loader ν) :
    KeptByLinking fun l' : Loader ν => Blames due l l' where
  linked _ _ h := h.record _ trivial
  context _ _ h := h.congr rfl rfl
  stop _ h _ := h.congr rfl rfl
  attach {l' id _} i t h _ _ := by
    refine h.trans ⟨?_, fun hu => .inl ?_⟩
    · rcases attach_cases l' id i t with ⟨_, hj⟩ | ⟨_, hj⟩
      · exact ⟨[], hj, by simp⟩
      · exact ⟨[_], hj, List.forall_mem_singleton.mpr trivial⟩
    · exact (state?_of_attach hu).resolve_right (by simp)

theorem enter (l : Loader ν) (r : Request ν) : Blames due l (l.enter r).2 := by
  refine ⟨⟨[_], rfl, List.forall_mem_singleton.mpr trivial⟩, fun {url e} hu => .inl ?_⟩
  cases hd : r.definitionUrl with
  | none => rwa [Owned.registry_enter_none hd] at hu
  | some url' => rwa [Owned.registry_enter_some hd, Registry.state?_setDefinition] at hu

theorem submit (l : Loader ν) (frame : Option Frame) (dependencies : List String)
    (callback : List ModuleValue → Script ν) (errback : Option (LoadError → Script ν))
    (definitionUrl : Option String) :
    Blames due l (l.submit frame dependencies callback errback definitionUrl) :=
  (keptByLinking due l).submit (fun _ h => h.congr rfl rfl)
    (fun _ h => h.congr rfl rfl) (enter l _)

theorem finishMain (l : Loader ν) (t : Target) : Blames due l (l.finishMain t) :=
  (keptByLinking due l).finishMain (fun _ h => h.congr rfl rfl) (refl l) t

theorem configure (l : Loader ν) (base : String) : Blames due l (l.configure base).2 :=
  (keptByLinking due l).configure (fun _ h => h.congr rfl rfl)
    (fun _ h => h.congr rfl rfl) (refl l) base

theorem boot (l : Loader ν) (entry : String) (main : Option String) :
    Blames due l (l.boot entry main).2 :=
  (keptByLinking due l).boot (fun _ h => h.congr rfl rfl)
    (fun _ h => h.congr rfl rfl)
    (fun t h => h.trans ⟨⟨[.load t .main], rfl, List.forall_mem_singleton.mpr trivial⟩, .inl⟩)
    (refl l) entry main

theorem withdraw (l : Loader ν) (id : RequestId) (r : Request ν) :
    Blames due l (l.withdraw id r) :=
  of_eq rfl (state?_foldl_dropWaiters r.modules l.registry id)

theorem readyModule (l : Loader ν) (url : String) (v : ModuleValue) :
    Blames due l (l.readyModule url v) := by
  refine ⟨⟨[], rfl, by simp⟩, fun hu => .inl ?_⟩
  exact (state?_of_readyModule hu).resolve_left (by simp)

theorem abandonModule (he : l.Excused url e) : Blames due l (l.abandonModule url e) := by
  refine ⟨⟨[], rfl, by simp⟩, fun hu => ?_⟩
  rcases state?_of_abandonModule hu with ⟨rfl, heq⟩ | hold
  · cases heq
    exact .inr he
  · exact .inl hold

end Blames
end Loader

/-- If the end of a program is to fail a module for a dependency, so has its definition before. -/
def Task.Excused (l : Loader ν) (task : Task ν) : Prop :=
  ∀ frame url e, task.program? = some (frame, .errback (some url) e) → l.Excused url e

namespace Machine

/-- What a task makes of a loader, and the tasks that take its place, bear no error but what may be
told. -/
def Justified (due : RequestId → LoadError → Prop) (l : Loader ν)
    (out : Loader ν × List (Task ν)) : Prop :=
  Loader.Blames due l out.1 ∧ ∀ task ∈ out.2, task.Excused out.1

variable {l l₁ l' : Loader ν} {due : RequestId → LoadError → Prop} {k : List Duty}
  {id : RequestId} {r : Request ν} {e : LoadError} {url : String} {task : Task ν}

theorem justified_nil (h : l.Blames due l') : Justified due l (l', []) := ⟨h, by simp⟩

theorem Justified.append {out : Loader ν × List (Task ν)} (h : Justified due l out)
    {more : List (Task ν)} (hmore : ∀ task ∈ more, task.Excused out.1) :
    Justified due l (out.1, out.2 ++ more) :=
  ⟨h.1, List.forall_mem_append.mpr ⟨h.2, hmore⟩⟩

theorem justified_one (h : l.Blames due l') (htask : task.Excused l') :
    Justified due l (l', [task]) :=
  ⟨h, List.forall_mem_singleton.mpr htask⟩

theorem excused_of_ne {frame : Option Frame} {script : Script ν} {ending : Ending ν}
    (h : ∀ url e, ending ≠ .errback (some url) e) :
    (Task.body frame script ending).Excused l := by
  intro frame' url e heq
  cases heq
  exact absurd rfl (h url e)

theorem excused_of_program?_eq_none (h : task.program? = none) : task.Excused l := by
  intro frame url e heq
  rw [h] at heq
  cases heq

/-! ## Failing and calling back -/

theorem justified_handle (h : l.Blames due l₁) (htold : e.IsOfProgram ∨ due id e)
    (errback : LoadError → Script ν) {definition : Option String}
    (hexcused : ∀ url, definition = some url → l₁.Excused url e) :
    Justified due l (handle l₁ id r e errback definition) := by
  refine justified_one (h.record _ htold) ?_
  intro frame url e' heq
  cases heq
  exact (hexcused url rfl).suffix (List.suffix_cons _ _)

/-- A program fails a module. -/
theorem justified_failModule (h : l.Blames due l₁) (he : e.IsOfProgram) (url : String) :
    Justified due l (failModule l₁ url e) := by
  have habandon : l.Blames due (l₁.abandonModule url e) :=
    h.trans (.abandonModule (Loader.excused_of_isOfProgram he))
  unfold failModule Loader.failModule
  cases hid : l₁.registry.definition? url with
  | none => exact justified_nil habandon
  | some id =>
    cases hr : l₁.requests.get? id with
    | none =>
      simp only [hr]
      exact justified_nil habandon
    | some r =>
      have hfailed := (habandon.trans (.withdraw _ id r)).record (.failed id e) (.inl he)
      simp only [hr]
      cases r.errback with
      | some errback => exact justified_handle hfailed (.inl he) errback (by simp)
      | none =>
        dsimp only
        split
        · exact justified_nil hfailed
        · exact justified_nil (hfailed.record (.report (.unhandled e)) (.inl he))

/-- A module fails that no live request is to define. -/
theorem justified_failModule_of_none (h : l.Blames due l₁) (he : l₁.Excused url e)
    (hnone : ∀ id, l₁.registry.definition? url = some id → l₁.requests.get? id = none) :
    Justified due l (failModule l₁ url e) := by
  rw [failModule_of_none hnone]
  exact justified_nil (h.trans (.abandonModule he))

/-- The failure of a request is reported. -/
theorem justified_report (h : l.Blames due l₁) (htold : e.IsOfProgram ∨ due id e)
    (hexcused : ∀ url, r.definitionUrl = some url → (l₁.record (.failed id e)).Excused url e)
    (hnone : ∀ url, r.definitionUrl = some url → e.IsOfProgram ∨
      ∀ id', l₁.registry.definition? url = some id' → l₁.requests.get? id' = none) :
    Justified due l (report l₁ id r e) := by
  have hfailed := h.record (.failed id e) htold
  unfold report
  dsimp only
  cases r.errback with
  | some errback => exact justified_handle hfailed htold errback hexcused
  | none =>
    cases hd : r.definitionUrl with
    | none =>
      exact justified_nil (hfailed.record (.report (.unhandled e))
        (htold.imp_right fun hdue => ⟨id, hdue⟩))
    | some url =>
      rcases hnone url hd with he | hnone
      · exact justified_failModule hfailed he url
      · exact justified_failModule_of_none hfailed (hexcused url hd) hnone

/-- The failure that is due next comes to pass. -/
theorem justified_failRequest {rest : List Step} (howned : Owned l k) (hdefining : l.WellDefining)
    (htraced : l.Traced) (hdue : ∀ r, l.requests.get? id = some r → due id e) :
    Justified due l (failRequest { l with worklist := rest } id e) := by
  have hsame : l.Blames due { l with worklist := rest } := .same rfl rfl
  unfold failRequest
  cases hr : l.requests.get? id with
  | none => exact justified_nil hsame
  | some r =>
    refine justified_report (hsame.trans (.withdraw _ id r)) (.inr (hdue r hr)) ?_ ?_
    · intro url hd _
      refine ⟨id, r.dependencies, List.mem_cons_of_mem _ ?_, List.mem_cons_self⟩
      rw [← hd]
      exact htraced.made hr
    · intro url hd
      -- the request was the one that was to define the module
      have hleft : Owned (Loader.withdraw { l with worklist := rest } id r)
          (Duty.ofDefinition r.definitionUrl ++ k) :=
        Owned.withdraw (l := { l with worklist := rest }) (howned.loader rfl rfl rfl) hr
      have hdefining' : (Loader.withdraw { l with worklist := rest } id r).WellDefining :=
        Defining.withdraw (l := { l with worklist := rest }) hdefining id r
      rw [hd] at hleft
      exact .inr fun id' => hdefining'.get?_eq_none fun _ _ hr' => hleft.settling.2.2 hr'

theorem justified_fire (h : l.Blames due l₁) (id : RequestId) :
    Justified due l (fire l₁ id) := by
  unfold fire
  split
  · exact justified_nil h
  · rename_i r _
    have herased : l.Blames due { l₁ with requests := l₁.requests.erase id } := h.congr rfl rfl
    exact justified_one (herased.record (.called id r.values) trivial)
      (excused_of_ne (by simp))

theorem justified_process {s : Step} {rest : List Step} (howned : Owned l k)
    (hdefining : l.WellDefining) (htraced : l.Traced)
    (hdue : ∀ id e, s = .fail id e → ∀ r, l.requests.get? id = some r → due id e) :
    Justified due l (process { l with worklist := rest } s) := by
  have hsame : l.Blames due { l with worklist := rest } := .same rfl rfl
  cases s with
  | fill id i v =>
    simp only [process, fill]
    split
    · exact justified_nil hsame
    · split
      · have hfilled : l.Blames due
            { l with worklist := rest, requests := l.requests.modify id (·.fill i v) } :=
          .same rfl rfl
        exact justified_fire hfilled id
      · exact justified_nil (.same rfl rfl)
  | fire id => exact justified_fire hsame id
  | fail id e => exact justified_failRequest howned hdefining htraced (hdue id e rfl)

/-! ## The ends of programs -/

theorem justified_readyFragment (h : l.Blames due l₁) (t : Target) (fragment : Fragment) :
    Justified due l (readyFragment l₁ t fragment, []) := by
  have hmade : l.Blames due (l₁.make (.fragment fragment)).2 := h.congr rfl rfl
  exact justified_nil (hmade.trans (.readyModule _ t.key _))

theorem justified_concludeMain (t : Target) (o : Outcome) :
    Justified due l (concludeMain l t o, []) := by
  refine justified_nil ?_
  cases o with
  | error reason =>
    have hreport : l.Blames due (l.record (.report (.mainFailed (.execution t.key reason)))) :=
      (Loader.Blames.refl l).record _ fun hd => hd
    exact hreport.trans (.finishMain _ t)
  | done => exact .finishMain l t
  | value v => exact .finishMain l t

theorem justified_conclude {frame : Option Frame} {ending : Ending ν} (o : Outcome)
    (howned : Owned l (ending.duties frame ++ k)) (hdefining : l.WellDefining)
    (hexcused : ∀ url e, ending = .errback (some url) e → l.Excused url e) :
    Justified due l (conclude l frame o ending) := by
  have hsame : l.Blames due l := .refl l
  have hexecution : ∀ url reason, Justified due l (failModule l url (.execution url reason)) :=
    fun url reason => justified_failModule hsame (e := .execution url reason) trivial url
  have hnonConforming : ∀ url, Justified due l (failModule l url (.nonConforming url)) :=
    fun url => justified_failModule hsame (e := .nonConforming url) trivial url
  cases ending with
  | plain => exact justified_nil hsame
  | unit t =>
    simp only [conclude, concludeUnit]
    split
    · exact hexecution _ _
    · split
      · exact justified_nil hsame
      · exact hnonConforming _
  | script t fragment =>
    simp only [conclude, concludeScript]
    split
    · exact hexecution _ _
    · exact justified_readyFragment hsame t fragment
  | main t => exact justified_concludeMain t o
  | callback id r =>
    have hreturned := hsame.record (.returned id o) trivial
    simp only [conclude, concludeCallback]
    split
    · rename_i e he
      have he := Outcome.isOfProgram_of_failure he
      exact justified_report hreturned (.inl he) (fun _ _ => Loader.excused_of_isOfProgram he)
        fun _ _ => .inl he
    · split
      · exact justified_nil (hreturned.trans (.readyModule _ _ _))
      · exact justified_nil hreturned
  | errback definition e =>
    cases definition with
    | none => exact justified_nil hsame
    | some url =>
      have howned : Owned l (.settle url :: k) := howned
      exact justified_failModule_of_none hsame (hexcused url e rfl)
        fun _ => hdefining.get?_eq_none fun _ _ hr => howned.settling.2.2 hr

/-! ## Taking up what has been fetched -/

end Machine

/-- Whether a resource has not failed to be fetched with an error that blames a dependency. -/
def Fetched.isHonest : Fetched (Script ν) → Bool
  | .failed (.dependency _ _) => false
  | _ => true

def Fetches.isHonest (fs : Fetches ν) : Bool :=
  fs.inFlight.all fun f => f.result.all Fetched.isHonest

theorem Fetched.not_isDependency_of_isHonest {e : LoadError}
    (h : (Fetched.failed e : Fetched (Script ν)).isHonest = true) : ¬ e.IsDependency := by
  cases e with
  | dependency => cases h
  | _ => exact fun hd => hd

namespace Machine

variable {l l₁ l' : Loader ν} {due : RequestId → LoadError → Prop} {k : List Duty}
  {id : RequestId} {r : Request ν} {e : LoadError} {url : String} {task : Task ν}

theorem justified_completeModule {t : Target} {result : Fetched (Script ν)} (h : l.Blames due l₁)
    (howned : Owned l₁ (.settle t.key :: k)) (hdefining : l₁.WellDefining)
    (hhonest : result.isHonest = true) : Justified due l (completeModule l₁ t result) := by
  have hfail : ∀ e, ¬ e.IsDependency → Justified due l (failModule l₁ t.key e) := fun e he =>
    justified_failModule_of_none h (fun hd => absurd hd he)
      fun _ => hdefining.get?_eq_none fun _ _ hr => howned.settling.2.2 hr
  have hexecute : ∀ binds ctx s (ending : Ending ν), (∀ url e, ending ≠ .errback (some url) e) →
      Justified due l (execute l₁ t .module binds ctx s ending) := fun binds ctx s ending hending =>
    justified_one (h.record (.entered t .module) trivial) (excused_of_ne hending)
  cases result with
  | failed e => exact hfail e (Fetched.not_isDependency_of_isHonest hhonest)
  | code s =>
    simp only [completeModule]
    split
    · exact hfail _ (Context.isUnresolved_of_ofUrl ‹_›).not_isDependency
    · exact hexecute _ _ _ _ (by simp)
  | markup fragment script =>
    cases script with
    | none => exact justified_readyFragment h t fragment
    | some s =>
      simp only [completeModule]
      split
      · exact hfail _ (Context.isUnresolved_of_ofUrl ‹_›).not_isDependency
      · exact hexecute _ _ _ _ (by simp)

theorem justified_completeMain (h : l.Blames due l₁) (t : Target) {result : Fetched (Script ν)}
    (hhonest : result.isHonest = true) : Justified due l (completeMain l₁ t result) := by
  have hidle : ∀ r : Report, (Event.report r : Event ν).MayTell due →
      Justified due l ((l₁.record (.report r)).finishMain t, []) :=
    fun r hr => justified_nil ((h.record _ hr).trans (.finishMain _ t))
  cases result with
  | failed e => exact hidle (.mainNotLoaded e) (Fetched.not_isDependency_of_isHonest hhonest)
  | code s =>
    simp only [completeMain]
    split
    · rename_i e he
      exact hidle (.mainFailed e) (Context.isUnresolved_of_ofUrl he).not_isDependency
    · exact justified_one (h.record (.entered t .main) trivial) (excused_of_ne (by simp))
  | markup fragment script => exact hidle (.mainIsMarkup t.key) trivial

theorem justified_takeUp (howned : Owned l k) (hdefining : l.WellDefining)
    (hnumbered : l.fetches.Numbered) (hhonest : l.fetches.isHonest = true) :
    Justified due l (takeUp l).2 := by
  unfold takeUp
  split
  · exact justified_nil (.same rfl rfl)
  · rename_i f result fs htake
    obtain ⟨hmem, hresult, _⟩ := Fetches.take_eq_some htake
    have harrived := howned.arrive hnumbered htake
    have hh : result.isHonest = true := by
      have hall := List.all_eq_true.mp hhonest f hmem
      rwa [hresult] at hall
    have hblames : l.Blames due
        (Loader.record { l with fetches := fs } (.arrived f.target f.role)) :=
      ⟨⟨[.arrived f.target f.role], rfl, List.forall_mem_singleton.mpr trivial⟩, .inl⟩
    have hcomplete : Justified due l (complete { l with fetches := fs } f result) := by
      unfold complete
      cases hrole : f.role with
      | module =>
        rw [hrole] at harrived hblames
        exact justified_completeModule hblames harrived hdefining hh
      | main =>
        rw [hrole] at hblames
        exact justified_completeMain hblames f.target hh
    refine hcomplete.append (List.forall_mem_singleton.mpr ?_)
    exact excused_of_program?_eq_none rfl

/-! ## Steps -/

theorem blames_bindDefinition (l : Loader ν) (frame : Option Frame) :
    l.Blames due (l.bindDefinition frame).2.2 := by
  unfold Loader.bindDefinition
  split
  · exact .refl l
  · rename_i url _
    exact (Loader.Blames.refl l).record (.report (.extraDefinition url)) trivial
  · exact .refl l

/-- A program goes on. -/
theorem justified_goes_on (tasks : List (Task ν)) {frame frame' : Option Frame}
    {script script' : Script ν} {ending : Ending ν} (h : l.Blames due l')
    (htasks : ∀ task ∈ tasks, task.program? = none)
    (hexcused : (Task.body frame script ending).Excused l) :
    Justified due l (l', tasks ++ [.body frame' script' ending]) := by
  refine ⟨h, List.forall_mem_append.mpr ⟨fun task htask => ?_, ?_⟩⟩
  · exact excused_of_program?_eq_none (htasks task htask)
  · refine List.forall_mem_singleton.mpr fun frame'' url e heq => ?_
    cases heq
    exact (hexcused frame url e rfl).suffix h.suffix

/-- A step of a task fails what is due, and what its program fails. -/
theorem justified_advance (task : Task ν) (howned : Owned l (task.duties ++ k))
    (hdefining : l.WellDefining) (hnumbered : l.fetches.Numbered) (htraced : l.Traced)
    (hhonest : l.fetches.isHonest = true) (hexcused : task.Excused l)
    (hdue : ∀ id e rest r, l.worklist = .fail id e :: rest → l.requests.get? id = some r →
      due id e) : Justified due l (advance l task) := by
  cases task with
  | body frame script ending =>
    have hchange : ∀ (next : Option LoadError → Script ν) out, l.Blames due out.2 →
        Justified due l (afterChange frame next ending out) := by
      rintro next ⟨result, l'⟩ h
      rcases result with e | (_ | _)
      · exact justified_goes_on [] h (by simp) hexcused
      · exact justified_goes_on [] h (by simp) hexcused
      · exact justified_goes_on [.dispatch] h (by simp [Task.program?]) hexcused
    cases script with
    | finish o =>
      exact justified_conclude o howned hdefining fun url e heq =>
        hexcused frame url e (by rw [← heq]; rfl)
    | require dependencies callback errback next =>
      simp only [advance, perform]
      exact justified_goes_on [.dispatch] (.submit _ _ _ _ _ _) (by simp [Task.program?]) hexcused
    | define dependencies factory errback next =>
      simp only [advance, perform]
      exact justified_goes_on [.dispatch] ((blames_bindDefinition l frame).trans
        (.submit _ _ _ _ _ _)) (by simp [Task.program?]) hexcused
    | configure base next =>
      simp only [advance, perform]
      exact hchange next _ (.configure l base)
    | bootstrap entry main next =>
      simp only [advance, perform]
      exact hchange next _ (.boot l entry main)
    | turn next =>
      have htakeUp : Justified due l (takeUp l).2 :=
        justified_takeUp howned hdefining hnumbered hhonest
      refine htakeUp.append (List.forall_mem_singleton.mpr fun frame' url e heq => ?_)
      cases heq
      exact (hexcused frame url e rfl).suffix htakeUp.1.suffix
    | settle next =>
      refine justified_one (.refl l) fun frame' url e heq => ?_
      cases heq
      exact hexcused frame url e rfl
    | deliver url result next =>
      simp only [advance, perform]
      split
      · exact justified_goes_on [] (.same rfl rfl) (by simp) hexcused
      · exact justified_goes_on [] (.refl l) (by simp) hexcused
    | make payload next => exact justified_goes_on [] (.same rfl rfl) (by simp) hexcused
    | look next => exact justified_goes_on [] (.refl l) (by simp) hexcused
    | note n next =>
      exact justified_goes_on [] ((Loader.Blames.refl l).record (.note n) trivial)
        (by simp) hexcused
  | settling frame next ending =>
    have htakeUp : Justified due l (takeUp l).2 :=
      justified_takeUp howned hdefining hnumbered hhonest
    have hgoesOn : ∀ task : Task ν, (∃ frame', task.program? = some (frame', ending)) →
        task.Excused (takeUp l).2.1 := by
      rintro task ⟨frame', htask⟩ frame'' url e heq
      rw [htask] at heq
      cases heq
      exact (hexcused frame url e rfl).suffix htakeUp.1.suffix
    simp only [advance]
    split
    · rename_i l' tasks heq
      rw [heq] at htakeUp hgoesOn
      exact htakeUp.append (List.forall_mem_singleton.mpr (hgoesOn _ ⟨frame, rfl⟩))
    · rename_i heq
      rw [heq] at htakeUp hgoesOn
      exact justified_one htakeUp.1 (hgoesOn _ ⟨frame, rfl⟩)
  | dispatch =>
    simp only [advance]
    split
    · exact justified_nil (.refl l)
    · exact justified_one (.same rfl rfl) (excused_of_program?_eq_none rfl)
  | draining =>
    simp only [advance]
    split
    · exact justified_nil (.same rfl rfl)
    · rename_i s rest hw
      have hprocess : Justified due l (process { l with worklist := rest } s) := by
        refine justified_process howned hdefining htraced ?_
        rintro id e rfl r hr
        exact hdue id e rest r hw hr
      exact hprocess.append (List.forall_mem_singleton.mpr (excused_of_program?_eq_none rfl))

/-! ## Runs -/

/-- A run along which no resource fails to be fetched with an error that blames a dependency has
come to a machine, past these moments, the last one first. -/
inductive HonestRun : List (Machine ν) → Machine ν → Prop where
  | start {m : Machine ν} (h : m.IsStart) : HonestRun [] m
  | goes {past : List (Machine ν)} {m m' : Machine ν} (h : HonestRun past m)
      (hhonest : m.loader.fetches.isHonest = true) (hgo : m.Goes m') : HonestRun (m :: past) m'

variable {m m' : Machine ν} {past : List (Machine ν)}

theorem HonestRun.reachable (h : HonestRun past m) : m.Reachable := by
  induction h with
  | start h => exact ⟨_, h, .refl⟩
  | goes _ _ hgo ih => exact ih.goes hgo

/-- The run has gone on from each of its moments. -/
theorem HonestRun.of_mem (h : HonestRun past m) (hmem : m' ∈ past) :
    ∃ past', past' ⊆ past ∧ HonestRun past' m' ∧ ReflTransGen Goes m' m := by
  induction h with
  | start => cases hmem
  | @goes past m _ h _ hgo ih =>
    rcases List.mem_cons.mp hmem with rfl | hmem
    · exact ⟨past, List.subset_cons_self _ past, h, .single hgo⟩
    · obtain ⟨past', hsub, h', hrun⟩ := ih hmem
      exact ⟨past', List.Subset.trans hsub (List.subset_cons_self _ past), h', hrun.tail hgo⟩

theorem HonestRun.lasts (h : HonestRun past m) (hmem : m' ∈ past) :
    m'.loader.Lasts m.loader := by
  obtain ⟨_, _, h', hrun⟩ := h.of_mem hmem
  exact h'.reachable.lasts hrun

end Machine

namespace Machine

/-- Whether the next steps are part of such a run, as far as they go. -/
def runsHonestly : Nat → Machine ν → Bool
  | 0, _ => true
  | fuel + 1, m => m.loader.fetches.isHonest && runsHonestly fuel m.step

theorem HonestRun.run {m : Machine ν} {past : List (Machine ν)} (h : HonestRun past m) (fuel : Nat)
    (hhonest : runsHonestly fuel m = true) : ∃ past', HonestRun past' (Machine.run fuel m) := by
  induction fuel generalizing past m with
  | zero => exact ⟨past, h⟩
  | succ fuel ih =>
    simp only [runsHonestly, Bool.and_eq_true] at hhonest
    simp only [Machine.run]
    split
    · exact ⟨past, h⟩
    · exact ih (h.goes hhonest.1 (.step m)) hhonest.2

end Machine

/-- What fails a live request next. -/
def Loader.DueNext (l : Loader ν) (id : RequestId) (e : LoadError) : Prop :=
  ∃ rest r, l.worklist = .fail id e :: rest ∧ l.requests.get? id = some r

namespace Machine

/-- Every error that is told of, stored or about to be stored has come about as it may. -/
structure Accountable (past : List (Machine ν)) (m : Machine ν) : Prop where
  told : ∀ event ∈ m.loader.journal, event.MayTell (fun _ _ => False) ∨
    ∃ m' ∈ past, event ∉ m'.loader.journal ∧ event ∈ m'.step.loader.journal ∧
      event.MayTell m'.loader.DueNext
  stored : ∀ {url e}, m.loader.registry.state? url = some (.failed e) → m.loader.Excused url e
  excused : ∀ task ∈ m.stack, task.Excused m.loader

variable {m m' : Machine ν} {past : List (Machine ν)} {due : RequestId → LoadError → Prop}

theorem blames_ofConfig {config : Config} {resources : Target → Option (Fetched (Script ν))}
    {l : Loader ν} (hl : Loader.ofConfig config resources = .ok l) :
    (Loader.new config resources).Blames due l := by
  rcases Loader.ofConfig_eq_ok hl with
    ⟨_, _, rfl⟩ | ⟨base, drained, _, _, hconfigure⟩ | ⟨base, main, entry, drained, _, _, _, hboot⟩
  · exact .refl _
  · rw [show l = ((Loader.new config resources).configure base).2 by rw [hconfigure]]
    exact .configure _ _
  · rw [show l = ((Loader.new config resources).boot entry.toString (some main)).2 by rw [hboot]]
    exact .boot _ _ _

theorem Accountable.start (h : m.IsStart) : Accountable [] m := by
  obtain ⟨config, resources, l, script, hl, rfl⟩ := h
  have hblames : (Loader.new config resources).Blames (fun _ _ => False) l := by
    rcases hl with rfl | hl
    · exact .refl _
    · exact blames_ofConfig hl
  obtain ⟨events, hj, hall⟩ := hblames.told
  refine ⟨fun event hmem => .inl (hall event ?_), fun hu => ?_, ?_⟩
  · have hj : l.journal = events := by rw [hj]; exact List.append_nil events
    exact hj ▸ hmem
  · exact (hblames.stored hu).resolve_left (by simp [Loader.new, Registry.empty, Registry.state?,
      Registry.get?])
  · exact List.forall_mem_singleton.mpr (excused_of_ne (by simp))

/-- One step tells what is due, and of the failures of its program. -/
theorem Accountable.step (h : Accountable past m) (hreach : m.Reachable)
    (hhonest : m.loader.fetches.isHonest = true) : Accountable (m :: past) m.step := by
  have hold : ∀ event ∈ m.loader.journal, event.MayTell (fun _ _ => False) ∨
      ∃ m' ∈ m :: past, event ∉ m'.loader.journal ∧ event ∈ m'.step.loader.journal ∧
        event.MayTell m'.loader.DueNext := by
    intro event hmem
    refine (h.told event hmem).imp_right ?_
    rintro ⟨m', hm', hrest⟩
    exact ⟨m', List.mem_cons_of_mem _ hm', hrest⟩
  cases hstack : m.stack with
  | nil =>
    have hstay : m.step = m := by simp [Machine.step, hstack]
    rw [hstay]
    exact ⟨hold, h.stored, h.excused⟩
  | cons task rest =>
    have hexcused := h.excused
    rw [hstack] at hexcused
    have howned : Owned m.loader (task.duties ++ dutiesOf rest) := by
      simpa [hstack] using hreach.owned
    obtain ⟨hblames, htasks⟩ : Justified m.loader.DueNext m.loader (advance m.loader task) :=
      justified_advance task howned hreach.wellDefining hreach.mains.numbered hreach.traced hhonest
        (hexcused task List.mem_cons_self) fun _ _ rest r hw hr => ⟨rest, r, hw, hr⟩
    obtain ⟨events, hj, hall⟩ := hblames.told
    have hstep := step_of_cons hstack
    refine ⟨fun event hmem => ?_, fun hu => ?_, fun task' htask' => ?_⟩
    · by_cases hnew : event ∈ m.loader.journal
      · exact hold event hnew
      · refine .inr ⟨m, List.mem_cons_self, hnew, hmem, hall event ?_⟩
        rw [hstep, hj] at hmem
        exact (List.mem_append.mp hmem).resolve_right hnew
    · rw [hstep] at hu ⊢
      rcases hblames.stored hu with hu | hexcused
      · exact (h.stored hu).suffix hblames.suffix
      · exact hexcused
    · rw [hstep] at htask' ⊢
      rcases List.mem_append.mp htask' with hmem | hmem
      · exact htasks task' hmem
      · intro frame url e heq
        exact (hexcused task' (List.mem_cons_of_mem _ hmem) frame url e heq).suffix hblames.suffix

theorem HonestRun.accountable (h : HonestRun past m) : Accountable past m := by
  induction h with
  | start h => exact .start h
  | goes hrun hhonest hgo ih =>
    cases hgo with
    | step => exact ih.step hrun.reachable hhonest
    | pass _ =>
      refine ⟨fun event hmem => (ih.told event hmem).imp_right ?_, ih.stored, ih.excused⟩
      rintro ⟨m', hm', hrest⟩
      exact ⟨m', List.mem_cons_of_mem _ hm', hrest⟩
    | call script _ =>
      refine ⟨fun event hmem => (ih.told event hmem).imp_right ?_, ih.stored,
        List.forall_mem_singleton.mpr (excused_of_ne (by simp))⟩
      rintro ⟨m', hm', hrest⟩
      exact ⟨m', List.mem_cons_of_mem _ hm', hrest⟩

theorem HonestRun.due_of_told (h : HonestRun past m) {event : Event ν} {id : RequestId}
    {e : LoadError} (hmem : event ∈ m.loader.journal)
    (hevent : event = .failed id e ∨ event = .handled id e) (he : ¬ e.IsOfProgram) :
    ∃ m' ∈ past, event ∉ m'.loader.journal ∧ event ∈ m'.step.loader.journal ∧
      m'.loader.DueNext id e := by
  have hdue : ∀ {due : RequestId → LoadError → Prop}, event.MayTell due → due id e := by
    intro due htell
    rcases hevent with rfl | rfl
    · exact htell.resolve_left he
    · exact htell.resolve_left he
  rcases h.accountable.told event hmem with hnone | ⟨m', hm', hbefore, hafter, htell⟩
  · exact (hdue hnone).elim
  · exact ⟨m', hm', hbefore, hafter, hdue htell⟩

/-- What fails next for a dependency is linked to it, and the dependency has failed. -/
theorem Reachable.blamed (h : m.Reachable) {id : RequestId} {url : String} {e : LoadError}
    (hdue : m.loader.DueNext id (.dependency url e)) :
    m.loader.registry.state? url = some (.failed e) ∧
      ∃ r, m.loader.requests.get? id = some r ∧ url ∈ r.modules := by
  obtain ⟨rest, r, hw, hr⟩ := hdue
  cases h.blaming.due (hw ▸ List.mem_cons_self) with
  | blamed hfailed hlinked => exact ⟨hfailed, r, hr, hlinked r hr⟩
  | stopped hstopped => exact absurd trivial hstopped.not_isDependency

/-- The definition of a module that has failed for a dependency was linked to the dependency. -/
theorem HonestRun.blamed_of_stored (h : HonestRun past m) {url v : String} {e : LoadError}
    (hu : m.loader.registry.state? url = some (.failed (.dependency v e))) :
    m.loader.registry.state? v = some (.failed e) ∧ ∃ m' ∈ past, ∃ id r,
      m'.loader.registry.definition? url = some id ∧ m'.loader.requests.get? id = some r ∧
        r.definitionUrl = some url ∧ v ∈ r.modules := by
  obtain ⟨id, dependencies, hmade, hfailed⟩ := h.accountable.stored hu trivial
  obtain ⟨m', hm', _, _, hdue⟩ := h.due_of_told hfailed (.inl rfl) not_false
  obtain ⟨_, _, h', _⟩ := h.of_mem hm'
  obtain ⟨hv, r, hr, hlinked⟩ := h'.reachable.blamed hdue
  have hd : r.definitionUrl = some url := by
    have hmade' := (h.lasts hm').journal.mem (h'.reachable.traced.made hr)
    have hsame := eq_of_nodup_filterMap h.reachable.accounts.orderly.nodup_submissions hmade hmade'
      rfl rfl
    exact (Event.submitted.inj hsame).2.2.symm
  exact ⟨(h.lasts hm').settled hv rfl, m', hm', id, r, (h'.reachable.owned.defined hr hd).1, hr, hd,
    hlinked⟩

/-- Linking has stopped at what fails next for no dependency, by the step that has linked it. -/
theorem HonestRun.stopped_of_due (h : HonestRun past m) {id : RequestId} {e : LoadError}
    (he : ¬ e.IsDependency) (hdue : .fail id e ∈ m.loader.worklist) :
    ∃ m' ∈ past, id ∉ linkings m'.loader.journal ∧ id ∈ linkings m'.step.loader.journal ∧
      .fail id e ∈ m'.step.loader.worklist := by
  induction h with
  | start hstart =>
    have hreach : Reachable _ := ⟨_, hstart, .refl⟩
    obtain ⟨config, resources, l, script, hl, rfl⟩ := hstart
    obtain ⟨d, hd, _⟩ := hreach.attended.work (List.ne_nil_of_mem hdue)
    cases hd
  | @goes past m _ hrun _ hgo ih =>
    have hpast : .fail id e ∈ m.loader.worklist → ∃ m' ∈ m :: past,
        id ∉ linkings m'.loader.journal ∧ id ∈ linkings m'.step.loader.journal ∧
          .fail id e ∈ m'.step.loader.worklist := by
      intro hdue
      obtain ⟨m', hm', hrest⟩ := ih hdue
      exact ⟨m', List.mem_cons_of_mem _ hm', hrest⟩
    cases hgo with
    | step =>
      rcases stops_step hrun.reachable id e he hdue with hold | ⟨hbefore, hafter⟩
      · exact hpast hold
      · exact ⟨m, List.mem_cons_self, hbefore, hafter, hdue⟩
    | pass _ => exact hpast hdue
    | call script _ => exact hpast hdue

end Machine

/-! ## Where errors lead to -/

namespace LoadError

/-- The modules that an error leads over, with the errors that they are said to have failed with. -/
def trail : LoadError → List (String × LoadError)
  | dependency url source => (url, source) :: source.trail
  | _ => []

theorem rootCause_of_trail (e : LoadError) {p : String × LoadError}
    (h : e.trail.getLast? = some p) : p.2 = e.rootCause := by
  induction e with
  | dependency url source ih =>
    rw [trail, List.getLast?_cons] at h
    cases hlast : source.trail.getLast? with
    | none =>
      rw [hlast] at h
      cases h
      cases source with
      | dependency url' source' => simp [trail] at hlast
      | _ => rfl
    | some q =>
      rw [hlast] at h
      cases h
      exact ih hlast
  | _ => cases h

def IsCycle : LoadError → Prop
  | cycle _ => True
  | _ => False

end LoadError

/-- The error that an event tells of. -/
def Event.error? : Event ν → Option LoadError
  | failed _ e => some e
  | handled _ e => some e
  | report (.unhandled e) => some e
  | report (.mainFailed e) => some e
  | report (.mainNotLoaded e) => some e
  | _ => none

namespace Machine

variable {m : Machine ν} {past : List (Machine ν)}

theorem HonestRun.trail_of_stored (h : HonestRun past m) (e : LoadError) :
    ∀ {url}, m.loader.registry.state? url = some (.failed e) →
      ∀ p ∈ e.trail, m.loader.registry.state? p.1 = some (.failed p.2) := by
  induction e with
  | dependency v source ih =>
    intro url hu
    have hv := (h.blamed_of_stored hu).1
    exact List.forall_mem_cons.mpr ⟨hv, ih hv⟩
  | _ => exact fun _ _ hp => by cases hp

/-- Whatever is told of a dependency, the dependency has failed so. -/
theorem HonestRun.failed_of_told (h : HonestRun past m) {event : Event ν}
    (hmem : event ∈ m.loader.journal) {url : String} {e : LoadError}
    (hevent : event.error? = some (.dependency url e)) :
    m.loader.registry.state? url = some (.failed e) := by
  have hdue : ∀ {due : RequestId → LoadError → Prop}, event.MayTell due →
      ∃ id, due id (.dependency url e) := by
    intro due htell
    cases event with
    | failed id e' =>
      cases hevent
      exact ⟨id, htell.resolve_left not_false⟩
    | handled id e' =>
      cases hevent
      exact ⟨id, htell.resolve_left not_false⟩
    | report r =>
      cases r with
      | unhandled e' =>
        cases hevent
        exact htell.resolve_left not_false
      | mainFailed e' =>
        cases hevent
        exact absurd trivial htell
      | mainNotLoaded e' =>
        cases hevent
        exact absurd trivial htell
      | _ => cases hevent
    | _ => cases hevent
  rcases h.accountable.told event hmem with hnone | ⟨m', hm', _, _, htell⟩
  · obtain ⟨_, hfalse⟩ := hdue hnone
    exact hfalse.elim
  · obtain ⟨_, _, h', _⟩ := h.of_mem hm'
    obtain ⟨id, hdue⟩ := hdue htell
    exact (h.lasts hm').settled (h'.reachable.blamed hdue).1 rfl

end Machine

/-- In every run along which no resource fails to be fetched with an error that blames a dependency:
a module that has failed for a dependency had a definition that was linked to the dependency, which
has failed with just the error that is passed on. Whenever an error handler starts that is told of
a dependency, a specifier of its request was linked to the dependency, which has failed just so by
then. Every error that is told of leads from one module that has failed to the next, each with the
error that it failed with, and the last one failed with the root cause, which blames no dependency.
And an error handler is told that a specifier cannot be resolved, or closes a circle, only if
linking its own request has stopped there. -/
theorem failure_provenance {past : List (Machine ν)} {m : Machine ν} (h : m.HonestRun past) :
    (∀ url v e, m.loader.registry.state? url = some (.failed (.dependency v e)) →
      m.loader.registry.state? v = some (.failed e) ∧
      ∃ m' ∈ past, ∃ id r, m'.loader.registry.definition? url = some id ∧
        m'.loader.requests.get? id = some r ∧ r.definitionUrl = some url ∧ v ∈ r.modules) ∧
    (∀ id v e, .handled id (.dependency v e) ∈ m.loader.journal →
      ∃ m' ∈ past, .handled id (.dependency v e) ∉ m'.loader.journal ∧
        .handled id (.dependency v e) ∈ m'.step.loader.journal ∧
        m'.step.loader.registry.state? v = some (.failed e) ∧
        ∃ r i s, m'.loader.requests.get? id = some r ∧ r.slot? i = some s ∧ s.module = some v) ∧
    (∀ event ∈ m.loader.journal, ∀ e, event.error? = some e →
      (∀ p ∈ e.trail, m.loader.registry.state? p.1 = some (.failed p.2)) ∧
      (∀ p, e.trail.getLast? = some p →
        m.loader.registry.state? p.1 = some (.failed e.rootCause)) ∧
      ¬ e.rootCause.IsDependency) ∧
    (∀ id e, .handled id e ∈ m.loader.journal → e.IsUnresolved ∨ e.IsCycle →
      ∃ m' ∈ past, id ∉ linkings m'.loader.journal ∧ id ∈ linkings m'.step.loader.journal ∧
        .fail id e ∈ m'.step.loader.worklist ∧ Stopped m'.step.loader.journal id e) := by
  refine ⟨fun url v e => h.blamed_of_stored, ?_, ?_, ?_⟩
  · intro id v e hmem
    obtain ⟨m', hm', hbefore, hafter, hdue⟩ := h.due_of_told hmem (.inr rfl) not_false
    obtain ⟨_, _, h', _⟩ := h.of_mem hm'
    obtain ⟨hv, r, hr, hlinked⟩ := h'.reachable.blamed hdue
    obtain ⟨i, s, hs, hm⟩ := Request.mem_modules.mp hlinked
    have hlasts := h'.reachable.lasts (.single (.step m'))
    exact ⟨m', hm', hbefore, hafter, hlasts.settled hv rfl, r, i, s, hr, hs, hm⟩
  · intro event hmem e hevent
    have htrail : ∀ p ∈ e.trail, m.loader.registry.state? p.1 = some (.failed p.2) := by
      cases e with
      | dependency v source =>
        have hv := h.failed_of_told hmem hevent
        exact List.forall_mem_cons.mpr ⟨hv, h.trail_of_stored source hv⟩
      | _ => exact fun _ hp => by cases hp
    refine ⟨htrail, fun p hlast => ?_, e.not_isDependency_rootCause⟩
    rw [← e.rootCause_of_trail hlast]
    exact htrail p (List.mem_of_getLast? hlast)
  · intro id e hmem he
    have hkind : ¬ e.IsOfProgram ∧ ¬ e.IsDependency := by
      rcases he with he | he <;> cases e <;> first | exact ⟨not_false, not_false⟩ | cases he
    obtain ⟨m', hm', _, _, rest, r, hw, _⟩ := h.due_of_told hmem (.inr rfl) hkind.1
    obtain ⟨past', hsub, h', _⟩ := h.of_mem hm'
    obtain ⟨m'', hm'', hbefore, hafter, hdue⟩ :=
      h'.stopped_of_due hkind.2 (hw ▸ List.mem_cons_self)
    refine ⟨m'', hsub hm'', hbefore, hafter, hdue, ?_⟩
    obtain ⟨_, _, h'', _⟩ := h'.of_mem hm''
    cases (h''.reachable.goes (.step m'')).blaming.due hdue with
    | blamed => exact absurd trivial hkind.2
    | stopped hstopped => exact hstopped

/-- A module whose dependency is not to be had. -/
def brokenResources (t : Target) : Option (Fetched (Script Unit)) :=
  if t.key = "a:/x.js" then
    some (.code (.define ["./y.js"] (fun _ => .finish .done) none (.finish .done)))
  else some (.failed (.fetch t.key "gone"))

/-- A host that requires that module. -/
def brokenHost : Machine Unit :=
  Machine.start (Loader.new {} brokenResources)
    (.configure "a:/" fun _ => .require ["./x.js"] (fun _ => .finish .done)
      (some fun _ => .finish .done) (.settle fun _ => .finish .done))

/-- The moment at which the host's error handler starts. -/
def brokenChain : Machine Unit := brokenHost.run 18

theorem failure_provenance_chain : ∃ past, brokenChain.HonestRun past ∧
    brokenChain.loader.registry.state? "a:/x.js" =
      some (.failed (.dependency "a:/y.js" (.fetch "a:/y.js" "gone"))) ∧
    brokenChain.loader.registry.state? "a:/y.js" = some (.failed (.fetch "a:/y.js" "gone")) := by
  have herrors : brokenChain.loader.journal.head?.bind Event.error? =
      some (.dependency "a:/x.js" (.dependency "a:/y.js" (.fetch "a:/y.js" "gone"))) := by
    decide +kernel
  obtain ⟨event, hhead, hevent⟩ := Option.bind_eq_some_iff.mp herrors
  have hstart : brokenHost.HonestRun [] := .start ⟨{}, brokenResources, _, _, .inl rfl, rfl⟩
  obtain ⟨past, hrun⟩ := hstart.run 18 (by decide +kernel)
  obtain ⟨_, _, htold, _⟩ := failure_provenance hrun
  obtain ⟨htrail, _, _⟩ := htold event (List.mem_of_head? hhead) _ hevent
  exact ⟨past, hrun, htrail _ List.mem_cons_self,
    htrail _ (List.mem_cons_of_mem _ List.mem_cons_self)⟩

end AsyncModule
