import AsyncModule.Proofs.Duties
import Mathlib.Logic.Relation

/-!
# AsyncModule.Proofs.Runs

Runs of a loader. Programs call it from outside, one after the other; the programs they make it
run may call it in turn; and between any two steps the results of fetches may come, in any order.

* `Maintained.reachable` — what holds of a new loader and is maintained holds of every machine
  that can be reached.
-/

namespace AsyncModule

open Relation

variable {ν : Type}

namespace Machine

/-- What can happen to a machine. -/
inductive Goes : Machine ν → Machine ν → Prop where
  | step (m : Machine ν) : Goes m m.step
  /-- Time passes: results come, and open fetches are to be looked at in some order. -/
  | pass (m : Machine ν) {fetches : Fetches ν} (h : m.loader.fetches.Agree fetches) :
      Goes m { m with loader := { m.loader with fetches } }
  /-- The next program calls from outside. -/
  | call {m : Machine ν} (script : Script ν) (h : m.stack = []) :
      Goes m { m with stack := [.body none script .plain] }

theorem step_of_cons {m : Machine ν} {task : Task ν} {rest : List (Task ν)}
    (h : m.stack = task :: rest) :
    m.step = ⟨(advance m.loader task).1, (advance m.loader task).2 ++ rest⟩ := by
  unfold step
  rw [h]

def IsStart (m : Machine ν) : Prop :=
  ∃ config resources l script,
    (l = Loader.new config resources ∨ Loader.ofConfig config resources = .ok l) ∧
      m = start l script

def Reachable (m : Machine ν) : Prop := ∃ m₀, IsStart m₀ ∧ ReflTransGen Goes m₀ m

theorem reachable_start (config : Config) (resources : Target → Option (Fetched (Script ν)))
    (script : Script ν) : (start (Loader.new config resources) script).Reachable :=
  ⟨_, ⟨config, resources, _, script, .inl rfl, rfl⟩, .refl⟩

theorem Reachable.goes {m m' : Machine ν} (h : m.Reachable) (hgo : Goes m m') : m'.Reachable := by
  obtain ⟨m₀, hstart, hrun⟩ := h
  exact ⟨m₀, hstart, hrun.tail hgo⟩

theorem Reachable.trans {m m' : Machine ν} (h : m.Reachable) (hrun : ReflTransGen Goes m m') :
    m'.Reachable := by
  obtain ⟨m₀, hstart, hbefore⟩ := h
  exact ⟨m₀, hstart, hbefore.trans hrun⟩

theorem Reachable.arrange {m : Machine ν} (h : m.Reachable) (o : Order ν) :
    (o.arrange m).Reachable :=
  h.goes (.pass m ⟨rfl, rfl⟩)

theorem Reachable.stepIn {m : Machine ν} (h : m.Reachable) (o : Order ν) :
    (o.step m).Reachable := by
  unfold Order.step
  split
  · exact (h.arrange o).goes (.step _)
  · exact h.goes (.step m)

theorem Reachable.run {m : Machine ν} (h : m.Reachable) (fuel : Nat) :
    (Machine.run fuel m).Reachable := by
  induction fuel generalizing m with
  | zero => exact h
  | succ fuel ih =>
    simp only [Machine.run]
    split
    · exact h
    · exact ih (h.goes (.step m))

theorem Reachable.runIn {m : Machine ν} (h : m.Reachable) (o : Order ν) (fuel : Nat) :
    (Machine.runIn o fuel m).Reachable := by
  induction fuel generalizing m with
  | zero => exact h
  | succ fuel ih =>
    simp only [Machine.runIn]
    split
    · exact h
    · exact ih (h.stepIn o)

end Machine

namespace Loader

variable {l l' : Loader ν} {drained : Bool}

theorem changed_eq_ok {out : Except LoadError Bool × Loader ν} (h : changed out = .ok l) :
    ∃ drained, out = (.ok drained, l) := by
  obtain ⟨result, l'⟩ := out
  cases result with
  | error e => cases h
  | ok drained =>
    cases h
    exact ⟨drained, rfl⟩

theorem configure_eq_ok {base : String} (h : l.configure base = (.ok drained, l')) :
    ∃ url ctx, Url.asDirectory base = .ok url ∧ Context.ofUrl url = .ok ctx ∧
      l' = ((l.setDefaultBase url).afterEstablishing (l.bootstrap.establish ctx)).2 := by
  unfold configure at h
  split at h
  · cases h
  · rename_i url hurl
    split at h
    · cases h
    · rename_i ctx hctx
      cases h
      exact ⟨url, ctx, hurl, hctx, rfl⟩

theorem boot_main_eq_ok {entry main : String}
    (h : l.boot entry (some main) = (.ok drained, l')) :
    ∃ (ctx : Context) (t : Target) (directory : Url) (root : Context),
      t.url.directory = .ok directory ∧
        l' = load { (l.setDefaultBase ctx.base).setDefaultBase directory with
          bootstrap := l.bootstrap.beginEstablishing root } t .main := by
  unfold boot at h
  split at h
  · cases h
  · rename_i ctx _
    dsimp only at h
    split at h
    · cases h
    · rename_i t _
      split at h
      · cases h
      · rename_i directory hdirectory
        split at h
        · cases h
        · rename_i root _
          cases h
          exact ⟨ctx, t, directory, root, hdirectory, rfl⟩

/-- What a new loader has done is what its settings ask for. -/
theorem ofConfig_eq_ok {config : Config} {resources : Target → Option (Fetched (Script ν))}
    (h : ofConfig config resources = .ok l) :
    (config.baseUrl = none ∧ config.main = none ∧ l = new config resources) ∨
    (∃ base drained, config.baseUrl = some base ∧ config.main = none ∧
      (new config resources).configure base = (.ok drained, l)) ∨
    ∃ base main entry drained, config.baseUrl = some base ∧ config.main = some main ∧
      Url.asDirectory base = .ok entry ∧
      (new config resources).boot entry.toString (some main) = (.ok drained, l) := by
  unfold ofConfig at h
  split at h
  · rename_i base main hbase hmain
    split at h
    · cases h
    · rename_i entry hentry
      obtain ⟨drained, hboot⟩ := changed_eq_ok h
      exact .inr (.inr ⟨base, main, entry, drained, hbase, hmain, hentry, hboot⟩)
  · rename_i base hbase hmain
    obtain ⟨drained, hconfigure⟩ := changed_eq_ok h
    exact .inr (.inl ⟨base, drained, hbase, hmain, hconfigure⟩)
  · cases h
  · rename_i hbase hmain
    cases h
    exact .inl ⟨hbase, hmain, rfl⟩

end Loader

namespace Maintained

variable {P : Loader ν → List Duty → Prop}

theorem maintained_true : Maintained fun (_ : Loader ν) _ => True := by
  have hfailing : KeptByFailing fun (_ : Loader ν) _ => True := by
    constructor <;> intros <;> trivial
  have htending : KeptByTending fun (_ : Loader ν) _ => True := by
    refine ⟨hfailing, ?_⟩
    intros
    trivial
  have hwork : KeptByWork fun (_ : Loader ν) _ => True := by
    refine ⟨htending, ?_, ?_, ?_, ?_⟩ <;> intros <;> trivial
  refine ⟨hwork, ?_, ?_⟩ <;> intros <;> trivial

/-- Establishing a context when nothing is deferred leaves nothing to be worked off. -/
theorem establish_idle (hP : Maintained P) {l : Loader ν} (ctx : Context) (h : P l [])
    (hw : l.worklist = []) (hd : l.bootstrap.deferred = []) (hf : l.dispatching = false) :
    P (l.afterEstablishing (l.bootstrap.establish ctx)).2 [] := by
  have h1 := hP.establish ctx h
  have hidle : ∀ {l' : Loader ν}, P l' [.dispatch] → l'.worklist = [] → l'.dispatching = false →
      P l' [] := by
    intro l' h' hw' hf'
    have h2 := hP.drained (hP.dispatch h' hf') hw'
    have heq : { l' with dispatching := false } = l' := by rw [← hf']
    rwa [heq] at h2
  cases hb : (l.afterEstablishing (l.bootstrap.establish ctx)).1 with
  | false =>
    rw [hb] at h1
    exact h1
  | true =>
    rw [hb, if_pos rfl] at h1
    have hkeep : ∀ b : Bootstrap, b.deferred = [] →
        (Loader.drainDeferred { l with bootstrap := b }).worklist = [] ∧
          (Loader.drainDeferred { l with bootstrap := b }).dispatching = false := by
      intro b hb
      unfold Loader.drainDeferred
      split
      · exact ⟨hw, hf⟩
      · simp [hb, hw, hf]
    have hdef : (l.bootstrap.establish ctx).2.deferred = [] := by
      unfold Bootstrap.establish Bootstrap.conclude
      split <;> exact hd
    obtain ⟨hw', hf'⟩ := hkeep _ hdef
    have htrue : (l.bootstrap.establish ctx).1 = true := hb
    have hout : (l.afterEstablishing (l.bootstrap.establish ctx)).2 =
        Loader.drainDeferred { l with bootstrap := (l.bootstrap.establish ctx).2 } := by
      simp [Loader.afterEstablishing, htrue]
    rw [hout] at h1 ⊢
    exact hidle h1 hw' hf'

theorem ofConfig (hP : Maintained P) {config : Config}
    {resources : Target → Option (Fetched (Script ν))} {l : Loader ν}
    (h : P (Loader.new config resources) []) (hl : Loader.ofConfig config resources = .ok l) :
    P l [] := by
  rcases Loader.ofConfig_eq_ok hl with
    ⟨_, _, rfl⟩ | ⟨base, drained, _, _, hconfigure⟩ | ⟨base, main, entry, drained, _, _, _, hboot⟩
  · exact h
  · obtain ⟨url, ctx, _, _, rfl⟩ := Loader.configure_eq_ok hconfigure
    exact hP.establish_idle _ (hP.setDefaultBase _ h) rfl rfl rfl
  · obtain ⟨ctx, t, directory, root, hdirectory, rfl⟩ := Loader.boot_main_eq_ok hboot
    exact hP.beginMain _ _ (hP.setDefaultBase _ (hP.setDefaultBase _ h)) hdirectory

theorem goes (hP : Maintained P) {m m' : Machine ν} (h : P m.loader (dutiesOf m.stack))
    (hfit : ∀ task ∈ m.stack, task.Fits) (hgo : m.Goes m') :
    P m'.loader (dutiesOf m'.stack) ∧ ∀ task ∈ m'.stack, task.Fits := by
  cases hgo with
  | step => exact hP.step h hfit
  | pass hagree => exact ⟨hP.fetches h hagree, hfit⟩
  | call script hs =>
    rw [hs] at h
    refine ⟨h, ?_⟩
    intro task htask
    rw [List.mem_singleton.mp htask]
    exact Task.frameFits_of_ne (by simp) (by simp) (by simp)

theorem runs (hP : Maintained P) {m m' : Machine ν} (hrun : ReflTransGen Machine.Goes m m')
    (h : P m.loader (dutiesOf m.stack)) (hfit : ∀ task ∈ m.stack, task.Fits) :
    P m'.loader (dutiesOf m'.stack) ∧ ∀ task ∈ m'.stack, task.Fits := by
  induction hrun with
  | refl => exact ⟨h, hfit⟩
  | tail _ hgo ih => exact hP.goes ih.1 ih.2 hgo

theorem reachable_fits (hP : Maintained P)
    (hnew : ∀ config resources, P (Loader.new config resources) []) {m : Machine ν}
    (h : m.Reachable) :
    P m.loader (dutiesOf m.stack) ∧ ∀ task ∈ m.stack, task.Fits := by
  obtain ⟨m₀, ⟨config, resources, l, script, hl, rfl⟩, hrun⟩ := h
  have h0 : P l [] := by
    rcases hl with rfl | hl
    · exact hnew config resources
    · exact hP.ofConfig (hnew config resources) hl
  refine hP.runs hrun h0 ?_
  intro task htask
  rw [List.mem_singleton.mp htask]
  exact Task.frameFits_of_ne (by simp) (by simp) (by simp)

theorem reachable (hP : Maintained P)
    (hnew : ∀ config resources, P (Loader.new config resources) []) {m : Machine ν}
    (h : m.Reachable) : P m.loader (dutiesOf m.stack) :=
  (hP.reachable_fits hnew h).1

end Maintained

/-- The frames of all tasks fit what their ends mean. -/
theorem Machine.Reachable.fits {m : Machine ν} (h : m.Reachable) : ∀ task ∈ m.stack, task.Fits :=
  (Maintained.maintained_true.reachable_fits (fun _ _ => trivial) h).2

theorem Maintained.later {P : Loader ν → List Duty → Prop} (hP : Maintained P) {m m' : Machine ν}
    (hm : m.Reachable) (h : P m.loader (dutiesOf m.stack))
    (hrun : ReflTransGen Machine.Goes m m') : P m'.loader (dutiesOf m'.stack) :=
  (hP.runs hrun h hm.fits).1

end AsyncModule
