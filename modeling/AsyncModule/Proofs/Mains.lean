import AsyncModule.Proofs.Attach
import AsyncModule.Proofs.Runs

/-!
# AsyncModule.Proofs.Mains

Main resources on their way. The counter of main resources counts those being fetched and those
being dealt with, a loader is resolving exactly while there are any, and once it is established
nothing is deferred.

* `maintained_mains` — everything the machine does keeps the count.
-/

namespace AsyncModule

variable {ν : Type}

def Fetches.mains (fs : Fetches ν) : Nat := fs.errands.countP fun e => e.2.2 = .main

@[simp] theorem Fetches.mains_start (fs : Fetches ν) (t : Target) (role : LoadRole)
    (result : Option (Fetched (Script ν))) :
    (fs.start t role result).mains = fs.mains + if role = .main then 1 else 0 := by
  simp [mains, List.countP_append, List.countP_singleton]

structure Mains (l : Loader ν) (k : List Duty) : Prop where
  numbered : l.fetches.Numbered
  counter : l.bootstrap.inFlight = l.fetches.mains + k.count .main
  resolving_iff : l.bootstrap.state = .resolving ↔ 0 < l.bootstrap.inFlight
  root : 0 < l.bootstrap.inFlight → l.bootstrap.root ≠ none
  established : l.bootstrap.state = .established →
    l.bootstrap.ambient ≠ none ∧ l.bootstrap.deferred = []

namespace Mains

variable {l l' : Loader ν} {k k' : List Duty}

theorem init (config : Config) (resources : Target → Option (Fetched (Script ν))) :
    Mains (Loader.new config resources) [] where
  numbered := Fetches.numbered_empty
  counter := rfl
  resolving_iff := by simp [Loader.new, Bootstrap.initial]
  root h := absurd h (Nat.lt_irrefl 0)
  established h := by cases h

theorem same (h : Mains l k) (hb : l'.bootstrap = l.bootstrap) (hn : l'.fetches.Numbered)
    (hm : l'.fetches.mains = l.fetches.mains) (hk : k'.count .main = k.count .main) :
    Mains l' k' where
  numbered := hn
  counter := by rw [hb, hm, hk, h.counter]
  resolving_iff := by rw [hb]; exact h.resolving_iff
  root := by rw [hb]; exact h.root
  established := by rw [hb]; exact h.established

/-- Fewer requests, or more while there is no context, may be deferred. -/
theorem deferring (h : Mains l k) (ids : List RequestId)
    (hids : l.bootstrap.state = .established → ids = []) :
    Mains { l with bootstrap := { l.bootstrap with deferred := ids } } k where
  numbered := h.numbered
  counter := h.counter
  resolving_iff := h.resolving_iff
  root := h.root
  established he := ⟨(h.established he).1, hids he⟩

theorem forget (h : Mains l k) (id : RequestId) :
    Mains { l with bootstrap := l.bootstrap.forget id } k := by
  refine h.deferring _ ?_
  intro he
  rw [(h.established he).2]
  rfl

theorem keptByLinking (k : List Duty) : Loader.KeptByLinking fun l : Loader ν => Mains l k where
  linked _ _ h := h.same rfl h.numbered rfl rfl
  context _ _ h := h.same rfl h.numbered rfl rfl
  stop _ h _ := h.same rfl h.numbered rfl rfl
  attach {l id r} i t h _ _ := by
    have hload : l.fetches.Numbered → ∀ result, (l.fetches.start t .module result).Numbered ∧
        (l.fetches.start t .module result).mains = l.fetches.mains :=
      fun hn result => ⟨hn.start t .module result, by simp⟩
    unfold Loader.attach
    dsimp only
    split
    · obtain ⟨hn, hm⟩ := hload h.numbered (l.resources t)
      exact h.same rfl hn hm rfl
    · exact h.same rfl h.numbered rfl rfl
    · exact h.same rfl h.numbered rfl rfl
    · exact h.same rfl h.numbered rfl rfl

theorem submit (h : Mains l k) (frame : Option Frame) (dependencies : List String)
    (callback : List ModuleValue → Script ν) (errback : Option (LoadError → Script ν))
    (definitionUrl : Option String) :
    Mains (l.submit frame dependencies callback errback definitionUrl) k := by
  have henter : Mains (l.enter (Request.ofCall dependencies callback errback
      (l.context? frame) definitionUrl)).2 k := h.same rfl h.numbered rfl rfl
  refine (keptByLinking k).begin henter (fun _ => henter.same rfl henter.numbered rfl rfl) ?_
  intro _ hctx
  refine henter.deferring _ ?_
  intro he
  -- with the context of an established loader nothing is deferred
  have hambient : l.bootstrap.ambient = none := by
    have hc : l.context? frame = none := hctx
    unfold Loader.context? at hc
    split at hc
    · cases hc
    · have hs : l.bootstrap.state = .established := he
      simpa [Bootstrap.context?, hs] using hc
  exact absurd hambient (h.established he).1

/-- Whoever concludes with no main resource on its way establishes the loader for good. -/
theorem conclude {b : Bootstrap} (hn : l.fetches.Numbered)
    (hcounter : b.inFlight = l.fetches.mains + k.count .main)
    (hresolving : 0 < b.inFlight → b.state = .resolving ∧ b.root ≠ none)
    (hambient : b.ambient ≠ none) : Mains (l.afterEstablishing b.conclude).2 k := by
  by_cases hz : b.inFlight = 0
  · have hc : b.conclude = (true, { b with state := .established }) := by
      simp [Bootstrap.conclude, hz]
    have hdone : Mains { l with bootstrap := { b with state := .established, deferred := [] } } k :=
      ⟨hn, hcounter, by simp [hz], fun h => absurd hz (Nat.ne_of_gt h), fun _ => ⟨hambient, rfl⟩⟩
    rw [hc]
    exact (keptByLinking k).drainDeferred (fun hnone => absurd hnone hambient) hdone
  · have hc : b.conclude = (false, b) := by simp [Bootstrap.conclude, hz]
    obtain ⟨hstate, hroot⟩ := hresolving (Nat.pos_of_ne_zero hz)
    rw [hc]
    refine ⟨hn, hcounter, ?_, fun _ => hroot, ?_⟩
    · exact ⟨fun _ => Nat.pos_of_ne_zero hz, fun _ => hstate⟩
    · intro he
      have heq : BootstrapState.resolving = .established := hstate.symm.trans he
      cases heq

theorem establish (h : Mains l k) (ctx : Context) :
    Mains (l.afterEstablishing (l.bootstrap.establish ctx)).2 k :=
  conclude h.numbered h.counter (fun hpos => ⟨h.resolving_iff.mpr hpos, by simp⟩) (by simp)

theorem finishMain (h : Mains l (.main :: k)) (t : Target) : Mains (l.finishMain t) k := by
  have hcounter := h.counter
  rw [List.count_cons_self] at hcounter
  have hpos : 0 < l.bootstrap.inFlight := by omega
  have hfinish : ∀ ctx, Mains (l.afterEstablishing (l.bootstrap.finishEstablishing ctx)).2 k := by
    intro ctx
    refine conclude h.numbered ?_ (fun _ => ⟨h.resolving_iff.mpr hpos, h.root hpos⟩) (by simp)
    show l.bootstrap.inFlight - 1 = _
    omega
  unfold Loader.finishMain
  dsimp only
  split
  · exact hfinish _
  · -- a main resource has left a root context, at least
    rename_i hctx
    split at hctx
    · cases hctx
    · exact absurd hctx (h.root hpos)

theorem beginMain (h : Mains l k) (root : Context) (t : Target) :
    Mains (Loader.load { l with bootstrap := l.bootstrap.beginEstablishing root } t .main) k where
  numbered := h.numbered.start t .main _
  counter := by
    have hcounter := h.counter
    have hmains := Fetches.mains_start l.fetches t .main (l.resources t)
    rw [if_pos rfl] at hmains
    show l.bootstrap.inFlight + 1 = (l.fetches.start t .main (l.resources t)).mains + _
    omega
  resolving_iff := ⟨fun _ => Nat.succ_pos _, fun _ => rfl⟩
  root _ := by simp [Loader.load, Loader.record, Bootstrap.beginEstablishing]
  established he := by cases he

theorem arrive (h : Mains l k) {f : Fetch ν} {result : Fetched (Script ν)} {fs : Fetches ν}
    (htake : l.fetches.take = (some (f, result), fs)) :
    Mains (Loader.record { l with fetches := fs } (.arrived f.target f.role))
      (.ofRole f.target f.role :: .dispatch :: k) where
  numbered := h.numbered.take htake
  counter := by
    obtain ⟨before, after, heq, heq'⟩ := h.numbered.errands_of_take htake
    have hcounter := h.counter
    rw [Fetches.mains, heq, List.countP_append, List.countP_cons] at hcounter
    show l.bootstrap.inFlight = fs.mains + _
    rw [Fetches.mains, heq', List.countP_append]
    cases hrole : f.role with
    | main =>
      rw [show f.errand.2.2 = .main from hrole] at hcounter
      simp only [Duty.ofRole, List.count_cons, decide_true, if_true, beq_self_eq_true] at hcounter ⊢
      simp
      omega
    | module =>
      rw [show f.errand.2.2 = .module from hrole] at hcounter
      simp [Duty.ofRole] at hcounter ⊢
      omega
  resolving_iff := h.resolving_iff
  root := h.root
  established := h.established

end Mains

@[simp] theorem count_main_ofDefinition (definition : Option String) :
    (Duty.ofDefinition definition).count .main = 0 := by
  cases definition with
  | none => rfl
  | some url => rfl

theorem maintained_mains : Maintained fun (l : Loader ν) k => Mains l k where
  aside h _ := h.same rfl h.numbered rfl rfl
  make _ h := h.same rfl h.numbered rfl rfl
  fetches h hagree := by
    refine h.same rfl (h.numbered.agree hagree) ?_ rfl
    simp [Fetches.mains, hagree.1]
  arrive h htake := h.arrive htake
  enter _ h _ := h.same rfl h.numbered rfl rfl
  require frame dependencies callback errback h := by
    have h1 := h.submit frame dependencies callback errback none
    exact h1.same rfl h1.numbered rfl (by simp)
  define {l k url} ctx defined dependencies factory errback h := by
    have h1 := h.submit (some (.unit url ctx true defined)) dependencies factory errback (some url)
    exact h1.same rfl h1.numbered rfl (by simp)
  unwatch h := h.same rfl h.numbered rfl (by simp)
  setDefaultBase _ h := h.same rfl h.numbered rfl rfl
  establish {l k} ctx h := by
    have h1 := h.establish ctx
    split
    · exact h1.same rfl h1.numbered rfl (by simp)
    · exact h1
  beginMain root t h _ := h.beginMain root t
  finishMain t h := h.finishMain t
  ready v h := h.same rfl h.numbered rfl (by simp)
  abandon e h hm _ := by
    rcases hm with rfl | rfl
    · exact h.same rfl h.numbered rfl (by simp)
    · exact h.same rfl h.numbered rfl (by simp)
  abandonDefinition e h hm _ _ := by
    rcases hm with rfl | rfl
    · exact (h.forget _).same rfl h.numbered rfl (by simp)
    · exact (h.forget _).same rfl h.numbered rfl (by simp)
  finish h _ := h.same rfl h.numbered rfl (by simp)
  fault h _ := h.same rfl h.numbered rfl (by simp)
  handle h _ := h.same rfl h.numbered rfl rfl
  dispatch h _ := h.same rfl h.numbered rfl (by simp)
  redispatch h _ := h.same rfl h.numbered rfl (by simp)
  drained h _ := h.same rfl h.numbered rfl (by simp)
  dead h _ _ := h.same rfl h.numbered rfl rfl
  fill h _ _ _ := h.same rfl h.numbered rfl rfl
  fillFire h _ _ _ := h.same rfl h.numbered rfl (by simp)
  fire h _ _ := h.same rfl h.numbered rfl (by simp)
  fail h _ _ := (h.forget _).same rfl h.numbered rfl (by simp)

end AsyncModule
