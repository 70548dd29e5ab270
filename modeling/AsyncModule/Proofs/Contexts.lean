import AsyncModule.Proofs.Draining
import AsyncModule.Proofs.Tally

/-!
# AsyncModule.Proofs.Contexts

The context of requests that are made outside of any unit: before there is one, while main resources
are on their way, and once it is established. What has been deferred is linked when the last main
resource has been dealt with, in the context of this one.

* `Machine.drains_of_zero` — what the step does by which this comes about.
* `contexts_kept`          — the whole statement, for every moment of every run.
-/

namespace AsyncModule

variable {ν : Type}

/-! ## When the last main resource has been dealt with -/

/-- When the last main resource has been dealt with, what was deferred is linked in its context. -/
theorem Loader.finishMain_last {l : Loader ν} {t : Target} {ctx : Context}
    (hctx : Context.ofUrl t.url = .ok ctx) (hlast : l.bootstrap.inFlight = 1) :
    l.finishMain t = l.bootstrap.deferred.foldl (fun l id => l.link id ctx)
      { l with bootstrap := { l.bootstrap with
        inFlight := 0, ambient := some ctx, state := .established, deferred := [] } } := by
  rw [finishMain_eq hctx]
  simp [Bootstrap.finishEstablishing, Bootstrap.conclude, hlast, afterEstablishing,
    drainDeferred, Bootstrap.context?]

theorem Loader.tells_finishMain {l : Loader ν} {t : Target} {ctx : Context}
    (hctx : Context.ofUrl t.url = .ok ctx) (hlast : l.bootstrap.inFlight = 1)
    (hnodup : l.bootstrap.deferred.Nodup)
    (hall : ∀ id ∈ l.bootstrap.deferred, ∃ r, l.requests.get? id = some r ∧
      r.definitionUrl = none ∧ Unlinked r) :
    ∃ told, List.Forall₂ (l.Tells (l.finishMain t) ctx) l.bootstrap.deferred told ∧
      (l.finishMain t).journal = told.flatten.reverse ++ l.journal := by
  rw [finishMain_last hctx hlast]
  obtain ⟨told, htold, hj⟩ := linkedIn_linkAll ctx l.bootstrap.deferred (l := { l with
    bootstrap := { l.bootstrap with
      inFlight := 0, ambient := some ctx, state := .established, deferred := [] } }) hnodup hall
  refine ⟨told, htold.imp ?_, hj⟩
  rintro id events ⟨r, n, loaded, hlinked, hevents⟩
  exact ⟨r, n, loaded, hlinked.earlier rfl rfl, hevents⟩

namespace Machine

variable {m : Machine ν}

/-- Unless a main resource has been dealt with, no fewer are on their way. -/
theorem exists_finishing (h : m.Reachable)
    (hless : m.step.loader.bootstrap.inFlight < m.loader.bootstrap.inFlight) :
    ∃ t, m.finishing? = some t := by
  rw [← Option.ne_none_iff_exists']
  intro hnone
  have hcounted := (changes_step h).counted
  rw [hnone, Option.toList_none, List.length_nil] at hcounted
  have hmains : mainsOf (loads m.loader.journal) ≤ mainsOf (loads m.step.loader.journal) :=
    ((h.lasts (.single (.step m))).journal.sublist.filterMap _).countP_le
  omega

/-- The step by which a main resource has been dealt with does nothing else before. -/
theorem step_of_finishing {t : Target} (ht : m.finishing? = some t) :
    ∃ l, Notes m.loader l ∧ m.step.loader = l.finishMain t := by
  obtain ⟨task, hhead, ht⟩ := Option.bind_eq_some_iff.mp ht
  obtain ⟨rest, hstack⟩ := List.head?_eq_some_iff.mp hhead
  -- Whoever tends deals with no main resource, and of the other deeds only one does.
  have htends : task.tends m.loader = false := by
    by_contra htends
    rw [(of_tends (eq_true_of_ne_false htends)).2] at ht
    cases ht
  have hdeed := deed_of_not_tends htends
  rw [ht] at hdeed
  rw [step_of_cons hstack]
  generalize task.setsUp m.loader = setsUp at hdeed
  dsimp only
  generalize (advance m.loader task).1 = l' at hdeed ⊢
  cases hdeed with
  | finish _ hl => exact ⟨_, hl, rfl⟩

theorem drains_of_zero (h : m.Reachable) (hpos : 0 < m.loader.bootstrap.inFlight)
    (hzero : m.step.loader.bootstrap.inFlight = 0) :
    ∃ t ctx notices told, m.finishing? = some t ∧ Context.ofUrl t.url = .ok ctx ∧
      m.step.loader.bootstrap.ambient = some ctx ∧ (∀ e ∈ notices, e.IsNotice) ∧
      List.Forall₂ (m.loader.Tells m.step.loader ctx) m.loader.bootstrap.deferred told ∧
      m.step.loader.journal = told.flatten.reverse ++ notices ++ m.loader.journal := by
  -- The counter falls by main resources that are dealt with only, so the step deals with one; and
  -- by one, so this is the last.
  obtain ⟨t, ht⟩ := exists_finishing h (by omega)
  obtain ⟨_, ctx, hctx⟩ := of_finishing h ht
  obtain ⟨l, hl, hstep⟩ := step_of_finishing ht
  obtain ⟨notices, hj, hnotices⟩ := hl.journal
  have hambient := Loader.bootstrap_conclude l
    { l.bootstrap with inFlight := l.bootstrap.inFlight - 1, ambient := some ctx }
  have hlast : l.bootstrap.inFlight = 1 := by
    rw [hstep, Loader.finishMain_eq hctx, Bootstrap.finishEstablishing, hambient.1] at hzero
    rw [← hl.bootstrap] at hpos
    have hzero : l.bootstrap.inFlight - 1 = 0 := hzero
    omega
  have hlinked := h.allLinked
  obtain ⟨told, htold, hj'⟩ := Loader.tells_finishMain hctx hlast
    (by rw [hl.bootstrap]; exact hlinked.deferred_nodup) (by
      rw [hl.bootstrap, hl.requests]
      intro id hid
      obtain ⟨r, hr, _, hd, hm⟩ := hlinked.deferred hid
      exact ⟨r, hr, hd, fun s hs => ⟨hm s hs, hlinked.value_of_deferred hid hr hs⟩⟩)
  rw [hl.bootstrap] at htold
  refine ⟨t, ctx, notices, told, ht, hctx, ?_, hnotices, ?_, ?_⟩
  · rw [hstep, Loader.finishMain_eq hctx]
    exact hambient.2.1
  · rw [hstep]
    refine htold.imp ?_
    rintro id events ⟨r, n, loaded, hlinkedIn, hevents⟩
    exact ⟨r, n, loaded, hlinkedIn.earlier (by rw [hl.requests]) hl.resolver,
      hl.resolver ▸ hevents⟩
  · rw [hstep, hj', hj, List.append_assoc]

theorem inFlight_of_finishing (h : m.Reachable) {t : Target} (ht : m.finishing? = some t) :
    m.step.loader.bootstrap.inFlight + 1 = m.loader.bootstrap.inFlight := by
  obtain ⟨hpos, ctx, hctx⟩ := of_finishing h ht
  obtain ⟨l, hl, hstep⟩ := step_of_finishing ht
  have hflight := (Loader.bootstrap_conclude l
    { l.bootstrap with inFlight := l.bootstrap.inFlight - 1, ambient := some ctx }).1
  rw [hstep, Loader.finishMain_eq hctx, Bootstrap.finishEstablishing, hflight, hl.bootstrap]
  show m.loader.bootstrap.inFlight - 1 + 1 = _
  omega

theorem Tallied.established_iff {setUp : Bool} {finished : Nat} (h : m.Tallied setUp finished) :
    m.loader.bootstrap.state = .established ↔
      m.loader.bootstrap.inFlight = 0 ∧ setUp = true := by
  have hresolving := h.reachable.mains.resolving_iff
  have hstate := h.counts.2
  cases hs : m.loader.bootstrap.state with
  | uninitialized =>
    rw [hs] at hstate
    simp [hstate.mp rfl]
  | resolving =>
    rw [hs] at hresolving
    have hpos := hresolving.mp rfl
    simp
    omega
  | established =>
    rw [hs] at hresolving hstate
    refine iff_of_true rfl ⟨Nat.eq_zero_of_not_pos fun hpos => ?_, ?_⟩
    · cases hresolving.mpr hpos
    · exact eq_true_of_ne_false fun hnone => by cases hstate.mpr hnone

/-- While main resources are on their way nothing that is deferred is linked. -/
theorem deferred_of_pos (h : m.Reachable) (hpos : 0 < m.step.loader.bootstrap.inFlight) :
    m.loader.bootstrap.deferred <+: m.step.loader.bootstrap.deferred ∧
      ∀ id ∈ m.loader.bootstrap.deferred, id ∉ linkings m.step.loader.journal := by
  have hkept := (changes_step h).deferred hpos
  exact ⟨hkept, fun id hid => (h.goes (.step m)).traced.unlinked (hkept.subset hid)⟩

end Machine

/-- At every moment of every run, by the tally that is kept along it. The counter is that of the
main resources that have been asked for and not been dealt with, and never falls below zero. A
loader is resolving while there are any; otherwise it is established if a context has ever been set
up, and uninitialized if not. Once it is established there is a context, and nothing is deferred.
What is deferred is what has been asked for and not been linked, in its order; none of it is linked
while main resources are on their way. When the last of them has been dealt with all of it is
linked, one request after the other, in the context of this main resource. -/
theorem contexts_kept {setUp : Bool} {finished : Nat} {m : Machine ν}
    (h : m.Tallied setUp finished) (frame : Option Frame) :
    m.loader.bootstrap.inFlight + finished = mainsOf (loads m.loader.journal) ∧
    (∀ t, m.finishing? = some t →
      m.step.loader.bootstrap.inFlight + 1 = m.loader.bootstrap.inFlight) ∧
    ((m.loader.view frame).state = .resolving ↔ 0 < m.loader.bootstrap.inFlight) ∧
    ((m.loader.view frame).state = .established ↔
      m.loader.bootstrap.inFlight = 0 ∧ setUp = true) ∧
    ((m.loader.view frame).state = .uninitialized ↔
      m.loader.bootstrap.inFlight = 0 ∧ setUp = false) ∧
    ((m.loader.view frame).state = .established →
      (∃ ctx, m.loader.bootstrap.ambient = some ctx) ∧
        (m.loader.view frame).deferredRequests = 0) ∧
    m.loader.bootstrap.deferred = (unlinked m.loader.journal).reverse ∧
    (0 < m.step.loader.bootstrap.inFlight →
      m.loader.bootstrap.deferred <+: m.step.loader.bootstrap.deferred ∧
        ∀ id ∈ m.loader.bootstrap.deferred, id ∉ linkings m.step.loader.journal) ∧
    (0 < m.loader.bootstrap.inFlight → m.step.loader.bootstrap.inFlight = 0 →
      ∃ t ctx notices told, m.finishing? = some t ∧ Context.ofUrl t.url = .ok ctx ∧
        m.step.loader.bootstrap.ambient = some ctx ∧ (∀ e ∈ notices, e.IsNotice) ∧
        List.Forall₂ (m.loader.Tells m.step.loader ctx) m.loader.bootstrap.deferred told ∧
        m.step.loader.journal = told.flatten.reverse ++ notices ++ m.loader.journal) := by
  have hreach := h.reachable
  have hmains := hreach.mains
  obtain ⟨hcounter, hstate⟩ := h.counts
  refine ⟨hcounter, ?_, hmains.resolving_iff, h.established_iff, ?_, ?_, hreach.deferring.order,
    Machine.deferred_of_pos hreach, Machine.drains_of_zero hreach⟩
  · exact fun t => Machine.inFlight_of_finishing hreach
  · refine ⟨fun hnone => ⟨Nat.eq_zero_of_not_pos fun hpos => ?_, hstate.mp hnone⟩,
      fun hnone => hstate.mpr hnone.2⟩
    have hnone : m.loader.bootstrap.state = .uninitialized := hnone
    rw [hmains.resolving_iff.mpr hpos] at hnone
    cases hnone
  · intro hestablished
    obtain ⟨hambient, hdeferred⟩ := hmains.established hestablished
    refine ⟨Option.ne_none_iff_exists'.mp hambient, ?_⟩
    show m.loader.bootstrap.deferred.length = 0
    rw [hdeferred]
    rfl

/-- A main resource with nothing to do. -/
def idlingResources (t : Target) : Option (Fetched (Script Unit)) :=
  if t.key = "a:/d/m.js" then some (.code (.finish .done)) else none

/-- The moment at which it is about to have been dealt with, and a request waits for that. -/
def lastMain : Machine Unit :=
  (Machine.start (Loader.new {} idlingResources)
    (.bootstrap "a:/" (some "./d/m.js") fun _ =>
      .require ["./x.js", "./y.js"] (fun _ => .finish .done) none
        (.turn fun _ => .finish .done))).run 5

theorem contexts_kept_drained :
    (lastMain.loader.view none).state = .resolving ∧
    unlinked lastMain.loader.journal = [⟨0, 1⟩] ∧
    ∃ t ctx events, lastMain.finishing? = some t ∧ t.key = "a:/d/m.js" ∧
      Context.ofUrl t.url = .ok ctx ∧ lastMain.step.loader.bootstrap.ambient = some ctx ∧
      lastMain.loader.Tells lastMain.step.loader ctx ⟨0, 1⟩ events := by
  have hreach : lastMain.Reachable := (Machine.reachable_start _ _ _).run 5
  obtain ⟨setUp, finished, htallied⟩ := hreach.tallied
  have hone : lastMain.loader.bootstrap.inFlight = 1 := by decide +kernel
  have hzero : lastMain.step.loader.bootstrap.inFlight = 0 := by decide +kernel
  have hdeferred : lastMain.loader.bootstrap.deferred = [⟨0, 1⟩] := by decide +kernel
  have hkey : lastMain.finishing?.map Target.key = some "a:/d/m.js" := by decide +kernel
  obtain ⟨_, _, hresolving, _, _, _, horder, _, hdrained⟩ := contexts_kept htallied none
  obtain ⟨t, ctx, _, told, ht, hctx, hambient, _, htold, _⟩ := hdrained (by omega) hzero
  rw [hdeferred] at horder htold
  rw [ht] at hkey
  refine ⟨hresolving.mpr (by omega), ?_, t, ctx, ?_⟩
  · rw [← List.reverse_reverse (unlinked _), ← horder]
    rfl
  · cases htold with
    | cons hevents _ => exact ⟨_, ht, Option.some.inj hkey, hctx, hambient, hevents⟩

end AsyncModule
