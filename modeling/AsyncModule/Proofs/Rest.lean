import AsyncModule.Proofs.Attendance
import AsyncModule.Proofs.Support
import AsyncModule.Proofs.Waiting
import Mathlib.Data.Set.Finite.Basic
import Mathlib.Order.WellFounded

/-!
# AsyncModule.Proofs.Rest

A loader never hangs. When no program runs but those that call from outside, no worklist is being
worked off and nothing is being fetched, then every module is settled; what is still pending has
been deferred, and nothing is once a context has been asked for.

* `settled_of_rest`  — every module is settled.
* `no_silent_hang`   — the whole statement, in terms of what programs can see.
-/

namespace AsyncModule

open Relation

variable {ν : Type}

namespace Task

/-- Whether a task is a program that calls from outside. -/
def IsOutside : Task ν → Prop
  | .body none _ .plain => True
  | .settling none _ .plain => True
  | _ => False

end Task

namespace Machine

/-- Whether nothing is under way: no unit, no callback and no work on the worklist. -/
def AtRest (m : Machine ν) : Prop :=
  m.loader.dispatching = false ∧ ∀ task ∈ m.stack, task.IsOutside

theorem AtRest.dutiesOf_eq_nil {m : Machine ν} (h : m.AtRest) : dutiesOf m.stack = [] := by
  rw [dutiesOf, List.flatMap_eq_nil_iff]
  intro task htask
  have hout := h.2 task htask
  unfold Task.IsOutside at hout
  split at hout
  · rfl
  · rfl
  · cases hout

variable {m : Machine ν}

theorem Reachable.attended (h : m.Reachable) : Attended m.loader (dutiesOf m.stack) :=
  maintained_attended.reachable (fun _ _ => ⟨trivial, rfl, fun hne => absurd rfl hne⟩) h

theorem Reachable.mains (h : m.Reachable) : Mains m.loader (dutiesOf m.stack) :=
  maintained_mains.reachable Mains.init h

theorem Reachable.backed (h : m.Reachable) : Backed m.loader (dutiesOf m.stack) := by
  refine (maintained_backed.reachable ?_ h).2
  intro config resources
  refine ⟨⟨Defining.init, Mains.init config resources⟩, ?_⟩
  intro url hurl
  cases hurl

theorem AtRest.worklist_eq_nil (hrest : m.AtRest) (h : m.Reachable) : m.loader.worklist = [] := by
  by_contra hne
  obtain ⟨d, hd, _⟩ := h.attended.work hne
  rw [hrest.dutiesOf_eq_nil] at hd
  cases hd

end Machine

theorem eq_empty_of_waiting {α : Type} {R : α → α → Prop} (hacyclic : ∀ x, ¬ TransGen R x x)
    {S : Set α} (hfin : S.Finite) (hnext : ∀ x ∈ S, ∃ y ∈ S, R x y) : S = ∅ := by
  by_contra hne
  obtain ⟨x, hx⟩ := Set.nonempty_iff_ne_empty.mpr hne
  have : Finite S := hfin
  let r : S → S → Prop := fun a b => TransGen R b.1 a.1
  have : IsTrans S r := ⟨fun a b c hab hbc => hbc.trans hab⟩
  have : Std.Irrefl r := ⟨fun a h => hacyclic a.1 h⟩
  obtain ⟨least, _, hleast⟩ :=
    (Finite.wellFounded_of_trans_of_irrefl r).has_min Set.univ ⟨⟨x, hx⟩, trivial⟩
  obtain ⟨y, hy, hxy⟩ := hnext least.1 least.2
  exact hleast ⟨y, hy⟩ trivial (.single hxy)

theorem Registry.finite_heard (g : Registry) : {url | g.state? url ≠ none}.Finite := by
  refine (List.finite_toSet (g.records.map (·.1))).subset ?_
  intro url hurl
  simp only [Set.mem_ofPred_eq, Registry.state?, Registry.get?, ne_eq,
    Option.map_eq_none_iff, List.lookup_eq_none_iff, not_forall] at hurl
  obtain ⟨p, hp, heq⟩ := hurl
  simp only [bne_iff_ne, ne_eq, not_not] at heq
  rw [Set.mem_ofPred_eq, heq]
  exact List.mem_map_of_mem hp

variable {m : Machine ν}

/-- The definition of a module that nobody else supports waits for another one that is loading. -/
theorem exists_waitsFor (h : m.Reachable) (hrest : m.AtRest)
    (hidle : m.loader.fetches.inFlight = []) {url : String}
    (hurl : m.loader.registry.state? url = some .loading) :
    ∃ y, m.loader.registry.state? y = some .loading ∧
      m.loader.registry.WaitsFor m.loader.requests url y := by
  have hnone := hrest.dutiesOf_eq_nil
  have hwork := hrest.worklist_eq_nil h
  have hl := h.allLinked
  cases h.backed url hurl with
  | fetch hf _ =>
    rw [Fetches.errands, hidle] at hf
    cases hf
  | duty hk =>
    rw [hnone] at hk
    cases hk
  | definition hd hr =>
    rename_i id r
    have hbound := h.wellDefining.bound hd hr
    have hne : r.slots ≠ [] := by
      intro he
      have hf := hl.fires hr he not_false
      rw [hwork] at hf
      cases hf
    obtain ⟨i, s, hs, hv⟩ := hl.waits hr hne
    cases hl.tracked hr hs hv not_false with
    | deferred hdef =>
      obtain ⟨r', hr', _, hnodef, _⟩ := hl.deferred hdef
      rw [hr] at hr'
      cases hr'
      rw [hbound] at hnodef
      cases hnodef
    | waiting hm hload _ =>
      exact ⟨_, hload, Registry.waitsFor_iff.mpr
        ⟨id, r, hd, hr, Request.mem_pendingModules.mpr ⟨i, s, hs, hv, hm⟩⟩⟩
    | due _ _ hf =>
      rw [hwork] at hf
      cases hf
    | failing hf =>
      rw [hwork] at hf
      cases hf

theorem settled_of_rest (h : m.Reachable) (hrest : m.AtRest)
    (hidle : m.loader.fetches.inFlight = []) {url : String} {s : ModuleState}
    (hs : m.loader.registry.state? url = some s) : s.isSettled = true := by
  have hempty : {url | m.loader.registry.state? url = some .loading} = ∅ := by
    refine eq_empty_of_waiting h.wellDefining.acyclic
      (m.loader.registry.finite_heard.subset ?_) fun x hx => exists_waitsFor h hrest hidle hx
    intro u hu
    rw [Set.mem_ofPred_eq] at hu ⊢
    rw [hu]
    simp
  cases s with
  | known => exact absurd hs (h.allLinked.asked url)
  | loading => exact absurd hs (Set.eq_empty_iff_forall_notMem.mp hempty url)
  | ready v => rfl
  | failed e => rfl

theorem mem_deferred_of_rest (h : m.Reachable) (hrest : m.AtRest)
    (hidle : m.loader.fetches.inFlight = []) {id : RequestId} {r : Request ν}
    (hr : m.loader.requests.get? id = some r) : id ∈ m.loader.bootstrap.deferred := by
  have hwork := hrest.worklist_eq_nil h
  have hl := h.allLinked
  have hne : r.slots ≠ [] := by
    intro he
    have hf := hl.fires hr he not_false
    rw [hwork] at hf
    cases hf
  obtain ⟨i, s, hs, hv⟩ := hl.waits hr hne
  cases hl.tracked hr hs hv not_false with
  | deferred hdef => exact hdef
  | waiting _ hload _ => cases settled_of_rest h hrest hidle hload
  | due _ _ hf =>
    rw [hwork] at hf
    cases hf
  | failing hf =>
    rw [hwork] at hf
    cases hf

theorem size_eq_deferred (h : m.Reachable) (hrest : m.AtRest)
    (hidle : m.loader.fetches.inFlight = []) :
    m.loader.requests.size = m.loader.bootstrap.deferred.length := by
  have hl := h.allLinked
  have hperm : (m.loader.requests.live.map (·.1)).Perm m.loader.bootstrap.deferred := by
    rw [List.perm_ext_iff_of_nodup (Requests.nodup_live _) hl.deferred_nodup]
    intro id
    constructor
    · intro hmem
      obtain ⟨⟨id', r⟩, hlive, rfl⟩ := List.mem_map.mp hmem
      exact mem_deferred_of_rest h hrest hidle (Requests.mem_live.mp hlive)
    · intro hmem
      obtain ⟨r, hr, _⟩ := hl.deferred hmem
      exact List.mem_map.mpr ⟨(id, r), Requests.mem_live.mpr hr, rfl⟩
  rw [Requests.size, ← hperm.length_eq, List.length_map]

/-- In every run: whenever nothing is under way and nothing in flight, every module is ready or
has failed, exactly the deferred requests are pending, and a loader for which a context has been
asked is established with no request left. -/
theorem no_silent_hang (h : m.Reachable) (hrest : m.AtRest)
    (hidle : (m.loader.view none).inFlight = 0) :
    (∀ url status, (m.loader.view none).status url = some status →
      status = .ready ∨ status = .failed) ∧
    (m.loader.view none).pendingRequests = (m.loader.view none).deferredRequests ∧
    ((m.loader.view none).state ≠ .uninitialized →
      (m.loader.view none).state = .established ∧ (m.loader.view none).pendingRequests = 0 ∧
        (m.loader.view none).deferredRequests = 0) := by
  have hidle : m.loader.fetches.inFlight = [] := List.eq_nil_of_length_eq_zero hidle
  have hsize := size_eq_deferred h hrest hidle
  have hmains := h.mains
  refine ⟨?_, hsize, ?_⟩
  · intro url status hstatus
    obtain ⟨s, hs, rfl⟩ := Option.map_eq_some_iff.mp hstatus
    have hsettled := settled_of_rest h hrest hidle hs
    cases s with
    | known => cases hsettled
    | loading => cases hsettled
    | ready v => exact .inl rfl
    | failed e => exact .inr rfl
  · intro hstate
    have hzero : m.loader.bootstrap.inFlight = 0 := by
      rw [hmains.counter, hrest.dutiesOf_eq_nil, Fetches.mains, Fetches.errands, hidle]
      rfl
    have hestablished : m.loader.bootstrap.state = .established := by
      cases hs : m.loader.bootstrap.state with
      | uninitialized => exact absurd hs hstate
      | resolving =>
        have hpos := hmains.resolving_iff.mp hs
        omega
      | established => rfl
    have hdeferred := (hmains.established hestablished).2
    refine ⟨hestablished, ?_, ?_⟩
    · show m.loader.requests.size = 0
      rw [hsize, hdeferred]
      rfl
    · show m.loader.bootstrap.deferred.length = 0
      rw [hdeferred]
      rfl

/-- Two modules that define themselves by one another. -/
def ringResources (t : Target) : Option (Fetched (Script Unit)) :=
  let other := if t.key = "a:/x.js" then "./y.js" else "./x.js"
  some (.code (.define [other] (fun _ => .finish .done) none (.finish .done)))

/-- A request of one of them, after all that has come of it. -/
def ringAtRest : Machine Unit :=
  (Machine.start (Loader.new {} ringResources)
    (.requireFrom "a:/" ["./x.js"] (fun _ => .finish .done) fun _ =>
      .settle fun _ => .finish .done)).run 60

theorem no_silent_hang_ring :
    (ringAtRest.loader.view none).moduleCount = 2 ∧
      (∀ url status, (ringAtRest.loader.view none).status url = some status →
        status = .ready ∨ status = .failed) ∧
      (ringAtRest.loader.view none).pendingRequests = 0 := by
  have hreach : ringAtRest.Reachable := (Machine.reachable_start _ _ _).run 60
  have hstack : ringAtRest.stack = [] := List.isEmpty_iff.mp (by decide +kernel)
  have hrest : ringAtRest.AtRest := by
    refine ⟨by decide +kernel, ?_⟩
    rw [hstack]
    intro task htask
    cases htask
  obtain ⟨hsettled, _, hnone⟩ := no_silent_hang hreach hrest (by decide +kernel)
  exact ⟨by decide +kernel, hsettled, (hnone (by decide +kernel)).2.1⟩

end AsyncModule
