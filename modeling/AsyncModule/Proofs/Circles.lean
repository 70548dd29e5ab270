import AsyncModule.Proofs.Ownership
import AsyncModule.Proofs.Rest

/-!
# AsyncModule.Proofs.Circles

Definitions that would wait for one another in a circle are rejected, and only those. In every run
the modules that wait for one another by their definitions form no circle. A definition is
rejected at a dependency exactly when linking it would close one, and the chain reported is this
circle, from the module over its dependency back to itself.

* `rejections_step`  — a step by which no unit defines its module rejects nothing.
* `define_rejects`   — a definition is rejected at a dependency exactly when linking it would
  close a circle.
* `circles_rejected` — the whole statement, for every moment of every run.
-/

namespace AsyncModule

open Relation

variable {ν : Type}

/-! ## Errors of resolving -/

namespace LoadError

def IsUnresolved : LoadError → Prop
  | unresolved _ _ => True
  | _ => False

end LoadError

namespace Url

theorem isUnresolved_of_joinFor {base : Url} {specifier reference : String} {e : LoadError}
    (h : base.joinFor specifier reference = .error e) : e.IsUnresolved := by
  unfold joinFor at h
  split at h
  · cases h
  · cases h
    trivial

theorem isUnresolved_of_parseFor {specifier text : String} {e : LoadError}
    (h : parseFor specifier text = .error e) : e.IsUnresolved := by
  unfold parseFor at h
  split at h
  · cases h
  · cases h
    trivial

end Url

theorem Context.isUnresolved_of_ofUrl {u : Url} {e : LoadError} (h : ofUrl u = .error e) :
    e.IsUnresolved := by
  unfold ofUrl at h
  simp only [bind, Except.bind, pure, Except.pure] at h
  split at h
  · rename_i hdirectory
    cases h
    exact Url.isUnresolved_of_joinFor hdirectory
  · split at h
    · rename_i hroot
      cases h
      exact Url.isUnresolved_of_joinFor hroot
    · cases h

namespace Resolver

variable {ρ : Resolver} {specifier : String} {ctx : Context} {e : LoadError}

theorem isUnresolved_of_absolute (h : ρ.absolute specifier ctx = .error e) : e.IsUnresolved := by
  unfold absolute at h
  split at h
  · exact Url.isUnresolved_of_parseFor h
  · split at h
    · exact Url.isUnresolved_of_joinFor h
    · exact Url.isUnresolved_of_joinFor h
    · split at h
      · exact Url.isUnresolved_of_joinFor h
      · cases h
        trivial

theorem isUnresolved_of_resolve (h : ρ.resolve specifier ctx = .error e) : e.IsUnresolved := by
  unfold resolve at h
  simp only [bind, Except.bind, pure, Except.pure, throw, throwThe, MonadExceptOf.throw] at h
  split at h
  · cases h
    trivial
  · split at h
    · rename_i habsolute
      cases h
      exact isUnresolved_of_absolute habsolute
    · split at h
      · cases h
        trivial
      · split at h
        · rename_i hdirectory
          cases h
          exact Url.isUnresolved_of_joinFor hdirectory
        · cases h

end Resolver

/-! ## What rejects nothing -/

namespace Step

/-- The request that a step fails because of a circle, with the chain that is reported. -/
def rejection? : Step → Option (RequestId × List String)
  | fail id (.cycle chain) => some (id, chain)
  | _ => none

theorem rejection?_of_isUnresolved {id : RequestId} {e : LoadError} (h : e.IsUnresolved) :
    (fail id e).rejection? = none := by
  cases e with
  | unresolved specifier reason => rfl
  | _ => exact h.elim

end Step

namespace Loader

variable {l l₀ : Loader ν} {id : RequestId} {ctx : Context}

/-- The requests that are about to fail because of circles. -/
def rejections (l : Loader ν) : List (RequestId × List String) :=
  l.worklist.filterMap Step.rejection?

theorem rejections_enqueue (l : Loader ν) (s : Step) :
    (l.enqueue s).rejections = l.rejections ++ s.rejection?.toList := by
  cases h : s.rejection? with
  | none => simp [rejections, enqueue, h]
  | some x => simp [rejections, enqueue, h]

theorem rejections_enqueue_of_eq_none {s : Step} (h : s.rejection? = none) :
    (l.enqueue s).rejections = l.rejections := by
  rw [rejections_enqueue, h]
  simp

theorem rejections_attach (l : Loader ν) (id : RequestId) (i : Nat) (t : Target) :
    (l.attach id i t).rejections = l.rejections := by
  have hend : ∀ {s : Step}, s.rejection? = none →
      (l.worklist ++ [s]).filterMap Step.rejection? = l.rejections := by
    intro s hs
    simp [rejections, hs]
  unfold rejections
  rcases l.registry.open_or_settled t.key with ho | ⟨v, hv⟩ | ⟨e, he⟩
  · rw [(attach_open id i ho).1]
  · rw [(attach_ready id i hv).2]
    exact hend rfl
  · rw [(attach_failed id i he).2]
    exact hend rfl

/-- Whatever defines no module is rejected for no circle. -/
theorem rejections_linkSlots (ctx : Context) (id : RequestId) (slots : List (String × Nat))
    (l : Loader ν) : (linkSlots ctx id none slots l).rejections = l.rejections := by
  have hattach : ∀ {l' : Loader ν} i t, l'.rejections = l.rejections →
      (l'.attach id i t).rejections = l.rejections :=
    fun i t h => (rejections_attach _ id i t).trans h
  rcases @linkSlots_cases _ ctx id none (fun _ l' => l'.rejections = l.rejections)
    (fun hq _ _ => hattach _ _ hq) slots l rfl with hdone | ⟨_, _, _, l', e, hq, hstop, heq⟩
  · exact hdone
  · rw [heq]
    cases hstop with
    | unresolved he =>
      have hstep : (Step.fail id e).rejection? = none :=
        Step.rejection?_of_isUnresolved (Resolver.isUnresolved_of_resolve he)
      exact (rejections_enqueue_of_eq_none hstep).trans hq
    | cycle _ hd _ => cases hd

theorem rejections_link (h : ∀ {r}, l.requests.get? id = some r → r.definitionUrl = none)
    (ctx : Context) : (l.link id ctx).rejections = l.rejections := by
  unfold link
  split
  · rfl
  · rename_i r hr
    rw [h hr]
    exact rejections_linkSlots ctx id _ _

theorem rejections_linkAll (ctx : Context) (ids : List RequestId) :
    ∀ {l : Loader ν}, ids.Nodup →
      (∀ id ∈ ids, ∀ {r}, l.requests.get? id = some r → r.definitionUrl = none) →
      (ids.foldl (fun l id => l.link id ctx) l).rejections = l.rejections := by
  induction ids with
  | nil => exact fun _ _ => rfl
  | cons id rest ih =>
    intro l hnodup hall
    obtain ⟨hnot, hnodup⟩ := List.nodup_cons.mp hnodup
    rw [List.foldl_cons, ih hnodup ?_, rejections_link (hall id List.mem_cons_self)]
    intro id' hid' r hr
    have hne : id' ≠ id := fun heq => hnot (heq ▸ hid')
    rw [get?_link_of_ne hne] at hr
    exact hall id' (List.mem_cons_of_mem _ hid') hr

/-- What is deferred defines no module. -/
theorem rejections_afterEstablishing (h : l.AllLinked) {change : Bool × Bootstrap}
    (hd : change.2.deferred = l.bootstrap.deferred) :
    (l.afterEstablishing change).2.rejections = l.rejections := by
  unfold afterEstablishing
  dsimp only
  split
  · unfold drainDeferred
    split
    · rfl
    · dsimp only
      rw [hd]
      refine rejections_linkAll _ _ h.deferred_nodup ?_
      intro id hid r hr
      obtain ⟨r', hr', _, hnone, _⟩ := h.deferred hid
      have hr : l.requests.get? id = some r := hr
      rw [hr'] at hr
      cases hr
      exact hnone
  · rfl

theorem rejections_finishMain (h : l.AllLinked) (t : Target) :
    (l.finishMain t).rejections = l.rejections := by
  unfold finishMain
  dsimp only
  split
  · exact rejections_afterEstablishing h (Bootstrap.deferred_finishEstablishing _ _)
  · rfl

theorem rejections_submit (frame : Option Frame) (dependencies : List String)
    (callback : List ModuleValue → Script ν) (errback : Option (LoadError → Script ν)) :
    (l.submit frame dependencies callback errback none).rejections = l.rejections := by
  have hself := get?_enter_self l (.ofCall dependencies callback errback (l.context? frame) none)
  unfold submit
  dsimp only
  unfold begin
  split
  · exact rejections_enqueue_of_eq_none rfl
  · split
    · refine rejections_link ?_ _
      intro r hr
      rw [hself] at hr
      cases hr
      rfl
    · rfl

theorem rejections_append_map {α : Type} (f : α → Step) (hf : ∀ x, (f x).rejection? = none)
    (xs : List α) :
    (l.worklist ++ xs.map f).filterMap Step.rejection? = l.rejections := by
  simp [rejections, List.filterMap_map, hf]

/-- Working off a step takes at most its own rejection away. -/
theorem rejections_rest {s : Step} {rest : List Step} (hw : l.worklist = s :: rest)
    (h : l.rejections ⊆ l₀.rejections) : rest.filterMap Step.rejection? ⊆ l₀.rejections := by
  refine List.Subset.trans ?_ h
  rw [rejections, hw]
  exact ((List.sublist_cons_self s rest).filterMap _).subset

end Loader

open Loader in
/-- Nothing is rejected for a circle unless requests are made. -/
theorem keptByWork_rejections (l₀ : Loader ν) :
    KeptByWork fun (l : Loader ν) _ => l.AllLinked ∧ l.rejections ⊆ l₀.rejections where
  aside h _ := h
  make _ h := h
  fetches h _ := h
  arrive h _ := h
  enter _ h _ := h
  unwatch h := h
  setDefaultBase _ h := h
  establish ctx h := by
    refine ⟨AllLinked.afterEstablishing h.1 (Bootstrap.deferred_establish _ ctx), ?_⟩
    rw [rejections_afterEstablishing h.1 (Bootstrap.deferred_establish _ ctx)]
    exact h.2
  beginMain _ _ h _ := h
  finishMain t h := by
    refine ⟨AllLinked.finishMain h.1 t, ?_⟩
    rw [rejections_finishMain h.1]
    exact h.2
  ready v h := by
    refine ⟨h.1.readyModule _ v, ?_⟩
    rw [readyModule, rejections, rejections_append_map _ fun _ => rfl]
    exact h.2
  abandon e h _ _ := by
    refine ⟨h.1.abandonModule _ e, ?_⟩
    rw [abandonModule, rejections, rejections_append_map _ fun _ => rfl]
    exact h.2
  abandonDefinition e h hm hd hr := by
    refine ⟨maintained_linked.abandonDefinition (k := []) e h.1 hm hd hr, ?_⟩
    rw [abandonModule, rejections, record, withdraw, rejections_append_map _ fun _ => rfl]
    exact h.2
  finish h _ := h
  fault h _ := h
  handle h _ := h
  dispatch h _ := h
  redispatch h _ := h
  drained h _ := h
  dead h hw hr := ⟨maintained_linked.dead (k := []) h.1 hw hr, rejections_rest hw h.2⟩
  fill h hw hr hs := ⟨maintained_linked.fill (k := []) h.1 hw hr hs, rejections_rest hw h.2⟩
  fillFire h hw hr hs := ⟨maintained_linked.fillFire (k := []) h.1 hw hr hs, rejections_rest hw h.2⟩
  fire h hw hr := ⟨maintained_linked.fire (k := []) h.1 hw hr, rejections_rest hw h.2⟩
  fail h hw hr := ⟨maintained_linked.fail (k := []) h.1 hw hr, rejections_rest hw h.2⟩

/-- The module that a unit is about to define, with the unit's context and the dependencies of the
definition. -/
def Task.defining? : Task ν → Option (String × Context × List String)
  | .body (some (.unit url ctx true false)) (.define dependencies _ _ _) _ =>
    some (url, ctx, dependencies)
  | _ => none

def Machine.defining? (m : Machine ν) : Option (String × Context × List String) :=
  m.stack.head?.bind Task.defining?

/-- A step by which no unit defines its module rejects nothing. -/
theorem rejections_step {m : Machine ν} (h : m.Reachable) (hnone : m.defining? = none) :
    m.step.loader.rejections ⊆ m.loader.rejections := by
  have hlinked := h.allLinked
  have hfits := h.fits
  obtain ⟨l, stack⟩ := m
  cases stack with
  | nil => exact List.Subset.refl _
  | cons task rest =>
    have hnone : task.defining? = none := hnone
    show (Machine.advance l task).1.rejections ⊆ l.rejections
    cases hs : task.submits with
    | false =>
      exact ((keptByWork_rejections l).advance (k := []) ⟨hlinked, List.Subset.refl _⟩
        (hfits task List.mem_cons_self) hs).1.2
    | true =>
      cases task with
      | body frame script ending =>
        cases script with
        | require dependencies callback errback next =>
          simp only [Machine.advance, Machine.perform]
          rw [Loader.rejections_submit]
          exact List.Subset.refl _
        | define dependencies factory errback next =>
          simp only [Machine.advance, Machine.perform]
          unfold Loader.bindDefinition
          split
          · cases hnone
          · rw [Loader.rejections_submit]
            exact List.Subset.refl _
          · rw [Loader.rejections_submit]
            exact List.Subset.refl _
        | _ => cases hs
      | settling => cases hs
      | dispatch => cases hs
      | draining => cases hs

/-! ## Linking a definition -/

/-- All the dependencies before one that there is are linked. -/
theorem Request.LinkedUpTo.slot_of_lt {r : Request ν} {resolver : Resolver} {ctx : Context}
    {n : Nat} (h : r.LinkedUpTo resolver ctx n) {specifier : String}
    (hn : r.dependencies[n]? = some specifier) (j : Nat) (hj : j < n) :
    ∃ s url, r.slot? j = some s ∧ s.module = some url := by
  rw [Request.dependencies, List.getElem?_map] at hn
  obtain ⟨s, hs, _⟩ := Option.map_eq_some_iff.mp hn
  obtain ⟨hlength, _⟩ := List.getElem?_eq_some_iff.mp hs
  have hslot : r.slot? j = some r.slots[j] := List.getElem?_eq_getElem (by omega)
  obtain ⟨t, _, hm⟩ := h.linked hslot hj
  exact ⟨_, _, hslot, hm⟩

theorem Request.linkedUpTo_ofCall (dependencies : List String)
    (callback : List ModuleValue → Script ν) (errback : Option (LoadError → Script ν))
    (context : Option Context) (definitionUrl : Option String) (resolver : Resolver)
    (ctx : Context) :
    (ofCall dependencies callback errback context definitionUrl).LinkedUpTo resolver ctx 0 := by
  have hun := Loader.unlinked_ofCall dependencies callback errback context definitionUrl
  exact ⟨fun _ hj => absurd hj (Nat.not_lt_zero _),
    fun hs _ => (hun _ (mem_slots.mpr ⟨_, hs⟩)).1, fun hs => (hun _ (mem_slots.mpr ⟨_, hs⟩)).2⟩

namespace Loader

/-- A request that is to define the module `url` is live, and linked up to its `n`-th dependency;
nothing has been rejected since the loader was `l₀`. -/
structure Joining (l₀ : Loader ν) (ctx : Context) (id : RequestId) (url : String)
    (dependencies : List String) (n : Nat) (l : Loader ν) : Prop where
  resolver : l.resolver = l₀.resolver
  rejections : l.rejections = l₀.rejections
  defining : l.WellDefining
  bound : l.registry.definition? url = some id
  live : ∃ r, l.requests.get? id = some r ∧ r.definitionUrl = some url ∧
    r.dependencies = dependencies ∧ r.LinkedUpTo l₀.resolver ctx n

variable {l l₀ : Loader ν} {ctx : Context} {id : RequestId} {url : String}
  {dependencies : List String} {n : Nat}

theorem Joining.attach (h : Joining l₀ ctx id url dependencies n l) {specifier : String}
    {t : Target} (hn : dependencies[n]? = some specifier)
    (ht : l.resolver.resolve specifier ctx = .ok t)
    (hfree : l.registry.findCycle l.requests url t.key = none) :
    Joining l₀ ctx id url dependencies (n + 1) (l.attach id n t) := by
  obtain ⟨r, hr, hd, rfl, hlinked⟩ := h.live
  rw [Request.dependencies, List.getElem?_map] at hn
  obtain ⟨s, hs, rfl⟩ := Option.map_eq_some_iff.mp hn
  refine ⟨?_, ?_, ?_, ?_, r.link n t.key, ?_, ?_, ?_, ?_⟩
  · rw [resolver_attach, h.resolver]
  · rw [rejections_attach, h.rejections]
  · refine Defining.attach h.defining n t hr ?_
    intro definer hdefiner
    rw [hd] at hdefiner
    cases hdefiner
    exact hfree
  · rw [definition?_attach, h.bound]
  · rw [requests_attach]
    exact Requests.get?_modify_self _ hr
  · rw [Request.definitionUrl_link, hd]
  · exact Request.dependencies_link r n t.key
  · rw [h.resolver] at ht
    exact hlinked.link hs ht

/-- A definition is made; nothing is linked yet. -/
theorem Joining.enter (hdefining : l.WellDefining) {rec : Record}
    (hrec : l.registry.get? url = some rec) (ctx : Context) (dependencies : List String)
    (factory : List ModuleValue → Script ν) (errback : Option (LoadError → Script ν))
    {r : Request ν} (hr : r = .ofCall dependencies factory errback (some ctx) (some url)) :
    Joining l ctx (l.enter r).1 url dependencies 0 (l.enter r).2 := by
  subst hr
  refine ⟨rfl, rfl, Defining.enter hdefining (unlinked_ofCall _ _ _ _ _), ?_, _,
    get?_enter_self l _, rfl, ?_, Request.linkedUpTo_ofCall _ _ _ _ _ _ _⟩
  · rw [Owned.registry_enter_some rfl, Registry.definition?_setDefinition, if_pos rfl, hrec]
    rfl
  · simp [Request.ofCall, Request.dependencies, Slot.ofSpecifier, Function.comp_def]

theorem Joining.record_linked (h : Joining l₀ ctx id url dependencies 0 l) :
    Joining l₀ ctx id url dependencies 0 (record { l with
      requests := l.requests.modify id fun r => { r with context := some ctx } }
      (.linked id l.resolver ctx)) := by
  obtain ⟨r, hr, hd, hdependencies, hlinked⟩ := h.live
  exact ⟨h.resolver, h.rejections,
    Defining.modify h.defining id (fun _ => rfl) fun _ => List.Subset.refl _,
    h.bound, _, Requests.get?_modify_self _ hr, hd, hdependencies,
    hlinked.linked, hlinked.unlinked, hlinked.empty⟩

/-- The slots are linked one after the other, until linking stops at one. -/
theorem Joining.linkSlots (h : Joining l₀ ctx id url dependencies 0 l) :
    ∃ n l', Joining l₀ ctx id url dependencies n l' ∧
      (dependencies[n]? = none ∧
          l.linkSlots ctx id (some url) dependencies.zipIdx = l' ∨
        ∃ specifier e, dependencies[n]? = some specifier ∧ Stop l' ctx (some url) specifier e ∧
          l.linkSlots ctx id (some url) dependencies.zipIdx = l'.enqueue (.fail id e)) := by
  refine linkSlots_upTo (R := Joining l₀ ctx id url dependencies) ?_ h
  exact fun hleft hspecifier ht hfree => hleft.attach hspecifier ht (hfree url rfl)

/-- A definition is linked to its dependencies until all are linked or linking stops at one. -/
theorem submit_definition (hdefining : l.WellDefining) {rec : Record}
    (hrec : l.registry.get? url = some rec) (ctx : Context) (dependencies : List String)
    (defined : Bool)
    (factory : List ModuleValue → Script ν) (errback : Option (LoadError → Script ν)) :
    ∃ id n l', ¬ l.requests.Issued id ∧ Joining l ctx id url dependencies n l' ∧
      (dependencies[n]? = none ∧
          l.submit (some (.unit url ctx true defined)) dependencies factory errback (some url) =
            l' ∨
        ∃ specifier e, dependencies[n]? = some specifier ∧ Stop l' ctx (some url) specifier e ∧
          l.submit (some (.unit url ctx true defined)) dependencies factory errback (some url) =
            l'.enqueue (.fail id e)) := by
  have hctx : l.context? (some (.unit url ctx true defined)) = some ctx := rfl
  unfold submit
  rw [hctx]
  dsimp only
  generalize hr : Request.ofCall dependencies factory errback (some ctx) (some url) = r
  have hd : r.definitionUrl = some url := by rw [← hr]; rfl
  have hcontext : r.context = some ctx := by rw [← hr]; rfl
  have hself := get?_enter_self l r
  have hjoining := Joining.enter hdefining hrec ctx dependencies factory errback hr.symm
  obtain ⟨r', hr', _, hdependencies, _⟩ := hjoining.live
  rw [hself] at hr'
  cases hr'
  have hnew := not_issued_enter l r
  generalize l.enter r = entered at *
  obtain ⟨id, l₁⟩ := entered
  dsimp only at hjoining hnew hself ⊢
  unfold begin
  split
  · rename_i he
    have hempty : dependencies = [] := by
      rw [← hdependencies, Request.dependencies, List.isEmpty_iff.mp he]
      rfl
    refine ⟨id, 0, _, hnew, ?_, .inl ⟨by rw [hempty]; rfl, rfl⟩⟩
    exact ⟨hjoining.resolver, (rejections_enqueue_of_eq_none rfl).trans hjoining.rejections,
      hjoining.defining, hjoining.bound, hjoining.live⟩
  · simp only [hcontext, link, hself, hd, hdependencies]
    obtain ⟨n, l', hleft, hend⟩ := hjoining.record_linked.linkSlots
    exact ⟨id, n, l', hnew, hleft, hend⟩

/-! ## Where linking stops -/

/-- A request is live and to define the module `url`. -/
structure Defines (l : Loader ν) (url : String) (id : RequestId) (r : Request ν) : Prop where
  bound : l.registry.definition? url = some id
  live : l.requests.get? id = some r
  definitionUrl : r.definitionUrl = some url

/-- Linking has come to the `i`-th dependency of a request, which names the module of `t`. -/
structure Offered (l : Loader ν) (ctx : Context) (r : Request ν) (i : Nat) (t : Target) :
    Prop where
  named : ∃ specifier, r.dependencies[i]? = some specifier ∧
    l.resolver.resolve specifier ctx = .ok t
  before : ∀ j < i, ∃ s url, r.slot? j = some s ∧ s.module = some url

/-- The `i`-th dependency is not linked, and the definition of `url` is about to fail because of
the circle that goes over it. -/
structure RejectedAt (l : Loader ν) (url : String) (id : RequestId) (r : Request ν) (i : Nat)
    (t : Target) (chain : List String) : Prop where
  unlinked : ∃ s, r.slot? i = some s ∧ s.module = none
  failing : (id, chain) ∈ l.rejections
  circle : Registry.IsCycle l.registry l.requests url t.key chain

/-- Linking a slot of a request to the module of a target makes definitions wait for one another in
a circle. -/
def Closes (l : Loader ν) (id : RequestId) (i : Nat) (t : Target) : Prop :=
  ∃ url, TransGen ((l.attach id i t).registry.WaitsFor (l.attach id i t).requests) url url

variable {r : Request ν} {i : Nat} {t : Target}

theorem Closes.reachable (hdefining : l.WellDefining) (hd : l.Defines url id r)
    (h : l.Closes id i t) : ReflTransGen (l.registry.WaitsFor l.requests) t.key url := by
  by_contra hback
  obtain ⟨x, hx⟩ := h
  refine acyclic_of_new_edge (a := url) (b := t.key) ?_ hdefining.acyclic hback x hx
  intro x y hxy
  rcases hdefining.waitsFor_of_attach hd.live hxy with hold | ⟨hurl, hy⟩
  · exact .inl hold
  · rw [hd.definitionUrl] at hurl
    cases hurl
    exact .inr ⟨rfl, hy⟩

/-- Linking a slot that is not linked adds an edge and takes none away. -/
theorem closes_of_reachable (hd : l.Defines url id r) {s : Slot} (hs : r.slot? i = some s)
    (hm : s.module = none) (hv : s.value = none)
    (h : ReflTransGen (l.registry.WaitsFor l.requests) t.key url) : l.Closes id i t := by
  have hget := Requests.get?_modify_self (·.link i t.key) hd.live
  rw [← requests_attach] at hget
  have hedge : (l.attach id i t).registry.WaitsFor (l.attach id i t).requests url t.key := by
    refine Registry.waitsFor_iff.mpr ⟨id, _, by rw [definition?_attach, hd.bound], hget,
      Request.mem_pendingModules.mpr ⟨i, { s with module := some t.key }, ?_, hv, rfl⟩⟩
    rw [Request.slot?_link, hs, Option.map_some, if_pos rfl]
  have hold : ∀ {x y}, l.registry.WaitsFor l.requests x y →
      (l.attach id i t).registry.WaitsFor (l.attach id i t).requests x y := by
    intro x y hxy
    obtain ⟨id', r', hid', hr', hy⟩ := Registry.waitsFor_iff.mp hxy
    rw [← definition?_attach l id i t] at hid'
    by_cases hid : id' = id
    · subst hid
      rw [hd.live] at hr'
      cases hr'
      obtain ⟨j, s', hs', hv', hm'⟩ := Request.mem_pendingModules.mp hy
      have hj : j ≠ i := by
        rintro rfl
        rw [hs] at hs'
        cases hs'
        rw [hm] at hm'
        cases hm'
      refine Registry.waitsFor_iff.mpr ⟨id', _, hid', hget,
        Request.mem_pendingModules.mpr ⟨j, s', ?_, hv', hm'⟩⟩
      rw [Request.slot?_link, hs', Option.map_some, if_neg hj]
    · refine Registry.waitsFor_iff.mpr ⟨id', r', hid', ?_, hy⟩
      rw [requests_attach, Requests.get?_modify_of_ne _ hid, hr']
  exact ⟨url, TransGen.head' hedge (ReflTransGen.mono (fun _ _ hxy => hold hxy) _ _ h)⟩

theorem Offered.le (h : l.Offered ctx r i t) (hup : r.LinkedUpTo l.resolver ctx n) : i ≤ n := by
  by_contra hlt
  obtain ⟨s, u, hs, hm⟩ := h.before n (by omega)
  rw [hup.unlinked hs (Nat.le_refl n)] at hm
  cases hm

theorem Offered.slot (h : l.Offered ctx r i t) :
    ∃ s, r.slot? i = some s ∧ l.resolver.resolve s.specifier ctx = .ok t := by
  obtain ⟨specifier, hspecifier, ht⟩ := h.named
  rw [Request.dependencies, List.getElem?_map] at hspecifier
  obtain ⟨s, hs, rfl⟩ := Option.map_eq_some_iff.mp hspecifier
  exact ⟨s, hs, ht⟩

/-- A dependency that has been linked was not rejected, and closes no circle. -/
theorem Offered.rejectedAt_iff_of_lt (h : l.Offered ctx r i t)
    (hup : r.LinkedUpTo l.resolver ctx n) (hi : i < n) (hdefining : l.WellDefining)
    (hd : l.Defines url id r) :
    (∃ chain, l.RejectedAt url id r i t chain) ↔ l.Closes id i t := by
  obtain ⟨s, hs, ht⟩ := h.slot
  obtain ⟨t', ht', hm⟩ := hup.linked hs hi
  rw [ht] at ht'
  cases ht'
  constructor
  · rintro ⟨chain, hrejected⟩
    obtain ⟨s', hs', hnone⟩ := hrejected.unlinked
    rw [hs] at hs'
    cases hs'
    rw [hm] at hnone
    cases hnone
  · intro hcloses
    have hedge : l.registry.WaitsFor l.requests url t.key :=
      Registry.waitsFor_iff.mpr ⟨id, r, hd.bound, hd.live,
        Request.mem_pendingModules.mpr ⟨i, s, hs, hup.empty hs, hm⟩⟩
    exact absurd (TransGen.head' hedge (hcloses.reachable hdefining hd)) (hdefining.acyclic url)

theorem Offered.unique (h : l.Offered ctx r i t) {t' : Target} (h' : l.Offered ctx r i t') :
    t' = t := by
  obtain ⟨s, hs, ht⟩ := h.slot
  obtain ⟨s', hs', ht'⟩ := h'.slot
  rw [hs] at hs'
  cases hs'
  rw [ht] at ht'
  cases ht'
  rfl

/-- What one loader has rejected more than another are dependencies of one definition, and exactly
those that would close a circle. -/
def RejectsCircles (l l' : Loader ν) (ctx : Context) (url : String) (id : RequestId)
    (r : Request ν) : Prop :=
  (∀ id' chain, (id', chain) ∈ l'.rejections → (id', chain) ∉ l.rejections →
    id' = id ∧ ∃ i t, l'.Offered ctx r i t ∧ l'.RejectedAt url id r i t chain) ∧
  ∀ i t, l'.Offered ctx r i t →
    ((∃ chain, l'.RejectedAt url id r i t chain) ↔ l'.Closes id i t)

section

variable {l' : Loader ν} (hdefining : l'.WellDefining) (hd : l'.Defines url id r)
  (hup : r.LinkedUpTo l'.resolver ctx n)

include hdefining hd hup

/-- Linking has not stopped for a circle. -/
theorem rejectsCircles_of_none (hsame : l'.rejections = l.rejections)
    (hend : ∀ t, ¬ l'.Offered ctx r n t) : l.RejectsCircles l' ctx url id r := by
  refine ⟨fun id' chain hmem hnot => absurd (hsame ▸ hmem) hnot, ?_⟩
  intro i t ho
  have hne : i ≠ n := by
    rintro rfl
    exact hend t ho
  exact ho.rejectedAt_iff_of_lt hup (Nat.lt_of_le_of_ne (ho.le hup) hne) hdefining hd

/-- Linking has stopped for a circle. -/
theorem rejectsCircles_of_one {chain : List String} {t : Target}
    (hnew : l'.rejections = l.rejections ++ [(id, chain)]) (ho : l'.Offered ctx r n t)
    (hrejected : l'.RejectedAt url id r n t chain) : l.RejectsCircles l' ctx url id r := by
  refine ⟨?_, ?_⟩
  · intro id' chain' hmem hnot
    rw [hnew] at hmem
    have heq := (List.mem_append.mp hmem).resolve_left hnot
    rw [List.mem_singleton, Prod.mk.injEq] at heq
    obtain ⟨rfl, rfl⟩ := heq
    exact ⟨rfl, n, t, ho, hrejected⟩
  · intro i t' ho'
    rcases Nat.lt_or_eq_of_le (ho'.le hup) with hlt | rfl
    · exact ho'.rejectedAt_iff_of_lt hup hlt hdefining hd
    · obtain rfl := ho.unique ho'
      obtain ⟨s, hs, _⟩ := ho.slot
      refine ⟨fun _ => ?_, fun _ => ⟨chain, hrejected⟩⟩
      exact closes_of_reachable hd hs (hup.unlinked hs (Nat.le_refl _)) (hup.empty hs)
        hrejected.circle.reachable

end

/-- A definition is rejected at a dependency exactly when linking it would close a circle. -/
theorem define_rejects (hdefining : l.WellDefining) {rec : Record}
    (hrec : l.registry.get? url = some rec) (dependencies : List String) (defined : Bool)
    (factory : List ModuleValue → Script ν) (errback : Option (LoadError → Script ν))
    {l' : Loader ν} (hl' : l.submit (some (.unit url ctx true defined)) dependencies factory
      errback (some url) = l') :
    ∃ id r, l.requests.get? id = none ∧ l'.Defines url id r ∧ r.dependencies = dependencies ∧
      l.RejectsCircles l' ctx url id r := by
  obtain ⟨id, n, l₁, hissued, hjoining, hend⟩ :=
    submit_definition hdefining hrec ctx dependencies defined factory errback
  rw [hl'] at hend
  obtain ⟨r, hr, hd, hdependencies, hup⟩ := hjoining.live
  -- neither the worklist nor the journal matters for where linking stands
  have hsame : l'.registry = l₁.registry ∧ l'.requests = l₁.requests ∧
      l'.resolver = l₁.resolver := by
    rcases hend with ⟨_, rfl⟩ | ⟨_, _, _, _, rfl⟩
    · exact ⟨rfl, rfl, rfl⟩
    · exact ⟨rfl, rfl, rfl⟩
  obtain ⟨hg, hrs, hresolver⟩ := hsame
  have hdefining' : l'.WellDefining := by
    rw [WellDefining, hg, hrs]
    exact hjoining.defining
  have hd' : l'.Defines url id r := ⟨by rw [hg, hjoining.bound], by rw [hrs, hr], hd⟩
  have hup' : r.LinkedUpTo l'.resolver ctx n := by
    rw [hresolver, hjoining.resolver]
    exact hup
  have hnone : l.requests.get? id = none := by
    by_contra hsome
    obtain ⟨r', hr'⟩ := Option.ne_none_iff_exists'.mp hsome
    exact hissued (Requests.issued_of_get? hr')
  refine ⟨id, r, hnone, hd', hdependencies, ?_⟩
  rcases hend with ⟨hlength, rfl⟩ | ⟨specifier, e, hspecifier, hstop, rfl⟩
  · refine rejectsCircles_of_none hdefining' hd' hup' hjoining.rejections ?_
    intro t ho
    obtain ⟨specifier, hspecifier, _⟩ := ho.named
    rw [hdependencies, hlength] at hspecifier
    cases hspecifier
  · cases hstop with
    | unresolved he =>
      refine rejectsCircles_of_none hdefining' hd' hup' ?_ ?_
      · rw [rejections_enqueue_of_eq_none
          (Step.rejection?_of_isUnresolved (Resolver.isUnresolved_of_resolve he))]
        exact hjoining.rejections
      · intro t ho
        obtain ⟨specifier', hspecifier', ht⟩ := ho.named
        rw [hdependencies, hspecifier] at hspecifier'
        cases hspecifier'
        rw [hresolver, he] at ht
        cases ht
    | cycle ht hdefiner hc =>
      rename_i t definer chain
      cases hdefiner
      have hrejections : (l₁.enqueue (.fail id (.cycle chain))).rejections =
          l.rejections ++ [(id, chain)] := by
        rw [rejections_enqueue, hjoining.rejections]
        rfl
      have hspecifier' : r.dependencies[n]? = some specifier := by rw [hdependencies, hspecifier]
      have ho : (l₁.enqueue (.fail id (.cycle chain))).Offered ctx r n t :=
        ⟨⟨specifier, hspecifier', ht⟩, hup.slot_of_lt hspecifier'⟩
      obtain ⟨s, hs, _⟩ := ho.slot
      refine rejectsCircles_of_one hdefining' hd' hup' hrejections ho ⟨?_, ?_, ?_⟩
      · exact ⟨s, hs, hup.unlinked hs (Nat.le_refl n)⟩
      · rw [hrejections]
        exact List.mem_append_right _ (List.mem_singleton.mpr rfl)
      · exact Registry.isCycle_of_findCycle hc

end Loader

variable {m : Machine ν}

/-- A unit defines its module: what is rejected by this step are dependencies of the definition, and
exactly those that would close a circle. -/
theorem step_rejects (h : m.Reachable) {url : String} {ctx : Context}
    {dependencies : List String} (hdefining : m.defining? = some (url, ctx, dependencies)) :
    ∃ id r, m.loader.requests.get? id = none ∧ m.step.loader.Defines url id r ∧
      r.dependencies = dependencies ∧ m.loader.RejectsCircles m.step.loader ctx url id r := by
  have hacyclic := h.wellDefining
  have howned := h.owned
  have hfits := h.fits
  obtain ⟨l, stack⟩ := m
  obtain ⟨task, hhead, htask⟩ := Option.bind_eq_some_iff.mp hdefining
  obtain ⟨rest, rfl⟩ := List.head?_eq_some_iff.mp hhead
  unfold Task.defining? at htask
  split at htask
  · rename_i factory errback next ending
    cases htask
    obtain ⟨target, rfl, rfl⟩ := (hfits _ List.mem_cons_self).unit_of_binds url ctx false rfl
    -- the unit has its module in hand, so there is a record of it
    have howned : Owned l (.settle target.key :: dutiesOf rest) := howned
    obtain ⟨rec, hrec, _⟩ := Option.map_eq_some_iff.mp howned.settling.1
    exact Loader.define_rejects hacyclic hrec dependencies false factory errback rfl
  · cases htask

/-- Definitions wait for one another in no circle, at any moment of any run. Whatever a step rejects
because of a circle is a dependency of the definition that a unit makes by this step, and the chain
that is reported goes from the unit's module over the dependency back along modules that wait for
one another. Each dependency that linking comes to is so rejected exactly when linking it would
close a circle. -/
theorem circles_rejected (h : m.Reachable) :
    (∀ url, ¬ TransGen (m.loader.registry.WaitsFor m.loader.requests) url url) ∧
    (∀ id chain, (id, chain) ∈ m.step.loader.rejections → (id, chain) ∉ m.loader.rejections →
      ∃ url ctx dependencies r i t, m.defining? = some (url, ctx, dependencies) ∧
        m.step.loader.Defines url id r ∧ r.dependencies = dependencies ∧
        m.step.loader.Offered ctx r i t ∧ m.step.loader.RejectedAt url id r i t chain) ∧
    ∀ url ctx dependencies, m.defining? = some (url, ctx, dependencies) →
      ∃ id r, m.loader.requests.get? id = none ∧ m.step.loader.Defines url id r ∧
        r.dependencies = dependencies ∧
        ∀ i t, m.step.loader.Offered ctx r i t →
          ((∃ chain, m.step.loader.RejectedAt url id r i t chain) ↔
            m.step.loader.Closes id i t) := by
  refine ⟨h.wellDefining.acyclic, ?_, ?_⟩
  · intro id chain hmem hnot
    cases hdefining : m.defining? with
    | none => exact absurd (rejections_step h hdefining hmem) hnot
    | some d =>
      obtain ⟨url, ctx, dependencies⟩ := d
      obtain ⟨id', r, _, hdefines, hdependencies, hrejected, _⟩ := step_rejects h hdefining
      obtain ⟨rfl, i, t, ho, hat⟩ := hrejected id chain hmem hnot
      exact ⟨url, ctx, dependencies, r, i, t, rfl, hdefines, hdependencies, ho, hat⟩
  · intro url ctx dependencies hdefining
    obtain ⟨id, r, hnone, hdefines, hdependencies, _, hiff⟩ := step_rejects h hdefining
    exact ⟨id, r, hnone, hdefines, hdependencies, hiff⟩

/-- Two modules that define themselves by one another, when the second is about to do so. -/
def ringClosing : Machine Unit :=
  (Machine.start (Loader.new {} ringResources)
    (.requireFrom "a:/" ["./x.js"] (fun _ => .finish .done) fun _ =>
      .settle fun _ => .finish .done)).run 15

theorem circles_rejected_ring :
    ∃ id r i t, ringClosing.step.loader.Defines "a:/y.js" id r ∧
      ringClosing.step.loader.RejectedAt "a:/y.js" id r i t ["a:/y.js", "a:/x.js", "a:/y.js"] := by
  have hreach : ringClosing.Reachable := (Machine.reachable_start _ _ _).run 15
  have hbefore : ringClosing.loader.rejections = [] := by decide +kernel
  have hafter : ringClosing.step.loader.rejections =
      [(⟨2, 3⟩, ["a:/y.js", "a:/x.js", "a:/y.js"])] := by decide +kernel
  have hunit : ringClosing.defining?.map Prod.fst = some "a:/y.js" := by decide +kernel
  obtain ⟨_, hrejected, _⟩ := circles_rejected hreach
  obtain ⟨url, ctx, dependencies, r, i, t, hdefining, hdefines, _, _, hat⟩ :=
    hrejected ⟨2, 3⟩ ["a:/y.js", "a:/x.js", "a:/y.js"] (by rw [hafter]; simp)
      (by rw [hbefore]; simp)
  rw [hdefining] at hunit
  cases hunit
  exact ⟨_, r, i, t, hdefines, hat⟩

end AsyncModule
