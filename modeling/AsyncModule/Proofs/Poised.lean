import AsyncModule.Proofs.Postponing

/-!
# AsyncModule.Proofs.Poised

A loader with a context, on which nothing has been settled yet and nothing is to be done. Requests
that a host makes of it are linked at once; whether one fails depends on its specifiers alone.

* `linkSlots_unsettled` — linking settles nothing, and stops at most at one specifier.
* `Loader.Poised`       — such a loader.
-/

namespace AsyncModule

variable {ν : Type}

/-- What keeps a request from being linked: the first of its specifiers that cannot be resolved. -/
def Resolver.obstacle? (resolver : Resolver) (ctx : Context) (dependencies : List String) :
    Option LoadError :=
  dependencies.findSome? fun specifier =>
    match resolver.resolve specifier ctx with
    | .error e => some e
    | .ok _ => none

def Registry.Unsettled (g : Registry) : Prop := ∀ url s, g.state? url = some s → s.isSettled = false

namespace Loader

variable {l : Loader ν} {id : RequestId} {r : Request ν}

theorem linkSlots_unsettled (ctx : Context) (id : RequestId) (slots : List (String × Nat)) :
    ∀ {l : Loader ν}, l.registry.Unsettled →
      (linkSlots ctx id none slots l).registry.Unsettled ∧
        (linkSlots ctx id none slots l).worklist = l.worklist ++
          ((l.resolver.obstacle? ctx (slots.map (·.1))).map (Step.fail id)).toList := by
  induction slots with
  | nil => exact fun h => ⟨h, (List.append_nil _).symm⟩
  | cons p rest ih =>
    intro l h
    obtain ⟨specifier, i⟩ := p
    simp only [linkSlots, Resolver.obstacle?, List.map_cons, List.findSome?_cons]
    cases l.resolver.resolve specifier ctx with
    | error e => exact ⟨h, rfl⟩
    | ok t =>
      obtain ⟨hw, hstate, _⟩ := attach_open id i (h t.key)
      have hattached : (l.attach id i t).registry.Unsettled := by
        intro u s hs
        rw [hstate] at hs
        split at hs
        · cases hs
          rfl
        · exact h u s hs
      have hrest := ih hattached
      rw [hw, resolver_attach] at hrest
      exact hrest

/-- Linking a request that defines nothing, where nothing is settled, fails it at most. -/
theorem link_unsettled (ctx : Context) (h : l.registry.Unsettled)
    (hr : l.requests.get? id = some r) (hd : r.definitionUrl = none) :
    (l.link id ctx).registry.Unsettled ∧ (l.link id ctx).worklist = l.worklist ++
      ((l.resolver.obstacle? ctx r.dependencies).map (Step.fail id)).toList := by
  have hslots := linkSlots_unsettled ctx id r.dependencies.zipIdx (l := Loader.record
    { l with requests := l.requests.modify id fun r => { r with context := some ctx } }
    (.linked id l.resolver ctx)) h
  rw [List.zipIdx_map_fst] at hslots
  unfold Loader.link
  simp only [hr, hd]
  exact hslots

/-- Linking tells no request what has come of it. -/
theorem upshots_link (l : Loader ν) (id : RequestId) (ctx : Context) (n : Nat) :
    upshots n (l.link id ctx).journal = upshots n l.journal := by
  have hkept : KeptByLinking fun l₁ : Loader ν => upshots n l₁.journal = upshots n l.journal := {
    linked := fun _ _ h => h
    context := fun _ _ h => h
    stop := fun _ h _ => h
    attach := by
      intro l₁ id₁ r i t h _ _
      rcases attach_cases l₁ id₁ i t with ⟨_, hj⟩ | ⟨_, hj⟩
      · rw [hj]
        exact h
      · rw [hj]
        exact h }
  exact hkept.link rfl id ctx

/-- The loader has a context for requests outside of units; it has nothing to do, none of its
modules is settled, and its requests do not look at what has been told. -/
structure Poised (ctx : Context) (l : Loader ν) : Prop where
  context : l.context? none = some ctx
  deferred : l.bootstrap.deferred = []
  worklist : l.worklist = []
  idle : l.dispatching = false
  unsettled : l.registry.Unsettled
  fetched : ∀ f ∈ l.fetches.inFlight, f.result = l.resources f.target
  discreet : ∀ past past', l.requests.Discreet past past'

namespace Poised

variable {ctx : Context} {c : Call ν}

theorem discreet_request (c : Call ν) (ctx : Option Context) (past past' : List (Event ν)) :
    (c.request ctx).Discreet past past' where
  callback values := by
    obtain ⟨_, _, h⟩ := c.inert_callback values
    exact h.discreet past past'
  errback handler hhandler e := by
    obtain ⟨_, _, h⟩ := c.inert_errback handler hhandler e
    exact h.discreet past past'

theorem discreet_enter (h : l.Poised ctx) (c : Call ν) (past past' : List (Event ν)) :
    (l.enter (c.request (some ctx))).2.requests.Discreet past past' := by
  intro id r hr
  rcases Requests.get?_insert_eq_some hr with ⟨_, rfl⟩ | hold
  · exact discreet_request c (some ctx) past past'
  · exact h.discreet past past' id r hold

/-- A request without dependencies has been called back. -/
theorem fired (h : l.Poised ctx) (new : List (Event ν)) :
    (Machine.fired c (l.enter (c.request (some ctx))).2 (l.enter (c.request (some ctx))).1
      new).Poised ctx :=
  { h with
    worklist := rfl
    idle := rfl
    discreet := fun past past' id r hr =>
      h.discreet_enter c past past' id r (Requests.get?_of_erase hr) }

theorem dependencies_request (c : Call ν) (ctx : Option Context) :
    (c.request ctx).dependencies = c.dependencies := by
  simp [Request.dependencies, Call.request, Request.ofCall, Slot.ofSpecifier, Function.comp_def]

/-- A request has been made. All that is to be done is to fail it, if it cannot be resolved. -/
theorem submitted (h : l.Poised ctx) (hc : c.dependencies ≠ []) :
    Poised ctx { c.submitted l with worklist := [] } ∧ (c.submitted l).worklist =
      ((l.resolver.obstacle? ctx c.dependencies).map
        (Step.fail (l.enter (c.request (some ctx))).1)).toList := by
  have hlinked := link_unsettled ctx (l := (l.enter (c.request (some ctx))).2) h.unsettled
    (get?_enter_self l (c.request (some ctx))) rfl
  have hlevel := Level.link (l.enter (c.request (some ctx))).2
    (l.enter (c.request (some ctx))).1 ctx
  have hw : (l.enter (c.request (some ctx))).2.worklist = [] := h.worklist
  rw [dependencies_request, hw, List.nil_append] at hlinked
  rw [c.submitted_of_some l hc h.context]
  refine ⟨?_, hlinked.2⟩
  exact {
    context := by
      unfold Loader.context?
      dsimp only
      rw [hlevel.bootstrap]
      exact h.context
    deferred := by
      dsimp only
      rw [hlevel.bootstrap]
      exact h.deferred
    worklist := rfl
    idle := hlevel.dispatching.trans h.idle
    unsettled := hlinked.1
    fetched := by
      intro f hf
      dsimp only
      rw [hlevel.resources]
      exact (hlevel.fetched f hf).elim (h.fetched f) id
    discreet := fun past past' => hlevel.discreet_requests (h.discreet_enter c past past') }

/-- The request that has been made. -/
theorem get?_submitted (h : l.Poised ctx) (hc : c.dependencies ≠ []) :
    ∃ r, (c.submitted l).requests.get? (l.enter (c.request (some ctx))).1 = some r ∧
      r.errback = c.errback ∧ r.definitionUrl = none := by
  have hsequel := (Level.link (l.enter (c.request (some ctx))).2
    (l.enter (c.request (some ctx))).1 ctx).sequel (l.enter (c.request (some ctx))).1
  rw [Loader.get?_enter_self, ← c.submitted_of_some l hc h.context] at hsequel
  obtain ⟨r, hr, heq⟩ := Option.map_eq_some_iff.mp hsequel
  simp only [Request.sequel, Prod.mk.injEq] at heq
  exact ⟨r, hr, heq.2.1, heq.2.2⟩

theorem serial_submitted (h : l.Poised ctx) (hc : c.dependencies ≠ []) :
    (c.submitted l).requests.serial = l.requests.serial + 1 := by
  rw [c.submitted_of_some l hc h.context]
  exact (Level.link _ _ ctx).serial

theorem upshots_submitted (h : l.Poised ctx) (hc : c.dependencies ≠ []) (n : Nat) :
    upshots n (c.submitted l).journal = upshots n l.journal := by
  rw [c.submitted_of_some l hc h.context]
  exact upshots_link _ _ ctx n

/-- A request has been taken out. -/
theorem withdraw (h : l.Poised ctx) (id : RequestId) (r : Request ν) :
    (l.withdraw id r).Poised ctx :=
  { h with
    deferred := by
      show l.bootstrap.deferred.filter (· != id) = []
      rw [h.deferred, List.filter_nil]
    unsettled := by
      intro url s hs
      rw [Loader.withdraw, state?_foldl_dropWaiters] at hs
      exact h.unsettled url s hs
    discreet := fun past past' i q hq =>
      h.discreet past past' i q (Requests.get?_of_erase hq) }

end Poised
end Loader
end AsyncModule
