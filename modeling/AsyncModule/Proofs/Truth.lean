import AsyncModule.Proofs.Acyclic
import AsyncModule.Proofs.Told
import AsyncModule.Proofs.Waiting

/-!
# AsyncModule.Proofs.Truth

What a loader holds in a run by a table is true. A module that is ready has the value of a good
module, one that has failed is doomed, every slot is linked to the module that its specifier names,
and requests are failed only for a dependency that names no good module.

* `Loader.Truthful`     — the invariant.
* `Truthful.submit`     — requests are linked to the modules that they name; cycles are doomed.
* `Truthful.ready`, `Truthful.abandon` — modules are settled as the table has it.
-/

namespace AsyncModule

open Relation

variable {ν : Type}

namespace Loader

/-- What the loader holds is true. -/
structure Truthful (σ : Setting) (l : Loader ν) : Prop where
  resolver : l.resolver = σ.resolver
  context : l.bootstrap.context? = some σ.context
  resources : ∀ t result, l.resources t = some result → (σ.table t.key).Serves result
  served : l.fetches.ServedBy σ.table
  errands : ∀ e ∈ l.fetches.errands, e.2.2 = .module ∧ e.2.1.url.Canonical
  recorded : ∀ url s, l.registry.state? url = some s → σ.Admits url s
  apt : ∀ id q, l.requests.get? id = some q → ∃ ctx, q.Apt σ ctx
  failing : ∀ id e q, .fail id e ∈ l.worklist → l.requests.get? id = some q → q.Hopeless σ
  told : Told σ l.requests l.journal

namespace Truthful

variable {σ : Setting} {l : Loader ν} {id : RequestId} {q : Request ν} {ctx : Context}

theorem record (h : l.Truthful σ) {e : Event ν} (hsub : e.submitted? = none)
    (hcalls : e.called? = none) (hfailures : e.failed? = none) : (l.record e).Truthful σ :=
  { h with told := h.told.aside hsub hcalls hfailures }

theorem make (h : l.Truthful σ) (payload : Payload) : (l.make payload).2.Truthful σ :=
  { h with }

/-! ### Linking -/

theorem stop (h : l.Truthful σ) (e : LoadError) (hq : l.requests.get? id = some q)
    (hhopeless : q.Hopeless σ) : (l.enqueue (.fail id e)).Truthful σ :=
  { h with
    failing := by
      intro id' e' q' hmem hq'
      rcases List.mem_append.mp hmem with hmem | hmem
      · exact h.failing id' e' q' hmem hq'
      · rw [List.mem_singleton] at hmem
        cases hmem
        have hq' : l.requests.get? id = some q' := hq'
        rw [hq] at hq'
        cases hq'
        exact hhopeless }

theorem hopeless_of {s : String} (hq : q.Apt σ ctx) (hs : s ∈ q.dependencies)
    (hnone : ∀ p, ¬ σ.Supplies ctx s p) : q.Hopeless σ := by
  intro ctx' hctx'
  rw [hq.context] at hctx'
  cases hctx'
  exact ⟨s, hs, hnone⟩

/-- What waits for what is what needs what. -/
theorem needs_of_waitsFor (h : l.Truthful σ) (hdefining : l.WellDefining) {x y : String}
    (hxy : l.registry.WaitsFor l.requests x y) : Needs σ.table σ.resolver x y := by
  obtain ⟨id, q, hid, hq, hy⟩ := Registry.waitsFor_iff.mp hxy
  have hbound := hdefining.bound hid hq
  obtain ⟨i, s, hs, _, hm⟩ := Request.mem_pendingModules.mp hy
  obtain ⟨ctx, hapt⟩ := h.apt id q hq
  obtain ⟨t, ht, rfl⟩ := hapt.linked i s y hs hm
  have hpurpose := hapt.purpose
  rw [hbound] at hpurpose
  obtain ⟨factory, hdefinition, _⟩ := hpurpose
  refine hdefinition.needs ?_ ht
  exact List.mem_map_of_mem (Request.mem_slots.mpr ⟨i, hs⟩)

theorem not_supplies_of_cycle (h : l.Truthful σ) (hdefining : l.WellDefining)
    (hq : q.Apt σ ctx) {s definer : String} {t : Target} {chain : List String}
    (hs : s ∈ q.dependencies) (ht : σ.resolver.resolve s ctx = .ok t)
    (hd : q.definitionUrl = some definer)
    (hcycle : l.registry.findCycle l.requests definer t.key = some chain) (p : Payload) :
    ¬ σ.Supplies ctx s p := by
  have hback := (Registry.isCycle_of_findCycle hcycle).reachable
  have hpurpose := hq.purpose
  rw [hd] at hpurpose
  obtain ⟨factory, hdefinition, _⟩ := hpurpose
  have hcanonical := Resolver.canonical_of_resolve σ.resolver_wellFormed hq.wellFormed ht
  have hcircle : TransGen (Needs σ.table σ.resolver) t.url.toString t.url.toString :=
    TransGen.tail' (ReflTransGen.mono (fun _ _ hxy => h.needs_of_waitsFor hdefining hxy) _ _ hback)
      (hdefinition.needs hs ht)
  rintro ⟨t', ht', hgood⟩
  rw [ht] at ht'
  cases ht'
  exact doomed_of_cycle σ.resolver_wellFormed hcanonical hcircle p hgood

theorem attach (h : l.Truthful σ) {i : Nat} {s : Slot} {t : Target}
    (hq : l.requests.get? id = some q) (hapt : q.Apt σ ctx) (hs : q.slot? i = some s)
    (ht : σ.resolver.resolve s.specifier ctx = .ok t) : (l.attach id i t).Truthful σ := by
  have hcanonical := Resolver.canonical_of_resolve σ.resolver_wellFormed hapt.wellFormed ht
  have hlink := hapt.link hs ht
  refine ⟨?_, ?_, ?_, ?_, ?_, ?_, ?_, ?_, ?_⟩
  · rw [resolver_attach, h.resolver]
  · rw [bootstrap_attach, h.context]
  · rw [resources_attach]
    exact h.resources
  · rcases attach_cases l id i t with ⟨hf, _⟩ | ⟨hf, _⟩
    · rw [hf]
      exact h.served
    · rw [hf]
      exact Fetches.ServedBy.start h.served t .module (h.resources t)
  · rcases attach_cases l id i t with ⟨hf, _⟩ | ⟨hf, _⟩
    · rw [hf]
      exact h.errands
    · rw [hf, Fetches.errands_start]
      exact List.forall_mem_append.mpr ⟨h.errands, by simpa using hcanonical⟩
  · intro u st hst
    rcases state?_of_attach hst with hold | ⟨rfl, rfl, _⟩
    · exact h.recorded u st hold
    · exact ⟨t.url, hcanonical, rfl⟩
  · intro id' q' hq'
    rw [requests_attach] at hq'
    rcases Requests.get?_modify_eq_some hq' with ⟨rfl, q'', hq'', rfl⟩ | ⟨_, hq''⟩
    · rw [hq] at hq''
      cases hq''
      exact ⟨ctx, hlink⟩
    · exact h.apt id' q' hq''
  · intro id' e q' hmem hq'
    rw [requests_attach] at hq'
    rcases fail_of_attach hmem with hold | ⟨rfl, e', hfailed⟩
    · rcases Requests.get?_modify_eq_some hq' with ⟨rfl, q'', hq'', rfl⟩ | ⟨_, hq''⟩
      · exact (h.failing id' e q'' hold hq'').link i t.key
      · exact h.failing id' e q' hold hq''
    · rw [Requests.get?_modify_self _ hq] at hq'
      cases hq'
      have hdoomed : σ.DoomedAt t.key := h.recorded t.key _ hfailed
      have hspecifier : s.specifier ∈ q.dependencies :=
        List.mem_map_of_mem (Request.mem_slots.mpr ⟨i, hs⟩)
      exact hopeless_of hlink (by rw [Request.dependencies_link]; exact hspecifier)
        fun p => Setting.not_supplies_of_doomedAt hapt.wellFormed ht hdoomed
  · rw [requests_attach]
    rcases attach_cases l id i t with ⟨_, hj⟩ | ⟨_, hj⟩
    · rw [hj]
      exact h.told.link id i t.key
    · rw [hj]
      exact (h.told.link id i t.key).aside rfl rfl rfl

theorem linkSlots {definer : Option String} (slots : List (String × Nat)) :
    ∀ {l : Loader ν} {q : Request ν}, l.Truthful σ → l.WellDefining →
      l.requests.get? id = some q → q.Apt σ ctx → q.definitionUrl = definer →
      (∀ p ∈ slots, ∃ s, q.slot? p.2 = some s ∧ s.specifier = p.1) →
      (linkSlots ctx id definer slots l).Truthful σ := by
  induction slots with
  | nil => exact fun h _ _ _ _ _ => h
  | cons p rest ih =>
    intro l q h hdefining hq hapt hd hslots
    obtain ⟨specifier, i⟩ := p
    obtain ⟨s, hs, rfl⟩ := hslots _ List.mem_cons_self
    have hmem : s.specifier ∈ q.dependencies :=
      List.mem_map_of_mem (Request.mem_slots.mpr ⟨i, hs⟩)
    simp only [Loader.linkSlots, h.resolver]
    split
    · rename_i e he
      refine h.stop _ hq (hopeless_of hapt hmem ?_)
      rintro p ⟨t, ht, _⟩
      rw [he] at ht
      cases ht
    · rename_i t ht
      split
      · rename_i chain hcycle
        obtain ⟨d, hdefiner, hcycle⟩ := Option.bind_eq_some_iff.mp hcycle
        exact h.stop _ hq (hopeless_of hapt hmem
          (h.not_supplies_of_cycle hdefining hapt hmem ht (hd.trans hdefiner) hcycle))
      · rename_i hfree
        have hfree' : ∀ d, q.definitionUrl = some d →
            l.registry.findCycle l.requests d t.key = none := by
          intro d hqd
          rw [← hd, hqd] at hfree
          exact hfree
        refine ih (q := q.link i t.key) (h.attach hq hapt hs ht)
          (Defining.attach hdefining i t hq hfree') ?_ (hapt.link hs ht) ?_ ?_
        · rw [requests_attach]
          exact Requests.get?_modify_self _ hq
        · rw [Request.definitionUrl_link, hd]
        · intro p hp
          obtain ⟨s', hs', hspecifier⟩ := hslots p (List.mem_cons_of_mem _ hp)
          rw [Request.slot?_link, hs']
          exact ⟨_, rfl, by split <;> exact hspecifier⟩

theorem link (h : l.Truthful σ) (hdefining : l.WellDefining)
    (hq : l.requests.get? id = some q) (hapt : q.Apt σ ctx) : (l.link id ctx).Truthful σ := by
  have hsame : ({ q with context := some ctx } : Request ν) = q := by rw [← hapt.context]
  have hget := Requests.get?_modify_self (fun q => { q with context := some ctx }) hq
  have hback : ∀ id' q', (l.requests.modify id fun q => { q with context := some ctx }).get? id' =
      some q' → l.requests.get? id' = some q' := by
    intro id' q' hq'
    rcases Requests.get?_modify_eq_some hq' with ⟨rfl, q'', hq'', rfl⟩ | ⟨_, hq''⟩
    · rw [hq] at hq''
      cases hq''
      rw [hsame]
      exact hq
    · exact hq''
  have h1 : Truthful σ
      { l with requests := l.requests.modify id fun q => { q with context := some ctx } } :=
    { h with
      apt := fun id' q' hq' => h.apt id' q' (hback id' q' hq')
      failing := fun id' e q' hmem hq' => h.failing id' e q' hmem (hback id' q' hq')
      told := h.told.requests (Requests.serial_modify _ _ _)
        fun id' q' hq' => ⟨q', hback id' q' hq', rfl, rfl⟩ }
  have hdefining1 := keptByLinking_wellDefining.context id ctx hdefining
  unfold Loader.link
  rw [hq]
  refine linkSlots _ (h1.record rfl rfl rfl) hdefining1 (q := q) ?_ hapt rfl ?_
  · rw [hsame] at hget
    exact hget
  · rintro ⟨specifier, i⟩ hp
    rw [List.mem_zipIdx_iff_getElem?, Request.dependencies, List.getElem?_map] at hp
    exact Option.map_eq_some_iff.mp hp

theorem enter (h : l.Truthful σ) (hlinked : l.AllLinked) (hapt : q.Apt σ ctx) :
    (l.enter q).2.Truthful σ := by
  have hstate : ∀ u, (l.enter q).2.registry.state? u = l.registry.state? u := by
    intro u
    unfold Loader.enter Loader.record
    dsimp only
    split
    · exact Registry.state?_setDefinition _ _ _ _
    · rfl
  exact
    { resolver := h.resolver
      context := h.context
      resources := h.resources
      served := h.served
      errands := h.errands
      recorded := fun u s hs => h.recorded u s (by rwa [hstate] at hs)
      apt := by
        intro id' q' hq'
        rcases Requests.get?_insert_eq_some hq' with ⟨_, rfl⟩ | hold
        · exact ⟨ctx, hapt⟩
        · exact h.apt id' q' hold
      failing := by
        intro id' e q' hmem hq'
        rcases Requests.get?_insert_eq_some hq' with ⟨rfl, _⟩ | hold
        · exact absurd (hlinked.issued hmem) (not_issued_enter l q)
        · exact h.failing id' e q' hmem hold
      told := h.told.insert q }

theorem submit (h : l.Truthful σ) (hlinked : l.AllLinked) (hdefining : l.WellDefining)
    {frame : Option Frame} {dependencies : List String}
    {callback : List ModuleValue → Script ν} {errback : Option (LoadError → Script ν)}
    {definition : Option String} (hctx : l.context? frame = some ctx)
    (hpurpose : σ.Purpose ctx dependencies callback errback definition)
    (hhandler : ∀ handler ∈ errback, ∀ e, (handler e).Ends fun _ => True) :
    (l.submit frame dependencies callback errback definition).Truthful σ := by
  have hun := unlinked_ofCall dependencies callback errback (some ctx) definition
  have hapt : (Request.ofCall dependencies callback errback (some ctx) definition).Apt σ ctx := by
    refine ⟨rfl, ?_, hhandler, ?_⟩
    · have hsame : (Request.ofCall dependencies callback errback (some ctx)
          definition).dependencies = dependencies := by
        simp [Request.dependencies, Request.ofCall, Slot.ofSpecifier, Function.comp_def]
      rw [hsame]
      exact hpurpose
    · intro i s url hs hm
      rw [(hun s (Request.mem_slots.mpr ⟨i, hs⟩)).1] at hm
      cases hm
  have h1 := h.enter hlinked hapt
  unfold Loader.submit
  rw [hctx]
  dsimp only
  unfold Loader.begin
  split
  · exact { h1 with
      failing := by
        intro id e q hmem hq
        exact h1.failing id e q ((List.mem_append.mp hmem).resolve_right (by simp)) hq }
  · exact h1.link (Defining.enter hdefining hun) (get?_enter_self l _) hapt

/-! ### Settling -/

theorem ready (h : l.Truthful σ) {url : String} {v : ModuleValue}
    (hgood : σ.GoodAt url v.payload) : (l.readyModule url v).Truthful σ where
  resolver := h.resolver
  context := h.context
  resources := h.resources
  served := h.served
  errands := h.errands
  recorded := by
    intro u s hs
    rcases state?_of_readyModule hs with ⟨rfl, rfl⟩ | hs
    · exact hgood
    · exact h.recorded u s hs
  apt := h.apt
  failing := by
    intro id e q hmem hq
    refine h.failing id e q ((List.mem_append.mp hmem).resolve_right ?_) hq
    simp
  told := h.told

theorem abandon (h : l.Truthful σ) (hlinked : l.AllLinked) {url : String} (e : LoadError)
    (hdoomed : σ.DoomedAt url) : (l.abandonModule url e).Truthful σ where
  resolver := h.resolver
  context := h.context
  resources := h.resources
  served := h.served
  errands := h.errands
  recorded := by
    intro u s hs
    rcases state?_of_abandonModule hs with ⟨rfl, rfl⟩ | hs
    · exact hdoomed
    · exact h.recorded u s hs
  apt := h.apt
  failing := by
    intro id e' q hmem hq
    rcases List.mem_append.mp hmem with hmem | hmem
    · exact h.failing id e' q hmem hq
    · obtain ⟨w, hw, heq⟩ := List.mem_map.mp hmem
      cases heq
      have hwaits := Registry.mem_waiters_of_settle hw
      rw [Registry.waiters_setDefinition] at hwaits
      obtain ⟨_, q', s, hq', hs, hm, _⟩ := hlinked.waiter hwaits
      have hq : l.requests.get? w.request = some q := hq
      rw [hq] at hq'
      cases hq'
      obtain ⟨ctx, hapt⟩ := h.apt _ q hq
      obtain ⟨t, ht, rfl⟩ := hapt.linked _ s _ hs hm
      exact hopeless_of hapt (List.mem_map_of_mem (Request.mem_slots.mpr ⟨_, hs⟩))
        fun p => Setting.not_supplies_of_doomedAt hapt.wellFormed ht hdoomed
  told := h.told

theorem erase (h : l.Truthful σ) (id : RequestId) :
    Truthful σ { l with requests := l.requests.erase id } := by
  have hback : ∀ id' q', (l.requests.erase id).get? id' = some q' →
      l.requests.get? id' = some q' := by
    intro id' q' hq'
    rw [Requests.get?_erase] at hq'
    split at hq'
    · cases hq'
    · exact hq'
  exact { h with
    apt := fun id' q' hq' => h.apt id' q' (hback id' q' hq')
    failing := fun id' e q' hmem hq' => h.failing id' e q' hmem (hback id' q' hq')
    told := h.told.requests (Requests.serial_erase _ _)
      fun id' q' hq' => ⟨q', hback id' q' hq', rfl, rfl⟩ }

theorem withdraw (h : l.Truthful σ) (id : RequestId) (q : Request ν) :
    (l.withdraw id q).Truthful σ :=
  { h.erase id with
    context := h.context
    recorded := by
      intro u s hs
      have hs : (q.modules.foldl (fun g url => g.dropWaiters url id) l.registry).state? u =
        some s := hs
      rw [state?_foldl_dropWaiters] at hs
      exact h.recorded u s hs }

end Truthful
end Loader
end AsyncModule
