import AsyncModule.Proofs.Settlement

/-!
# AsyncModule.Proofs.Linked

What linking, settling and taking out do to the linkage of a loader. Every operation keeps it.

* `Linked.link`      — linking a request sees to its slots, whichever of them stops it.
* `Linked.submit`    — so does making a request, at once or by deferring it.
* `Linked.withdraw`  — a request can be taken out, with all its waiters.
-/

namespace AsyncModule

variable {ν : Type}

namespace Loader

variable {skip skip' : RequestId → Nat → Prop} {l : Loader ν} {id : RequestId}

/-- The linkage of the requests and modules of a loader. -/
def Linked (skip : RequestId → Nat → Prop) (l : Loader ν) : Prop :=
  Linkage skip l.registry l.requests l.worklist l.bootstrap.deferred

theorem Linked.attach (h : l.Linked skip) {id : RequestId} {r : Request ν} {i : Nat} {s : Slot}
    (t : Target) (hr : l.requests.get? id = some r) (hs : r.slot? i = some s)
    (hm : s.module = none) (hv : s.value = none) (hd : id ∉ l.bootstrap.deferred)
    (hskip : ∀ id' i', skip id' i' → skip' id' i' ∨ id' = id ∧ i' = i) :
    (l.attach id i t).Linked skip' := by
  have h1 := Linkage.linkSlot h t.key hr hs hm hd
  have hr1 := Requests.get?_modify_self (·.link i t.key) hr
  have hs1 : (r.link i t.key).slot? i = some { s with module := some t.key } := by
    rw [Request.slot?_link, hs]
    simp
  have hne : (r.link i t.key).slots ≠ [] := by
    intro he
    rw [Request.slot?, he] at hs1
    cases hs1
  have hskip1 : ∀ id' i', skip id' i' ∨ id' = id ∧ i' = i → skip' id' i' ∨ id' = id ∧ i' = i := by
    intro id' i' hor
    rcases hor with hsk | heq
    · exact hskip id' i' hsk
    · exact .inr heq
  unfold Linked
  rcases l.registry.open_or_settled t.key with ho | ⟨v, hready⟩ | ⟨e, hfailed⟩
  · obtain ⟨hwork, hstate, hwaiters, _⟩ := attach_open id i ho
    have hnew : ⟨id, i⟩ ∉ l.registry.waiters t.key := by
      intro hw
      obtain ⟨_, r', s', hr', hs', hm', _⟩ := h.waiter hw
      rw [hr] at hr'
      cases hr'
      rw [hs] at hs'
      cases hs'
      rw [hm] at hm'
      cases hm'
    rw [hwork, requests_attach, bootstrap_attach]
    exact h1.await hr1 hs1 rfl hv hnew ho hstate hwaiters hskip1
  · obtain ⟨hreg, hwork⟩ := attach_ready id i hready
    rw [hreg, hwork, requests_attach, bootstrap_attach]
    exact h1.enqueueFill hr1 hs1 rfl hready hskip1
  · obtain ⟨hreg, hwork⟩ := attach_failed id i hfailed
    rw [hreg, hwork, requests_attach, bootstrap_attach]
    refine h1.enqueueFail _ hr1 hne ?_
    intro id' i' hor
    rcases hskip1 id' i' hor with h' | ⟨hid, _⟩
    · exact .inl h'
    · exact .inr hid

/-- Slots that are to be linked are empty, and linked to nothing yet. -/
def Fresh (r : Request ν) (indices : List Nat) : Prop :=
  indices.Nodup ∧ ∀ i ∈ indices, ∃ s, r.slot? i = some s ∧ s.module = none ∧ s.value = none

theorem Linked.linkSlots {ctx : Context} {id : RequestId} {definer : Option String}
    (slots : List (String × Nat)) :
    ∀ {l : Loader ν} {r : Request ν},
      l.Linked (fun id' i => skip id' i ∨ id' = id ∧ i ∈ slots.map (·.2)) →
      l.requests.get? id = some r → r.slots ≠ [] → Fresh r (slots.map (·.2)) →
      id ∉ l.bootstrap.deferred → (linkSlots ctx id definer slots l).Linked skip := by
  induction slots with
  | nil =>
    intro l r h _ _ _ _
    refine Linkage.weaken h ?_
    intro id' i hor
    rcases hor with hsk | ⟨_, hi⟩
    · exact hsk
    · cases hi
  | cons p rest ih =>
    intro l r h hr hne hf hd
    obtain ⟨specifier, i⟩ := p
    have hfail : ∀ e, (l.enqueue (.fail id e)).Linked skip := by
      intro e
      refine Linkage.enqueueFail h e hr hne ?_
      intro id' i' hor
      rcases hor with hsk | ⟨hid, _⟩
      · exact .inl hsk
      · exact .inr hid
    simp only [Loader.linkSlots]
    split
    · exact hfail _
    · rename_i t _
      split
      · exact hfail _
      · obtain ⟨hnd, hall⟩ := hf
        simp only [List.map_cons, List.nodup_cons] at hnd
        obtain ⟨s, hs, hm, hv⟩ := hall i (by simp)
        have h1 : (l.attach id i t).Linked
            (fun id' i' => skip id' i' ∨ id' = id ∧ i' ∈ rest.map (·.2)) := by
          refine Linked.attach h t hr hs hm hv hd ?_
          intro id' i' hor
          rcases hor with hsk | ⟨hid, hi⟩
          · exact .inl (.inl hsk)
          · rcases List.mem_cons.mp hi with hi | hi
            · exact .inr ⟨hid, hi⟩
            · exact .inl (.inr ⟨hid, hi⟩)
        refine ih h1 (r := r.link i t.key) ?_ ?_ ⟨hnd.2, ?_⟩ ?_
        · rw [requests_attach]
          exact Requests.get?_modify_self _ hr
        · intro he
          have hlen := Request.length_link r i t.key
          rw [he] at hlen
          exact hne (List.eq_nil_of_length_eq_zero hlen.symm)
        · intro j hj
          obtain ⟨s', hs', hm', hv'⟩ := hall j (List.mem_cons_of_mem _ hj)
          have hji : j ≠ i := fun heq => hnd.1 (heq ▸ hj)
          exact ⟨s', by rw [Request.slot?_link, hs']; simp [hji], hm', hv'⟩
        · rw [bootstrap_attach]
          exact hd

/-- The slots of a request are empty, and linked to nothing. -/
def Unlinked (r : Request ν) : Prop := ∀ s ∈ r.slots, s.module = none ∧ s.value = none

theorem unlinked_ofCall (dependencies : List String) (callback : List ModuleValue → Script ν)
    (errback : Option (LoadError → Script ν)) (context : Option Context)
    (definitionUrl : Option String) :
    Unlinked (.ofCall dependencies callback errback context definitionUrl) := by
  intro s hs
  obtain ⟨d, _, rfl⟩ := List.mem_map.mp hs
  exact ⟨rfl, rfl⟩

theorem Unlinked.fresh {r : Request ν} (h : Unlinked r) :
    Fresh r (r.dependencies.zipIdx.map (·.2)) := by
  rw [List.zipIdx_map_snd]
  refine ⟨List.nodup_range', ?_⟩
  intro i hi
  rw [List.mem_range'_1] at hi
  have hlt : i < r.slots.length := by simpa [Request.dependencies] using hi.2
  exact ⟨r.slots[i], List.getElem?_eq_getElem hlt, h _ (List.getElem_mem hlt)⟩

theorem Linked.link (h : l.Linked fun id' i => skip id' i ∨ id' = id) (ctx : Context)
    (hr : ∀ {r}, l.requests.get? id = some r → r.slots ≠ [] ∧ Unlinked r)
    (hd : id ∉ l.bootstrap.deferred) : (l.link id ctx).Linked skip := by
  unfold Loader.link
  cases hget : l.requests.get? id with
  | none =>
    refine Linkage.see h ?_ ?_
    · intro id' r i s hr' _ _ hsk hn
      rcases hsk with hsk | rfl
      · exact absurd hsk hn
      · rw [hget] at hr'
        cases hr'
    · intro id' r hr' _ hsk hn
      rcases hsk with hsk | rfl
      · exact absurd hsk hn
      · rw [hget] at hr'
        cases hr'
  | some r =>
    obtain ⟨hne, hun⟩ := hr hget
    have hget' := Requests.get?_modify_self (fun r => { r with context := some ctx }) hget
    have hcounted := h.counted hget
    obtain ⟨j, slot, hslot, hv⟩ := h.waits hget hne
    have h1 := Linkage.update h (f := fun r => { r with context := some ctx }) hget
      (fun _ _ hsk => hsk) (fun i s hs => ⟨s, hs, .inl rfl⟩) rfl hcounted
      (fun _ => ⟨j, slot, hslot, hv⟩) fun hid => absurd hid hd
    have h2 : Linkage (fun id' i => skip id' i ∨ id' = id ∧ i ∈ r.dependencies.zipIdx.map (·.2))
        l.registry (l.requests.modify id fun r => { r with context := some ctx }) l.worklist
        l.bootstrap.deferred := by
      refine h1.see ?_ ?_
      · intro id' r' i s hr' hs _ hsk hn
        rcases hsk with hsk | rfl
        · exact absurd (.inl hsk) hn
        · refine absurd (.inr ⟨rfl, ?_⟩) hn
          rw [hget'] at hr'
          cases hr'
          obtain ⟨hlt, _⟩ := List.getElem?_eq_some_iff.mp hs
          rw [List.zipIdx_map_snd, List.mem_range'_1]
          simpa [Request.dependencies] using hlt
      · intro id' r' hr' he hsk hn
        rcases hsk with hsk | rfl
        · exact absurd (.inl hsk) hn
        · rw [hget'] at hr'
          cases hr'
          exact absurd he hne
    exact Linked.linkSlots _ h2 hget' hne hun.fresh hd

/-! ## Making, deferring and linking requests -/

theorem not_issued_enter (l : Loader ν) (r : Request ν) : ¬ l.requests.Issued (l.enter r).1 :=
  Requests.not_issued_insert l.requests r

theorem get?_enter_self (l : Loader ν) (r : Request ν) :
    (l.enter r).2.requests.get? (l.enter r).1 = some r :=
  Requests.get?_insert_self l.requests r

theorem Linked.enter (h : l.Linked skip) {r : Request ν} (hun : Unlinked r)
    (hres : r.resolved = 0) :
    (l.enter r).2.Linked fun id i => skip id i ∨ id = (l.enter r).1 := by
  have h1 := Linkage.insert h hun hres
  -- the definition of a module does not matter for the linkage
  cases hd : r.definitionUrl with
  | none =>
    simp only [Linked, Loader.enter, hd, record]
    exact h1
  | some url =>
    simp only [Linked, Loader.enter, hd, record]
    exact h1.congr (by simp) (by simp)

theorem Linked.begin (h : l.Linked fun id' i => skip id' i ∨ id' = id) {r : Request ν}
    (hr : l.requests.get? id = some r) (hun : Unlinked r) (hd : id ∉ l.bootstrap.deferred)
    (hctx : r.definitionUrl ≠ none → r.context ≠ none) : (l.begin id r).Linked skip := by
  unfold Loader.begin
  split
  · rename_i he
    exact Linkage.enqueueFire h hr (List.isEmpty_iff.mp he) fun _ _ hor => hor
  · rename_i he
    have hne : r.slots ≠ [] := fun heq => he (by rw [heq]; rfl)
    split
    · refine h.link _ ?_ hd
      intro r' hr'
      rw [hr] at hr'
      cases hr'
      exact ⟨hne, hun⟩
    · rename_i hc
      have hdef : r.definitionUrl = none := by
        by_contra hsome
        exact hctx hsome hc
      exact Linkage.defer h hr hne hdef (fun s hs => (hun s hs).1) hd fun _ _ hor => hor

theorem Linked.submit (h : l.Linked skip) {frame : Option Frame} {dependencies : List String}
    {callback : List ModuleValue → Script ν} {errback : Option (LoadError → Script ν)}
    {definitionUrl : Option String} (hctx : definitionUrl ≠ none → l.context? frame ≠ none) :
    (l.submit frame dependencies callback errback definitionUrl).Linked skip := by
  have hun := unlinked_ofCall dependencies callback errback (l.context? frame) definitionUrl
  refine Linked.begin (h.enter hun rfl) ?_ hun ?_ hctx
  · exact get?_enter_self l _
  · intro hmem
    obtain ⟨_, hr, _⟩ := h.deferred hmem
    exact not_issued_enter l _ (Requests.issued_of_get? hr)

theorem Linked.linkAll (ctx : Context) (ids : List RequestId) :
    ∀ {l : Loader ν}, l.Linked (fun id i => skip id i ∨ id ∈ ids) → ids.Nodup →
      l.bootstrap.deferred = [] →
      (∀ id ∈ ids, ∃ r, l.requests.get? id = some r ∧ r.slots ≠ [] ∧ Unlinked r) →
      (ids.foldl (fun l id => l.link id ctx) l).Linked skip := by
  induction ids with
  | nil =>
    intro l h _ _ _
    refine Linkage.weaken h ?_
    intro id i hor
    rcases hor with hsk | hmem
    · exact hsk
    · cases hmem
  | cons id rest ih =>
    intro l h hnd hd hall
    obtain ⟨hnot, hnd⟩ := List.nodup_cons.mp hnd
    obtain ⟨r, hr, hne, hun⟩ := hall id List.mem_cons_self
    rw [List.foldl_cons]
    refine ih ?_ hnd ?_ ?_
    · have hskip : l.Linked fun id' i => (skip id' i ∨ id' ∈ rest) ∨ id' = id := by
        refine Linkage.weaken h ?_
        intro id' i hor
        rcases hor with hsk | hmem
        · exact .inl (.inl hsk)
        · rcases List.mem_cons.mp hmem with hid | hmem
          · exact .inr hid
          · exact .inl (.inr hmem)
      refine hskip.link ctx ?_ ?_
      · intro r' hr'
        rw [hr] at hr'
        cases hr'
        exact ⟨hne, hun⟩
      · rw [hd]
        simp
    · rw [bootstrap_link, hd]
    · intro id' hid'
      obtain ⟨r', hr', hrest⟩ := hall id' (List.mem_cons_of_mem _ hid')
      have hid : id' ≠ id := fun heq => hnot (heq ▸ hid')
      exact ⟨r', by rw [get?_link_of_ne hid, hr'], hrest⟩

theorem Linked.drainDeferred (h : l.Linked skip) : l.drainDeferred.Linked skip := by
  unfold Loader.drainDeferred
  split
  · exact h
  · refine Linked.linkAll _ _ (Linkage.takeDeferred h) h.deferred_nodup rfl ?_
    intro id hid
    obtain ⟨r, hr, hne, _, hm⟩ := h.deferred hid
    exact ⟨r, hr, hne, fun s hs => ⟨hm s hs, Linkage.value_of_deferred h hid hr hs⟩⟩

/-! ## Settling modules and taking requests out -/

theorem Linked.readyModule (h : l.Linked skip) (url : String) (v : ModuleValue) :
    (l.readyModule url v).Linked skip := by
  unfold Linked Loader.readyModule Registry.markReady
  dsimp only
  by_cases ho : l.registry.IsOpen url
  · rw [Registry.fst_settle_of_isOpen _ ho]
    exact Linkage.settle h ho rfl (Registry.state?_settle ho fun _ => rfl)
      (Registry.waiters_settle ho) fun w => .inl ⟨v, rfl, rfl⟩
  · rw [Registry.settle_of_not_isOpen _ ho]
    simpa [Linked] using h

theorem Linked.abandonModule (h : l.Linked skip) (url : String) (e : LoadError) :
    (l.abandonModule url e).Linked skip := by
  have h' : Linkage skip (l.registry.setDefinition url none) l.requests l.worklist
      l.bootstrap.deferred := Linkage.congr h (by simp) (by simp)
  unfold Linked Loader.abandonModule Registry.markFailed
  dsimp only
  by_cases ho : (l.registry.setDefinition url none).IsOpen url
  · rw [Registry.fst_settle_of_isOpen _ ho]
    exact Linkage.settle h' ho rfl (Registry.state?_settle ho fun _ => rfl)
      (Registry.waiters_settle ho) fun w => .inr ⟨.dependency url e, rfl⟩
  · rw [Registry.settle_of_not_isOpen _ ho]
    simpa using h'

theorem state?_of_readyModule {l : Loader ν} {url u : String} {v : ModuleValue} {s : ModuleState}
    (h : (l.readyModule url v).registry.state? u = some s) :
    u = url ∧ s = .ready v ∨ l.registry.state? u = some s :=
  Registry.state?_of_settle (f := fun r => { r with state := .ready v, definition := none })
    (fun _ => rfl) h

theorem state?_of_abandonModule {l : Loader ν} {url u : String} {e : LoadError} {s : ModuleState}
    (h : (l.abandonModule url e).registry.state? u = some s) :
    u = url ∧ s = .failed e ∨ l.registry.state? u = some s := by
  have hsettle := Registry.state?_of_settle (f := fun r => { r with state := .failed e })
    (fun _ => rfl) h
  rwa [Registry.state?_setDefinition] at hsettle

theorem state?_foldl_dropWaiters (urls : List String) (g : Registry) (id : RequestId)
    (u : String) :
    (urls.foldl (fun g url => g.dropWaiters url id) g).state? u = g.state? u := by
  induction urls generalizing g with
  | nil => rfl
  | cons url rest ih => rw [List.foldl_cons, ih, Registry.state?_dropWaiters]

theorem definition?_foldl_dropWaiters (urls : List String) (g : Registry) (id : RequestId)
    (u : String) :
    (urls.foldl (fun g url => g.dropWaiters url id) g).definition? u = g.definition? u := by
  induction urls generalizing g with
  | nil => rfl
  | cons url rest ih => rw [List.foldl_cons, ih, Registry.definition?_dropWaiters]

theorem waiters_foldl_dropWaiters (urls : List String) (g : Registry) (id : RequestId)
    (u : String) :
    (urls.foldl (fun g url => g.dropWaiters url id) g).waiters u =
      if u ∈ urls then (g.waiters u).filter (·.request != id) else g.waiters u := by
  induction urls generalizing g with
  | nil => simp
  | cons url rest ih =>
    rw [List.foldl_cons, ih, Registry.waiters_dropWaiters]
    by_cases hu : u = url
    · subst hu
      simp
    · simp [hu]

theorem Linked.waiters_withdraw (h : l.Linked skip) {r : Request ν}
    (hr : l.requests.get? id = some r) (u : String) :
    (l.withdraw id r).registry.waiters u = (l.registry.waiters u).filter (·.request != id) := by
  simp only [Loader.withdraw, waiters_foldl_dropWaiters]
  split
  · rfl
  · rename_i hu
    refine (List.filter_eq_self.mpr ?_).symm
    intro w hw
    obtain ⟨_, r', s, hr', hs, hm, _⟩ := h.waiter hw
    simp only [bne_iff_ne, ne_eq]
    rintro heq
    rw [heq, hr] at hr'
    cases hr'
    exact hu (Request.mem_modules.mpr ⟨_, s, hs, hm⟩)

/-- A request is taken out; the steps that are due to it may go with it. -/
theorem Linked.withdraw (h : l.Linked skip) {r : Request ν} (hr : l.requests.get? id = some r)
    {work : List Step} (hkeep : ∀ s ∈ l.worklist, s.request ≠ id → s ∈ work)
    (hsub : work ⊆ l.worklist) :
    (Loader.withdraw { l with worklist := work } id r).Linked skip :=
  Linkage.remove h id (Requests.get?_erase l.requests id) (Requests.serial_erase _ _)
    (state?_foldl_dropWaiters r.modules l.registry id) (h.waiters_withdraw hr) hkeep hsub

end Loader
end AsyncModule
