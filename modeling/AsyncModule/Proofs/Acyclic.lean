import AsyncModule.Proofs.Attach
import AsyncModule.Proofs.CycleSearch
import AsyncModule.Proofs.Linked
import AsyncModule.Proofs.Runs

/-!
# AsyncModule.Proofs.Acyclic

Definitions never wait for one another in a circle. A slot of a definition is linked to a module
only when the search finds no way back from the module to the one being defined, and nothing else
makes a definition wait.

* `acyclic_of_new_edge`   — an edge closes no cycle when there is no way back from its end.
* `maintained_defining`   — everything the machine does keeps the definitions free of cycles.
-/

namespace AsyncModule

open Relation

variable {ν : Type}

theorem acyclic_of_new_edge {α : Type} {R R' : α → α → Prop} {a b : α}
    (hnew : ∀ x y, R' x y → R x y ∨ x = a ∧ y = b) (h : ∀ x, ¬ TransGen R x x)
    (hback : ¬ ReflTransGen R b a) (x : α) : ¬ TransGen R' x x := by
  have hsplit : ∀ y, TransGen R' x y →
      TransGen R x y ∨ ReflTransGen R x a ∧ ReflTransGen R b y := by
    intro y hy
    induction hy with
    | single hxy =>
      rcases hnew _ _ hxy with hold | ⟨rfl, rfl⟩
      · exact .inl (.single hold)
      · exact .inr ⟨.refl, .refl⟩
    | tail _ hyz ih =>
      rcases hnew _ _ hyz with hold | ⟨rfl, rfl⟩
      · rcases ih with ih | ⟨hxa, hby⟩
        · exact .inl (ih.tail hold)
        · exact .inr ⟨hxa, hby.tail hold⟩
      · rcases ih with ih | ⟨_, hba⟩
        · exact .inr ⟨ih.to_reflTransGen, .refl⟩
        · exact absurd hba hback
  intro hx
  rcases hsplit x hx with hold | ⟨hxa, hbx⟩
  · exact h x hold
  · exact hback (hbx.trans hxa)

/-- The definitions of modules: they are requests that were made to define them, and wait for one
another in no circle. -/
structure Defining (g : Registry) (rs : Requests ν) : Prop where
  issued : ∀ {url id}, g.definition? url = some id → rs.Issued id
  bound : ∀ {url id r}, g.definition? url = some id → rs.get? id = some r →
    r.definitionUrl = some url
  acyclic : ∀ url, ¬ TransGen (g.WaitsFor rs) url url

namespace Defining

variable {g g' : Registry} {rs rs' : Requests ν}

theorem init : Defining .empty (.empty : Requests ν) where
  issued := by
    intro url id h
    cases h
  bound := by
    intro url id r h
    cases h
  acyclic := by
    intro url h
    have hno : ∀ x y, ¬ Registry.WaitsFor .empty (.empty : Requests ν) x y := by
      intro x y hxy
      obtain ⟨id, r, hid, _⟩ := Registry.waitsFor_iff.mp hxy
      cases hid
    obtain ⟨y, hy, _⟩ := TransGen.head'_iff.mp h
    exact hno _ _ hy

theorem shrink (h : Defining g rs)
    (hdef : ∀ url id, g'.definition? url = some id → g.definition? url = some id)
    (hissued : ∀ id, rs.Issued id → rs'.Issued id)
    (hlive : ∀ id r', rs'.get? id = some r' → (∃ url, g'.definition? url = some id) →
      ∃ r, rs.get? id = some r ∧ r'.definitionUrl = r.definitionUrl ∧
        r'.pendingModules ⊆ r.pendingModules) : Defining g' rs' where
  issued := by
    intro url id hid
    exact hissued id (h.issued (hdef url id hid))
  bound := by
    intro url id r' hid hr'
    obtain ⟨r, hr, hd, _⟩ := hlive id r' hr' ⟨url, hid⟩
    rw [hd]
    exact h.bound (hdef url id hid) hr
  acyclic := by
    intro url hcycle
    refine h.acyclic url (TransGen.mono ?_ _ _ hcycle)
    intro x y hxy
    obtain ⟨id, r', hid, hr', hy⟩ := Registry.waitsFor_iff.mp hxy
    obtain ⟨r, hr, _, hsub⟩ := hlive id r' hr' ⟨x, hid⟩
    exact Registry.waitsFor_iff.mpr ⟨id, r, hdef x id hid, hr, hsub hy⟩

theorem pendingModules_eq_nil {r : Request ν} (h : Loader.Unlinked r) : r.pendingModules = [] := by
  rw [List.eq_nil_iff_forall_not_mem]
  intro url hurl
  obtain ⟨i, s, hs, _, hm⟩ := Request.mem_pendingModules.mp hurl
  rw [(h s (Request.mem_slots.mpr ⟨i, hs⟩)).1] at hm
  cases hm

/-- A request that is entered waits for nothing yet. -/
theorem enter {l : Loader ν} (h : Defining l.registry l.requests) {r : Request ν}
    (hun : Loader.Unlinked r) :
    Defining (l.enter r).2.registry (l.enter r).2.requests := by
  have hnew := Loader.not_issued_enter l r
  have hget : ∀ {id r'}, (l.enter r).2.requests.get? id = some r' → id ≠ (l.enter r).1 →
      l.requests.get? id = some r' := by
    intro id r' hr' hne
    rcases Requests.get?_insert_eq_some hr' with ⟨hid, _⟩ | hold
    · exact absurd hid hne
    · exact hold
  have hself : ∀ {r'}, (l.enter r).2.requests.get? (l.enter r).1 = some r' → r' = r := by
    intro r' hr'
    rw [Loader.get?_enter_self] at hr'
    cases hr'
    rfl
  have hdef : ∀ {url id}, (l.enter r).2.registry.definition? url = some id →
      id = (l.enter r).1 ∧ r.definitionUrl = some url ∨
        id ≠ (l.enter r).1 ∧ l.registry.definition? url = some id := by
    intro url id hid
    have hold : l.registry.definition? url = some id →
        id ≠ (l.enter r).1 ∧ l.registry.definition? url = some id := by
      intro hid
      exact ⟨fun heq => hnew (heq ▸ h.issued hid), hid⟩
    cases hd : r.definitionUrl with
    | none =>
      simp only [Loader.enter, hd, Loader.record] at hid
      exact .inr (hold hid)
    | some u =>
      simp only [Loader.enter, hd, Loader.record, Registry.definition?_setDefinition] at hid
      split at hid
      · rename_i hu
        cases hg : l.registry.get? url with
        | none =>
          rw [hg] at hid
          cases hid
        | some rec =>
          rw [hg] at hid
          cases hid
          exact .inl ⟨rfl, by rw [hu]⟩
      · exact .inr (hold hid)
  refine ⟨?_, ?_, ?_⟩
  · intro url id hid
    rcases hdef hid with ⟨rfl, _⟩ | ⟨_, hid⟩
    · exact Requests.issued_of_get? (Loader.get?_enter_self l r)
    · exact Nat.le_succ_of_le (h.issued hid)
  · intro url id r' hid hr'
    rcases hdef hid with ⟨rfl, hurl⟩ | ⟨hne, hid⟩
    · rw [hself hr']
      exact hurl
    · exact h.bound hid (hget hr' hne)
  · intro url hcycle
    refine h.acyclic url (TransGen.mono ?_ _ _ hcycle)
    intro x y hxy
    obtain ⟨id, r', hid, hr', hy⟩ := Registry.waitsFor_iff.mp hxy
    rcases hdef hid with ⟨rfl, _⟩ | ⟨hne, hid⟩
    · rw [hself hr', pendingModules_eq_nil hun] at hy
      cases hy
    · exact Registry.waitsFor_iff.mpr ⟨id, r', hid, hget hr' hne, hy⟩

/-- Linking adds one edge at most, from the module that the request defines to the one it is linked
to. -/
theorem waitsFor_of_attach {l : Loader ν} (h : Defining l.registry l.requests) {id : RequestId}
    {r : Request ν} {i : Nat} {t : Target} (hr : l.requests.get? id = some r) {x y : String}
    (hxy : (l.attach id i t).registry.WaitsFor (l.attach id i t).requests x y) :
    l.registry.WaitsFor l.requests x y ∨ r.definitionUrl = some x ∧ y = t.key := by
  obtain ⟨id', r', hid', hr', hy⟩ := Registry.waitsFor_iff.mp hxy
  rw [Loader.definition?_attach] at hid'
  rw [Loader.requests_attach] at hr'
  by_cases hid : id' = id
  · subst hid
    rw [Requests.get?_modify_self (·.link i t.key) hr] at hr'
    cases hr'
    obtain ⟨j, s', hs', hv, hm⟩ := Request.mem_pendingModules.mp hy
    rw [Request.slot?_link] at hs'
    obtain ⟨s, hs, rfl⟩ := Option.map_eq_some_iff.mp hs'
    by_cases hj : j = i
    · rw [if_pos hj] at hm
      cases hm
      exact .inr ⟨h.bound hid' hr, rfl⟩
    · rw [if_neg hj] at hv hm
      exact .inl (Registry.waitsFor_iff.mpr
        ⟨id', r, hid', hr, Request.mem_pendingModules.mpr ⟨j, s, hs, hv, hm⟩⟩)
  · rw [Requests.get?_modify_of_ne _ hid] at hr'
    exact .inl (Registry.waitsFor_iff.mpr ⟨id', r', hid', hr', hy⟩)

theorem attach {l : Loader ν} (h : Defining l.registry l.requests) {id : RequestId}
    {r : Request ν} (i : Nat) (t : Target) (hr : l.requests.get? id = some r)
    (hfree : ∀ definer, r.definitionUrl = some definer →
      l.registry.findCycle l.requests definer t.key = none) :
    Defining (l.attach id i t).registry (l.attach id i t).requests := by
  have hdef := Loader.definition?_attach l id i t
  have hedge : ∀ x y, (l.attach id i t).registry.WaitsFor (l.attach id i t).requests x y →
      l.registry.WaitsFor l.requests x y ∨ r.definitionUrl = some x ∧ y = t.key :=
    fun x y hxy => h.waitsFor_of_attach hr hxy
  refine ⟨?_, ?_, ?_⟩
  · intro url id' hid'
    rw [hdef] at hid'
    rw [Requests.Issued, Loader.requests_attach, Requests.serial_modify]
    exact h.issued hid'
  · intro url id' r' hid' hr'
    rw [hdef] at hid'
    rw [Loader.requests_attach] at hr'
    rcases Requests.get?_modify_eq_some hr' with ⟨rfl, r'', hr'', rfl⟩ | ⟨_, hr''⟩
    · rw [Request.definitionUrl_link]
      exact h.bound hid' hr''
    · exact h.bound hid' hr''
  · intro url
    cases hd : r.definitionUrl with
    | none =>
      intro hcycle
      refine h.acyclic url (TransGen.mono ?_ _ _ hcycle)
      intro x y hxy
      rcases hedge x y hxy with hold | ⟨hx, _⟩
      · exact hold
      · rw [hd] at hx
        cases hx
    | some definer =>
      refine acyclic_of_new_edge (a := definer) (b := t.key) ?_ h.acyclic
        (Registry.findCycle_eq_none_iff.mp (hfree definer hd)) url
      intro x y hxy
      rcases hedge x y hxy with hold | ⟨hx, hy⟩
      · exact .inl hold
      · rw [hd] at hx
        cases hx
        exact .inr ⟨rfl, hy⟩

/-! ## Everything else makes definitions wait for less -/

theorem ofRequests (h : Defining g rs) (hissued : rs'.serial = rs.serial)
    (hlive : ∀ id r', rs'.get? id = some r' → rs.get? id = some r') : Defining g rs' :=
  h.shrink (fun _ _ hid => hid) (fun _ hid => by rwa [Requests.Issued, hissued])
    (fun id r' hr' _ => ⟨r', hlive id r' hr', rfl, List.Subset.refl _⟩)

theorem ofRegistry (h : Defining g rs)
    (hdef : ∀ url id, g'.definition? url = some id → g.definition? url = some id) :
    Defining g' rs :=
  h.shrink hdef (fun _ hid => hid) (fun _ r' hr' _ => ⟨r', hr', rfl, List.Subset.refl _⟩)

theorem erase (h : Defining g rs) (id : RequestId) : Defining g (rs.erase id) := by
  refine h.ofRequests (Requests.serial_erase rs id) ?_
  intro id' r' hr'
  rw [Requests.get?_erase] at hr'
  split at hr'
  · cases hr'
  · exact hr'

/-- A request may change without waiting for more. -/
theorem modify (h : Defining g rs) (id : RequestId) {f : Request ν → Request ν}
    (hd : ∀ r, (f r).definitionUrl = r.definitionUrl)
    (hp : ∀ r, (f r).pendingModules ⊆ r.pendingModules) : Defining g (rs.modify id f) := by
  refine h.shrink (fun _ _ hid => hid)
    (fun _ hid => by rwa [Requests.Issued, Requests.serial_modify]) ?_
  intro id' r' hr' _
  rcases Requests.get?_modify_eq_some hr' with ⟨rfl, r, hr, rfl⟩ | ⟨_, hr⟩
  · exact ⟨r, hr, hd r, hp r⟩
  · exact ⟨r', hr, rfl, List.Subset.refl _⟩

theorem pendingModules_fill (r : Request ν) (i : Nat) (v : ModuleValue) :
    (r.fill i v).pendingModules ⊆ r.pendingModules := by
  intro url hurl
  obtain ⟨j, s', hs', hv, hm⟩ := Request.mem_pendingModules.mp hurl
  rw [Request.slot?_fill] at hs'
  obtain ⟨s, hs, rfl⟩ := Option.map_eq_some_iff.mp hs'
  split at hv
  · cases hv
  · rename_i hc
    rw [if_neg hc] at hm
    exact Request.mem_pendingModules.mpr ⟨j, s, hs, hv, hm⟩

theorem fill (h : Defining g rs) (id : RequestId) (i : Nat) (v : ModuleValue) :
    Defining g (rs.modify id (·.fill i v)) :=
  h.modify id (fun r => Request.definitionUrl_fill r i v) fun r => pendingModules_fill r i v

theorem dropWaiters (h : Defining g rs) (urls : List String) (id : RequestId) :
    Defining (urls.foldl (fun g url => g.dropWaiters url id) g) rs := by
  induction urls generalizing g with
  | nil => exact h
  | cons url rest ih => exact ih (h.ofRegistry fun u id' hid => by simpa using hid)

variable {l : Loader ν}

theorem withdraw (h : Defining l.registry l.requests) (id : RequestId) (r : Request ν) :
    Defining (l.withdraw id r).registry (l.withdraw id r).requests :=
  (h.erase id).dropWaiters r.modules id

theorem readyModule (h : Defining l.registry l.requests) (url : String) (v : ModuleValue) :
    Defining (l.readyModule url v).registry (l.readyModule url v).requests :=
  h.ofRegistry fun _ _ hid => Registry.definition?_of_settle (fun _ => .inl rfl) hid

theorem abandonModule (h : Defining l.registry l.requests) (url : String) (e : LoadError) :
    Defining (l.abandonModule url e).registry (l.abandonModule url e).requests :=
  h.ofRegistry fun _ _ hid =>
    (Registry.definition?_of_setDefinition_none
      (Registry.definition?_of_settle (f := fun r => { r with state := .failed e })
        (fun _ => .inr rfl) hid)).2

end Defining

namespace Loader

def WellDefining (l : Loader ν) : Prop := Defining l.registry l.requests

/-- Where no request is to define a module, the one that it is bound to is not live. -/
theorem WellDefining.get?_eq_none {l : Loader ν} (h : l.WellDefining) {url : String}
    (hnone : ∀ id r, l.requests.get? id = some r → r.definitionUrl ≠ some url) {id : RequestId}
    (hid : l.registry.definition? url = some id) : l.requests.get? id = none := by
  by_contra hlive
  obtain ⟨r, hr⟩ := Option.ne_none_iff_exists'.mp hlive
  exact hnone id r hr (h.bound hid hr)

theorem keptByLinking_wellDefining : KeptByLinking fun l : Loader ν => l.WellDefining where
  linked _ _ h := h
  context id _ h := Defining.modify h id (fun _ => rfl) fun _ => List.Subset.refl _
  stop _ h _ := h
  attach i t h hr hfree := Defining.attach h i t hr hfree

variable {l : Loader ν}

theorem WellDefining.submit (h : l.WellDefining) (frame : Option Frame)
    (dependencies : List String) (callback : List ModuleValue → Script ν)
    (errback : Option (LoadError → Script ν)) (definitionUrl : Option String) :
    (l.submit frame dependencies callback errback definitionUrl).WellDefining :=
  keptByLinking_wellDefining.submit (fun _ h => h) (fun _ h => h)
    (Defining.enter h (unlinked_ofCall _ _ _ _ _))

theorem WellDefining.afterEstablishing (h : l.WellDefining) (change : Bool × Bootstrap) :
    (l.afterEstablishing change).2.WellDefining :=
  keptByLinking_wellDefining.afterEstablishing (fun _ h => h) h change

theorem WellDefining.finishMain (h : l.WellDefining) (t : Target) :
    (l.finishMain t).WellDefining :=
  keptByLinking_wellDefining.finishMain (fun _ h => h) h t

end Loader

open Loader in
theorem maintained_defining : Maintained fun (l : Loader ν) _ => l.WellDefining where
  aside h _ := h
  make _ h := h
  fetches h _ := h
  arrive h _ := h
  enter _ h _ := h
  require frame dependencies callback errback h :=
    WellDefining.submit h frame dependencies callback errback none
  define _ _ dependencies factory errback h :=
    WellDefining.submit h _ dependencies factory errback _
  unwatch h := h
  setDefaultBase _ h := h
  establish _ h := WellDefining.afterEstablishing h _
  beginMain _ _ h _ := h
  finishMain t h := WellDefining.finishMain h t
  ready v h := Defining.readyModule h _ v
  abandon e h _ _ := Defining.abandonModule h _ e
  abandonDefinition e h _ _ _ := Defining.withdraw (Defining.abandonModule h _ e) _ _
  finish h _ := h
  fault h _ := h
  handle h _ := h
  dispatch h _ := h
  redispatch h _ := h
  drained h _ := h
  dead h _ _ := h
  fill h _ _ _ := Defining.fill h _ _ _
  fillFire h _ _ _ := (Defining.fill h _ _ _).erase _
  fire h _ _ := Defining.erase h _
  fail h _ _ := Defining.withdraw h _ _

theorem Machine.Reachable.wellDefining {m : Machine ν} (h : m.Reachable) :
    m.loader.WellDefining :=
  maintained_defining.reachable (fun _ _ => Defining.init) h

end AsyncModule
