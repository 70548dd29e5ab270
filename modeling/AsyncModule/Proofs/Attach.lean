import AsyncModule.Loader

/-!
# AsyncModule.Proofs.Attach

What linking does to a loader, one slot after the other. Linking a slot notes the module in the
request; then either the slot waits for a module that is not settled, or a step goes into the
worklist on account of one that is.

* `attach_open`, `attach_ready`, `attach_failed` — the three ways of one slot.
* `get?_link_of_ne`, `bootstrap_link` — what linking a request leaves alone.
* `linkSlots_cases`                   — linking links every slot or stops at one.
* `linkSlots_upTo`                    — it goes through the slots in their order.
* `KeptByLinking.link`                — what each thing that linking does keeps, it keeps.
-/

namespace AsyncModule

/-- A module is settled or it is not. -/
theorem Registry.open_or_settled (g : Registry) (url : String) :
    (∀ s, g.state? url = some s → s.isSettled = false) ∨
      (∃ v, g.state? url = some (.ready v)) ∨ ∃ e, g.state? url = some (.failed e) := by
  cases hs : g.state? url with
  | none => exact .inl fun s h => by cases h
  | some s =>
    cases s with
    | known => exact .inl fun s h => by cases h; rfl
    | loading => exact .inl fun s h => by cases h; rfl
    | ready v => exact .inr (.inl ⟨v, rfl⟩)
    | failed e => exact .inr (.inr ⟨e, rfl⟩)

variable {ν : Type}

/-- The first `n` dependencies of a request are linked to the modules that they name, and nothing
else is; no slot is filled. -/
structure Request.LinkedUpTo (r : Request ν) (resolver : Resolver) (ctx : Context) (n : Nat) :
    Prop where
  linked : ∀ {j s}, r.slot? j = some s → j < n →
    ∃ t, resolver.resolve s.specifier ctx = .ok t ∧ s.module = some t.key
  unlinked : ∀ {j s}, r.slot? j = some s → n ≤ j → s.module = none
  empty : ∀ {j s}, r.slot? j = some s → s.value = none

theorem Request.LinkedUpTo.link {r : Request ν} {resolver : Resolver} {ctx : Context} {n : Nat}
    {s : Slot} {t : Target} (h : r.LinkedUpTo resolver ctx n) (hs : r.slot? n = some s)
    (ht : resolver.resolve s.specifier ctx = .ok t) :
    (r.link n t.key).LinkedUpTo resolver ctx (n + 1) := by
  have hold : ∀ {j s'}, (r.link n t.key).slot? j = some s' →
      j = n ∧ s' = { s with module := some t.key } ∨ j ≠ n ∧ r.slot? j = some s' := by
    intro j s' hs'
    rw [slot?_link] at hs'
    obtain ⟨s'', hs'', rfl⟩ := Option.map_eq_some_iff.mp hs'
    by_cases hj : j = n
    · subst hj
      rw [hs] at hs''
      cases hs''
      exact .inl ⟨rfl, if_pos rfl⟩
    · rw [if_neg hj]
      exact .inr ⟨hj, hs''⟩
  refine ⟨?_, ?_, ?_⟩
  · intro j s' hs' hj
    rcases hold hs' with ⟨_, rfl⟩ | ⟨hne, hs'⟩
    · exact ⟨t, ht, rfl⟩
    · exact h.linked hs' (by omega)
  · intro j s' hs' hj
    rcases hold hs' with ⟨rfl, _⟩ | ⟨_, hs'⟩
    · omega
    · exact h.unlinked hs' (by omega)
  · intro j s' hs'
    rcases hold hs' with ⟨_, rfl⟩ | ⟨_, hs'⟩
    · show s.value = none
      exact h.empty hs
    · exact h.empty hs'

namespace Loader

@[simp] theorem requests_attach (l : Loader ν) (id : RequestId) (i : Nat) (t : Target) :
    (l.attach id i t).requests = l.requests.modify id (·.link i t.key) := by
  unfold attach
  dsimp only
  split <;> rfl

@[simp] theorem bootstrap_attach (l : Loader ν) (id : RequestId) (i : Nat) (t : Target) :
    (l.attach id i t).bootstrap = l.bootstrap := by
  unfold attach
  dsimp only
  split <;> rfl

@[simp] theorem resolver_attach (l : Loader ν) (id : RequestId) (i : Nat) (t : Target) :
    (l.attach id i t).resolver = l.resolver := by
  unfold attach
  dsimp only
  split <;> rfl

@[simp] theorem resources_attach (l : Loader ν) (id : RequestId) (i : Nat) (t : Target) :
    (l.attach id i t).resources = l.resources := by
  unfold attach
  dsimp only
  split <;> rfl

theorem attach_cases (l : Loader ν) (id : RequestId) (i : Nat) (t : Target) :
    ((l.attach id i t).fetches = l.fetches ∧ (l.attach id i t).journal = l.journal) ∨
      ((l.attach id i t).fetches = l.fetches.start t .module (l.resources t) ∧
        (l.attach id i t).journal = .load t .module :: l.journal) := by
  unfold attach
  dsimp only
  split
  · exact .inr ⟨rfl, rfl⟩
  · exact .inl ⟨rfl, rfl⟩
  · exact .inl ⟨rfl, rfl⟩
  · exact .inl ⟨rfl, rfl⟩

/-- A module that is not settled is loading afterwards, and the slot waits for it. -/
theorem attach_open {l : Loader ν} (id : RequestId) (i : Nat) {t : Target}
    (h : ∀ s, l.registry.state? t.key = some s → s.isSettled = false) :
    (l.attach id i t).worklist = l.worklist ∧
    (∀ u, (l.attach id i t).registry.state? u =
      if u = t.key then some .loading else l.registry.state? u) ∧
    (∀ u, (l.attach id i t).registry.waiters u =
      if u = t.key then l.registry.waiters u ++ [⟨id, i⟩] else l.registry.waiters u) ∧
    (∀ u, (l.attach id i t).registry.definition? u = l.registry.definition? u) := by
  unfold attach
  dsimp only
  cases hg : l.registry.get? t.key with
  | none =>
    have hs : (l.registry.insertNew t).state? t.key = some .known := by
      simp [Registry.state?, Registry.get?_insertNew, hg]
    simp only [hs]
    refine ⟨rfl, ?_, ?_, ?_⟩
    all_goals
      intro u
      simp only [load, record, Registry.state?, Registry.waiters, Registry.definition?,
        Registry.get?_modify, Registry.get?_insertNew]
      by_cases hu : u = t.key
      · simp [hu, hg]
      · simp [hu]
  | some r =>
    have hr : l.registry.state? t.key = some r.state := by simp [Registry.state?, hg]
    rw [Registry.insertNew_of_state? hr]
    have hs := h r.state hr
    cases hst : r.state with
    | ready v => rw [hst] at hs; cases hs
    | failed e => rw [hst] at hs; cases hs
    | known =>
      simp only [hr, hst]
      refine ⟨rfl, ?_, ?_, ?_⟩
      all_goals
        intro u
        simp only [load, record, Registry.state?, Registry.waiters, Registry.definition?,
          Registry.get?_modify]
        by_cases hu : u = t.key
        · simp [hu, hg]
        · simp [hu]
    | loading =>
      simp only [hr, hst]
      refine ⟨trivial, ?_, ?_, ?_⟩
      all_goals
        intro u
        simp only [Registry.state?, Registry.waiters, Registry.definition?, Registry.get?_modify]
        by_cases hu : u = t.key
        · simp [hu, hg, hst]
        · simp [hu]

theorem attach_ready {l : Loader ν} (id : RequestId) (i : Nat) {t : Target} {v : ModuleValue}
    (h : l.registry.state? t.key = some (.ready v)) :
    (l.attach id i t).registry = l.registry ∧
      (l.attach id i t).worklist = l.worklist ++ [.fill id i v] := by
  unfold attach
  simp [Registry.insertNew_of_state? h, h, enqueue]

theorem attach_failed {l : Loader ν} (id : RequestId) (i : Nat) {t : Target} {e : LoadError}
    (h : l.registry.state? t.key = some (.failed e)) :
    (l.attach id i t).registry = l.registry ∧
      (l.attach id i t).worklist = l.worklist ++ [.fail id (.dependency t.key e)] := by
  unfold attach
  simp [Registry.insertNew_of_state? h, h, enqueue]

theorem definition?_attach (l : Loader ν) (id : RequestId) (i : Nat) (t : Target) (u : String) :
    (l.attach id i t).registry.definition? u = l.registry.definition? u := by
  rcases l.registry.open_or_settled t.key with ho | ⟨v, hv⟩ | ⟨e, he⟩
  · exact (attach_open id i ho).2.2.2 u
  · rw [(attach_ready id i hv).1]
  · rw [(attach_failed id i he).1]

/-- Linking a slot changes the state of no module but its own, which is loading if it was not
settled. -/
theorem state?_of_attach {l : Loader ν} {id : RequestId} {i : Nat} {t : Target} {u : String}
    {s : ModuleState} (h : (l.attach id i t).registry.state? u = some s) :
    l.registry.state? u = some s ∨ u = t.key ∧ s = .loading ∧
      ∀ s', l.registry.state? t.key = some s' → s'.isSettled = false := by
  rcases l.registry.open_or_settled t.key with ho | ⟨v, hv⟩ | ⟨e, he⟩
  · rw [(attach_open id i ho).2.1] at h
    split at h
    · rename_i hu
      cases h
      exact .inr ⟨hu, rfl, ho⟩
    · exact .inl h
  · rw [(attach_ready id i hv).1] at h
    exact .inl h
  · rw [(attach_failed id i he).1] at h
    exact .inl h

/-- Linking a slot fails no request but its own, and this one for a module that has failed. -/
theorem fail_of_attach {l : Loader ν} {id id' : RequestId} {i : Nat} {t : Target} {e : LoadError}
    (h : .fail id' e ∈ (l.attach id i t).worklist) :
    .fail id' e ∈ l.worklist ∨ id' = id ∧ ∃ e', l.registry.state? t.key = some (.failed e') := by
  rcases l.registry.open_or_settled t.key with ho | ⟨v, hv⟩ | ⟨e', he⟩
  · rw [(attach_open id i ho).1] at h
    exact .inl h
  · rw [(attach_ready id i hv).2] at h
    exact .inl ((List.mem_append.mp h).resolve_right (by simp))
  · rw [(attach_failed id i he).2] at h
    rcases List.mem_append.mp h with h | h
    · exact .inl h
    · rw [List.mem_singleton] at h
      cases h
      exact .inr ⟨rfl, e', he⟩

theorem fetches_attach {l : Loader ν} {t : Target} (id : RequestId) (i : Nat)
    (h : ∀ s, l.registry.state? t.key = some s → s = .known) :
    (l.attach id i t).fetches = l.fetches.start t .module (l.resources t) := by
  have hs : (l.registry.insertNew t).state? t.key = some .known := by
    cases hg : l.registry.get? t.key with
    | none => simp [Registry.state?, Registry.get?_insertNew, hg]
    | some r =>
      have hr : l.registry.state? t.key = some r.state := by simp [Registry.state?, hg]
      rw [Registry.insertNew_of_state? hr, hr, h _ hr]
  unfold attach
  dsimp only
  simp only [hs]
  rfl

theorem fetches_attach_of_asked {l : Loader ν} {t : Target} {s : ModuleState} (id : RequestId)
    (i : Nat) (h : l.registry.state? t.key = some s) (hs : s ≠ .known) :
    (l.attach id i t).fetches = l.fetches := by
  unfold attach
  dsimp only
  simp only [Registry.insertNew_of_state? h, h]
  cases s with
  | known => exact absurd rfl hs
  | _ => rfl

theorem journal_attach {l : Loader ν} {t : Target} (id : RequestId) (i : Nat)
    (h : ∀ s, l.registry.state? t.key = some s → s = .known) :
    (l.attach id i t).journal = .load t .module :: l.journal := by
  rcases attach_cases l id i t with ⟨hold, _⟩ | ⟨_, hnew⟩
  · rw [fetches_attach id i h] at hold
    exact absurd (congrArg Fetches.count hold) (by simp [Fetches.start])
  · exact hnew

theorem journal_attach_of_asked {l : Loader ν} {t : Target} {s : ModuleState} (id : RequestId)
    (i : Nat) (h : l.registry.state? t.key = some s) (hs : s ≠ .known) :
    (l.attach id i t).journal = l.journal := by
  rcases attach_cases l id i t with ⟨_, hold⟩ | ⟨hnew, _⟩
  · exact hold
  · rw [fetches_attach_of_asked id i h hs] at hnew
    exact absurd (congrArg Fetches.count hnew) (by simp [Fetches.start])

/-- What is loading still is after a slot has been linked. -/
theorem loading_attach {l : Loader ν} {t : Target} {u : String} (id : RequestId) (i : Nat)
    (hu : l.registry.state? u = some .loading) :
    (l.attach id i t).registry.state? u = some .loading := by
  rcases l.registry.open_or_settled t.key with ho | ⟨v, hv⟩ | ⟨e, he⟩
  · rw [(attach_open id i ho).2.1]
    split
    · rfl
    · exact hu
  · rw [(attach_ready id i hv).1]
    exact hu
  · rw [(attach_failed id i he).1]
    exact hu

theorem errands_subset_attach (l : Loader ν) (id : RequestId) (i : Nat) (t : Target) :
    l.fetches.errands ⊆ (l.attach id i t).fetches.errands := by
  unfold attach
  dsimp only
  split
  · intro e he
    have hmem := List.mem_append_left [(l.fetches.count, t, LoadRole.module)] he
    rwa [← Fetches.errands_start l.fetches t .module (l.resources t)] at hmem
  · exact List.Subset.refl _
  · exact List.Subset.refl _
  · exact List.Subset.refl _

/-! ## All slots of a request -/

@[simp] theorem bootstrap_linkSlots (ctx : Context) (id : RequestId) (definer : Option String)
    (slots : List (String × Nat)) (l : Loader ν) :
    (linkSlots ctx id definer slots l).bootstrap = l.bootstrap := by
  induction slots generalizing l with
  | nil => rfl
  | cons p rest ih =>
    obtain ⟨specifier, i⟩ := p
    simp only [linkSlots]
    split
    · rfl
    · split
      · rfl
      · rw [ih, bootstrap_attach]

theorem get?_linkSlots_of_ne {ctx : Context} {id id' : RequestId} {definer : Option String}
    {slots : List (String × Nat)} {l : Loader ν} (hne : id' ≠ id) :
    (linkSlots ctx id definer slots l).requests.get? id' = l.requests.get? id' := by
  induction slots generalizing l with
  | nil => rfl
  | cons p rest ih =>
    obtain ⟨specifier, i⟩ := p
    simp only [linkSlots]
    split
    · rfl
    · split
      · rfl
      · rw [ih, requests_attach, Requests.get?_modify, if_neg hne]

@[simp] theorem bootstrap_link (l : Loader ν) (id : RequestId) (ctx : Context) :
    (l.link id ctx).bootstrap = l.bootstrap := by
  unfold link
  split
  · rfl
  · simp [record]

theorem get?_link_of_ne {l : Loader ν} {id id' : RequestId} {ctx : Context} (hne : id' ≠ id) :
    (l.link id ctx).requests.get? id' = l.requests.get? id' := by
  unfold link
  split
  · rfl
  · rw [get?_linkSlots_of_ne hne]
    simp [record, Requests.get?_modify, hne]

/-- Why linking stops at a specifier. -/
inductive Stop (l : Loader ν) (ctx : Context) (definer : Option String) (specifier : String) :
    LoadError → Prop where
  | unresolved {e : LoadError} (h : l.resolver.resolve specifier ctx = .error e) :
      Stop l ctx definer specifier e
  | cycle {t : Target} {d : String} {chain : List String}
      (ht : l.resolver.resolve specifier ctx = .ok t) (hd : definer = some d)
      (hc : l.registry.findCycle l.requests d t.key = some chain) :
      Stop l ctx definer specifier (.cycle chain)

/-- Linking goes from slot to slot, until all are linked or it stops at one. -/
theorem linkSlots_cases {ctx : Context} {id : RequestId} {definer : Option String}
    {Q : List (String × Nat) → Loader ν → Prop}
    (hattach : ∀ {specifier i rest l t}, Q ((specifier, i) :: rest) l →
      l.resolver.resolve specifier ctx = .ok t →
      (∀ d, definer = some d → l.registry.findCycle l.requests d t.key = none) →
      Q rest (l.attach id i t)) (slots : List (String × Nat)) :
    ∀ {l : Loader ν}, Q slots l → Q [] (linkSlots ctx id definer slots l) ∨
      ∃ specifier i rest l' e, Q ((specifier, i) :: rest) l' ∧ Stop l' ctx definer specifier e ∧
        linkSlots ctx id definer slots l = l'.enqueue (.fail id e) := by
  induction slots with
  | nil => exact fun h => .inl h
  | cons p rest ih =>
    intro l h
    obtain ⟨specifier, i⟩ := p
    simp only [linkSlots]
    split
    · rename_i e he
      exact .inr ⟨specifier, i, rest, l, e, h, .unresolved he, rfl⟩
    · rename_i t ht
      split
      · rename_i chain hc
        obtain ⟨d, hd, hc⟩ := Option.bind_eq_some_iff.mp hc
        exact .inr ⟨specifier, i, rest, l, _, h, .cycle ht hd hc, rfl⟩
      · rename_i hfree
        refine ih (hattach h ht ?_)
        rintro d rfl
        exact hfree

theorem zipIdx_drop_eq_cons {α : Type} {xs : List α} {x : α} {n i : Nat} {rest : List (α × Nat)}
    (h : xs.zipIdx.drop n = (x, i) :: rest) :
    i = n ∧ xs[n]? = some x ∧ xs.zipIdx.drop (n + 1) = rest := by
  have hhead : (xs.zipIdx.drop n)[0]? = some (x, i) := by rw [h]; rfl
  rw [List.getElem?_drop, List.getElem?_zipIdx] at hhead
  obtain ⟨x', hx, heq⟩ := Option.map_eq_some_iff.mp hhead
  simp only [Nat.add_zero, Nat.zero_add, Prod.mk.injEq] at hx heq
  obtain ⟨rfl, rfl⟩ := heq
  refine ⟨rfl, hx, ?_⟩
  rw [← List.drop_drop, h]
  rfl

/-- Linking goes from one dependency of a request to the next, until all are linked or it stops. -/
theorem linkSlots_upTo {ctx : Context} {id : RequestId} {definer : Option String}
    {dependencies : List String} {R : Nat → Loader ν → Prop}
    (hattach : ∀ {n specifier l t}, R n l → dependencies[n]? = some specifier →
      l.resolver.resolve specifier ctx = .ok t →
      (∀ d, definer = some d → l.registry.findCycle l.requests d t.key = none) →
      R (n + 1) (l.attach id n t)) {l : Loader ν} (h : R 0 l) :
    ∃ n l', R n l' ∧
      (dependencies[n]? = none ∧ linkSlots ctx id definer dependencies.zipIdx l = l' ∨
        ∃ specifier e, dependencies[n]? = some specifier ∧ Stop l' ctx definer specifier e ∧
          linkSlots ctx id definer dependencies.zipIdx l = l'.enqueue (.fail id e)) := by
  have hnext : ∀ {specifier i rest} {l' : Loader ν} {t},
      (∃ n, dependencies.zipIdx.drop n = (specifier, i) :: rest ∧ R n l') →
      l'.resolver.resolve specifier ctx = .ok t →
      (∀ d, definer = some d → l'.registry.findCycle l'.requests d t.key = none) →
      ∃ n, dependencies.zipIdx.drop n = rest ∧ R n (l'.attach id i t) := by
    rintro specifier i rest l' t ⟨n, hdrop, hleft⟩ ht hfree
    obtain ⟨rfl, hspecifier, hrest⟩ := zipIdx_drop_eq_cons hdrop
    exact ⟨i + 1, hrest, hattach hleft hspecifier ht hfree⟩
  rcases linkSlots_cases (Q := fun slots l' => ∃ n, dependencies.zipIdx.drop n = slots ∧ R n l')
      hnext dependencies.zipIdx ⟨0, rfl, h⟩ with
    ⟨n, hdrop, hdone⟩ | ⟨specifier, i, rest, l', e, ⟨n, hdrop, hleft⟩, hstop, heq⟩
  · refine ⟨n, _, hdone, .inl ⟨?_, rfl⟩⟩
    rw [List.drop_eq_nil_iff, List.length_zipIdx] at hdrop
    exact List.getElem?_eq_none hdrop
  · obtain ⟨_, hspecifier, _⟩ := zipIdx_drop_eq_cons hdrop
    exact ⟨n, l', hleft, .inr ⟨specifier, e, hspecifier, hstop, heq⟩⟩

/-! ## Properties that linking keeps -/

/-- What linking does, one thing after the other, keeps a property of the loader. -/
structure KeptByLinking (Q : Loader ν → Prop) : Prop where
  linked : ∀ {l} id ctx, Q l → Q (l.record (.linked id l.resolver ctx))
  context : ∀ {l} id ctx, Q l →
    Q { l with requests := l.requests.modify id fun r => { r with context := some ctx } }
  /-- Linking stops at a specifier. -/
  stop : ∀ {l id r} e, Q l → l.requests.get? id = some r → Q (l.enqueue (.fail id e))
  attach : ∀ {l id r} i t, Q l → l.requests.get? id = some r →
    (∀ definer, r.definitionUrl = some definer →
      l.registry.findCycle l.requests definer t.key = none) → Q (l.attach id i t)

namespace KeptByLinking

variable {Q : Loader ν → Prop}

theorem linkSlots (hQ : KeptByLinking Q) {ctx : Context} {id : RequestId}
    {definer : Option String} (slots : List (String × Nat)) :
    ∀ {l : Loader ν} {r : Request ν}, Q l → l.requests.get? id = some r →
      r.definitionUrl = definer → Q (Loader.linkSlots ctx id definer slots l) := by
  induction slots with
  | nil =>
    intro l r h _ _
    exact h
  | cons p rest ih =>
    intro l r h hr hd
    obtain ⟨specifier, i⟩ := p
    simp only [Loader.linkSlots]
    split
    · exact hQ.stop _ h hr
    · rename_i t _
      split
      · exact hQ.stop _ h hr
      · rename_i hcycle
        refine ih (r := r.link i t.key) (hQ.attach i t h hr ?_) ?_ (by rw [← hd]; simp)
        · intro d hdr
          rw [← hd, hdr] at hcycle
          exact hcycle
        · rw [requests_attach]
          exact Requests.get?_modify_self _ hr

theorem link (hQ : KeptByLinking Q) {l : Loader ν} (h : Q l) (id : RequestId) (ctx : Context) :
    Q (l.link id ctx) := by
  unfold Loader.link
  split
  · exact h
  · rename_i r hr
    exact hQ.linkSlots _ (hQ.linked id ctx (hQ.context id ctx h))
      (Requests.get?_modify_self _ hr) rfl

theorem linkAll (hQ : KeptByLinking Q) (ctx : Context) (ids : List RequestId) :
    ∀ {l : Loader ν}, Q l → Q (ids.foldl (fun l id => l.link id ctx) l) := by
  induction ids with
  | nil => exact fun h => h
  | cons id rest ih => exact fun h => ih (hQ.link h id ctx)

theorem drainDeferred (hQ : KeptByLinking Q) {l : Loader ν}
    (h : l.bootstrap.context? = none → Q l)
    (htake : Q { l with bootstrap := { l.bootstrap with deferred := [] } }) :
    Q l.drainDeferred := by
  unfold Loader.drainDeferred
  split
  · rename_i hc
    exact h hc
  · rename_i ctx _
    exact hQ.linkAll ctx _ htake

/-- Where contexts do not matter, setting them up does not. -/
theorem afterEstablishing (hQ : KeptByLinking Q)
    (hcontext : ∀ {l : Loader ν} (b : Bootstrap), Q l → Q { l with bootstrap := b })
    {l : Loader ν} (h : Q l) (change : Bool × Bootstrap) : Q (l.afterEstablishing change).2 := by
  unfold Loader.afterEstablishing
  dsimp only
  split
  · exact hQ.drainDeferred (fun _ => hcontext _ h) (@hcontext l _ h)
  · exact hcontext _ h

theorem finishMain (hQ : KeptByLinking Q)
    (hcontext : ∀ {l : Loader ν} (b : Bootstrap), Q l → Q { l with bootstrap := b })
    {l : Loader ν} (h : Q l) (t : Target) : Q (l.finishMain t) := by
  unfold Loader.finishMain
  dsimp only
  split
  · exact hQ.afterEstablishing hcontext h _
  · exact h

theorem begin (hQ : KeptByLinking Q) {l : Loader ν} {id : RequestId} {r : Request ν} (h : Q l)
    (hfire : r.slots = [] → Q (l.enqueue (.fire id)))
    (hdefer : r.slots ≠ [] → r.context = none → Q { l with bootstrap := l.bootstrap.defer id }) :
    Q (l.begin id r) := by
  unfold Loader.begin
  split
  · rename_i he
    exact hfire (List.isEmpty_iff.mp he)
  · rename_i he
    split
    · exact hQ.link h id _
    · rename_i hc
      exact hdefer (fun heq => he (by rw [heq]; rfl)) hc

theorem submit (hQ : KeptByLinking Q)
    (hcontext : ∀ {l : Loader ν} (b : Bootstrap), Q l → Q { l with bootstrap := b })
    (hdue : ∀ {l : Loader ν} (s : Step), Q l → Q (l.enqueue s)) {l : Loader ν}
    {frame : Option Frame} {dependencies : List String} {callback : List ModuleValue → Script ν}
    {errback : Option (LoadError → Script ν)} {definitionUrl : Option String}
    (henter : Q (l.enter (.ofCall dependencies callback errback (l.context? frame)
      definitionUrl)).2) :
    Q (l.submit frame dependencies callback errback definitionUrl) :=
  hQ.begin henter (fun _ => hdue _ henter) fun _ _ => hcontext _ henter

/-- Where the default base does not matter either, neither does setting contexts up by `configure`,
nor by `boot` if a main resource may be loaded. -/
theorem configure (hQ : KeptByLinking Q)
    (hcontext : ∀ {l : Loader ν} (b : Bootstrap), Q l → Q { l with bootstrap := b })
    (hbase : ∀ {l : Loader ν} base, Q l → Q (l.setDefaultBase base)) {l : Loader ν} (h : Q l)
    (base : String) : Q (l.configure base).2 := by
  unfold Loader.configure
  split
  · exact h
  · split
    · exact h
    · exact hQ.afterEstablishing hcontext (hbase _ h) _

theorem boot (hQ : KeptByLinking Q)
    (hcontext : ∀ {l : Loader ν} (b : Bootstrap), Q l → Q { l with bootstrap := b })
    (hbase : ∀ {l : Loader ν} base, Q l → Q (l.setDefaultBase base))
    (hload : ∀ {l : Loader ν} t, Q l → Q (l.load t .main)) {l : Loader ν} (h : Q l)
    (entry : String) (main : Option String) : Q (l.boot entry main).2 := by
  unfold Loader.boot
  split
  · exact h
  · dsimp only
    split
    · exact hQ.afterEstablishing hcontext (hbase _ h) _
    · split
      · exact hbase _ h
      · split
        · exact hbase _ h
        · split
          · exact hbase _ (hbase _ h)
          · exact hload _ (hcontext _ (hbase _ (hbase _ h)))

end KeptByLinking

end Loader
end AsyncModule
