import AsyncModule.Proofs.Loads
import Mathlib.Data.List.Forall2

/-!
# AsyncModule.Proofs.Matching

Two loaders that keep the same requests at different places. Requests are the same if they have the
same serial number; where a loader keeps them is nothing that can be seen. Of the second loader some
requests may be hidden, that the first one does not have.

* `Matching.Same`          — the same modules, requests, fetches and work, except for places.
* `Matching.Same.link`     — linking the same request keeps two loaders the same.
* `Matching.Same.withdraw` — so does taking it out.
-/

namespace AsyncModule

open List (Forall₂)

variable {ν : Type}

/-- The number of a request, without its place. -/
def RequestId.unplaced (id : RequestId) : RequestId := { id with key := 0 }

/-- An event, without the place of the request that it is about. -/
def Event.unplaced : Event ν → Event ν
  | submitted id dependencies definition => submitted id.unplaced dependencies definition
  | linked id resolver ctx => linked id.unplaced resolver ctx
  | called id values => called id.unplaced values
  | returned id o => returned id.unplaced o
  | failed id e => failed id.unplaced e
  | handled id e => handled id.unplaced e
  | event => event

namespace Registry

/-- The modules that there are records of, and the targets that they were first heard of by. -/
def outline (g : Registry) : List (String × Target) := g.records.map fun p => (p.1, p.2.target)

theorem outline_modify (g : Registry) (url : String) {f : Record → Record}
    (hf : ∀ r, (f r).target = r.target) : (g.modify url f).outline = g.outline := by
  unfold outline modify
  rw [List.map_map]
  refine List.map_congr_left ?_
  rintro ⟨u, r⟩ _
  simp only [Function.comp]
  split
  · simp [hf]
  · rfl

theorem outline_settle (g : Registry) (url : String) {f : Record → Record}
    (hf : ∀ r, (f r).target = r.target) : (g.settle url f).2.outline = g.outline := by
  unfold settle
  split
  · rfl
  · split
    · rfl
    · exact outline_modify g url hf

theorem outline_foldl_dropWaiters (urls : List String) (g : Registry) (id : RequestId) :
    (urls.foldl (fun g url => g.dropWaiters url id) g).outline = g.outline := by
  induction urls generalizing g with
  | nil => rfl
  | cons url rest ih =>
    rw [List.foldl_cons, ih]
    exact outline_modify g url fun _ => rfl

theorem outline_insertNew (g : Registry) (t : Target) :
    (g.insertNew t).outline =
      if g.state? t.key = none then g.outline ++ [(t.key, t)] else g.outline := by
  unfold insertNew state?
  cases g.get? t.key with
  | none => simp [outline]
  | some r => simp

theorem definition?_settle_none {g : Registry} {url : String} {f : Record → Record}
    (h : g.IsOpen url) (hf : ∀ r, (f r).definition = none) (u : String) :
    (g.settle url f).2.definition? u = if u = url then none else g.definition? u := by
  split
  · rename_i hu
    subst hu
    obtain ⟨s, hs, ho⟩ := h
    obtain ⟨r, hr, rfl⟩ := Option.map_eq_some_iff.mp hs
    simp [definition?, get?_settle, hr, ho, hf]
  · rename_i hu
    exact definition?_settle_of_ne f hu

theorem definition?_settle_same (g : Registry) (url : String) {f : Record → Record}
    (hf : ∀ r, (f r).definition = r.definition) (u : String) :
    (g.settle url f).2.definition? u = g.definition? u := by
  unfold definition?
  rw [get?_settle]
  cases g.get? u with
  | none => rfl
  | some r =>
    simp only [Option.map_some, Option.bind_some]
    split
    · exact hf r
    · rfl

/-- The search for a cycle reads nothing but what modules wait for. -/
theorem search_congr {g g' : Registry} {rs rs' : Requests ν}
    (h : ∀ url, g'.awaited rs' url = g.awaited rs url) (goal : String) (fuel : Nat)
    (seen : List String) (stack : List (List String)) :
    search g' rs' goal fuel seen stack = search g rs goal fuel seen stack := by
  fun_induction search g rs goal fuel seen stack with
  | case1 => rfl
  | case2 => rfl
  | case3 fuel seen stack ih => simp only [search, ih]
  | case4 fuel seen current front stack hgoal => simp only [search, hgoal, if_true]
  | case5 fuel seen current front stack hgoal seen' stack' hexplore ih =>
    simp only [search, hgoal, Bool.false_eq_true, if_false, h, hexplore, ih]

end Registry

theorem Loader.outline_attach (l : Loader ν) (id : RequestId) (i : Nat) (t : Target) :
    (l.attach id i t).registry.outline = (l.registry.insertNew t).outline := by
  unfold Loader.attach
  dsimp only
  split
  · exact Registry.outline_modify _ _ fun _ => rfl
  · rfl
  · rfl
  · exact Registry.outline_modify _ _ fun _ => rfl

namespace Requests

variable {rs : Requests ν} {id i : RequestId} {r : Request ν}

theorem get?_of_modify {f : Request ν → Request ν} (h : (rs.modify id f).get? i = some r) :
    ∃ r₀, rs.get? i = some r₀ := by
  rcases get?_modify_eq_some h with ⟨rfl, r₀, hr₀, _⟩ | ⟨_, hr⟩
  · exact ⟨r₀, hr₀⟩
  · exact ⟨r, hr⟩

theorem get?_of_erase (h : (rs.erase id).get? i = some r) : rs.get? i = some r := by
  rw [get?_erase] at h
  split at h
  · cases h
  · exact h

end Requests

theorem rel_filter_concat {α β : Type} {R : α → β → Prop} {p : β → Bool} {as : List α}
    {bs : List β} (h : Forall₂ R as (bs.filter p)) {a : α} {b : β} (hab : R a b)
    (hb : p b = true) : Forall₂ R (as ++ [a]) ((bs ++ [b]).filter p) := by
  rw [List.filter_append, List.filter_cons_of_pos hb]
  exact List.rel_append h (.cons hab .nil)

/-- Two loaders have told the same since each of them has told something else. -/
def SameSince (past past' j j' : List (Event ν)) : Prop :=
  ∃ new new', j = new ++ past ∧ j' = new' ++ past' ∧
    new'.map Event.unplaced = new.map Event.unplaced

theorem SameSince.cons {past past' j j' : List (Event ν)} (h : SameSince past past' j j')
    {event event' : Event ν} (he : event'.unplaced = event.unplaced) :
    SameSince past past' (event :: j) (event' :: j') := by
  obtain ⟨new, new', rfl, rfl, hnew⟩ := h
  exact ⟨event :: new, event' :: new', rfl, rfl, by simp [hnew, he]⟩

/-- How two loaders keep the same requests: for a serial number, the place in the one and that in
the other. Of the second loader only some requests are shown. Both have told of something before
they are compared. -/
structure Matching (ν : Type) where
  places : Nat → Option (Nat × Nat)
  shown : RequestId → Bool
  past : List (Event ν)
  past' : List (Event ν)

namespace Matching

variable (μ : Matching ν)

/-- A request of the one loader and one of the other are the same. -/
def Pairs (id id' : RequestId) : Prop :=
  id'.serial = id.serial ∧ μ.places id.serial = some (id.key, id'.key)

def SameWaiter (w w' : Waiter) : Prop := μ.Pairs w.request w'.request ∧ w'.slot = w.slot

inductive SameStep : Step → Step → Prop where
  | fill {id id' : RequestId} (h : μ.Pairs id id') (slot : Nat) (v : ModuleValue) :
    SameStep (.fill id slot v) (.fill id' slot v)
  | fire {id id' : RequestId} (h : μ.Pairs id id') : SameStep (.fire id) (.fire id')
  | fail {id id' : RequestId} (h : μ.Pairs id id') (e : LoadError) :
    SameStep (.fail id e) (.fail id' e)

/-- The same modules are in the same state, and the same requests that are shown wait for them in
the same order. -/
structure SameModules (g g' : Registry) : Prop where
  outline : g'.outline = g.outline
  state : ∀ url, g'.state? url = g.state? url
  waiters : ∀ url, Forall₂ μ.SameWaiter (g.waiters url)
    ((g'.waiters url).filter fun w => μ.shown w.request)
  definition : ∀ url, Option.Rel μ.Pairs (g.definition? url) (g'.definition? url)

/-- Two loaders are the same, except for the places of requests and for those that are hidden. -/
structure Same (l l' : Loader ν) : Prop where
  resolver : l'.resolver = l.resolver
  resources : l'.resources = l.resources
  fetches : l'.fetches = l.fetches
  modules : μ.SameModules l.registry l'.registry
  requests : ∀ {id id'}, μ.Pairs id id' → μ.shown id' = true →
    l'.requests.get? id' = l.requests.get? id
  worklist : Forall₂ μ.SameStep l.worklist (l'.worklist.filter fun s => μ.shown s.request)
  journal : SameSince μ.past μ.past' l.journal l'.journal

/-- All live requests are paired, and none is hidden. -/
structure Total (rs rs' : Requests ν) : Prop where
  shown : ∀ id, μ.shown id = true
  left : ∀ {id r}, rs.get? id = some r → ∃ id', μ.Pairs id id'
  right : ∀ {id' r}, rs'.get? id' = some r → ∃ id, μ.Pairs id id'

variable {μ} {g g' : Registry} {l l' : Loader ν} {id id' : RequestId} {r : Request ν}
  {e : LoadError} {t : Target} {url : String}

theorem Pairs.unique {id₁ id₁' : RequestId} (h : μ.Pairs id id') (h₁ : μ.Pairs id₁ id₁')
    (hserial : id₁.serial = id.serial) : id₁ = id ∧ id₁' = id' := by
  obtain ⟨key, serial⟩ := id
  obtain ⟨key', serial'⟩ := id'
  obtain ⟨key₁, serial₁⟩ := id₁
  obtain ⟨key₁', serial₁'⟩ := id₁'
  obtain ⟨rfl, hplaces⟩ := h
  obtain ⟨rfl, hplaces₁⟩ := h₁
  cases hserial
  cases hplaces.symm.trans hplaces₁
  exact ⟨rfl, rfl⟩

theorem Pairs.eq_iff {id₁ id₁' : RequestId} (h : μ.Pairs id id') (h₁ : μ.Pairs id₁ id₁') :
    id₁ = id ↔ id₁' = id' := by
  constructor
  · rintro rfl
    exact (h.unique h₁ rfl).2
  · rintro rfl
    exact (h.unique h₁ (h₁.1.symm.trans h.1)).1

theorem Pairs.unplaced (h : μ.Pairs id id') : id'.unplaced = id.unplaced := by
  simp [RequestId.unplaced, h.1]

/-! ## Modules -/

namespace SameModules

theorem isOpen_iff (h : μ.SameModules g g') (url : String) : g'.IsOpen url ↔ g.IsOpen url := by
  unfold Registry.IsOpen
  rw [h.state]

theorem setDefinition (h : μ.SameModules g g') (url : String) {d d' : Option RequestId}
    (hd : Option.Rel μ.Pairs d d') :
    μ.SameModules (g.setDefinition url d) (g'.setDefinition url d') where
  outline := by
    rw [Registry.setDefinition, Registry.setDefinition, Registry.outline_modify g' url (by simp),
      Registry.outline_modify g url (by simp), h.outline]
  state u := by simp [h.state]
  waiters u := by simpa using h.waiters u
  definition u := by
    simp only [Registry.definition?_setDefinition]
    split
    · have hstate := h.state u
      simp only [Registry.state?] at hstate
      cases hr : g.get? u with
      | none =>
        have hr' : g'.get? u = none := by simpa [hr] using hstate
        simp [hr']
      | some r =>
        obtain ⟨r', hr', _⟩ := Option.map_eq_some_iff.mp (hstate.trans (by rw [hr]; rfl))
        simpa [hr'] using hd
    · exact h.definition u

/-- Settling a module hands back the same waiters. -/
theorem settle (h : μ.SameModules g g') (url : String) {f : Record → Record} {s : ModuleState}
    (hs : ∀ r, (f r).state = s) (ht : ∀ r, (f r).target = r.target)
    (hd : (∀ r, (f r).definition = none) ∨ ∀ r, (f r).definition = r.definition) :
    Forall₂ μ.SameWaiter (g.settle url f).1
        ((g'.settle url f).1.filter fun w => μ.shown w.request) ∧
      μ.SameModules (g.settle url f).2 (g'.settle url f).2 := by
  by_cases ho : g.IsOpen url
  · have ho' := (h.isOpen_iff url).mpr ho
    refine ⟨?_, ?_, fun u => ?_, fun u => ?_, fun u => ?_⟩
    · rw [Registry.fst_settle_of_isOpen f ho, Registry.fst_settle_of_isOpen f ho']
      exact h.waiters url
    · rw [Registry.outline_settle _ _ ht, Registry.outline_settle _ _ ht, h.outline]
    · rw [Registry.state?_settle ho hs, Registry.state?_settle ho' hs, h.state]
    · rw [Registry.waiters_settle ho, Registry.waiters_settle ho']
      split
      · exact .nil
      · exact h.waiters u
    · rcases hd with hd | hd
      · rw [Registry.definition?_settle_none ho hd, Registry.definition?_settle_none ho' hd]
        split
        · exact .none
        · exact h.definition u
      · rw [Registry.definition?_settle_same _ _ hd, Registry.definition?_settle_same _ _ hd]
        exact h.definition u
  · have ho' : ¬ g'.IsOpen url := fun ho' => ho ((h.isOpen_iff url).mp ho')
    rw [Registry.settle_of_not_isOpen f ho, Registry.settle_of_not_isOpen f ho']
    exact ⟨.nil, h⟩

theorem filter_waiters (h : μ.Pairs id id') {ws ws' : List Waiter}
    (hws : Forall₂ μ.SameWaiter ws ws') :
    Forall₂ μ.SameWaiter (ws.filter (·.request != id)) (ws'.filter (·.request != id')) := by
  refine List.rel_filter (fun w w' hw => ?_) hws
  simp only [bne_iff_ne, ne_eq, h.eq_iff hw.1]

/-- The same request stops waiting for modules. -/
theorem dropWaiters (h : μ.SameModules g g') (hid : μ.Pairs id id') (urls : List String) :
    μ.SameModules (urls.foldl (fun g url => g.dropWaiters url id) g)
      (urls.foldl (fun g url => g.dropWaiters url id') g') where
  outline := by
    rw [Registry.outline_foldl_dropWaiters, Registry.outline_foldl_dropWaiters, h.outline]
  state u := by rw [Loader.state?_foldl_dropWaiters, Loader.state?_foldl_dropWaiters, h.state]
  waiters u := by
    rw [Loader.waiters_foldl_dropWaiters, Loader.waiters_foldl_dropWaiters]
    split
    · rw [List.filter_comm]
      exact filter_waiters hid (h.waiters u)
    · exact h.waiters u
  definition u := by
    rw [Loader.definition?_foldl_dropWaiters, Loader.definition?_foldl_dropWaiters]
    exact h.definition u

/-- A hidden request stops waiting for modules. -/
theorem dropHidden (h : μ.SameModules g g') (hid' : μ.shown id' = false) (urls : List String) :
    μ.SameModules g (urls.foldl (fun g url => g.dropWaiters url id') g') where
  outline := by rw [Registry.outline_foldl_dropWaiters, h.outline]
  state u := by rw [Loader.state?_foldl_dropWaiters, h.state]
  waiters u := by
    rw [Loader.waiters_foldl_dropWaiters]
    split
    · rw [List.filter_filter]
      convert h.waiters u using 3
      rename_i w
      by_cases hw : w.request = id'
      · simp [hw, hid']
      · simp [hw]
    · exact h.waiters u
  definition u := by
    rw [Loader.definition?_foldl_dropWaiters]
    exact h.definition u

end SameModules

/-! ## Searching for cycles -/

namespace Same

theorem awaited (h : μ.Same l l') (hall : μ.Total l.requests l'.requests) (url : String) :
    l'.registry.awaited l'.requests url = l.registry.awaited l.requests url := by
  unfold Registry.awaited
  have hd := h.modules.definition url
  generalize l.registry.definition? url = d at hd
  generalize l'.registry.definition? url = d' at hd
  cases hd with
  | none => rfl
  | some hid => simp only [h.requests hid (hall.shown _)]

end Same

/-- The live requests of both loaders, with their numbers, are the same. -/
theorem Total.perm_live (hall : μ.Total l.requests l'.requests) (h : μ.Same l l') :
    (l'.requests.live.map fun p => (p.1.serial, p.2)).Perm
      (l.requests.live.map fun p => (p.1.serial, p.2)) := by
  have hnodup : ∀ {rs : Requests ν},
      (∀ id r id₁ r₁, rs.get? id = some r → rs.get? id₁ = some r₁ → id₁.serial = id.serial →
        id₁ = id) → (rs.live.map fun p => (p.1.serial, p.2)).Nodup := by
    intro rs hserial
    refine (List.nodup_map_iff_inj_on (List.Nodup.of_map (·.1) rs.nodup_live)).mpr ?_
    rintro ⟨id, r⟩ hmem ⟨id₁, r₁⟩ hmem₁ heq
    obtain ⟨hserial₁, rfl⟩ := Prod.mk.injEq _ _ _ _ ▸ heq
    rw [hserial id₁ r id r (Requests.mem_live.mp hmem₁) (Requests.mem_live.mp hmem) hserial₁]
  refine (List.perm_ext_iff_of_nodup (hnodup ?_) (hnodup ?_)).mpr ?_
  · intro id r id₁ r₁ hr hr₁ hserial
    obtain ⟨_, hid⟩ := hall.right hr
    obtain ⟨_, hid₁⟩ := hall.right hr₁
    exact (hid.unique hid₁ (hid₁.1.symm.trans (hserial.trans hid.1))).2
  · intro id r id₁ r₁ hr hr₁ hserial
    obtain ⟨_, hid⟩ := hall.left hr
    obtain ⟨_, hid₁⟩ := hall.left hr₁
    exact (hid.unique hid₁ hserial).1
  · rintro ⟨n, r⟩
    simp only [List.mem_map, Prod.exists, Prod.mk.injEq, Requests.mem_live]
    constructor
    · rintro ⟨id', r, hr, rfl, rfl⟩
      obtain ⟨id, hid⟩ := hall.right hr
      exact ⟨id, r, (h.requests hid (hall.shown _)).symm.trans hr, hid.1.symm, rfl⟩
    · rintro ⟨id, r, hr, rfl, rfl⟩
      obtain ⟨id', hid⟩ := hall.left hr
      exact ⟨id', r, (h.requests hid (hall.shown _)).trans hr, hid.1, rfl⟩

theorem Total.searchBound (hall : μ.Total l.requests l'.requests) (h : μ.Same l l') :
    Registry.searchBound l'.requests = Registry.searchBound l.requests := by
  have hsum : ∀ rs : Requests ν, Registry.searchBound rs =
      ((rs.live.map fun p => (p.1.serial, p.2)).map fun p => p.2.slots.length).sum + 2 := by
    intro rs
    unfold Registry.searchBound
    induction rs.live with
    | nil => rfl
    | cons p rest ih => simp [ih, Nat.add_assoc]
  rw [hsum, hsum, ((hall.perm_live h).map _).sum_nat]

theorem Total.size (hall : μ.Total l.requests l'.requests) (h : μ.Same l l') :
    l'.requests.size = l.requests.size := by
  simpa [Requests.size] using (hall.perm_live h).length_eq

theorem Total.findCycle (hall : μ.Total l.requests l'.requests) (h : μ.Same l l')
    (definer dependency : String) :
    l'.registry.findCycle l'.requests definer dependency =
      l.registry.findCycle l.requests definer dependency := by
  rw [Registry.findCycle, Registry.findCycle, hall.searchBound h,
    Registry.search_congr fun url => h.awaited hall url]

/-! ## Linking -/

namespace Same

theorem record (h : μ.Same l l') {event event' : Event ν}
    (he : event'.unplaced = event.unplaced) : μ.Same (l.record event) (l'.record event') :=
  { h with journal := h.journal.cons he }

theorem enqueue (h : μ.Same l l') {s s' : Step} (hs : μ.SameStep s s')
    (hshown : μ.shown s'.request = true) : μ.Same (l.enqueue s) (l'.enqueue s') :=
  { h with
    worklist := rel_filter_concat h.worklist hs hshown }

theorem modify (h : μ.Same l l') (hid : μ.Pairs id id') (f : Request ν → Request ν) :
    μ.Same { l with requests := l.requests.modify id f }
      { l' with requests := l'.requests.modify id' f } :=
  { h with
    requests := by
      intro i i' hi hshown
      simp only [Requests.get?_modify, hid.eq_iff hi, h.requests hi hshown] }

theorem erase (h : μ.Same l l') (hid : μ.Pairs id id') :
    μ.Same { l with requests := l.requests.erase id }
      { l' with requests := l'.requests.erase id' } :=
  { h with
    requests := by
      intro i i' hi hshown
      simp only [Requests.get?_erase, hid.eq_iff hi, h.requests hi hshown] }

theorem load (h : μ.Same l l') (t : Target) (role : LoadRole) :
    μ.Same (l.load t role) (l'.load t role) :=
  { h with
    fetches := by simp [Loader.load, Loader.record, h.fetches, h.resources]
    journal := h.journal.cons rfl }

theorem setDefaultBase (h : μ.Same l l') (base : Url) :
    μ.Same (l.setDefaultBase base) (l'.setDefaultBase base) :=
  { h with resolver := by simp [Loader.setDefaultBase, h.resolver] }

theorem attach (h : μ.Same l l') (hid : μ.Pairs id id') (hshown : μ.shown id' = true) (i : Nat)
    (t : Target) : μ.Same (l.attach id i t) (l'.attach id' i t) := by
  have hstate := h.modules.state t.key
  -- whether the module is asked for depends on its state alone
  have hload : (l'.attach id' i t).fetches = (l.attach id i t).fetches ∧
      SameSince μ.past μ.past' (l.attach id i t).journal (l'.attach id' i t).journal := by
    by_cases hknown : ∀ s, l.registry.state? t.key = some s → s = .known
    · have hknown' := hknown
      rw [← hstate] at hknown'
      rw [Loader.fetches_attach id i hknown, Loader.fetches_attach id' i hknown',
        Loader.journal_attach id i hknown, Loader.journal_attach id' i hknown', h.fetches,
        h.resources]
      exact ⟨rfl, h.journal.cons rfl⟩
    · push Not at hknown
      obtain ⟨s, hs, hne⟩ := hknown
      have hs' := hstate.trans hs
      rw [Loader.fetches_attach_of_asked id i hs hne, Loader.fetches_attach_of_asked id' i hs' hne,
        Loader.journal_attach_of_asked id i hs hne, Loader.journal_attach_of_asked id' i hs' hne]
      exact ⟨h.fetches, h.journal⟩
  have hwork : μ.SameModules (l.attach id i t).registry (l'.attach id' i t).registry ∧
      Forall₂ μ.SameStep (l.attach id i t).worklist
        ((l'.attach id' i t).worklist.filter fun s => μ.shown s.request) := by
    rcases l.registry.open_or_settled t.key with ho | ⟨v, hv⟩ | ⟨e, he⟩
    · have ho' := ho
      rw [← hstate] at ho'
      obtain ⟨hw, hs, hwaiters, hd⟩ := Loader.attach_open id i ho
      obtain ⟨hw', hs', hwaiters', hd'⟩ := Loader.attach_open id' i ho'
      refine ⟨⟨?_, fun u => ?_, fun u => ?_, fun u => ?_⟩, by rw [hw, hw']; exact h.worklist⟩
      · rw [Loader.outline_attach, Loader.outline_attach, Registry.outline_insertNew,
          Registry.outline_insertNew, hstate, h.modules.outline]
      · rw [hs, hs', h.modules.state]
      · rw [hwaiters, hwaiters']
        split
        · exact rel_filter_concat (h.modules.waiters u) ⟨hid, rfl⟩ hshown
        · exact h.modules.waiters u
      · rw [hd, hd']
        exact h.modules.definition u
    · obtain ⟨hg, hw⟩ := Loader.attach_ready id i hv
      obtain ⟨hg', hw'⟩ := Loader.attach_ready id' i (hstate.trans hv)
      rw [hg, hg', hw, hw']
      exact ⟨h.modules, (h.enqueue (.fill hid i v) hshown).worklist⟩
    · obtain ⟨hg, hw⟩ := Loader.attach_failed id i he
      obtain ⟨hg', hw'⟩ := Loader.attach_failed id' i (hstate.trans he)
      rw [hg, hg', hw, hw']
      exact ⟨h.modules, (h.enqueue (.fail hid _) hshown).worklist⟩
  exact {
    resolver := by simp [h.resolver]
    resources := by simp [h.resources]
    fetches := hload.1
    modules := hwork.1
    requests {j j'} hj hj' := by simpa using (h.modify hid (·.link i t.key)).requests hj hj'
    worklist := hwork.2
    journal := hload.2 }

end Same

/-- The live requests stay paired as long as there are no new ones. -/
theorem Total.keep {rs rs' rs₁ rs₁' : Requests ν} (hall : μ.Total rs rs')
    (hl : ∀ {id r}, rs₁.get? id = some r → ∃ r₀, rs.get? id = some r₀)
    (hl' : ∀ {id r}, rs₁'.get? id = some r → ∃ r₀, rs'.get? id = some r₀) :
    μ.Total rs₁ rs₁' where
  shown := hall.shown
  left hr := by
    obtain ⟨_, hr₀⟩ := hl hr
    exact hall.left hr₀
  right hr := by
    obtain ⟨_, hr₀⟩ := hl' hr
    exact hall.right hr₀

theorem Total.attach (hall : μ.Total l.requests l'.requests) (i : Nat) (t : Target) :
    μ.Total (l.attach id i t).requests (l'.attach id' i t).requests := by
  rw [Loader.requests_attach, Loader.requests_attach]
  exact hall.keep Requests.get?_of_modify Requests.get?_of_modify

namespace Same

/-- Linking stops at the same slot: whether a specifier closes a cycle is asked on behalf of a
definition only, and then all requests must be there to see. -/
theorem linkSlots (hid : μ.Pairs id id') (hshown : μ.shown id' = true) (ctx : Context)
    (definer : Option String) (slots : List (String × Nat)) :
    ∀ {l l' : Loader ν}, μ.Same l l' → (definer = none ∨ μ.Total l.requests l'.requests) →
      μ.Same (Loader.linkSlots ctx id definer slots l)
        (Loader.linkSlots ctx id' definer slots l') := by
  induction slots with
  | nil => exact fun h _ => h
  | cons p rest ih =>
    intro l l' h hall
    obtain ⟨specifier, i⟩ := p
    simp only [Loader.linkSlots, h.resolver]
    cases l.resolver.resolve specifier ctx with
    | error e => exact h.enqueue (.fail hid e) hshown
    | ok t =>
      have hcycle : (definer.bind fun d => l'.registry.findCycle l'.requests d t.key) =
          definer.bind fun d => l.registry.findCycle l.requests d t.key := by
        rcases hall with rfl | hall
        · rfl
        · simp only [hall.findCycle h]
      dsimp only
      rw [hcycle]
      cases definer.bind fun d => l.registry.findCycle l.requests d t.key with
      | some chain => exact h.enqueue (.fail hid _) hshown
      | none => exact ih (h.attach hid hshown i t) (hall.imp_right fun hall => hall.attach i t)

theorem link (h : μ.Same l l') (hall : μ.Total l.requests l'.requests) (hid : μ.Pairs id id')
    (ctx : Context) : μ.Same (l.link id ctx) (l'.link id' ctx) := by
  have hshown := hall.shown id'
  unfold Loader.link
  rw [h.requests hid hshown]
  cases l.requests.get? id with
  | none => exact h
  | some r =>
    have hmodified := h.modify hid fun r => { r with context := some ctx }
    refine linkSlots hid hshown ctx _ _ (hmodified.record ?_) (.inr (hall.keep ?_ ?_))
    · simp [Event.unplaced, hid.unplaced, h.resolver]
    · exact Requests.get?_of_modify
    · exact Requests.get?_of_modify

/-! ## Settling and withdrawing -/

theorem withdraw (h : μ.Same l l') (hid : μ.Pairs id id') (r : Request ν) :
    μ.Same (l.withdraw id r) (l'.withdraw id' r) :=
  { h.erase hid with modules := h.modules.dropWaiters hid r.modules }

/-- The same waiters are seen to when a module is settled. -/
theorem settled (h : μ.Same l l') {ws ws' : List Waiter}
    (hws : Forall₂ μ.SameWaiter ws (ws'.filter fun w => μ.shown w.request)) {f : Waiter → Step}
    (hf : ∀ {w w'}, μ.SameWaiter w w' → μ.SameStep (f w) (f w'))
    (hrequest : ∀ w, (f w).request = w.request) :
    Forall₂ μ.SameStep (l.worklist ++ ws.map f)
      ((l'.worklist ++ ws'.map f).filter fun s => μ.shown s.request) := by
  have hshown : (fun s : Step => μ.shown s.request) ∘ f = fun w => μ.shown w.request := by
    funext w
    simp [hrequest]
  rw [List.filter_append, List.filter_map, hshown]
  exact List.rel_append h.worklist (List.rel_map (fun _ _ hw => hf hw) hws)

theorem readyModule (h : μ.Same l l') (url : String) (v : ModuleValue) :
    μ.Same (l.readyModule url v) (l'.readyModule url v) := by
  obtain ⟨hws, hmodules⟩ := h.modules.settle url (s := .ready v)
    (f := fun r => { r with state := .ready v, definition := none }) (fun _ => rfl) (fun _ => rfl)
    (.inl fun _ => rfl)
  refine { h with modules := hmodules, worklist := h.settled hws ?_ fun _ => rfl }
  rintro ⟨id, i⟩ ⟨id', i'⟩ ⟨hid, rfl⟩
  exact .fill hid i' v

theorem abandonModule (h : μ.Same l l') (url : String) (e : LoadError) :
    μ.Same (l.abandonModule url e) (l'.abandonModule url e) := by
  obtain ⟨hws, hmodules⟩ := (h.modules.setDefinition url .none).settle url (s := .failed e)
    (f := fun r => { r with state := .failed e }) (fun _ => rfl) (fun _ => rfl)
    (.inr fun _ => rfl)
  refine { h with modules := hmodules, worklist := h.settled hws ?_ fun _ => rfl }
  rintro ⟨id, i⟩ ⟨id', i'⟩ ⟨hid, rfl⟩
  exact .fail hid _

end Same

end Matching
end AsyncModule
