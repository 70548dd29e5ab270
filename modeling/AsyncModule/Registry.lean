import AsyncModule.Requests

/-!
# AsyncModule.Registry

Modules by canonical URL. A record is made when a module is first heard of and kept for ever, so
nothing is fetched twice for the registry; once settled, a record never changes again. The search
for cycles follows the definitions that wait for other modules.
-/

namespace AsyncModule

inductive ModuleState where
  | known
  | loading
  | ready (v : ModuleValue)
  | failed (e : LoadError)
  deriving Repr

namespace ModuleState

def status : ModuleState → ModuleStatus
  | known => .known
  | loading => .loading
  | ready _ => .ready
  | failed _ => .failed

def value? : ModuleState → Option ModuleValue
  | ready v => some v
  | _ => none

def isSettled : ModuleState → Bool
  | ready _ => true
  | failed _ => true
  | _ => false

end ModuleState

structure Waiter where
  request : RequestId
  slot : Nat
  deriving DecidableEq, Repr

structure Record where
  target : Target
  state : ModuleState
  /-- Who waits for the module, longest first. -/
  waiters : List Waiter
  /-- The request that will produce the module's value. -/
  definition : Option RequestId
  deriving Repr

/-- Records by canonical URL, in the order in which the modules were first heard of. -/
structure Registry where
  records : List (String × Record)
  deriving Repr

namespace Registry

def empty : Registry := ⟨[]⟩

def get? (g : Registry) (url : String) : Option Record := g.records.lookup url

def state? (g : Registry) (url : String) : Option ModuleState := (g.get? url).map Record.state

def waiters (g : Registry) (url : String) : List Waiter :=
  match g.get? url with
  | none => []
  | some r => r.waiters

def definition? (g : Registry) (url : String) : Option RequestId :=
  (g.get? url).bind Record.definition

def size (g : Registry) : Nat := g.records.length

def modify (g : Registry) (url : String) (f : Record → Record) : Registry :=
  ⟨g.records.map fun (u, r) => if u == url then (u, f r) else (u, r)⟩

def setDefinition (g : Registry) (url : String) (d : Option RequestId) : Registry :=
  g.modify url fun r => { r with definition := d }

def insertNew (g : Registry) (t : Target) : Registry :=
  match g.get? t.key with
  | some _ => g
  | none => ⟨g.records ++ [(t.key, ⟨t, .known, [], none⟩)]⟩

/-- Settle a module that is not settled, handing back who waited for it. -/
def settle (g : Registry) (url : String) (f : Record → Record) : List Waiter × Registry :=
  match g.get? url with
  | none => ([], g)
  | some r =>
    if r.state.isSettled then ([], g)
    else (r.waiters, g.modify url fun r => { f r with waiters := [] })

theorem get?_modify (g : Registry) (url u : String) (f : Record → Record) :
    (g.modify url f).get? u = if u = url then (g.get? u).map f else g.get? u := by
  simp only [modify, get?]
  induction g.records with
  | nil => simp
  | cons p rest ih =>
    obtain ⟨k, r⟩ := p
    cases hu : u == k with
    | true =>
      have huk : u = k := by simpa using hu
      subst huk
      by_cases hk : u = url
      · simp [hk]
      · simp [hk]
    | false =>
      by_cases hk : k = url
      · simp only [List.map_cons, hk, beq_self_eq_true, if_true, List.lookup_cons]
        rw [hk] at hu
        simp only [hu]
        exact ih
      · simp only [List.map_cons, beq_eq_false_iff_ne.mpr hk, Bool.false_eq_true, if_false,
          List.lookup_cons, hu]
        exact ih

theorem get?_insertNew (g : Registry) (t : Target) (u : String) :
    (g.insertNew t).get? u =
      (g.get? u).or (if u = t.key then some ⟨t, .known, [], none⟩ else none) := by
  unfold insertNew
  split
  · rename_i r h
    by_cases hu : u = t.key
    · rw [hu, h]; rfl
    · rw [if_neg hu, Option.or_none]
  · rename_i h
    simp only [get?, List.lookup_append, List.lookup_cons, List.lookup_nil]
    by_cases hu : u = t.key
    · simp [hu]
    · simp [hu, beq_eq_false_iff_ne.mpr hu]

theorem insertNew_of_state? {g : Registry} {t : Target} {s : ModuleState}
    (h : g.state? t.key = some s) : g.insertNew t = g := by
  obtain ⟨r, hr, _⟩ := Option.map_eq_some_iff.mp h
  simp [insertNew, hr]

theorem get?_settle (g : Registry) (url u : String) (f : Record → Record) :
    (g.settle url f).2.get? u =
      (g.get? u).map fun r =>
        if u = url ∧ r.state.isSettled = false then { f r with waiters := [] } else r := by
  unfold settle
  split
  · rename_i h
    by_cases hu : u = url
    · rw [hu, h]; rfl
    · simp [hu]
  · rename_i r h
    split
    · rename_i hs
      by_cases hu : u = url
      · rw [hu, h]; simp [hs]
      · simp [hu]
    · rename_i hs
      rw [get?_modify]
      by_cases hu : u = url
      · simp [hu, h, hs]
      · simp [hu]

def markReady (g : Registry) (url : String) (v : ModuleValue) : List Waiter × Registry :=
  g.settle url fun r => { r with state := .ready v, definition := none }

def markFailed (g : Registry) (url : String) (e : LoadError) : List Waiter × Registry :=
  g.settle url fun r => { r with state := .failed e }

def dropWaiters (g : Registry) (url : String) (id : RequestId) : Registry :=
  g.modify url fun r => { r with waiters := r.waiters.filter (·.request != id) }

/-! ### What the operations do to states, waiters and definitions -/

theorem state?_modify (g : Registry) (url u : String) (f : Record → Record)
    (hf : ∀ r, (f r).state = r.state) : (g.modify url f).state? u = g.state? u := by
  simp only [state?, get?_modify]
  split
  · simp [hf, Function.comp_def]
  · rfl

theorem waiters_modify (g : Registry) (url u : String) (f : Record → Record)
    (hf : ∀ r, (f r).waiters = r.waiters) : (g.modify url f).waiters u = g.waiters u := by
  unfold waiters
  rw [get?_modify]
  by_cases hu : u = url
  · rw [if_pos hu]
    cases g.get? u with
    | none => rfl
    | some r => exact hf r
  · rw [if_neg hu]

theorem definition?_modify (g : Registry) (url u : String) (f : Record → Record)
    (hf : ∀ r, (f r).definition = r.definition) :
    (g.modify url f).definition? u = g.definition? u := by
  simp only [definition?, get?_modify]
  split
  · cases g.get? u with
    | none => rfl
    | some r => exact hf r
  · rfl

@[simp] theorem state?_dropWaiters (g : Registry) (url u : String) (id : RequestId) :
    (g.dropWaiters url id).state? u = g.state? u := state?_modify g url u _ fun _ => rfl

@[simp] theorem definition?_dropWaiters (g : Registry) (url u : String) (id : RequestId) :
    (g.dropWaiters url id).definition? u = g.definition? u :=
  definition?_modify g url u _ fun _ => rfl

@[simp] theorem state?_setDefinition (g : Registry) (url u : String) (d : Option RequestId) :
    (g.setDefinition url d).state? u = g.state? u := state?_modify g url u _ fun _ => rfl

@[simp] theorem waiters_setDefinition (g : Registry) (url u : String) (d : Option RequestId) :
    (g.setDefinition url d).waiters u = g.waiters u := waiters_modify g url u _ fun _ => rfl

theorem definition?_setDefinition (g : Registry) (url u : String) (d : Option RequestId) :
    (g.setDefinition url d).definition? u =
      if u = url then (g.get? u).bind fun _ => d else g.definition? u := by
  simp only [setDefinition, definition?, get?_modify]
  split
  · cases g.get? u with
    | none => rfl
    | some r => rfl
  · rfl

theorem waiters_dropWaiters (g : Registry) (url u : String) (id : RequestId) :
    (g.dropWaiters url id).waiters u =
      if u = url then (g.waiters u).filter (·.request != id) else g.waiters u := by
  unfold waiters dropWaiters
  rw [get?_modify]
  by_cases hu : u = url
  · rw [if_pos hu, if_pos hu]
    cases g.get? u with
    | none => rfl
    | some r => rfl
  · rw [if_neg hu, if_neg hu]

def IsOpen (g : Registry) (url : String) : Prop :=
  ∃ s, g.state? url = some s ∧ s.isSettled = false

theorem settle_of_not_isOpen {g : Registry} {url : String} (f : Record → Record)
    (h : ¬ g.IsOpen url) : g.settle url f = ([], g) := by
  unfold settle
  split
  · rfl
  · rename_i r hr
    split
    · rfl
    · rename_i hs
      exact absurd ⟨r.state, by simp [state?, hr], by simpa using hs⟩ h

theorem fst_settle_of_isOpen {g : Registry} {url : String} (f : Record → Record)
    (h : g.IsOpen url) : (g.settle url f).1 = g.waiters url := by
  obtain ⟨s, hs, ho⟩ := h
  obtain ⟨r, hr, rfl⟩ := Option.map_eq_some_iff.mp hs
  simp [settle, waiters, hr, ho]

theorem state?_settle {g : Registry} {url : String} {f : Record → Record} {s : ModuleState}
    (h : g.IsOpen url) (hf : ∀ r, (f r).state = s) (u : String) :
    (g.settle url f).2.state? u = if u = url then some s else g.state? u := by
  obtain ⟨s', hs, ho⟩ := h
  obtain ⟨r, hr, rfl⟩ := Option.map_eq_some_iff.mp hs
  simp only [settle, hr, ho, Bool.false_eq_true, if_false, state?, get?_modify]
  by_cases hu : u = url
  · subst hu
    simp [hr, hf]
  · simp [hu]

theorem waiters_settle {g : Registry} {url : String} {f : Record → Record}
    (h : g.IsOpen url) (u : String) :
    (g.settle url f).2.waiters u = if u = url then [] else g.waiters u := by
  obtain ⟨s', hs, ho⟩ := h
  obtain ⟨r, hr, rfl⟩ := Option.map_eq_some_iff.mp hs
  simp only [settle, hr, ho, Bool.false_eq_true, if_false, waiters, get?_modify]
  by_cases hu : u = url
  · subst hu
    simp [hr]
  · simp [hu]

theorem state?_of_settle {g : Registry} {url u : String} {f : Record → Record}
    {st s : ModuleState} (hf : ∀ r, (f r).state = st)
    (h : (g.settle url f).2.state? u = some s) : u = url ∧ s = st ∨ g.state? u = some s := by
  by_cases ho : g.IsOpen url
  · rw [state?_settle ho hf] at h
    split at h
    · rename_i hu
      cases h
      exact .inl ⟨hu, rfl⟩
    · exact .inr h
  · rw [settle_of_not_isOpen f ho] at h
    exact .inr h

theorem mem_waiters_of_settle {g : Registry} {url : String} {f : Record → Record} {w : Waiter}
    (h : w ∈ (g.settle url f).1) : w ∈ g.waiters url := by
  by_cases ho : g.IsOpen url
  · rwa [fst_settle_of_isOpen f ho] at h
  · rw [settle_of_not_isOpen f ho] at h
    cases h

/-- What is loading after a module has been settled was so before, and is another one. -/
theorem loading_of_settle {g : Registry} {url u : String} {f : Record → Record}
    {s : ModuleState} (hf : ∀ r, (f r).state = s) (hs : s.isSettled = true)
    (h : (g.settle url f).2.state? u = some .loading) :
    u ≠ url ∧ g.state? u = some .loading := by
  have hload : g.state? u = some .loading := by
    rcases state?_of_settle hf h with ⟨_, rfl⟩ | hload
    · cases hs
    · exact hload
  refine ⟨?_, hload⟩
  rintro rfl
  rw [state?_settle ⟨_, hload, rfl⟩ hf, if_pos rfl] at h
  cases h
  cases hs

theorem definition?_settle_of_ne {g : Registry} {url u : String} (f : Record → Record)
    (hu : u ≠ url) : (g.settle url f).2.definition? u = g.definition? u := by
  unfold definition?
  rw [get?_settle]
  cases g.get? u with
  | none => rfl
  | some r => simp [hu]

theorem definition?_of_settle {g : Registry} {url u : String} {f : Record → Record}
    {id : RequestId} (hf : ∀ r, (f r).definition = none ∨ (f r).definition = r.definition)
    (h : (g.settle url f).2.definition? u = some id) : g.definition? u = some id := by
  unfold definition? at h ⊢
  rw [get?_settle] at h
  cases hr : g.get? u with
  | none =>
    rw [hr] at h
    cases h
  | some r =>
    simp only [hr, Option.map_some, Option.bind_some] at h
    split at h
    · rcases hf r with hnone | hsame
      · rw [hnone] at h
        cases h
      · rw [hsame] at h
        exact h
    · exact h

theorem definition?_of_setDefinition_none {g : Registry} {url u : String} {id : RequestId}
    (h : (g.setDefinition url none).definition? u = some id) :
    u ≠ url ∧ g.definition? u = some id := by
  rw [definition?_setDefinition] at h
  split at h
  · simp at h
  · rename_i hu
    exact ⟨hu, h⟩

variable {ν : Type}

def awaited (g : Registry) (requests : Requests ν) (url : String) : List String :=
  match g.definition? url with
  | none => []
  | some id =>
    match requests.get? id with
    | none => []
    | some r => r.pendingModules

/-- Push the modules not yet seen onto the stack of paths, each path innermost first. -/
def explore (path : List String) :
    List String → List String × List (List String) → List String × List (List String)
  | [], state => state
  | next :: rest, (seen, stack) =>
    if seen.contains next then explore path rest (seen, stack)
    else explore path rest (next :: seen, (next :: path) :: stack)

/-- Depth-first search for `goal`; `stack` holds the paths still to be followed. -/
def search (g : Registry) (requests : Requests ν) (goal : String) :
    Nat → List String → List (List String) → Option (List String)
  | 0, _, _ => none
  | _ + 1, _, [] => none
  | fuel + 1, seen, [] :: stack => search g requests goal fuel seen stack
  | fuel + 1, seen, (current :: front) :: stack =>
    if current == goal then some (current :: front)
    else
      let (seen, stack) :=
        explore (current :: front) (g.awaited requests current) (seen, stack)
      search g requests goal fuel seen stack

/-- How many paths a search can follow: one for every awaited module, and the first. -/
def searchBound (requests : Requests ν) : Nat :=
  requests.live.foldr (fun p n => p.2.slots.length + n) 2

/-- The cycle that `definer` would close by waiting for `dependency`: from `definer` over
`dependency` back to `definer`. -/
def findCycle (g : Registry) (requests : Requests ν) (definer dependency : String) :
    Option (List String) :=
  (search g requests definer (searchBound requests) [dependency] [[dependency]]).map
    fun path => definer :: path.reverse

end Registry

end AsyncModule
