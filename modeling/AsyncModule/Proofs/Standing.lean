import AsyncModule.Proofs.Linked
import AsyncModule.Proofs.Loads

/-!
# AsyncModule.Proofs.Standing

What linking a request comes to, given how the modules stand that its specifiers name. What is due
to it at once, what is loaded and what becomes of the records can all be read off the registry as
it was before.

* `worklist_linkSlots` — each settled module makes a step, and the first specifier that names
  nothing ends it.
* `loads_linkSlots`    — what has not been heard of is loaded, each URL once and in order.
* `get?_linkSlots`     — records that were there get waiters of the request, and nothing else.
* `dues_of_values`, `dues_of_refusal` — the two cases in which the request can be settled at once.
-/

namespace AsyncModule

variable {ν : Type}

/-! ## How the modules stand -/

/-- The targets that specifiers name, up to the first that names none. -/
def named (find : String → Except LoadError Target) : List String → List Target
  | [] => []
  | specifier :: rest =>
    match find specifier with
    | .error _ => []
    | .ok t => t :: named find rest

/-- The first target of each canonical URL. -/
def firstOfEach : List Target → List Target
  | [] => []
  | t :: rest => t :: (firstOfEach rest).filter fun t' => decide (t'.key ≠ t.key)

namespace Registry

/-- What stands against a specifier: it names nothing, or a module that has failed. -/
def refusal? (g : Registry) (find : String → Except LoadError Target) (specifier : String) :
    Option LoadError :=
  match find specifier with
  | .error e => some e
  | .ok t =>
    match g.state? t.key with
    | some (.failed e) => some (.dependency t.key e)
    | _ => none

/-- The value of the module that a specifier names, if it is ready. -/
def valueOf? (g : Registry) (find : String → Except LoadError Target) (specifier : String) :
    Option ModuleValue :=
  match find specifier with
  | .error _ => none
  | .ok t => (g.state? t.key).bind ModuleState.value?

/-- The step that a module makes at once for a slot. -/
def due (g : Registry) (id : RequestId) (i : Nat) (t : Target) : List Step :=
  match g.state? t.key with
  | some (.ready v) => [.fill id i v]
  | some (.failed e) => [.fail id (.dependency t.key e)]
  | _ => []

/-- What is due to a request once its slots have been linked. -/
def dues (g : Registry) (find : String → Except LoadError Target) (id : RequestId) :
    List (String × Nat) → List Step
  | [] => []
  | (specifier, i) :: rest =>
    match find specifier with
    | .error e => [.fail id e]
    | .ok t => g.due id i t ++ dues g find id rest

/-- The same modules are settled, with the same outcome. -/
def SettledAlike (g g' : Registry) : Prop :=
  ∀ url s, s.isSettled = true → (g'.state? url = some s ↔ g.state? url = some s)

variable {g g' : Registry} {find : String → Except LoadError Target} {id : RequestId}

theorem SettledAlike.due (h : g.SettledAlike g') (id : RequestId) (i : Nat) (t : Target) :
    g'.due id i t = g.due id i t := by
  rcases g.open_or_settled t.key with ho | ⟨v, hv⟩ | ⟨e, he⟩
  · have hopen : ∀ s, g'.state? t.key = some s → s.isSettled = false := by
      intro s hs
      cases hsettled : s.isSettled with
      | false => rfl
      | true => exact absurd (ho s ((h t.key s hsettled).mp hs)) (by simp [hsettled])
    unfold Registry.due
    split
    · rename_i v hv
      cases hopen _ hv
    · rename_i e he
      cases hopen _ he
    · split
      · rename_i v hv
        cases ho _ hv
      · rename_i e he
        cases ho _ he
      · rfl
  · simp only [Registry.due, hv, (h t.key _ rfl).mpr hv]
  · simp only [Registry.due, he, (h t.key _ rfl).mpr he]

theorem SettledAlike.dues (h : g.SettledAlike g') (slots : List (String × Nat)) :
    g'.dues find id slots = g.dues find id slots := by
  induction slots with
  | nil => rfl
  | cons p rest ih =>
    obtain ⟨specifier, i⟩ := p
    simp only [Registry.dues, ih, h.due]

theorem request_of_mem_dues {s : Step} (slots : List (String × Nat))
    (h : s ∈ g.dues find id slots) : s.request = id := by
  induction slots with
  | nil => cases h
  | cons p rest ih =>
    obtain ⟨specifier, i⟩ := p
    simp only [dues] at h
    split at h
    · rw [List.mem_singleton.mp h]
      rfl
    · rcases List.mem_append.mp h with h | h
      · unfold due at h
        split at h
        · rw [List.mem_singleton.mp h]
          rfl
        · rw [List.mem_singleton.mp h]
          rfl
        · cases h
      · exact ih h

/-- If all modules are ready, every slot is to be filled. -/
theorem dues_of_values {specifiers : List String} {values : List ModuleValue} (n : Nat)
    (h : specifiers.map (g.valueOf? find) = values.map some) :
    g.dues find id (specifiers.zipIdx n) = (values.zipIdx n).map fun p => .fill id p.2 p.1 := by
  induction specifiers generalizing values n with
  | nil =>
    rw [List.map_nil, eq_comm, List.map_eq_nil_iff] at h
    rw [h]
    rfl
  | cons specifier rest ih =>
    cases values with
    | nil => cases h
    | cons v values =>
      rw [List.map_cons, List.map_cons, List.cons.injEq] at h
      obtain ⟨hv, hrest⟩ := h
      unfold valueOf? at hv
      split at hv
      · cases hv
      · rename_i t ht
        obtain ⟨s, hs, hvalue⟩ := Option.bind_eq_some_iff.mp hv
        have hready : g.state? t.key = some (.ready v) := by
          cases s with
          | ready v' =>
            cases hvalue
            exact hs
          | _ => cases hvalue
        simp only [List.zipIdx_cons, dues, ht, due, hready, List.map_cons, ih (n + 1) hrest,
          List.singleton_append]

/-- If something stands against a specifier, slots before it may be filled, and then the request
fails for the first such reason. -/
theorem dues_of_refusal {specifiers : List String} {e : LoadError} (n : Nat)
    (h : specifiers.findSome? (g.refusal? find) = some e) :
    ∃ fills i rest, g.dues find id (specifiers.zipIdx n) = fills ++ .fail id e :: rest ∧
      n ≤ i ∧ i < n + specifiers.length ∧ (∀ s ∈ fills, ∃ j v, j < i ∧ s = .fill id j v) ∧
      ∀ s ∈ rest, s.request = id := by
  induction specifiers generalizing n with
  | nil => cases h
  | cons specifier rest ih =>
    rw [List.findSome?_cons] at h
    simp only [List.zipIdx_cons, dues]
    cases ht : find specifier with
    | error e' =>
      simp only [refusal?, ht, Option.some.injEq] at h
      subst h
      exact ⟨[], n, [], rfl, Nat.le_refl n, by simp, by simp, by simp⟩
    | ok t =>
      rcases g.open_or_settled t.key with ho | ⟨v, hv⟩ | ⟨e', he⟩
      · have hnone : g.refusal? find specifier = none := by
          simp only [refusal?, ht]
          split
          · rename_i hs
            cases ho _ hs
          · rfl
        have hdue : g.due id n t = [] := by
          unfold due
          split
          · rename_i hs
            cases ho _ hs
          · rename_i hs
            cases ho _ hs
          · rfl
        rw [hnone] at h
        obtain ⟨fills, i, later, hdues, hle, hlt, hfills, hlater⟩ := ih (n + 1) h
        refine ⟨fills, i, later, ?_, by omega, by rw [List.length_cons]; omega, hfills, hlater⟩
        simp only [hdue, hdues]
        rfl
      · have hnone : g.refusal? find specifier = none := by simp [refusal?, ht, hv]
        rw [hnone] at h
        obtain ⟨fills, i, later, hdues, hle, hlt, hfills, hlater⟩ := ih (n + 1) h
        refine ⟨.fill id n v :: fills, i, later, ?_, by omega, by rw [List.length_cons]; omega, ?_,
          hlater⟩
        · simp only [due, hv, hdues]
          rfl
        · intro s hs
          rcases List.mem_cons.mp hs with rfl | hs
          · exact ⟨n, v, by omega, rfl⟩
          · exact hfills s hs
      · simp only [refusal?, ht, he, Option.some.injEq] at h
        subst h
        refine ⟨[], n, g.dues find id (rest.zipIdx (n + 1)), ?_, Nat.le_refl n, by simp, by simp,
          fun s hs => request_of_mem_dues _ hs⟩
        simp only [due, he]
        rfl

/-- Whether a module has not been heard of. -/
def isUnheard (g : Registry) (t : Target) : Bool := (g.state? t.key).isNone

end Registry

namespace Loader

variable {l : Loader ν} {ctx : Context} {id : RequestId} {i : Nat} {t : Target}

theorem settledAlike_attach (l : Loader ν) (id : RequestId) (i : Nat) (t : Target) :
    l.registry.SettledAlike (l.attach id i t).registry := by
  intro url s hs
  rcases l.registry.open_or_settled t.key with ho | ⟨v, hv⟩ | ⟨e, he⟩
  · rw [(attach_open id i ho).2.1]
    by_cases hu : url = t.key
    · rw [if_pos hu, hu]
      constructor
      · rintro ⟨⟩
        cases hs
      · intro h
        rw [ho s h] at hs
        cases hs
    · rw [if_neg hu]
  · rw [(attach_ready id i hv).1]
  · rw [(attach_failed id i he).1]

theorem worklist_attach (l : Loader ν) (id : RequestId) (i : Nat) (t : Target) :
    (l.attach id i t).worklist = l.worklist ++ l.registry.due id i t := by
  rcases l.registry.open_or_settled t.key with ho | ⟨v, hv⟩ | ⟨e, he⟩
  · rw [(attach_open id i ho).1]
    unfold Registry.due
    split
    · rename_i v hv
      cases ho _ hv
    · rename_i e he
      cases ho _ he
    · rw [List.append_nil]
  · rw [(attach_ready id i hv).2]
    simp only [Registry.due, hv]
  · rw [(attach_failed id i he).2]
    simp only [Registry.due, he]

/-- What is due to a request that defines nothing, once it has been linked. -/
theorem worklist_linkSlots (ctx : Context) (id : RequestId) (slots : List (String × Nat)) :
    ∀ l : Loader ν, (linkSlots ctx id none slots l).worklist =
      l.worklist ++ l.registry.dues (l.resolver.resolve · ctx) id slots := by
  induction slots with
  | nil => exact fun l => (List.append_nil _).symm
  | cons p rest ih =>
    intro l
    obtain ⟨specifier, i⟩ := p
    simp only [linkSlots, Registry.dues]
    cases l.resolver.resolve specifier ctx with
    | error e => rfl
    | ok t =>
      simp only [Option.bind_none, ih, resolver_attach, worklist_attach,
        (settledAlike_attach l id i t).dues, List.append_assoc]

/-! ## What is loaded -/

theorem isUnheard_attach (l : Loader ν) (id : RequestId) (i : Nat) (t t' : Target) :
    (l.attach id i t).registry.isUnheard t' =
      (l.registry.isUnheard t' && decide (t'.key ≠ t.key)) := by
  unfold Registry.isUnheard
  rcases l.registry.open_or_settled t.key with ho | ⟨v, hv⟩ | ⟨e, he⟩
  · rw [(attach_open id i ho).2.1]
    by_cases hk : t'.key = t.key
    · simp [hk]
    · simp [hk]
  · rw [(attach_ready id i hv).1]
    by_cases hk : t'.key = t.key
    · simp [hk, hv]
    · simp [hk]
  · rw [(attach_failed id i he).1]
    by_cases hk : t'.key = t.key
    · simp [hk, he]
    · simp [hk]

theorem asked_attach (h : ∀ url, l.registry.state? url ≠ some .known) (id : RequestId) (i : Nat)
    (t : Target) (url : String) : (l.attach id i t).registry.state? url ≠ some .known := by
  intro hs
  rcases state?_of_attach hs with hold | ⟨_, hnew, _⟩
  · exact h url hold
  · cases hnew

theorem loads_attach (h : ∀ url, l.registry.state? url ≠ some .known) (id : RequestId) (i : Nat)
    (t : Target) : loads (l.attach id i t).journal =
      if l.registry.isUnheard t then (t, .module) :: loads l.journal else loads l.journal := by
  unfold Registry.isUnheard
  cases hs : l.registry.state? t.key with
  | none =>
    have hj := journal_attach id i (l := l) (t := t) (by simp [hs])
    rw [hj]
    rfl
  | some s =>
    have hj := journal_attach_of_asked id i hs (by rintro rfl; exact h t.key hs)
    rw [hj]
    rfl

/-- What linking loads: each URL not heard of before, once and in the order of the specifiers. -/
theorem loads_linkSlots (ctx : Context) (id : RequestId) (slots : List (String × Nat)) :
    ∀ l : Loader ν, (∀ url, l.registry.state? url ≠ some .known) →
      loads (linkSlots ctx id none slots l).journal =
        (((firstOfEach (named (l.resolver.resolve · ctx) (slots.map (·.1)))).filter
          l.registry.isUnheard).map (·, LoadRole.module)).reverse ++ loads l.journal := by
  induction slots with
  | nil => exact fun l _ => rfl
  | cons p rest ih =>
    intro l h
    obtain ⟨specifier, i⟩ := p
    simp only [linkSlots, List.map_cons, named]
    cases l.resolver.resolve specifier ctx with
    | error e => rfl
    | ok t =>
      have hunheard : (l.attach id i t).registry.isUnheard =
          fun t' => l.registry.isUnheard t' && decide (t'.key ≠ t.key) :=
        funext (isUnheard_attach l id i t)
      simp only [Option.bind_none, ih _ (asked_attach h id i t), resolver_attach, hunheard,
        loads_attach h, firstOfEach, List.filter_cons, List.filter_filter]
      cases l.registry.isUnheard t with
      | true => simp
      | false => simp

/-! ## What becomes of the records and of the request -/

/-- A record that was there before a slot has been linked may have got the slot as a waiter. -/
theorem get?_attach (h : ∀ url, l.registry.state? url ≠ some .known) (id : RequestId) (i : Nat)
    (t : Target) {url : String} {rec : Record} (hrec : l.registry.get? url = some rec) :
    ∃ own : List Waiter, (∀ w ∈ own, w.request = id) ∧
      (l.attach id i t).registry.get? url = some { rec with waiters := rec.waiters ++ own } := by
  have hsame : some rec = some { rec with waiters := rec.waiters ++ [] } := by
    rw [List.append_nil]
  have hstate : l.registry.state? url = some rec.state := by simp [Registry.state?, hrec]
  by_cases hu : url = t.key
  · subst hu
    rcases l.registry.open_or_settled t.key with ho | ⟨v, hv⟩ | ⟨e, he⟩
    · have hload : rec.state = .loading := by
        cases hs : rec.state with
        | known => exact absurd (hs ▸ hstate) (h _)
        | loading => rfl
        | ready v => cases ho _ (hs ▸ hstate)
        | failed e => cases ho _ (hs ▸ hstate)
      refine ⟨[⟨id, i⟩], by simp, ?_⟩
      unfold attach
      simp [Registry.insertNew_of_state? hstate, hstate, hload, Registry.get?_modify, hrec]
    · exact ⟨[], by simp, by rw [(attach_ready id i hv).1, hrec]; exact hsame⟩
    · exact ⟨[], by simp, by rw [(attach_failed id i he).1, hrec]; exact hsame⟩
  · refine ⟨[], by simp, ?_⟩
    unfold attach
    dsimp only
    split
    all_goals simp [load, record, enqueue, Registry.get?_modify, Registry.get?_insertNew, hu, hrec]

theorem get?_linkSlots (ctx : Context) (id : RequestId) (slots : List (String × Nat))
    {url : String} {rec : Record} :
    ∀ l : Loader ν, (∀ url, l.registry.state? url ≠ some .known) →
      l.registry.get? url = some rec → ∃ own : List Waiter, (∀ w ∈ own, w.request = id) ∧
        (linkSlots ctx id none slots l).registry.get? url =
          some { rec with waiters := rec.waiters ++ own } := by
  induction slots generalizing rec with
  | nil => exact fun l _ hrec => ⟨[], by simp, by simp [linkSlots, hrec]⟩
  | cons p rest ih =>
    intro l h hrec
    obtain ⟨specifier, i⟩ := p
    simp only [linkSlots]
    cases l.resolver.resolve specifier ctx with
    | error e => exact ⟨[], by simp, by simp [enqueue, hrec]⟩
    | ok t =>
      obtain ⟨own, hown, hattached⟩ := get?_attach h id i t hrec
      obtain ⟨more, hmore, hlinked⟩ := ih _ (asked_attach h id i t) hattached
      refine ⟨own ++ more, List.forall_mem_append.mpr ⟨hown, hmore⟩, ?_⟩
      simp only [Option.bind_none, hlinked, List.append_assoc]

/-- Linking a request does nothing to it but to its slots, of which it fills none. -/
theorem get?_linkSlots_self (ctx : Context) (id : RequestId) (slots : List (String × Nat)) :
    ∀ {l : Loader ν} {r : Request ν}, l.requests.get? id = some r →
      ∃ slots', (linkSlots ctx id none slots l).requests.get? id = some { r with slots := slots' } ∧
        slots'.map Slot.value = r.slots.map Slot.value := by
  induction slots with
  | nil => exact fun {l r} hr => ⟨r.slots, hr, rfl⟩
  | cons p rest ih =>
    intro l r hr
    obtain ⟨specifier, i⟩ := p
    simp only [linkSlots]
    cases l.resolver.resolve specifier ctx with
    | error e => exact ⟨r.slots, hr, rfl⟩
    | ok t =>
      have hattached : (l.attach id i t).requests.get? id = some (r.link i t.key) := by
        rw [requests_attach]
        exact Requests.get?_modify_self _ hr
      obtain ⟨slots', hlinked, hvalues⟩ := ih hattached
      refine ⟨slots', ?_, hvalues.trans ?_⟩
      · rw [Request.link_eq] at hlinked
        exact hlinked
      · refine List.ext_getElem? fun j => ?_
        rw [List.getElem?_map, List.getElem?_map]
        have hslot := Request.slot?_link r i j t.key
        unfold Request.slot? at hslot
        rw [hslot, Option.map_map]
        congr 1
        funext s
        simp only [Function.comp_apply]
        split <;> rfl

end Loader
end AsyncModule
