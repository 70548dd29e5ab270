import AsyncModule.Proofs.Calls
import Mathlib.Algebra.GroupWithZero.Nat

/-!
# AsyncModule.Proofs.Postponing

Requests that a host makes before there is a context. Those with dependencies are deferred in their
order, linked to nothing; those without are called back at once.

* `Queued`               — which requests are deferred, and what has come of the others.
* `Machine.postpone_all` — how a host's requests are deferred.
-/

namespace AsyncModule

variable {ν : Type}

/-- A host makes some requests, one after the other, and goes on. -/
def callAll (calls : List (Call ν)) (next : Script ν) : Script ν := calls.foldr Call.script next

/-- How many values are made when the request is made without a context. -/
def Call.postponedMade (c : Call ν) : Nat := if c.dependencies = [] then c.firingMade else 0

/-- The requests that have been made after the first `n`: which of them are deferred, and what has
come of all of them. -/
inductive Queued (l : Loader ν) : Nat → List (Call ν) → List RequestId → Prop where
  | nil {n : Nat} (h : ∀ m, n < m → upshots m l.journal = []) : Queued l n [] []
  | fired {n : Nat} {c : Call ν} {calls : List (Call ν)} {ids : List RequestId}
    (hc : c.dependencies = []) (hu : upshots (n + 1) l.journal = c.firingTold)
    (h : Queued l (n + 1) calls ids) : Queued l n (c :: calls) ids
  | deferred {n : Nat} {c : Call ν} {calls : List (Call ν)} {id : RequestId}
    {ids : List RequestId} (hc : c.dependencies ≠ []) (hid : id.serial = n + 1)
    (hr : l.requests.get? id = some (c.request none)) (hu : upshots (n + 1) l.journal = [])
    (h : Queued l (n + 1) calls ids) : Queued l n (c :: calls) (id :: ids)

namespace Queued

variable {l l' : Loader ν} {n : Nat} {c : Call ν} {calls : List (Call ν)} {ids : List RequestId}

theorem quiet (h : Queued l n calls ids) :
    ∀ m, n + calls.length < m → upshots m l.journal = [] := by
  induction h with
  | nil h => exact h
  | fired _ _ _ ih => exact fun m hm => ih m (by rw [List.length_cons] at hm; omega)
  | deferred _ _ _ _ _ ih => exact fun m hm => ih m (by rw [List.length_cons] at hm; omega)

theorem of_nil (h : Queued l n (c :: calls) ids) (hc : c.dependencies = []) :
    upshots (n + 1) l.journal = c.firingTold ∧ Queued l (n + 1) calls ids := by
  cases h with
  | fired _ hu h => exact ⟨hu, h⟩
  | deferred hne => exact absurd hc hne

theorem of_ne_nil (h : Queued l n (c :: calls) ids) (hc : c.dependencies ≠ []) :
    ∃ id ids', ids = id :: ids' ∧ id.serial = n + 1 ∧
      l.requests.get? id = some (c.request none) ∧ upshots (n + 1) l.journal = [] ∧
      Queued l (n + 1) calls ids' := by
  cases h with
  | fired hnil => exact absurd hnil hc
  | deferred _ hid hr hu h => exact ⟨_, _, rfl, hid, hr, hu, h⟩

/-- The queue stays as it is while its requests do, and are told nothing. -/
theorem keep (h : Queued l n calls ids)
    (hget : ∀ id : RequestId, n < id.serial → l'.requests.get? id = l.requests.get? id)
    (hu : ∀ m, upshots m l'.journal = upshots m l.journal) : Queued l' n calls ids := by
  induction h with
  | nil h => exact .nil fun m hm => (hu m).trans (h m hm)
  | fired hc hupshots _ ih =>
    exact .fired hc ((hu _).trans hupshots) (ih fun id hid => hget id (by omega))
  | deferred hc hid hr hupshots _ ih =>
    exact .deferred hc hid ((hget _ (by omega)).trans hr) ((hu _).trans hupshots)
      (ih fun id hid => hget id (by omega))

end Queued

theorem upshots_append (n : Nat) (new j : List (Event ν)) :
    upshots n (new ++ j) = upshots n new ++ upshots n j := List.filterMap_append

theorem loads_append (new j : List (Event ν)) : loads (new ++ j) = loads new ++ loads j :=
  List.filterMap_append

/-- From one loader to another some requests have been made without a context. -/
structure Postpones (l : Loader ν) (calls : List (Call ν)) (ids : List RequestId)
    (l' : Loader ν) : Prop where
  resolver : l'.resolver = l.resolver
  registry : l'.registry = l.registry
  resources : l'.resources = l.resources
  fetches : l'.fetches = l.fetches
  worklist : l'.worklist = []
  idle : l'.dispatching = false
  bootstrap : l'.bootstrap = { l.bootstrap with deferred := l.bootstrap.deferred ++ ids }
  serial : l'.requests.serial = l.requests.serial + calls.length
  values : l'.values = l.values + (calls.map Call.postponedMade).sum
  loads : loads l'.journal = loads l.journal
  older : ∀ m ≤ l.requests.serial, upshots m l'.journal = upshots m l.journal
  kept : ∀ id, l.requests.Issued id → l'.requests.get? id = l.requests.get? id
  live : ∀ id r, l'.requests.get? id = some r → l.requests.get? id = some r ∨ id ∈ ids
  queued : Queued l' l.requests.serial calls ids

namespace Postpones

variable {l l₁ l' : Loader ν} {c : Call ν} {calls : List (Call ν)} {ids ids' : List RequestId}

theorem nil (hw : l.worklist = []) (hidle : l.dispatching = false)
    (hquiet : ∀ m, l.requests.serial < m → upshots m l.journal = []) : Postpones l [] [] l :=
  ⟨rfl, rfl, rfl, rfl, hw, hidle, by simp, rfl, rfl, rfl, fun _ _ => rfl, fun _ _ => rfl,
    fun _ _ => .inl, .nil hquiet⟩

/-- One request is made, and then the others. -/
theorem cons (h : Postpones l [c] ids l₁) (h' : Postpones l₁ calls ids' l') :
    Postpones l (c :: calls) (ids ++ ids') l' := by
  have hserial : l₁.requests.serial = l.requests.serial + 1 := h.serial
  have hqueued := h'.queued
  rw [hserial] at hqueued
  exact {
    resolver := h'.resolver.trans h.resolver
    registry := h'.registry.trans h.registry
    resources := h'.resources.trans h.resources
    fetches := h'.fetches.trans h.fetches
    worklist := h'.worklist
    idle := h'.idle
    bootstrap := by rw [h'.bootstrap, h.bootstrap, List.append_assoc]
    serial := by rw [h'.serial, hserial, List.length_cons]; omega
    values := by
      rw [h'.values, h.values]
      simp [Nat.add_assoc]
    loads := h'.loads.trans h.loads
    older := fun m hm => (h'.older m (by omega)).trans (h.older m hm)
    kept := by
      intro id hissued
      have hlater : l₁.requests.Issued id := by
        unfold Requests.Issued at hissued ⊢
        omega
      exact (h'.kept id hlater).trans (h.kept id hissued)
    live := by
      intro id r hr
      rcases h'.live id r hr with hr | hid
      · exact (h.live id r hr).imp_right (List.mem_append_left _)
      · exact .inr (List.mem_append_right _ hid)
    queued := by
      cases h.queued with
      | fired hc hu hnil =>
        cases hnil
        exact .fired hc ((h'.older _ (by omega)).trans hu) hqueued
      | deferred hc hid hr hu hnil =>
        cases hnil
        exact .deferred hc hid ((h'.kept _ (Requests.issued_of_get? hr)).trans hr)
          ((h'.older _ (by omega)).trans hu) hqueued }

end Postpones

namespace Machine

variable {l : Loader ν}

theorem serial_enter (l : Loader ν) (r : Request ν) :
    (l.enter r).2.requests.serial = l.requests.serial + 1 := rfl

theorem ne_enter_of_issued (r : Request ν) {id : RequestId} (h : l.requests.Issued id) :
    id ≠ (l.enter r).1 := Requests.ne_insert_of_issued r h

theorem get?_enter_of_issued (r : Request ν) {id : RequestId} (h : l.requests.Issued id) :
    (l.enter r).2.requests.get? id = l.requests.get? id := by
  rw [Loader.get?_enter, if_neg (ne_enter_of_issued r h)]

/-- A request is made and called back. -/
theorem postpones_fired (c : Call ν) (hc : c.dependencies = []) (ctx : Option Context)
    (hquiet : ∀ m, l.requests.serial < m → upshots m l.journal = []) {new : List (Event ν)}
    (hnew : TellsOf (l.requests.serial + 1) c.firingTold new) :
    Postpones l [c] [] (fired c (l.enter (c.request ctx)).2 (l.enter (c.request ctx)).1 new) := by
  have hupshots : ∀ m, upshots m (fired c (l.enter (c.request ctx)).2
      (l.enter (c.request ctx)).1 new).journal =
      (if m = l.requests.serial + 1 then c.firingTold else []) ++ upshots m l.journal := by
    intro m
    rw [← hnew.upshots]
    exact upshots_append m new _
  exact {
    resolver := rfl
    registry := rfl
    resources := rfl
    fetches := rfl
    worklist := rfl
    idle := rfl
    bootstrap := by simp [fired, Loader.enter, Loader.record]
    serial := by simp [fired, serial_enter]
    values := by simp [fired, Loader.enter, Loader.record, Call.postponedMade, hc]
    loads := by
      have happend := loads_append new (l.enter (c.request ctx)).2.journal
      rw [hnew.loads] at happend
      exact happend
    older := by
      intro m hm
      rw [hupshots, if_neg (by omega), List.nil_append]
    kept := by
      intro id hissued
      rw [get?_fired, if_neg (ne_enter_of_issued _ hissued)]
    live := by
      intro id r hr
      rw [get?_fired] at hr
      split at hr
      · cases hr
      · exact .inl hr
    queued := by
      refine .fired hc ?_ (.nil fun m hm => ?_)
      · rw [hupshots, if_pos rfl, hquiet _ (by omega), List.append_nil]
      · rw [hupshots, if_neg (by omega), hquiet m (by omega), List.append_nil] }

/-- A request is made and deferred. -/
theorem postpones_deferred (c : Call ν) (hc : c.dependencies ≠ [])
    (hcontext : l.context? none = none) (hw : l.worklist = []) (hidle : l.dispatching = false)
    (hquiet : ∀ m, l.requests.serial < m → upshots m l.journal = []) :
    Postpones l [c] [(l.enter (c.request none)).1] (c.submitted l) := by
  rw [c.submitted_of_none l hc hcontext]
  exact {
    resolver := rfl
    registry := rfl
    resources := rfl
    fetches := rfl
    worklist := hw
    idle := hidle
    bootstrap := rfl
    serial := rfl
    values := by simp [Loader.enter, Loader.record, Call.postponedMade, hc]
    loads := rfl
    older := fun _ _ => rfl
    kept := fun id hissued => get?_enter_of_issued _ hissued
    live := by
      intro id r hr
      rcases Requests.get?_insert_eq_some hr with ⟨hid, _⟩ | hold
      · exact .inr (List.mem_singleton.mpr hid)
      · exact .inl hold
    queued := by
      refine .deferred hc rfl (Loader.get?_enter_self l _) ?_ (.nil fun m hm => ?_)
      · exact hquiet _ (by omega)
      · exact hquiet m (by omega) }

/-- A host's requests are made without a context. -/
theorem postpone_all (next : Script ν) (calls : List (Call ν)) :
    ∀ {l : Loader ν}, l.bootstrap.context? = none → l.worklist = [] → l.dispatching = false →
      (∀ m, l.requests.serial < m → upshots m l.journal = []) →
      ∃ ids l', Steps ⟨l, [.body none (callAll calls next) .plain]⟩ ⟨l', [.body none next .plain]⟩ ∧
        Postpones l calls ids l' := by
  induction calls with
  | nil =>
    intro l _ hw hidle hquiet
    exact ⟨[], l, .refl, .nil hw hidle hquiet⟩
  | cons c calls ih =>
    intro l hcontext hw hidle hquiet
    have hfirst : ∃ ids l₁, Steps ⟨l, [.body none (callAll (c :: calls) next) .plain]⟩
        ⟨l₁, [.body none (callAll calls next) .plain]⟩ ∧ Postpones l [c] ids l₁ := by
      by_cases hc : c.dependencies = []
      · obtain ⟨new, hnew, hsteps⟩ := fired_steps c (callAll calls next) hw hidle hc
        exact ⟨_, _, hsteps, postpones_fired c hc _ hquiet hnew⟩
      · have hpostpones := postpones_deferred c hc hcontext hw hidle hquiet
        exact ⟨_, _, submitted_steps c _ hpostpones.idle hpostpones.worklist, hpostpones⟩
    obtain ⟨ids, l₁, hsteps, h⟩ := hfirst
    have hcontext₁ : l₁.bootstrap.context? = none := by rw [h.bootstrap]; exact hcontext
    have hquiet₁ : ∀ m, l₁.requests.serial < m → upshots m l₁.journal = [] :=
      fun m hm => h.queued.quiet m (h.serial ▸ hm)
    obtain ⟨ids', l', hsteps', h'⟩ := ih hcontext₁ h.worklist h.idle hquiet₁
    exact ⟨_, l', hsteps.trans hsteps', h.cons h'⟩

end Machine
end AsyncModule
