import AsyncModule.Proofs.Linkage

/-!
# AsyncModule.Proofs.Settlement

What settling modules and requests does to the linkage.

* `Linkage.settle`          — settling a module turns its waiters into steps.
* `Linkage.remove`          — a request can be taken out with its waiters.
* `Linkage.fillSlot`        — a slot is filled with the value of its module.
* `Linkage.removeSatisfied` — a request is taken out to be called back.
-/

namespace AsyncModule

variable {ν : Type}

namespace Linkage

variable {skip : RequestId → Nat → Prop} {g g' : Registry} {rs rs' : Requests ν}
  {work work' : List Step} {deferred : List RequestId}

/-! ## Settling a module -/

/-- A module is settled, and nothing waits for it any more; what did is not seen to yet. -/
theorem settleState (h : Linkage skip g rs work deferred) {url : String} {st : ModuleState}
    (ho : g.IsOpen url) (hst : st.isSettled = true)
    (hstate : ∀ u, g'.state? u = if u = url then some st else g.state? u)
    (hwaiters : ∀ u, g'.waiters u = if u = url then [] else g.waiters u) :
    Linkage (fun id i => skip id i ∨ ⟨id, i⟩ ∈ g.waiters url) g' rs work deferred := by
  have hopen : ∀ st', g.state? url = some st' → st'.isSettled = false := by
    intro st' hst'
    obtain ⟨s, hs, hopen⟩ := ho
    rw [hst'] at hs
    cases hs
    exact hopen
  have hready := fun {u v} => ready_of_settled (u := u) (v := v) hopen hstate
  refine ⟨?_, ?_, ?_, ?_, h.waits, ?_, h.counted, ?_, h.fire_due, h.issued, h.deferred_nodup,
    h.deferred, ?_⟩
  · intro u w hw
    rw [hwaiters] at hw
    split at hw
    · cases hw
    · rename_i hu
      rw [hstate, if_neg hu]
      exact h.waiter hw
  · intro u
    rw [hwaiters]
    split
    · exact .nil
    · exact h.nodup u
  · intro id r i s hr hs hv hn
    cases h.tracked hr hs hv fun hsk => hn (.inl hsk) with
    | deferred hd => exact .deferred hd
    | @waiting u hm hl hw =>
      have hu : u ≠ url := by
        rintro rfl
        exact hn (.inr hw)
      exact .waiting hm (by rw [hstate, if_neg hu, hl]) (by rw [hwaiters, if_neg hu]; exact hw)
    | due hm hrd hf => exact .due hm (hready hrd) hf
    | failing hf => exact .failing hf
  · intro id r hr he hn
    exact h.fires hr he fun hsk => hn (.inl hsk)
  · intro id r i s v hr hs hv
    obtain ⟨u, hm, hrd⟩ := h.filled hr hs hv
    exact ⟨u, hm, hready hrd⟩
  · intro id i v r hf hr
    obtain ⟨s, u, hs, hm, hrd⟩ := h.fill_due hf hr
    exact ⟨s, u, hs, hm, hready hrd⟩
  · intro u
    rw [hstate]
    split
    · intro heq
      cases heq
      cases hst
    · exact h.asked u

/-- A module is settled, and its waiters become steps. -/
theorem settle (h : Linkage skip g rs work deferred) {url : String} {st : ModuleState}
    {toStep : Waiter → Step} (ho : g.IsOpen url) (hst : st.isSettled = true)
    (hstate : ∀ u, g'.state? u = if u = url then some st else g.state? u)
    (hwaiters : ∀ u, g'.waiters u = if u = url then [] else g.waiters u)
    (hstep : ∀ w, (∃ v, st = .ready v ∧ toStep w = .fill w.request w.slot v) ∨
      ∃ e, toStep w = .fail w.request e) :
    Linkage skip g' rs (work ++ (g.waiters url).map toStep) deferred := by
  have hself : g'.state? url = some st := by rw [hstate, if_pos rfl]
  have h1 := (h.settleState ho hst hstate hwaiters).enqueue ((g.waiters url).map toStep) ?_ ?_ ?_
  · refine h1.see ?_ ?_
    · intro id r i s hr hs _ hsk hn
      have hw := hsk.resolve_left hn
      obtain ⟨_, r', s', hr', hs', hm, _⟩ := h.waiter hw
      rw [hr] at hr'
      cases hr'
      rw [hs] at hs'
      cases hs'
      have hmem := List.mem_append_right work (List.mem_map_of_mem (f := toStep) hw)
      rcases hstep ⟨id, i⟩ with ⟨v, rfl, heq⟩ | ⟨e, heq⟩
      · rw [heq] at hmem
        exact .due hm hself hmem
      · rw [heq] at hmem
        exact .failing hmem
    · intro id r hr he hsk hn
      obtain ⟨_, r', s, hr', hs, _⟩ := h.waiter (hsk.resolve_left hn)
      rw [hr] at hr'
      cases hr'
      rw [Request.slot?, he] at hs
      cases hs
  · intro s hs
    obtain ⟨w, hw, rfl⟩ := List.mem_map.mp hs
    obtain ⟨_, r, _, hr, _⟩ := h.waiter hw
    have hrequest : (toStep w).request = w.request := by
      rcases hstep w with ⟨v, _, heq⟩ | ⟨e, heq⟩
      · rw [heq]
        rfl
      · rw [heq]
        rfl
    rw [hrequest]
    exact Requests.issued_of_get? hr
  · intro id i v r hf hr
    obtain ⟨w, hw, heq⟩ := List.mem_map.mp hf
    rcases hstep w with ⟨v', rfl, heq'⟩ | ⟨e, heq'⟩
    · rw [heq'] at heq
      cases heq
      obtain ⟨_, r', s, hr', hs, hm, _⟩ := h.waiter hw
      rw [hr] at hr'
      cases hr'
      exact ⟨s, url, hs, hm, hself⟩
    · rw [heq'] at heq
      cases heq
  · intro id r hf hr
    obtain ⟨w, _, heq⟩ := List.mem_map.mp hf
    rcases hstep w with ⟨v, _, heq'⟩ | ⟨e, heq'⟩
    · rw [heq'] at heq
      cases heq
    · rw [heq'] at heq
      cases heq

/-! ## Taking a request out -/

/-- A request leaves with its waiters; steps that were due to it may go too. -/
theorem remove (h : Linkage skip g rs work deferred) (id : RequestId)
    (hrs : ∀ id', rs'.get? id' = if id' = id then none else rs.get? id')
    (hserial : rs'.serial = rs.serial) (hstate : ∀ u, g'.state? u = g.state? u)
    (hwaiters : ∀ u, g'.waiters u = (g.waiters u).filter (·.request != id))
    (hkeep : ∀ s ∈ work, s.request ≠ id → s ∈ work') (hsub : work' ⊆ work) :
    Linkage skip g' rs' work' (deferred.filter (· != id)) := by
  have hlive : ∀ {id' r}, rs'.get? id' = some r → id' ≠ id ∧ rs.get? id' = some r := by
    intro id' r hr
    rw [hrs] at hr
    split at hr
    · cases hr
    · rename_i hne
      exact ⟨hne, hr⟩
  refine ⟨?_, ?_, ?_, ?_, ?_, ?_, ?_, ?_, ?_, ?_, h.deferred_nodup.filter _, ?_, ?_⟩
  · intro url w hw
    rw [hwaiters, List.mem_filter] at hw
    obtain ⟨hw, hne⟩ := hw
    obtain ⟨hl, r, s, hr, hrest⟩ := h.waiter hw
    rw [hstate]
    exact ⟨hl, r, s, by rw [hrs, if_neg (by simpa using hne), hr], hrest⟩
  · intro url
    rw [hwaiters]
    exact (h.nodup url).filter _
  · intro id' r i s hr hs hv hn
    obtain ⟨hne, hr⟩ := hlive hr
    cases h.tracked hr hs hv hn with
    | deferred hd => exact .deferred (by simp [hd, hne])
    | waiting hm hl hw =>
      exact .waiting hm (by rw [hstate, hl]) (by rw [hwaiters]; simp [hw, hne])
    | due hm hrd hf => exact .due hm (by rw [hstate, hrd]) (hkeep _ hf hne)
    | failing hf => exact .failing (hkeep _ hf hne)
  · intro id' r hr he hn
    obtain ⟨hne, hr⟩ := hlive hr
    exact hkeep _ (h.fires hr he hn) hne
  · intro id' r hr hne
    exact h.waits (hlive hr).2 hne
  · intro id' r i s v hr hs hv
    rw [show g'.state? = g.state? from funext hstate]
    exact h.filled (hlive hr).2 hs hv
  · intro id' r hr
    exact h.counted (hlive hr).2
  · intro id' i v r hf hr
    rw [show g'.state? = g.state? from funext hstate]
    exact h.fill_due (hsub hf) (hlive hr).2
  · intro id' r hf hr
    exact h.fire_due (hsub hf) (hlive hr).2
  · intro s hs
    rw [Requests.Issued, hserial]
    exact h.issued (hsub hs)
  · intro id' hid'
    rw [List.mem_filter] at hid'
    obtain ⟨hid', hne⟩ := hid'
    obtain ⟨r, hr, hrest⟩ := h.deferred hid'
    exact ⟨r, by rw [hrs, if_neg (by simpa using hne), hr], hrest⟩
  · intro u
    rw [hstate]
    exact h.asked u

theorem dropStep {s : Step} (h : Linkage skip g rs (s :: work) deferred)
    (hs : rs.get? s.request = none) : Linkage skip g rs work deferred := by
  have hw : ∀ u, (g.waiters u).filter (·.request != s.request) = g.waiters u := by
    intro u
    rw [List.filter_eq_self]
    intro w hw
    obtain ⟨_, r, _, hr, _⟩ := h.waiter hw
    simp only [bne_iff_ne, ne_eq]
    rintro heq
    rw [heq, hs] at hr
    cases hr
  have hd : deferred.filter (· != s.request) = deferred := by
    rw [List.filter_eq_self]
    intro id hid
    obtain ⟨r, hr, _⟩ := h.deferred hid
    simp only [bne_iff_ne, ne_eq]
    rintro rfl
    rw [hs] at hr
    cases hr
  rw [← hd]
  refine h.remove s.request ?_ rfl (fun _ => rfl) (fun u => (hw u).symm) ?_ ?_
  · intro id'
    split
    · rename_i heq
      rw [heq, hs]
    · rfl
  · intro s' hs' hne
    rcases List.mem_cons.mp hs' with rfl | hs'
    · exact absurd rfl hne
    · exact hs'
  · exact List.subset_cons_self s work

/-! ## Filling slots and calling back -/

theorem not_mem_waiters_of_fill (h : Linkage skip g rs work deferred) {id : RequestId} {i : Nat}
    {v : ModuleValue} (hf : .fill id i v ∈ work) (url : String) : ⟨id, i⟩ ∉ g.waiters url := by
  intro hw
  obtain ⟨hl, r, s, hr, hs, hm, _⟩ := h.waiter hw
  obtain ⟨s', url', hs', hm', hrd⟩ := h.fill_due hf hr
  rw [hs] at hs'
  cases hs'
  rw [hm] at hm'
  cases hm'
  rw [hl] at hrd
  cases hrd

theorem not_mem_deferred_of_fill {id : RequestId} {i : Nat} {v : ModuleValue} {r : Request ν}
    (h : Linkage skip g rs (.fill id i v :: work) deferred) (hr : rs.get? id = some r) :
    id ∉ deferred := by
  intro hid
  obtain ⟨r', hr', _, _, hall⟩ := h.deferred hid
  rw [hr] at hr'
  cases hr'
  obtain ⟨s, url, hs, hm, _⟩ := h.fill_due List.mem_cons_self hr
  rw [hall s (Request.mem_slots.mpr ⟨i, hs⟩)] at hm
  cases hm

/-- A step that fills a slot is done once the slot is filled. -/
theorem dropFill {id : RequestId} {i : Nat} {v : ModuleValue}
    (h : Linkage skip g rs (.fill id i v :: work) deferred)
    (hfull : ∀ r s, rs.get? id = some r → r.slot? i = some s → s.value ≠ none) :
    Linkage skip g rs work deferred where
  __ := h
  tracked := by
    intro id' r j s hr hs hv hn
    cases h.tracked hr hs hv hn with
    | deferred hd => exact .deferred hd
    | waiting hm hl hw => exact .waiting hm hl hw
    | due hm hrd hf =>
      rcases List.mem_cons.mp hf with heq | hf
      · cases heq
        exact absurd hv (hfull r s hr hs)
      · exact .due hm hrd hf
    | failing hf => exact .failing ((List.mem_cons.mp hf).resolve_left (by simp))
  fires hr he hn := (List.mem_cons.mp (h.fires hr he hn)).resolve_left (by simp)
  fill_due hf hr := h.fill_due (List.mem_cons_of_mem _ hf) hr
  fire_due hf hr := h.fire_due (List.mem_cons_of_mem _ hf) hr
  issued hs := h.issued (List.mem_cons_of_mem _ hs)

theorem fillSlot {id : RequestId} {i : Nat} {v : ModuleValue} {r : Request ν}
    (h : Linkage skip g rs (.fill id i v :: work) deferred) (hr : rs.get? id = some r)
    (hsat : (r.fill i v).isSatisfied = false) :
    Linkage skip g (rs.modify id (·.fill i v)) work deferred := by
  obtain ⟨s₀, url, hs₀, hm₀, hrd⟩ := h.fill_due List.mem_cons_self hr
  have hcounted := (h.counted hr).fill i v
  have h1 : Linkage skip g (rs.modify id (·.fill i v)) (.fill id i v :: work) deferred := by
    refine h.update hr (fun _ _ hsk => hsk) ?_ (Request.length_fill r i v) hcounted ?_
      fun hid => absurd hid (h.not_mem_deferred_of_fill hr)
    · intro j s hs
      refine ⟨_, by rw [Request.slot?_fill, hs, Option.map_some], ?_⟩
      by_cases hj : j = i ∧ s.value = none
      · obtain ⟨rfl, hv⟩ := hj
        rw [hs₀] at hs
        cases hs
        rw [if_pos ⟨rfl, hv⟩]
        refine .inr ⟨h.not_mem_waiters_of_fill List.mem_cons_self, by simp, ?_, fun _ _ => rfl⟩
        intro v' hv'
        cases hv'
        exact ⟨url, hm₀, hrd⟩
      · rw [if_neg hj]
        exact .inl rfl
    · intro _
      have hns := mt hcounted.isSatisfied_iff.mpr (by simp [hsat])
      by_contra hno
      exact hns fun j s hs hv => hno ⟨j, s, hs, hv⟩
  refine h1.dropFill fun r' s hr' hs hv => ?_
  rw [Requests.get?_modify_self _ hr] at hr'
  cases hr'
  rw [Request.slot?_fill] at hs
  obtain ⟨s', _, rfl⟩ := Option.map_eq_some_iff.mp hs
  by_cases hv' : s'.value = none
  · rw [if_pos ⟨rfl, hv'⟩] at hv
    cases hv
  · rw [if_neg fun hc => hv' hc.2] at hv
    exact hv' hv

theorem removeSatisfied {s : Step} {r : Request ν}
    (h : Linkage skip g rs (s :: work) deferred) (id : RequestId) (hs : s.request = id)
    (hr : rs.get? id = some r)
    (hempty : ∀ i slot, r.slot? i = some slot → slot.value = none →
      ∃ v, Step.fill id i v ∈ s :: work)
    (hd : id ∉ deferred)
    (hrs : ∀ id', rs'.get? id' = if id' = id then none else rs.get? id')
    (hserial : rs'.serial = rs.serial) : Linkage skip g rs' work deferred := by
  have hd' : deferred.filter (· != id) = deferred := by
    rw [List.filter_eq_self]
    intro id' hid'
    simp only [bne_iff_ne, ne_eq]
    rintro rfl
    exact hd hid'
  rw [← hd']
  refine h.remove id hrs hserial (fun _ => rfl) ?_ ?_ (List.subset_cons_self s work)
  · intro u
    refine (List.filter_eq_self.mpr ?_).symm
    intro w hw
    obtain ⟨_, r', slot, hr', hslot, _, hv⟩ := h.waiter hw
    simp only [bne_iff_ne, ne_eq]
    rintro heq
    rw [heq, hr] at hr'
    cases hr'
    obtain ⟨v, hf⟩ := hempty _ _ hslot hv
    exact h.not_mem_waiters_of_fill hf u (by rw [← heq]; exact hw)
  · intro s' hs' hne
    rcases List.mem_cons.mp hs' with rfl | hs'
    · exact absurd hs hne
    · exact hs'

end Linkage
end AsyncModule
