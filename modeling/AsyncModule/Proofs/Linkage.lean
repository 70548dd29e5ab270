import AsyncModule.Proofs.Attach
import Mathlib.Data.List.Nodup

/-!
# AsyncModule.Proofs.Linkage

How requests hang on modules. Whatever waits for a module is an empty slot of a live request that
is linked to it, and every empty slot of a live request is seen to: it waits for a module that is
loading, a step of the worklist will fill it or fail its request, or the request is deferred.

* `Linkage`         — the invariant, over the four structures that it relates.
* `Linkage.update`  — a request may change, as long as its slots stay as they are or are renewed.
* `Linkage.await`   — a slot is linked to a module that is not settled, and waits for it.

While a request is being linked some of its slots are not seen to yet; `skip` says which.
-/

namespace AsyncModule

variable {ν : Type}

/-- What sees to it that an empty slot is filled or its request failed. -/
inductive Tracked (g : Registry) (work : List Step) (deferred : List RequestId)
    (id : RequestId) (i : Nat) (s : Slot) : Prop where
  | deferred (h : id ∈ deferred)
  | waiting {url : String} (hm : s.module = some url) (hl : g.state? url = some .loading)
      (hw : ⟨id, i⟩ ∈ g.waiters url)
  | due {url : String} {v : ModuleValue} (hm : s.module = some url)
      (hr : g.state? url = some (.ready v)) (hf : .fill id i v ∈ work)
  | failing {e : LoadError} (hf : .fail id e ∈ work)

structure Linkage (skip : RequestId → Nat → Prop) (g : Registry) (rs : Requests ν)
    (work : List Step) (deferred : List RequestId) : Prop where
  /-- Only empty slots of live requests wait, and only for modules that are loading. -/
  waiter : ∀ {url w}, w ∈ g.waiters url → g.state? url = some .loading ∧
    ∃ r s, rs.get? w.request = some r ∧ r.slot? w.slot = some s ∧
      s.module = some url ∧ s.value = none
  nodup : ∀ url, (g.waiters url).Nodup
  tracked : ∀ {id r i s}, rs.get? id = some r → r.slot? i = some s → s.value = none →
    ¬ skip id i → Tracked g work deferred id i s
  fires : ∀ {id r}, rs.get? id = some r → r.slots = [] → ¬ skip id 0 → .fire id ∈ work
  /-- A live request with dependencies has an empty slot. -/
  waits : ∀ {id r}, rs.get? id = some r → r.slots ≠ [] →
    ∃ i s, r.slot? i = some s ∧ s.value = none
  filled : ∀ {id r i s v}, rs.get? id = some r → r.slot? i = some s → s.value = some v →
    ∃ url, s.module = some url ∧ g.state? url = some (.ready v)
  counted : ∀ {id r}, rs.get? id = some r → r.Counted
  fill_due : ∀ {id i v r}, .fill id i v ∈ work → rs.get? id = some r →
    ∃ s url, r.slot? i = some s ∧ s.module = some url ∧ g.state? url = some (.ready v)
  fire_due : ∀ {id r}, .fire id ∈ work → rs.get? id = some r → r.slots = []
  issued : ∀ {s}, s ∈ work → rs.Issued s.request
  deferred_nodup : deferred.Nodup
  deferred : ∀ {id}, id ∈ deferred → ∃ r, rs.get? id = some r ∧ r.slots ≠ [] ∧
    r.definitionUrl = none ∧ ∀ s ∈ r.slots, s.module = none
  /-- A module that has been heard of has been asked for. -/
  asked : ∀ url, g.state? url ≠ some .known

/-- What a change of a request may make of a slot: nothing waits for it, it is skipped as long as
it is empty, and it has the value of its module when it is not. -/
structure Renewed (skip : RequestId → Nat → Prop) (g : Registry) (work : List Step)
    (id : RequestId) (i : Nat) (s s' : Slot) : Prop where
  unawaited : ∀ url, ⟨id, i⟩ ∉ g.waiters url
  skipped : s'.value = none → skip id i
  filled : ∀ v, s'.value = some v → ∃ url, s'.module = some url ∧ g.state? url = some (.ready v)
  due : ∀ v, .fill id i v ∈ work → s'.module = s.module

/-- What is ready stays so when a module that is not settled changes its state. -/
theorem ready_of_settled {g g' : Registry} {url u : String} {st : ModuleState} {v : ModuleValue}
    (hopen : ∀ st', g.state? url = some st' → st'.isSettled = false)
    (hstate : ∀ u, g'.state? u = if u = url then some st else g.state? u)
    (hu : g.state? u = some (.ready v)) : g'.state? u = some (.ready v) := by
  rw [hstate, if_neg, hu]
  rintro rfl
  cases hopen _ hu

namespace Linkage

variable {skip skip' : RequestId → Nat → Prop} {g g' : Registry} {rs rs' : Requests ν}
  {work work' : List Step} {deferred deferred' : List RequestId}

theorem init : Linkage skip .empty (.empty : Requests ν) [] [] := by
  have hno : ∀ id, (Requests.empty : Requests ν).get? id = none := fun id => rfl
  refine ⟨?_, fun url => .nil, ?_, ?_, ?_, ?_, ?_, ?_, ?_, ?_, .nil, ?_, ?_⟩
  · intro url w hw; cases hw
  · intro id r i s hr; rw [hno] at hr; cases hr
  · intro id r hr; rw [hno] at hr; cases hr
  · intro id r hr; rw [hno] at hr; cases hr
  · intro id r i s v hr; rw [hno] at hr; cases hr
  · intro id r hr; rw [hno] at hr; cases hr
  · intro id i v r hf; cases hf
  · intro id r hf; cases hf
  · intro s hs; cases hs
  · intro id hid; cases hid
  · intro url h; cases h

theorem see (h : Linkage skip g rs work deferred)
    (hsee : ∀ {id r i s}, rs.get? id = some r → r.slot? i = some s → s.value = none →
      skip id i → ¬ skip' id i → Tracked g work deferred id i s)
    (hfire : ∀ {id r}, rs.get? id = some r → r.slots = [] → skip id 0 → ¬ skip' id 0 →
      .fire id ∈ work) :
    Linkage skip' g rs work deferred where
  __ := h
  tracked := by
    intro id r i s hr hs hv hn
    by_cases hsk : skip id i
    · exact hsee hr hs hv hsk hn
    · exact h.tracked hr hs hv hsk
  fires := by
    intro id r hr he hn
    by_cases hsk : skip id 0
    · exact hfire hr he hsk hn
    · exact h.fires hr he hsk

theorem weaken (h : Linkage skip g rs work deferred) (hskip : ∀ id i, skip id i → skip' id i) :
    Linkage skip' g rs work deferred :=
  h.see (fun _ _ _ hs hn => absurd (hskip _ _ hs) hn) (fun _ _ hs hn => absurd (hskip _ _ hs) hn)

theorem value_of_deferred (h : Linkage skip g rs work deferred) {id : RequestId}
    {r : Request ν} {s : Slot} (hid : id ∈ deferred) (hr : rs.get? id = some r)
    (hs : s ∈ r.slots) : s.value = none := by
  obtain ⟨r', hr', _, _, hall⟩ := h.deferred hid
  rw [hr] at hr'
  cases hr'
  cases hv : s.value with
  | none => rfl
  | some v =>
    obtain ⟨i, hi⟩ := Request.mem_slots.mp hs
    obtain ⟨url, hm, _⟩ := h.filled hr hi hv
    rw [hall s hs] at hm
    cases hm

/-! ## The worklist -/

theorem enqueue (h : Linkage skip g rs work deferred) (steps : List Step)
    (hissued : ∀ s ∈ steps, rs.Issued s.request)
    (hfill : ∀ {id i v r}, .fill id i v ∈ steps → rs.get? id = some r →
      ∃ s url, r.slot? i = some s ∧ s.module = some url ∧ g.state? url = some (.ready v))
    (hfire : ∀ {id r}, .fire id ∈ steps → rs.get? id = some r → r.slots = []) :
    Linkage skip g rs (work ++ steps) deferred where
  __ := h
  tracked := by
    intro id r i s hr hs hv hn
    cases h.tracked hr hs hv hn with
    | deferred hd => exact .deferred hd
    | waiting hm hl hw => exact .waiting hm hl hw
    | due hm hrd hf => exact .due hm hrd (List.mem_append_left _ hf)
    | failing hf => exact .failing (List.mem_append_left _ hf)
  fires := by
    intro id r hr he hn
    exact List.mem_append_left _ (h.fires hr he hn)
  fill_due := by
    intro id i v r hf hr
    rcases List.mem_append.mp hf with hf | hf
    · exact h.fill_due hf hr
    · exact hfill hf hr
  fire_due := by
    intro id r hf hr
    rcases List.mem_append.mp hf with hf | hf
    · exact h.fire_due hf hr
    · exact hfire hf hr
  issued := by
    intro s hs
    rcases List.mem_append.mp hs with hs | hs
    · exact h.issued hs
    · exact hissued s hs

theorem enqueueFail (h : Linkage skip g rs work deferred) {id : RequestId} {r : Request ν}
    (e : LoadError) (hr : rs.get? id = some r) (hne : r.slots ≠ [])
    (hskip : ∀ id' i, skip id' i → skip' id' i ∨ id' = id) :
    Linkage skip' g rs (work ++ [.fail id e]) deferred := by
  have h' := h.enqueue [.fail id e]
    (by intro s hs; rw [List.mem_singleton.mp hs]; exact Requests.issued_of_get? hr)
    (by intro id' i v r' hf; simp at hf) (by intro id' r' hf; simp at hf)
  refine h'.see ?_ ?_
  · intro id' r' i s _ _ _ hs hn
    rcases hskip id' i hs with h1 | h1
    · exact absurd h1 hn
    · subst h1
      exact .failing (e := e) (by simp)
  · intro id' r' hr' he hs hn
    rcases hskip id' 0 hs with h1 | h1
    · exact absurd h1 hn
    · subst h1
      rw [hr] at hr'
      cases hr'
      exact absurd he hne

theorem enqueueFill (h : Linkage skip g rs work deferred) {id : RequestId} {r : Request ν} {i : Nat}
    {s : Slot} {url : String} {v : ModuleValue} (hr : rs.get? id = some r)
    (hs : r.slot? i = some s) (hm : s.module = some url)
    (hready : g.state? url = some (.ready v))
    (hskip : ∀ id' i', skip id' i' → skip' id' i' ∨ id' = id ∧ i' = i) :
    Linkage skip' g rs (work ++ [.fill id i v]) deferred := by
  have h' := h.enqueue [.fill id i v]
    (by intro s' hs'; rw [List.mem_singleton.mp hs']; exact Requests.issued_of_get? hr)
    (by
      intro id' i' v' r' hf hr'
      simp only [List.mem_singleton, Step.fill.injEq] at hf
      obtain ⟨rfl, rfl, rfl⟩ := hf
      rw [hr] at hr'
      cases hr'
      exact ⟨s, url, hs, hm, hready⟩)
    (by intro id' r' hf; simp at hf)
  refine h'.see ?_ ?_
  · intro id' r' i' s' hr' hs' _ hsk hn
    obtain ⟨rfl, rfl⟩ := (hskip id' i' hsk).resolve_left hn
    rw [hr] at hr'
    cases hr'
    rw [hs] at hs'
    cases hs'
    exact .due hm hready (by simp)
  · intro id' r' hr' he hsk hn
    obtain ⟨rfl, rfl⟩ := (hskip id' 0 hsk).resolve_left hn
    rw [hr] at hr'
    cases hr'
    rw [Request.slot?, he] at hs
    cases hs

theorem enqueueFire (h : Linkage skip g rs work deferred) {id : RequestId} {r : Request ν}
    (hr : rs.get? id = some r) (he : r.slots = [])
    (hskip : ∀ id' i, skip id' i → skip' id' i ∨ id' = id) :
    Linkage skip' g rs (work ++ [.fire id]) deferred := by
  have h' := h.enqueue [.fire id]
    (by intro s hs; rw [List.mem_singleton.mp hs]; exact Requests.issued_of_get? hr)
    (by intro id' i v r' hf; simp at hf)
    (by
      intro id' r' hf hr'
      simp only [List.mem_singleton, Step.fire.injEq] at hf
      subst hf
      rw [hr] at hr'
      cases hr'
      exact he)
  refine h'.see ?_ ?_
  · intro id' r' i s hr' hs _ hsk hn
    rcases hskip id' i hsk with h1 | h1
    · exact absurd h1 hn
    · subst h1
      rw [hr] at hr'
      cases hr'
      rw [Request.slot?, he] at hs
      cases hs
  · intro id' r' hr' _ hs hn
    rcases hskip id' 0 hs with h1 | h1
    · exact absurd h1 hn
    · subst h1
      simp

/-! ## Requests -/

theorem insert (h : Linkage skip g rs work deferred) {r : Request ν}
    (hs : ∀ s ∈ r.slots, s.module = none ∧ s.value = none) (hr : r.resolved = 0) :
    Linkage (fun id i => skip id i ∨ id = (rs.insert r).1) g (rs.insert r).2 work deferred where
  waiter := by
    intro url w hw
    obtain ⟨hl, r', s, hr', hs'⟩ := h.waiter hw
    exact ⟨hl, r', s, Requests.get?_insert_of_get? r hr', hs'⟩
  nodup := h.nodup
  tracked := by
    intro id r' i s hr' hs' hv hn
    rcases Requests.get?_insert_eq_some hr' with ⟨hid, _⟩ | hold
    · exact absurd (.inr hid) hn
    · exact h.tracked hold hs' hv fun hsk => hn (.inl hsk)
  fires := by
    intro id r' hr' he hn
    rcases Requests.get?_insert_eq_some hr' with ⟨hid, _⟩ | hold
    · exact absurd (.inr hid) hn
    · exact h.fires hold he fun hsk => hn (.inl hsk)
  waits := by
    intro id r' hr' hne
    rcases Requests.get?_insert_eq_some hr' with ⟨_, rfl⟩ | hold
    · obtain ⟨s, hmem⟩ := List.exists_mem_of_ne_nil _ hne
      obtain ⟨i, hi⟩ := Request.mem_slots.mp hmem
      exact ⟨i, s, hi, (hs s hmem).2⟩
    · exact h.waits hold hne
  filled := by
    intro id r' i s v hr' hs' hv
    rcases Requests.get?_insert_eq_some hr' with ⟨_, rfl⟩ | hold
    · rw [(hs s (Request.mem_slots.mpr ⟨i, hs'⟩)).2] at hv
      cases hv
    · exact h.filled hold hs' hv
  counted := by
    intro id r' hr'
    rcases Requests.get?_insert_eq_some hr' with ⟨_, rfl⟩ | hold
    · have hzero : r'.slots.countP (·.isFilled) = 0 := by
        rw [List.countP_eq_zero]
        intro s hmem
        simp [Slot.isFilled, (hs s hmem).2]
      rw [Request.Counted, hr, hzero]
    · exact h.counted hold
  fill_due := by
    intro id i v r' hf hr'
    rcases Requests.get?_insert_eq_some hr' with ⟨hid, _⟩ | hold
    · exact absurd hid (Requests.ne_insert_of_issued r (h.issued hf))
    · exact h.fill_due hf hold
  fire_due := by
    intro id r' hf hr'
    rcases Requests.get?_insert_eq_some hr' with ⟨hid, _⟩ | hold
    · exact absurd hid (Requests.ne_insert_of_issued r (h.issued hf))
    · exact h.fire_due hf hold
  issued := by
    intro s hs'
    exact Nat.le_succ_of_le (h.issued hs')
  deferred_nodup := h.deferred_nodup
  deferred := by
    intro id hid
    obtain ⟨r', hr', hrest⟩ := h.deferred hid
    exact ⟨r', Requests.get?_insert_of_get? r hr', hrest⟩
  asked := h.asked

/-- A request changes. Each of its slots stays as it is or is renewed. -/
theorem update (h : Linkage skip g rs work deferred) {id : RequestId} {r : Request ν}
    {f : Request ν → Request ν} (hr : rs.get? id = some r)
    (hskip : ∀ id' i, skip id' i → skip' id' i)
    (hslots : ∀ i s, r.slot? i = some s →
      ∃ s', (f r).slot? i = some s' ∧ (s' = s ∨ Renewed skip' g work id i s s'))
    (hlength : (f r).slots.length = r.slots.length) (hcounted : (f r).Counted)
    (hwaits : (f r).slots ≠ [] → ∃ i s, (f r).slot? i = some s ∧ s.value = none)
    (hdeferred : id ∈ deferred → (f r).slots ≠ [] ∧ (f r).definitionUrl = none ∧
      ∀ s ∈ (f r).slots, s.module = none) :
    Linkage skip' g (rs.modify id f) work deferred := by
  have hget := Requests.get?_modify_self f hr
  have hto : ∀ {id' r'}, rs.get? id' = some r' → id' ≠ id → (rs.modify id f).get? id' = some r' := by
    intro id' r' hr' hne
    rw [Requests.get?_modify_of_ne _ hne, hr']
  have hfrom : ∀ {id' r'}, (rs.modify id f).get? id' = some r' →
      id' = id ∧ r' = f r ∨ id' ≠ id ∧ rs.get? id' = some r' := by
    intro id' r' hr'
    rcases Requests.get?_modify_eq_some hr' with ⟨rfl, r'', hr'', rfl⟩ | hold
    · rw [hr] at hr''
      cases hr''
      exact .inl ⟨rfl, rfl⟩
    · exact .inr hold
  have hback : ∀ {i s'}, (f r).slot? i = some s' →
      ∃ s, r.slot? i = some s ∧ (s' = s ∨ Renewed skip' g work id i s s') := by
    intro i s' hs'
    have hlt : i < r.slots.length := by
      rw [← hlength]
      exact (List.getElem?_eq_some_iff.mp hs').1
    obtain ⟨s'', hs'', hor⟩ := hslots i _ (List.getElem?_eq_getElem hlt)
    rw [hs'] at hs''
    cases hs''
    exact ⟨_, List.getElem?_eq_getElem hlt, hor⟩
  have hempty : (f r).slots = [] ↔ r.slots = [] := by
    rw [← List.length_eq_zero_iff, hlength, List.length_eq_zero_iff]
  refine ⟨?_, h.nodup, ?_, ?_, ?_, ?_, ?_, ?_, ?_, ?_, h.deferred_nodup, ?_, h.asked⟩
  · intro url w hw
    obtain ⟨hl, r', s, hr', hs, hm, hv⟩ := h.waiter hw
    by_cases hid : w.request = id
    · rw [hid, hr] at hr'
      cases hr'
      obtain ⟨s', hs', rfl | hnew⟩ := hslots _ s hs
      · exact ⟨hl, f r, s', by rw [hid, hget], hs', hm, hv⟩
      · exact absurd (by rw [← hid]; exact hw) (hnew.unawaited url)
    · exact ⟨hl, r', s, hto hr' hid, hs, hm, hv⟩
  · intro id' r' i s' hr' hs' hv hn
    rcases hfrom hr' with ⟨rfl, rfl⟩ | ⟨_, hr'⟩
    · obtain ⟨s, hs, rfl | hnew⟩ := hback hs'
      · exact h.tracked hr hs hv fun hsk => hn (hskip _ _ hsk)
      · exact absurd (hnew.skipped hv) hn
    · exact h.tracked hr' hs' hv fun hsk => hn (hskip _ _ hsk)
  · intro id' r' hr' he hn
    rcases hfrom hr' with ⟨rfl, rfl⟩ | ⟨_, hr'⟩
    · exact h.fires hr (hempty.mp he) fun hsk => hn (hskip _ _ hsk)
    · exact h.fires hr' he fun hsk => hn (hskip _ _ hsk)
  · intro id' r' hr' hne
    rcases hfrom hr' with ⟨rfl, rfl⟩ | ⟨_, hr'⟩
    · exact hwaits hne
    · exact h.waits hr' hne
  · intro id' r' i s' v hr' hs' hv
    rcases hfrom hr' with ⟨rfl, rfl⟩ | ⟨_, hr'⟩
    · obtain ⟨s, hs, rfl | hnew⟩ := hback hs'
      · exact h.filled hr hs hv
      · exact hnew.filled v hv
    · exact h.filled hr' hs' hv
  · intro id' r' hr'
    rcases hfrom hr' with ⟨rfl, rfl⟩ | ⟨_, hr'⟩
    · exact hcounted
    · exact h.counted hr'
  · intro id' i v r' hf hr'
    rcases hfrom hr' with ⟨rfl, rfl⟩ | ⟨_, hr'⟩
    · obtain ⟨s, url, hs, hm, hrd⟩ := h.fill_due hf hr
      obtain ⟨s', hs', rfl | hnew⟩ := hslots i s hs
      · exact ⟨s', url, hs', hm, hrd⟩
      · exact ⟨s', url, hs', (hnew.due v hf).trans hm, hrd⟩
    · exact h.fill_due hf hr'
  · intro id' r' hf hr'
    rcases hfrom hr' with ⟨rfl, rfl⟩ | ⟨_, hr'⟩
    · exact hempty.mpr (h.fire_due hf hr)
    · exact h.fire_due hf hr'
  · intro s hs
    rw [Requests.Issued, Requests.serial_modify]
    exact h.issued hs
  · intro id' hid'
    by_cases hid : id' = id
    · subst hid
      exact ⟨f r, hget, hdeferred hid'⟩
    · rw [Requests.get?_modify_of_ne _ hid]
      exact h.deferred hid'

/-- Neither the targets of modules nor their definitions matter. -/
theorem congr (h : Linkage skip g rs work deferred) (hstate : ∀ u, g'.state? u = g.state? u)
    (hwaiters : ∀ u, g'.waiters u = g.waiters u) : Linkage skip g' rs work deferred where
  __ := h
  waiter := by
    intro url w hw
    rw [hwaiters] at hw
    rw [hstate]
    exact h.waiter hw
  nodup := by
    intro url
    rw [hwaiters]
    exact h.nodup url
  tracked := by
    intro id r i s hr hs hv hn
    cases h.tracked hr hs hv hn with
    | deferred hd => exact .deferred hd
    | waiting hm hl hw => exact .waiting hm (by rw [hstate, hl]) (by rw [hwaiters]; exact hw)
    | due hm hrd hf => exact .due hm (by rw [hstate, hrd]) hf
    | failing hf => exact .failing hf
  filled := by
    intro id r i s v hr hs hv
    obtain ⟨url, hm, hrd⟩ := h.filled hr hs hv
    exact ⟨url, hm, by rw [hstate, hrd]⟩
  fill_due := by
    intro id i v r hf hr
    obtain ⟨s, url, hs, hm, hrd⟩ := h.fill_due hf hr
    exact ⟨s, url, hs, hm, by rw [hstate, hrd]⟩
  asked := by
    intro url
    rw [hstate]
    exact h.asked url

/-! ## Linking -/

theorem linkSlot (h : Linkage skip g rs work deferred) {id : RequestId} {r : Request ν} {i : Nat}
    {s : Slot} (url : String) (hr : rs.get? id = some r) (hs : r.slot? i = some s)
    (hm : s.module = none) (hd : id ∉ deferred) :
    Linkage (fun id' i' => skip id' i' ∨ id' = id ∧ i' = i) g (rs.modify id (·.link i url)) work
      deferred := by
  have hunlinked : ∀ {s' u}, r.slot? i = some s' → s'.module ≠ some u := by
    intro s' u hs' hu
    rw [hs] at hs'
    cases hs'
    rw [hm] at hu
    cases hu
  have hvalue : s.value = none := by
    cases hv : s.value with
    | none => rfl
    | some v =>
      obtain ⟨u, hu, _⟩ := h.filled hr hs hv
      exact absurd hu (hunlinked hs)
  refine h.update hr (fun _ _ => .inl) ?_ (Request.length_link r i url)
    ((h.counted hr).link i url) ?_ fun hid => absurd hid hd
  · intro j s' hs'
    refine ⟨_, by rw [Request.slot?_link, hs', Option.map_some], ?_⟩
    by_cases hj : j = i
    · subst hj
      rw [hs] at hs'
      cases hs'
      rw [if_pos rfl]
      refine .inr ⟨?_, fun _ => .inr ⟨rfl, rfl⟩, ?_, ?_⟩
      · intro u hw
        obtain ⟨_, r', s', hr', hs', hm', _⟩ := h.waiter hw
        rw [hr] at hr'
        cases hr'
        exact hunlinked hs' hm'
      · intro v hv
        rw [hvalue] at hv
        cases hv
      · intro v hf
        obtain ⟨s', u, hs', hu, _⟩ := h.fill_due hf hr
        exact absurd hu (hunlinked hs')
    · rw [if_neg hj]
      exact .inl rfl
  · intro _
    refine ⟨i, { s with module := some url }, ?_, hvalue⟩
    rw [Request.slot?_link, hs, Option.map_some, if_pos rfl]

/-- A module that is not settled is loading from now on, and an empty slot that is linked to it
waits for it. -/
theorem addWaiter (h : Linkage skip g rs work deferred) {id : RequestId} {r : Request ν} {i : Nat}
    {s : Slot} {url : String} (hr : rs.get? id = some r) (hs : r.slot? i = some s)
    (hm : s.module = some url) (hv : s.value = none) (hnew : ⟨id, i⟩ ∉ g.waiters url)
    (hopen : ∀ st, g.state? url = some st → st.isSettled = false)
    (hstate : ∀ u, g'.state? u = if u = url then some .loading else g.state? u)
    (hwaiters : ∀ u, g'.waiters u = if u = url then g.waiters u ++ [⟨id, i⟩] else g.waiters u) :
    Linkage skip g' rs work deferred := by
  have hready := fun {u v} => ready_of_settled (u := u) (v := v) hopen hstate
  refine ⟨?_, ?_, ?_, h.fires, h.waits, ?_, h.counted, ?_, h.fire_due, h.issued, h.deferred_nodup,
    h.deferred, ?_⟩
  · intro u w hw
    rw [hwaiters] at hw
    split at hw
    · rename_i hu
      rw [hstate, if_pos hu]
      rcases List.mem_append.mp hw with hw | hw
      · exact ⟨rfl, (h.waiter hw).2⟩
      · rw [List.mem_singleton.mp hw]
        exact ⟨rfl, r, s, hr, hs, hu ▸ hm, hv⟩
    · rename_i hu
      rw [hstate, if_neg hu]
      exact h.waiter hw
  · intro u
    rw [hwaiters]
    split
    · rename_i hu
      rw [List.nodup_append]
      refine ⟨h.nodup u, by simp, ?_⟩
      rintro w hw w' hw' rfl
      rw [List.mem_singleton] at hw'
      subst hw'
      exact hnew (hu ▸ hw)
    · exact h.nodup u
  · intro id' r' i' s' hr' hs' hv' hn
    cases h.tracked hr' hs' hv' hn with
    | deferred hd => exact .deferred hd
    | waiting hm' hl hw =>
      refine .waiting hm' ?_ ?_
      · rw [hstate]
        split
        · rfl
        · exact hl
      · rw [hwaiters]
        split
        · exact List.mem_append_left _ hw
        · exact hw
    | due hm' hrd hf => exact .due hm' (hready hrd) hf
    | failing hf => exact .failing hf
  · intro id' r' i' s' v hr' hs' hv'
    obtain ⟨u, hu, hrd⟩ := h.filled hr' hs' hv'
    exact ⟨u, hu, hready hrd⟩
  · intro id' i' v r' hf hr'
    obtain ⟨s', u, hs', hu, hrd⟩ := h.fill_due hf hr'
    exact ⟨s', u, hs', hu, hready hrd⟩
  · intro u
    rw [hstate]
    split
    · simp
    · exact h.asked u

/-- A slot that waits need not be skipped. -/
theorem await (h : Linkage skip g rs work deferred) {id : RequestId} {r : Request ν} {i : Nat}
    {s : Slot} {url : String} (hr : rs.get? id = some r) (hs : r.slot? i = some s)
    (hm : s.module = some url) (hv : s.value = none) (hnew : ⟨id, i⟩ ∉ g.waiters url)
    (hopen : ∀ st, g.state? url = some st → st.isSettled = false)
    (hstate : ∀ u, g'.state? u = if u = url then some .loading else g.state? u)
    (hwaiters : ∀ u, g'.waiters u = if u = url then g.waiters u ++ [⟨id, i⟩] else g.waiters u)
    (hskip : ∀ id' i', skip id' i' → skip' id' i' ∨ id' = id ∧ i' = i) :
    Linkage skip' g' rs work deferred := by
  refine (h.addWaiter hr hs hm hv hnew hopen hstate hwaiters).see ?_ ?_
  · intro id' r' i' s' hr' hs' _ hsk hn
    obtain ⟨rfl, rfl⟩ := (hskip id' i' hsk).resolve_left hn
    rw [hr] at hr'
    cases hr'
    rw [hs] at hs'
    cases hs'
    exact .waiting hm (by rw [hstate, if_pos rfl]) (by simp [hwaiters])
  · intro id' r' hr' he hsk hn
    obtain ⟨rfl, rfl⟩ := (hskip id' 0 hsk).resolve_left hn
    rw [hr] at hr'
    cases hr'
    rw [Request.slot?, he] at hs
    cases hs

/-! ## Deferring -/

theorem defer (h : Linkage skip g rs work deferred) {id : RequestId} {r : Request ν}
    (hr : rs.get? id = some r) (hne : r.slots ≠ []) (hd : r.definitionUrl = none)
    (hm : ∀ s ∈ r.slots, s.module = none) (hid : id ∉ deferred)
    (hskip : ∀ id' i, skip id' i → skip' id' i ∨ id' = id) :
    Linkage skip' g rs work (deferred ++ [id]) where
  __ := h
  tracked := by
    intro id' r' i s hr' hs hv hn
    by_cases hsk : skip id' i
    · rcases hskip id' i hsk with h1 | rfl
      · exact absurd h1 hn
      · exact .deferred (by simp)
    · cases h.tracked hr' hs hv hsk with
      | deferred hd => exact .deferred (List.mem_append_left _ hd)
      | waiting hm hl hw => exact .waiting hm hl hw
      | due hm hrd hf => exact .due hm hrd hf
      | failing hf => exact .failing hf
  fires := by
    intro id' r' hr' he hn
    by_cases hsk : skip id' 0
    · rcases hskip id' 0 hsk with h1 | rfl
      · exact absurd h1 hn
      · rw [hr] at hr'
        cases hr'
        exact absurd he hne
    · exact h.fires hr' he hsk
  deferred_nodup := by
    rw [List.nodup_append]
    refine ⟨h.deferred_nodup, by simp, ?_⟩
    rintro a ha b hb rfl
    rw [List.mem_singleton.mp hb] at ha
    exact hid ha
  deferred := by
    intro id' hid'
    rcases List.mem_append.mp hid' with hid' | hid'
    · exact h.deferred hid'
    · rw [List.mem_singleton.mp hid']
      exact ⟨r, hr, hne, hd, hm⟩

theorem takeDeferred (h : Linkage skip g rs work deferred) :
    Linkage (fun id i => skip id i ∨ id ∈ deferred) g rs work [] where
  __ := h
  tracked := by
    intro id r i s hr hs hv hn
    cases h.tracked hr hs hv fun hsk => hn (.inl hsk) with
    | deferred hd => exact absurd (.inr hd) hn
    | waiting hm hl hw => exact .waiting hm hl hw
    | due hm hrd hf => exact .due hm hrd hf
    | failing hf => exact .failing hf
  fires := by
    intro id r hr he hn
    exact h.fires hr he fun hsk => hn (.inl hsk)
  deferred_nodup := .nil
  deferred := by
    intro id hid
    cases hid

end Linkage
end AsyncModule
