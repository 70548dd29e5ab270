import AsyncModule.Proofs.Linked
import AsyncModule.Proofs.Runs

/-!
# AsyncModule.Proofs.Waiting

Nothing waits in vain. In every run, whatever waits for a module is an empty slot of a live
request, and every empty slot of a live request is seen to.

* `maintained_linked`   — every operation of the machine keeps the linkage.
* `waiting_seen_to`     — the linkage holds of every machine that can be reached.
-/

namespace AsyncModule

variable {ν : Type}

namespace Loader

abbrev AllLinked (l : Loader ν) : Prop := l.Linked fun _ _ => False

variable {l : Loader ν}

theorem AllLinked.afterEstablishing (h : l.AllLinked) {change : Bool × Bootstrap}
    (hd : change.2.deferred = l.bootstrap.deferred) : (l.afterEstablishing change).2.AllLinked := by
  have h1 : Loader.AllLinked { l with bootstrap := change.2 } := by
    unfold AllLinked Linked
    rw [hd]
    exact h
  unfold Loader.afterEstablishing
  dsimp only
  split
  · exact h1.drainDeferred
  · exact h1

theorem AllLinked.finishMain (h : l.AllLinked) (t : Target) : (l.finishMain t).AllLinked := by
  unfold Loader.finishMain
  dsimp only
  split
  · exact h.afterEstablishing (Bootstrap.deferred_finishEstablishing _ _)
  · exact h

/-- Once the last slot of a request is filled, all its modules are ready and their values in its
slots. -/
theorem AllLinked.ready_of_fill (h : l.AllLinked) {id : RequestId} {r : Request ν} {i : Nat}
    {v : ModuleValue} (hr : l.requests.get? id = some r) (hdue : .fill id i v ∈ l.worklist)
    (hfull : (r.fill i v).isSatisfied = true) {j : Nat} {s : Slot}
    (hs : (r.fill i v).slot? j = some s) :
    ∃ url w, s.module = some url ∧ s.value = some w ∧
      l.registry.state? url = some (.ready w) := by
  have hvalue := ((h.counted hr).fill i v).isSatisfied_iff.mp hfull j s hs
  rw [Request.slot?_fill] at hs
  obtain ⟨s', hs', rfl⟩ := Option.map_eq_some_iff.mp hs
  by_cases hnew : j = i ∧ s'.value = none
  · rw [if_pos hnew]
    obtain ⟨rfl, _⟩ := hnew
    obtain ⟨s'', url, hs'', hm, hready⟩ := h.fill_due hdue hr
    rw [hs'] at hs''
    cases hs''
    exact ⟨url, v, hm, rfl, hready⟩
  · rw [if_neg hnew] at hvalue ⊢
    obtain ⟨w, hw⟩ := Option.ne_none_iff_exists'.mp hvalue
    obtain ⟨url, hm, hready⟩ := h.filled hr hs' hw
    exact ⟨url, w, hm, hw, hready⟩

theorem keep_of_worklist {s : Step} {rest : List Step} {id : RequestId}
    (hw : l.worklist = s :: rest) (hs : s.request = id) :
    (∀ s' ∈ l.worklist, s'.request ≠ id → s' ∈ rest) ∧ rest ⊆ l.worklist := by
  rw [hw]
  refine ⟨?_, List.subset_cons_self s rest⟩
  intro s' hs' hne
  rcases List.mem_cons.mp hs' with rfl | hs'
  · exact absurd hs hne
  · exact hs'

end Loader

open Loader in
theorem maintained_linked : Maintained fun (l : Loader ν) _ => l.AllLinked where
  aside h _ := h
  make _ h := h
  fetches h _ := h
  arrive h _ := h
  enter _ h _ := h
  require _ _ _ _ h := h.submit (by simp)
  define _ _ _ _ _ h := h.submit (by simp [context?, Frame.context?])
  unwatch h := h
  setDefaultBase _ h := h
  establish ctx h := AllLinked.afterEstablishing h (Bootstrap.deferred_establish _ ctx)
  beginMain _ _ h _ := h
  finishMain t h := AllLinked.finishMain h t
  ready v h := h.readyModule _ v
  abandon e h _ _ := h.abandonModule _ e
  abandonDefinition e h _ _ hr :=
    (h.abandonModule _ e).withdraw hr (fun _ hs _ => hs) (List.Subset.refl _)
  finish h _ := h
  fault h _ := h
  handle h _ := h
  dispatch h _ := h
  redispatch h _ := h
  drained h _ := h
  dead h hw hr := by
    unfold AllLinked Linked at h
    rw [hw] at h
    exact Linkage.dropStep h hr
  fill h hw hr hs := by
    unfold AllLinked Linked at h
    rw [hw] at h
    exact Linkage.fillSlot h hr hs
  fillFire := by
    intro l k id i v rest r h hw hr hs
    unfold AllLinked Linked at h
    rw [hw] at h
    refine h.removeSatisfied id rfl hr ?_ (h.not_mem_deferred_of_fill hr)
      (fun id' => Requests.get?_erase_modify l.requests id id' _) (by simp [record])
    intro j slot hslot hv
    by_cases hj : j = i
    · exact ⟨v, by rw [hj]; exact List.mem_cons_self⟩
    · have hfull := ((h.counted hr).fill i v).isSatisfied_iff.mp hs j slot
      rw [Request.slot?_fill, hslot, Option.map_some, if_neg fun hc => hj hc.1] at hfull
      exact absurd hv (hfull rfl)
  fire := by
    intro l k id rest r h hw hr
    unfold AllLinked Linked at h
    rw [hw] at h
    have he : r.slots = [] := h.fire_due List.mem_cons_self hr
    refine h.removeSatisfied id rfl hr ?_ ?_ (Requests.get?_erase l.requests id)
      (by simp [record])
    · intro j slot hslot
      rw [Request.slot?, he] at hslot
      cases hslot
    · intro hid
      obtain ⟨r', hr', hne, _⟩ := h.deferred hid
      rw [hr] at hr'
      cases hr'
      exact hne he
  fail h hw hr := by
    obtain ⟨hkeep, hsub⟩ := keep_of_worklist hw rfl
    exact h.withdraw hr hkeep hsub

variable {m : Machine ν}

theorem Machine.Reachable.allLinked (h : m.Reachable) : m.loader.AllLinked :=
  maintained_linked.reachable (fun _ _ => Linkage.init) h

/-- In every run, at every moment: what waits for a module is an empty slot of a live request, each
once and only while the module is loading; and every empty slot of a live request waits for a
module that is loading, or is about to get its value, or its request is deferred or about to
fail. A request without slots is about to be called back. -/
theorem waiting_seen_to (h : m.Reachable) :
    (∀ url, (m.loader.registry.waiters url).Nodup ∧
      (∀ w ∈ m.loader.registry.waiters url, m.loader.registry.state? url = some .loading ∧
        ∃ r s, m.loader.requests.get? w.request = some r ∧ r.slot? w.slot = some s ∧
          s.module = some url ∧ s.value = none) ∧
      ∀ state, m.loader.registry.state? url = some state → state.isSettled = true →
        m.loader.registry.waiters url = []) ∧
    ∀ id r, m.loader.requests.get? id = some r →
      (∀ i s, r.slot? i = some s → s.value = none →
        id ∈ m.loader.bootstrap.deferred ∨
        (∃ url, s.module = some url ∧ m.loader.registry.state? url = some .loading ∧
          ⟨id, i⟩ ∈ m.loader.registry.waiters url) ∨
        (∃ url v, s.module = some url ∧ m.loader.registry.state? url = some (.ready v) ∧
          .fill id i v ∈ m.loader.worklist) ∨
        ∃ e, .fail id e ∈ m.loader.worklist) ∧
      (r.slots = [] → .fire id ∈ m.loader.worklist) := by
  have hl := h.allLinked
  refine ⟨fun url => ⟨hl.nodup url, fun w hw => hl.waiter hw, ?_⟩, ?_⟩
  · intro state hstate hsettled
    rw [List.eq_nil_iff_forall_not_mem]
    intro w hw
    rw [(hl.waiter hw).1] at hstate
    cases hstate
    cases hsettled
  · intro id r hr
    refine ⟨?_, fun he => hl.fires hr he not_false⟩
    intro i s hs hv
    cases hl.tracked hr hs hv not_false with
    | deferred hd => exact .inl hd
    | waiting hm hload hw => exact .inr (.inl ⟨_, hm, hload, hw⟩)
    | due hm hready hf => exact .inr (.inr (.inl ⟨_, _, hm, hready, hf⟩))
    | failing hf => exact .inr (.inr (.inr ⟨_, hf⟩))

/-- A request of one module, of which nothing has come yet. -/
def oneWaiting : Machine Unit :=
  (Machine.start (Loader.new {} fun _ => none)
    (.requireFrom "a:/" ["./x.js"] (fun _ => .finish .done) fun _ => .finish .done)).run 6

theorem waiting_seen_to_one :
    oneWaiting.loader.registry.waiters "a:/x.js" = [⟨⟨0, 1⟩, 0⟩] ∧
      oneWaiting.loader.registry.state? "a:/x.js" = some .loading := by
  have hwaiters : oneWaiting.loader.registry.waiters "a:/x.js" = [⟨⟨0, 1⟩, 0⟩] := by
    decide +kernel
  have hreach : oneWaiting.Reachable := (Machine.reachable_start _ _ _).run 6
  obtain ⟨hmodules, _⟩ := waiting_seen_to hreach
  obtain ⟨_, hloading, _⟩ := hmodules "a:/x.js"
  refine ⟨hwaiters, (hloading ⟨⟨0, 1⟩, 0⟩ ?_).1⟩
  rw [hwaiters]
  exact List.mem_cons_self

end AsyncModule
