import AsyncModule.Proofs.Rest
import AsyncModule.Proofs.Standing
import AsyncModule.Proofs.Striking
import AsyncModule.Proofs.Mirroring

/-!
# AsyncModule.Proofs.AtOnce

A host requires modules that are settled already. If all of them are ready it is called back before
the call returns; if one has failed, or a specifier names nothing, its error handler has run by
then. In the end there is nothing left of the request but the loads that it has started.

* `Machine.fills_steps`, `Machine.satisfied_steps`, `Machine.refused_steps` —
  what the worklist comes to.
* `Loader.Resumed`          — a call has come back and left nothing but loads.
* `require_settles_at_once` — the whole statement.
-/

namespace AsyncModule

open Relation

variable {ν : Type}

theorem Requests.size_congr {rs rs' : Requests ν} (h : ∀ id, rs'.get? id = rs.get? id) :
    rs'.size = rs.size := by
  have hperm : (rs'.live.map (·.1)).Perm (rs.live.map (·.1)) := by
    rw [List.perm_ext_iff_of_nodup (nodup_live rs') (nodup_live rs)]
    intro id
    simp only [List.mem_map, Prod.exists, mem_live, exists_and_right, exists_eq_right, h]
  simpa [size] using hperm.length_eq

namespace Request

variable {r : Request ν} {i : Nat}

/-- Filling an empty slot changes its value and no other. -/
theorem map_value_fill (v : ModuleValue) (h : (r.slots.map Slot.value)[i]? = some none) :
    (r.fill i v).slots.map Slot.value = (r.slots.map Slot.value).set i (some v) := by
  rw [List.getElem?_map] at h
  obtain ⟨s, hs, hv⟩ := Option.map_eq_some_iff.mp h
  have hf : s.isFilled = false := by simp [Slot.isFilled, hv]
  simp only [fill, hs, hf, Bool.false_eq_true, if_false, List.map_set]

theorem values_eq {values : List ModuleValue} (h : r.slots.map Slot.value = values.map some) :
    r.values = values := by
  have hmap : r.values = (r.slots.map Slot.value).filterMap id := by
    rw [Request.values, List.filterMap_map]
    rfl
  rw [hmap, h, List.filterMap_map]
  simp

theorem isSatisfied_of_map (hc : r.Counted) {values : List ModuleValue}
    (h : r.slots.map Slot.value = values.map some) : r.isSatisfied = true := by
  refine hc.isSatisfied_iff.mpr fun j s hs hv => ?_
  have hj : (r.slots.map Slot.value)[j]? = some none := by
    rw [List.getElem?_map]
    show (r.slot? j).map Slot.value = some none
    rw [hs, Option.map_some, hv]
  rw [h, List.getElem?_map] at hj
  obtain ⟨v, _, hv⟩ := Option.map_eq_some_iff.mp hj
  cases hv

theorem not_isSatisfied (hc : r.Counted) {s : Slot} (hs : r.slot? i = some s)
    (hv : s.value = none) : r.isSatisfied = false :=
  Bool.eq_false_iff.mpr fun h => hc.isSatisfied_iff.mp h i s hs hv

end Request

namespace Loader

variable {l : Loader ν} {id : RequestId} {r : Request ν}

/-- A request that has been made of a loader with nothing to do: it is live, its slots are empty,
and nothing but what linking it does has been done. -/
structure Joined (l l₁ : Loader ν) (id : RequestId) (r : Request ν) (loaded : List Target) :
    Prop where
  live : l₁.requests.get? id = some r
  empty : r.slots.map Slot.value = r.slots.map fun _ => none
  others : ∀ id', id' ≠ id → l₁.requests.get? id' = l.requests.get? id'
  records : ∀ url rec, l.registry.get? url = some rec → ∃ own : List Waiter,
    (∀ w ∈ own, w.request = id) ∧
      l₁.registry.get? url = some { rec with waiters := rec.waiters ++ own }
  loads : loads l₁.journal = (loaded.map (·, LoadRole.module)).reverse ++ loads l.journal

theorem Joined.exists_empty {l₁ : Loader ν} {loaded : List Target} (h : Joined l l₁ id r loaded)
    {i : Nat} (hi : i < r.slots.length) : ∃ s, r.slot? i = some s ∧ s.value = none := by
  refine ⟨_, List.getElem?_eq_getElem hi, ?_⟩
  have hvalue := congrArg (·[i]?) h.empty
  simpa [hi] using hvalue

/-- The targets that a host would have loaded by requiring specifiers: those of canonical URLs not
heard of, up to the first specifier that names nothing, each URL once. -/
def newTargets (l : Loader ν) (specifiers : List String) : List Target :=
  (firstOfEach (named (l.resolve none) specifiers)).filter l.registry.isUnheard

theorem resolve_eq {ctx : Context} (hctx : l.context? none = some ctx) :
    l.resolve none = (l.resolver.resolve · ctx) := by
  funext specifier
  simp only [resolve, hctx, Option.some_or]

theorem submit_of_nil (l : Loader ν) {callback : List ModuleValue → Script ν}
    {errback : Option (LoadError → Script ν)} {r : Request ν}
    (hr : r = .ofCall [] callback errback (l.context? none) none) :
    l.submit none [] callback errback none =
      (l.enter r).2.enqueue (.fire (l.enter r).1) := by
  subst hr
  rfl

theorem submit_of_some {ctx : Context} {dependencies : List String}
    {callback : List ModuleValue → Script ν} {errback : Option (LoadError → Script ν)}
    (hctx : l.context? none = some ctx) (hd : dependencies ≠ [])
    (hr : r = .ofCall dependencies callback errback (some ctx) none) :
    l.submit none dependencies callback errback none =
      (l.enter r).2.link (l.enter r).1 ctx := by
  have hslots : ¬ (Request.ofCall dependencies callback errback (some ctx) none).slots.isEmpty =
      true := by simpa [Request.ofCall] using hd
  subst hr
  unfold submit
  rw [hctx]
  exact if_neg hslots

/-- How a request that defines nothing and is linked to nothing is linked. -/
theorem joined_link {ctx : Context} (hlive : l.requests.get? id = some r)
    (hd : r.definitionUrl = none) (hempty : r.slots.map Slot.value = r.slots.map fun _ => none)
    (hasked : ∀ url, l.registry.state? url ≠ some .known) :
    ∃ slots, slots.length = r.slots.length ∧
      Joined l (l.link id ctx) id { r with slots, context := some ctx }
        ((firstOfEach (named (l.resolver.resolve · ctx) r.dependencies)).filter
          l.registry.isUnheard) ∧
      (l.link id ctx).worklist = l.worklist ++
        l.registry.dues (l.resolver.resolve · ctx) id r.dependencies.zipIdx := by
  obtain ⟨slots, hlinked, hvalues⟩ := get?_linkSlots_self ctx id r.dependencies.zipIdx
    (l := Loader.record
      { l with requests := l.requests.modify id fun r => { r with context := some ctx } }
      (.linked id l.resolver ctx)) (Requests.get?_modify_self _ hlive)
  have hlength : slots.length = r.slots.length := by simpa using congrArg List.length hvalues
  have hlink : l.link id ctx = linkSlots ctx id none r.dependencies.zipIdx (Loader.record
      { l with requests := l.requests.modify id fun r => { r with context := some ctx } }
      (.linked id l.resolver ctx)) := by
    unfold link
    simp only [hlive, hd]
  refine ⟨slots, hlength, ⟨?_, ?_, fun id' hne => get?_link_of_ne hne, ?_, ?_⟩, ?_⟩
  · rw [hlink]
    exact hlinked
  · refine hvalues.trans (hempty.trans ?_)
    rw [List.map_const', List.map_const', hlength]
  · intro url rec hrec
    rw [hlink]
    exact get?_linkSlots ctx id _ _ (by exact hasked) (by exact hrec)
  · rw [hlink, loads_linkSlots ctx id _ _ (by exact hasked), List.zipIdx_map_fst]
    rfl
  · rw [hlink, worklist_linkSlots]
    rfl

/-- What making a request comes to where there is a context and nothing to be done. -/
theorem joined_submit {ctx : Context} (dependencies : List String)
    (callback : List ModuleValue → Script ν) (errback : Option (LoadError → Script ν))
    (hctx : l.context? none = some ctx) (hw : l.worklist = [])
    (hasked : ∀ url, l.registry.state? url ≠ some .known) :
    ∃ id slots, slots.length = dependencies.length ∧
      Joined l (l.submit none dependencies callback errback none) id
        { Request.ofCall dependencies callback errback (some ctx) none with slots }
        (l.newTargets dependencies) ∧
      submissions (l.submit none dependencies callback errback none).journal =
        id :: submissions l.journal ∧
      (l.submit none dependencies callback errback none).dispatching = l.dispatching ∧
      (l.submit none dependencies callback errback none).worklist =
        if dependencies = [] then [.fire id]
        else l.registry.dues (l.resolve none) id dependencies.zipIdx := by
  have hsubmitted := submissions_submit l none dependencies callback errback none
  obtain ⟨r, hr⟩ : ∃ r, r = Request.ofCall dependencies callback errback (some ctx) none :=
    ⟨_, rfl⟩
  rw [hctx, ← hr] at hsubmitted
  have hlive : (l.enter r).2.requests.get? (l.enter r).1 = some r := get?_enter_self l r
  have hothers : ∀ id', id' ≠ (l.enter r).1 →
      (l.enter r).2.requests.get? id' = l.requests.get? id' := by
    intro id' hne
    rw [get?_enter, if_neg hne]
  have hentered : (l.enter r).2.registry = l.registry := by subst hr; rfl
  by_cases hd : dependencies = []
  · subst hd
    have hsubmit := submit_of_nil l (hctx ▸ hr)
    refine ⟨(l.enter r).1, [], rfl, ?_, hsubmitted, by rw [hsubmit]; rfl, ?_⟩
    · rw [hsubmit]
      refine ⟨hlive.trans (by rw [hr]; rfl), rfl, hothers,
        fun url rec hrec => ⟨[], by simp, ?_⟩, rfl⟩
      rw [List.append_nil]
      exact hentered ▸ hrec
    · rw [hsubmit, if_pos rfl]
      show l.worklist ++ [Step.fire (l.enter r).1] = [Step.fire (l.enter r).1]
      rw [hw, List.nil_append]
  · have hdependencies : r.dependencies = dependencies := by
      simp [hr, Request.dependencies, Request.ofCall, Slot.ofSpecifier, Function.comp_def]
    obtain ⟨slots, hlength, hjoined, hdues⟩ := joined_link hlive (by rw [hr]; rfl)
      (by simp [hr, Request.ofCall, Slot.ofSpecifier, Function.comp_def])
      (by rw [hentered]; exact hasked)
    rw [hdependencies, hentered] at hdues hjoined
    refine ⟨(l.enter r).1, slots, ?_, ?_, hsubmitted, ?_, ?_⟩
    · simpa [hr, Request.ofCall] using hlength
    · rw [submit_of_some hctx hd hr, newTargets, resolve_eq hctx]
      refine ⟨?_, hjoined.empty, fun id' hne => (hjoined.others id' hne).trans (hothers id' hne),
        fun url rec hrec => hjoined.records url rec (hentered ▸ hrec), hjoined.loads⟩
      rw [hjoined.live, hr]
      rfl
    · rw [submit_of_some hctx hd hr]
      exact (Level.link _ _ ctx).dispatching
    · rw [submit_of_some hctx hd hr, if_neg hd, resolve_eq hctx]
      refine hdues.trans ?_
      show l.worklist ++ _ = _
      rw [hw, List.nil_append]
      rfl

end Loader

namespace Machine

variable {m : Machine ν} {l : Loader ν} {k : List (Task ν)} {id : RequestId} {r : Request ν}

theorem process_fill (l : Loader ν) {i : Nat} {v : ModuleValue}
    (hr : l.requests.get? id = some r) (hfull : (r.fill i v).isSatisfied = false) :
    process l (.fill id i v) =
      ({ l with requests := l.requests.modify id (·.fill i v) }, []) := by
  simp only [process, fill, hr, hfull, Bool.false_eq_true, if_false]

/-- Some slots of a request are filled, and one that is empty stays so. -/
theorem fills_steps {i : Nat} {s : Slot} (fills : List Step) :
    ∀ {l : Loader ν} {r : Request ν} {rest : List Step}, l.worklist = fills ++ rest →
      l.requests.get? id = some r → r.Counted → r.slot? i = some s → s.value = none →
      (∀ step ∈ fills, ∃ j v, j < i ∧ step = .fill id j v) →
      ∃ requests slots resolved,
        Steps ⟨l, .draining :: k⟩ ⟨{ l with worklist := rest, requests }, .draining :: k⟩ ∧
        requests.get? id = some { r with slots, resolved } ∧
        ∀ id', id' ≠ id → requests.get? id' = l.requests.get? id' := by
  induction fills with
  | nil =>
    intro l r rest hw hr _ _ _ _
    refine ⟨l.requests, r.slots, r.resolved, ?_, hr, fun _ _ => rfl⟩
    rw [← show l.worklist = rest from hw]
    exact .refl
  | cons step fills ih =>
    intro l r rest hw hr hc hs hv hfills
    obtain ⟨j, v, hj, rfl⟩ := hfills step List.mem_cons_self
    have hs' : (r.fill j v).slot? i = some s := by
      rw [Request.slot?_fill, hs, Option.map_some, if_neg fun h => absurd h.1 (by omega)]
    have hfull : (r.fill j v).isSatisfied = false :=
      Request.not_isSatisfied (hc.fill j v) hs' hv
    have hstep := process_steps (k := k) hw (process_fill _ hr hfull)
    obtain ⟨requests, slots, resolved, hsteps, hlive, hothers⟩ := ih
      (l := { l with worklist := fills ++ rest, requests := l.requests.modify id (·.fill j v) })
      rfl (Requests.get?_modify_self _ hr) (hc.fill j v) hs' hv
      fun step hstep => hfills step (List.mem_cons_of_mem _ hstep)
    refine ⟨requests, slots, resolved, hstep.trans hsteps, ?_, ?_⟩
    · rw [hlive, Request.fill_eq]
    · intro id' hne
      exact (hothers id' hne).trans (Requests.get?_modify_of_ne _ hne)

/-- The last empty slots of a request are filled one after the other, and it is called back. -/
theorem satisfied_steps (values : List ModuleValue) :
    ∀ {l : Loader ν} {r : Request ν} (filled : List ModuleValue), values ≠ [] →
      l.worklist = (values.zipIdx filled.length).map (fun p => Step.fill id p.2 p.1) →
      l.requests.get? id = some r → r.Counted →
      r.slots.map Slot.value = filled.map some ++ values.map (fun _ => none) →
      ∃ requests r', r'.definitionUrl = r.definitionUrl ∧
        Steps ⟨l, .draining :: k⟩
          ⟨Loader.record { l with worklist := [], requests } (.called id (filled ++ values)),
            .body (some (.callback r.context)) (r.callback (filled ++ values))
              (.callback id r') :: .draining :: k⟩ ∧
        ∀ id', requests.get? id' = if id' = id then none else l.requests.get? id' := by
  induction values with
  | nil => exact fun _ hne => absurd rfl hne
  | cons v values ih =>
    intro l r filled _ hw hr hc hslots
    have hempty : (r.slots.map Slot.value)[filled.length]? = some none := by
      rw [hslots, List.getElem?_append_right (by simp)]
      simp
    have hfilled : (r.fill filled.length v).slots.map Slot.value =
        (filled ++ [v]).map some ++ values.map (fun _ => none) := by
      rw [Request.map_value_fill v hempty, hslots, List.set_append_right _ _ (by simp)]
      simp
    have hcounted := hc.fill filled.length v
    have hcontext : (r.fill filled.length v).context = r.context := by rw [Request.fill_eq]
    have hcallback : (r.fill filled.length v).callback = r.callback := by rw [Request.fill_eq]
    by_cases hlast : values = []
    · subst hlast
      have hall : (r.fill filled.length v).slots.map Slot.value = (filled ++ [v]).map some := by
        rw [hfilled, List.map_nil, List.append_nil]
      have hfire : process { l with worklist := [] } (.fill id filled.length v) =
          (Loader.record { l with
              worklist := []
              requests := (l.requests.modify id (·.fill filled.length v)).erase id }
            (.called id (filled ++ [v])),
          [.body (some (.callback r.context)) (r.callback (filled ++ [v]))
            (.callback id (r.fill filled.length v))]) := by
        simp only [process, fill, hr, Request.isSatisfied_of_map hcounted hall, if_true, fire,
          Requests.get?_modify_self _ hr, Request.values_eq hall, hcontext, hcallback]
      exact ⟨_, _, Request.definitionUrl_fill r _ v, process_steps hw hfire,
        fun id' => Requests.get?_erase_modify l.requests id id' _⟩
    · obtain ⟨v', rest, rfl⟩ := List.exists_cons_of_ne_nil hlast
      have hnext : ((r.fill filled.length v).slots.map Slot.value)[filled.length + 1]? =
          some none := by
        rw [hfilled, List.getElem?_append_right (by simp)]
        simp
      rw [List.getElem?_map] at hnext
      obtain ⟨s, hs, hv⟩ := Option.map_eq_some_iff.mp hnext
      have hstep := process_steps (k := k) hw
        (process_fill _ hr (Request.not_isSatisfied hcounted hs hv))
      obtain ⟨requests, r', hd, hsteps, hothers⟩ := ih
        (l := { l with
          worklist := ((v' :: rest).zipIdx (filled.length + 1)).map fun p => .fill id p.2 p.1
          requests := l.requests.modify id (·.fill filled.length v) })
        (filled ++ [v]) hlast (by rw [List.length_append]; rfl)
        (Requests.get?_modify_self _ hr) hcounted hfilled
      rw [List.append_assoc, hcontext, hcallback] at hsteps
      refine ⟨requests, r', hd.trans (Request.definitionUrl_fill r _ v), hstep.trans hsteps, ?_⟩
      intro id'
      rw [hothers]
      split
      · rfl
      · rename_i hne
        exact Requests.get?_modify_of_ne _ hne

/-- Some slots of a request are filled, and then it fails; its error handler is about to run. -/
theorem refused_steps {fills rest : List Step} {i : Nat} {s : Slot} {e : LoadError}
    {handler : LoadError → Script ν} (h : Reachable ⟨l, .draining :: k⟩)
    (hw : l.worklist = fills ++ .fail id e :: rest) (hr : l.requests.get? id = some r)
    (hs : r.slot? i = some s) (hv : s.value = none)
    (hfills : ∀ step ∈ fills, ∃ j v, j < i ∧ step = .fill id j v)
    (herrback : r.errback = some handler) (hd : r.definitionUrl = none) :
    ∃ l', Steps ⟨l, .draining :: k⟩ ⟨l', .body (some (.callback r.context)) (handler e)
        (.errback none e) :: .draining :: k⟩ ∧
      (∀ id', l'.requests.get? id' = if id' = id then none else l.requests.get? id') ∧
      (∀ url, l'.registry.get? url = (l.registry.get? url).map fun rec =>
        { rec with waiters := rec.waiters.filter (·.request != id) }) ∧
      l'.worklist = rest ∧ l'.journal = .handled id e :: .failed id e :: l.journal := by
  obtain ⟨requests, slots, resolved, hsteps, hlive, hothers⟩ :=
    fills_steps (k := k) fills hw hr (h.allLinked.counted hr) hs hv hfills
  have hprocess : process { l with worklist := rest, requests } (.fail id e) =
      handle ((Loader.withdraw { l with worklist := rest, requests } id
        { r with slots, resolved }).record (.failed id e)) id { r with slots, resolved } e handler
        none := by
    simp only [process, failRequest, hlive, report, herrback, hd]
  have hstep := process_steps (k := k)
    (l := { l with worklist := .fail id e :: rest, requests }) rfl hprocess
  refine ⟨_, hsteps.trans hstep, ?_, ?_, ?_, ?_⟩
  · intro id'
    refine (Requests.get?_erase requests id id').trans ?_
    split
    · rfl
    · rename_i hne
      exact hothers id' hne
  · intro url
    have hlinked := (hsteps.reachable h).allLinked
    exact hlinked.get?_withdraw hlive url
  · rfl
  · rfl

end Machine

/-- A call has come back: nothing is under way, the requests are those from before, and so are the
records that were there; all that is new are loads. -/
structure Loader.Resumed (l l' : Loader ν) (loaded : List Target) : Prop where
  idle : l'.worklist = [] ∧ l'.dispatching = false
  pending : (l'.view none).pendingRequests = (l.view none).pendingRequests
  requests : ∀ id, l'.requests.get? id = l.requests.get? id
  records : ∀ url rec, l.registry.get? url = some rec → l'.registry.get? url = some rec
  loads : loads l'.journal = (loaded.map (·, LoadRole.module)).reverse ++ loads l.journal

/-! ## The whole call -/

section Call

open Machine

variable {m : Machine ν} {k : List (Task ν)} {dependencies : List String}
  {callback : List ModuleValue → Script ν} {handler : LoadError → Script ν} {next : Script ν}

/-- A request that has been made by a program outside of units, at the moment at which working off
the worklist begins. -/
theorem require_begins (h : m.Reachable) (hrest : m.AtRest)
    (hestablished : m.loader.bootstrap.state = .established)
    (hstack : m.stack =
      .body none (.require dependencies callback (some handler) next) .plain :: k) :
    ∃ l id r, Steps m ⟨l, .draining :: .body none next .plain :: k⟩ ∧
      m.loader.Joined l id r (m.loader.newTargets dependencies) ∧
      submissions l.journal = id :: submissions m.loader.journal ∧
      r.slots.length = dependencies.length ∧ r.callback = callback ∧ r.errback = some handler ∧
      r.definitionUrl = none ∧
      l.worklist = if dependencies = [] then [.fire id]
        else m.loader.registry.dues (m.loader.resolve none) id dependencies.zipIdx := by
  have hwork := hrest.worklist_eq_nil h
  obtain ⟨ctx, hctx⟩ := Option.ne_none_iff_exists'.mp (h.mains.established hestablished).1
  have hcontext : m.loader.context? none = some ctx := by
    simp only [Loader.context?, Option.bind_none, Bootstrap.context?, hestablished, hctx]
  obtain ⟨id, slots, hlength, hjoined, hsubmitted, hidle, hdues⟩ :=
    Loader.joined_submit dependencies callback (some handler) hcontext hwork
      h.allLinked.asked
  obtain ⟨l, stack⟩ := m
  subst hstack
  have hsteps := (Steps.advance (k := k) (show Machine.advance l (.body none
      (.require dependencies callback (some handler) next) .plain) = _ from rfl)).trans
    (dispatch_steps _ (hidle.trans hrest.1) _)
  exact ⟨_, id, _, hsteps, { hjoined with }, hsubmitted, hlength, rfl, rfl, rfl, hdues⟩

/-- Nothing waits for a request that is not live. -/
theorem Machine.Reachable.request_ne_of_waiter (h : m.Reachable) {id : RequestId}
    (hgone : m.loader.requests.get? id = none) {url : String} {w : Waiter}
    (hw : w ∈ m.loader.registry.waiters url) : w.request ≠ id := by
  rintro rfl
  obtain ⟨_, r, _, hr, _⟩ := h.allLinked.waiter hw
  rw [hgone] at hr
  cases hr

/-- What has been handled is not handled again, nor called back, and nothing waits for it. -/
theorem handled_for_good {m' : Machine ν} {id : RequestId} {e : LoadError}
    {older : List (Event ν)} (h : m.Reachable)
    (hj : m.loader.journal = .handled id e :: .failed id e :: older)
    (hgone : m.loader.requests.get? id = none) (hsubmitted : id ∈ submissions older)
    (huncalled : id ∉ calls older) (hrun : ReflTransGen Goes m m') :
    .handled id e ∈ m'.loader.journal ∧ (handlings m'.loader.journal).count id = 1 ∧
      id ∉ calls m'.loader.journal ∧
      ∀ url, ∀ w ∈ m'.loader.registry.waiters url, w.request ≠ id := by
  have hreach := h.trans hrun
  have hlasts := (h.lasts hrun).journal
  rw [hj] at hlasts
  have hmem := hlasts.subset List.mem_cons_self
  have hissued : m.loader.requests.Issued id := h.accounts.issued (by rw [hj]; exact hsubmitted)
  have hgone' := (maintained_gone id).later h ⟨hissued, hgone⟩ hrun
  refine ⟨hmem, ?_, ?_, fun url w hw => hreach.request_ne_of_waiter hgone'.2 hw⟩
  · exact List.count_eq_one_of_mem hreach.accounts.orderly.nodup_handlings
      (List.mem_filterMap.mpr ⟨_, hmem, rfl⟩)
  · exact hreach.accounts.orderly.not_mem_calls_of_failed
      ((List.suffix_cons _ _).trans hlasts) huncalled

/-- The call is back. What it has added to the records was waiters of its request, and is gone. -/
theorem resumed_of_joined {l l' : Loader ν} {id : RequestId} {r : Request ν}
    {loaded : List Target} {stack : List (Task ν)} (h : m.Reachable)
    (hjoined : m.loader.Joined l id r loaded)
    (hsubmitted : submissions l.journal = id :: submissions m.loader.journal)
    (hl : Reachable ⟨l, stack⟩) (hl' : Reachable ⟨l', k⟩)
    (hrequests : ∀ id', l'.requests.get? id' = if id' = id then none else l.requests.get? id')
    (hrecords : ∀ url rec, l.registry.get? url = some rec → l'.registry.get? url = some rec ∨
      l'.registry.get? url =
        some { rec with waiters := rec.waiters.filter (·.request != id) })
    (hidle : l'.worklist = [] ∧ l'.dispatching = false)
    (hloads : loads l'.journal = loads l.journal) : m.loader.Resumed l' loaded := by
  have hnew : m.loader.requests.get? id = none := by
    have hnodup := hl.accounts.orderly.nodup_submissions
    rw [show submissions (Machine.mk l stack).loader.journal = _ from hsubmitted] at hnodup
    cases hget : m.loader.requests.get? id with
    | none => rfl
    | some r' =>
      have hold := (h.accounts.live_iff.mp ⟨r', hget⟩).1
      exact absurd hold (List.nodup_cons.mp hnodup).1
  have hgone : l'.requests.get? id = none := by rw [hrequests, if_pos rfl]
  have hsame : ∀ id', l'.requests.get? id' = m.loader.requests.get? id' := by
    intro id'
    rw [hrequests]
    by_cases hid : id' = id
    · rw [if_pos hid, hid, hnew]
    · rw [if_neg hid, hjoined.others id' hid]
  refine ⟨hidle, Requests.size_congr hsame, hsame, ?_, hloads.trans hjoined.loads⟩
  intro url rec hrec
  obtain ⟨own, hown, hget⟩ := hjoined.records url rec hrec
  have hclean : rec.waiters.filter (·.request != id) = rec.waiters := by
    refine List.filter_eq_self.mpr fun w hw => ?_
    have hw' : w ∈ m.loader.registry.waiters url := by
      rw [Registry.waiters, hrec]
      exact hw
    simpa using h.request_ne_of_waiter hnew hw'
  rcases hrecords url _ hget with hkept | hfiltered
  · have hnone : own = [] := by
      refine List.eq_nil_iff_forall_not_mem.mpr fun w hw => ?_
      have hw' : w ∈ l'.registry.waiters url := by
        rw [Registry.waiters, hkept]
        exact List.mem_append_right _ hw
      exact hl'.request_ne_of_waiter hgone hw' (hown w hw)
    rw [hkept, hnone, List.append_nil]
  · have hnone : own.filter (·.request != id) = [] := by
      refine List.filter_eq_nil_iff.mpr fun w hw => ?_
      simp [hown w hw]
    simp only [hfiltered, List.filter_append, hclean, hnone, List.append_nil]

/-- A request for modules all of which are ready is called back. -/
theorem called_steps {l : Loader ν} {id : RequestId} {r : Request ν} {values : List ModuleValue}
    {g : Registry} {find : String → Except LoadError Target}
    (hr : l.requests.get? id = some r) (hc : r.Counted)
    (hempty : r.slots.map Slot.value = r.slots.map fun _ => none)
    (hlength : r.slots.length = dependencies.length)
    (hvalues : dependencies.map (g.valueOf? find) = values.map some)
    (hw : l.worklist = if dependencies = [] then [.fire id]
      else g.dues find id dependencies.zipIdx) :
    ∃ requests r', r'.definitionUrl = r.definitionUrl ∧
      Steps ⟨l, .draining :: k⟩
        ⟨Loader.record { l with worklist := [], requests } (.called id values),
          .body (some (.callback r.context)) (r.callback values) (.callback id r') ::
            .draining :: k⟩ ∧
      ∀ id', requests.get? id' = if id' = id then none else l.requests.get? id' := by
  have hlengths : values.length = dependencies.length := by
    simpa using (congrArg List.length hvalues).symm
  by_cases hd : dependencies = []
  · subst hd
    obtain rfl : values = [] := List.eq_nil_of_length_eq_zero hlengths
    have hslots : r.slots = [] := List.eq_nil_of_length_eq_zero hlength
    rw [if_pos rfl] at hw
    have hfire : process { l with worklist := [] } (.fire id) =
        (Loader.record { l with worklist := [], requests := l.requests.erase id }
          (.called id []),
        [.body (some (.callback r.context)) (r.callback []) (.callback id r)]) := by
      simp only [process, fire, hr, Request.values, hslots, List.filterMap_nil]
    exact ⟨_, r, rfl, process_steps hw hfire, Requests.get?_erase l.requests id⟩
  · have hne : values ≠ [] := by
      rintro rfl
      exact hd (List.eq_nil_of_length_eq_zero hlengths.symm)
    rw [if_neg hd, Registry.dues_of_values 0 hvalues] at hw
    refine satisfied_steps values [] hne hw hr hc ?_
    rw [hempty, List.map_nil, List.nil_append, List.map_const', List.map_const', hlength, hlengths]

/-- All that is required is ready: the callback runs before the call is back, and only once. -/
theorem called_at_once (h : m.Reachable) (hrest : m.AtRest)
    (hestablished : m.loader.bootstrap.state = .established)
    (hstack : m.stack =
      .body none (.require dependencies callback (some handler) next) .plain :: k)
    {values : List ModuleValue}
    (hvalues : dependencies.map (m.loader.registry.valueOf? (m.loader.resolve none)) =
      values.map some) :
    ∃ id m₁, submissions m₁.loader.journal = id :: submissions m.loader.journal ∧
      m.Interposes m₁ (callback values) (.draining :: .body none next .plain :: k) ∧
      (∀ m', ReflTransGen Goes m₁ m' → .called id values ∈ m'.loader.journal ∧
        (calls m'.loader.journal).count id = 1) ∧
      ((callback values).Aloof Outcome.IsOk → ∃ l', Steps m₁ ⟨l', .body none next .plain :: k⟩ ∧
        m.loader.Resumed l' (m.loader.newTargets dependencies)) := by
  obtain ⟨l, id, r, hbegins, hjoined, hsubmitted, hlength, rfl, _, hd, hdues⟩ :=
    require_begins h hrest hestablished hstack
  have hreach := hbegins.reachable h
  obtain ⟨requests, r', hd', hcalled, hrequests⟩ :=
    called_steps (k := .body none next .plain :: k) hjoined.live
      (hreach.allLinked.counted hjoined.live) hjoined.empty hlength hvalues hdues
  have hreach₁ := hcalled.reachable hreach
  refine ⟨id, _, hsubmitted, interposes_body (hbegins.trans hcalled), ?_, ?_⟩
  · intro m' hrun
    have hmem : Event.called id values ∈ m'.loader.journal :=
      (hreach₁.lasts hrun).journal.subset List.mem_cons_self
    have hreach' := hreach₁.trans hrun
    exact ⟨hmem, List.count_eq_one_of_mem hreach'.accounts.orderly.nodup_calls
      (mem_calls.mpr ⟨values, hmem⟩)⟩
  · intro haloof
    obtain ⟨made, notes, o, ho, hnotes, hruns⟩ := aloof_steps haloof
      (Loader.record { l with worklist := [], requests } (.called id values))
      (some (.callback r.context)) (.callback id r') (.draining :: .body none next .plain :: k)
    have hends := hruns.trans (finish_steps _ _ o _ _)
    rw [hd] at hd'
    simp only [conclude, concludeCallback_of_none _ id hd', ho.reason?_eq_none] at hends
    have hback := hends.trans (drained_steps _ rfl (.body none next .plain :: k))
    refine ⟨_, hback, ?_⟩
    refine resumed_of_joined h hjoined hsubmitted hreach (hback.reachable hreach₁) hrequests
      (fun url rec hrec => .inl hrec) ⟨rfl, rfl⟩ ?_
    exact hnotes.loads_append (.called id values :: l.journal)

/-- Something stands against what is required: the error handler runs before the call is back, and
only once, with the first such reason. -/
theorem refused_at_once (h : m.Reachable) (hrest : m.AtRest)
    (hestablished : m.loader.bootstrap.state = .established)
    (hstack : m.stack =
      .body none (.require dependencies callback (some handler) next) .plain :: k)
    {e : LoadError}
    (he : dependencies.findSome? (m.loader.registry.refusal? (m.loader.resolve none)) = some e) :
    ∃ id m₁, submissions m₁.loader.journal = id :: submissions m.loader.journal ∧
      m.Interposes m₁ (handler e) (.draining :: .body none next .plain :: k) ∧
      (∀ m', ReflTransGen Goes m₁ m' → .handled id e ∈ m'.loader.journal ∧
        (handlings m'.loader.journal).count id = 1 ∧ id ∉ calls m'.loader.journal ∧
        ∀ url, ∀ w ∈ m'.loader.registry.waiters url, w.request ≠ id) ∧
      ((handler e).Aloof (fun _ => True) → ∃ l', Steps m₁ ⟨l', .body none next .plain :: k⟩ ∧
        m.loader.Resumed l' (m.loader.newTargets dependencies)) := by
  obtain ⟨l, id, r, hbegins, hjoined, hsubmitted, hlength, _, herrback, hd, hdues⟩ :=
    require_begins h hrest hestablished hstack
  have hreach := hbegins.reachable h
  have hne : dependencies ≠ [] := by
    rintro rfl
    cases he
  obtain ⟨fills, i, rest, hsplit, _, hlt, hfills, hstale⟩ :=
    Registry.dues_of_refusal 0 he
  rw [if_neg hne, hsplit] at hdues
  obtain ⟨s, hs, hv⟩ := hjoined.exists_empty (i := i) (by omega)
  obtain ⟨l₁, hrefused, hrequests, hrecords, hwork, hj⟩ :=
    refused_steps hreach hdues hjoined.live hs hv hfills herrback hd
  have hreach₁ := hrefused.reachable hreach
  have hgone : l₁.requests.get? id = none := by rw [hrequests, if_pos rfl]
  refine ⟨id, _, ?_, interposes_body (hbegins.trans hrefused), ?_, ?_⟩
  · show submissions l₁.journal = _
    rw [hj]
    exact hsubmitted
  · intro m' hrun
    exact handled_for_good hreach₁ hj hgone (hsubmitted ▸ List.mem_cons_self)
      (hreach.accounts.live_iff.mp ⟨r, hjoined.live⟩).2.1 hrun
  · intro haloof
    obtain ⟨made, notes, o, _, hnotes, hruns⟩ := aloof_steps haloof l₁
      (some (.callback r.context)) (.errback none e) (.draining :: .body none next .plain :: k)
    have hends := hruns.trans (finish_steps _ _ o _ _)
    have hstales := stale_steps (k := .body none next .plain :: k) rest
      (l := { l₁ with values := made, journal := notes ++ l₁.journal }) hwork (by
        intro s hs
        rw [hstale s hs]
        exact hgone)
    have hback := hends.trans (hstales.trans (drained_steps _ rfl (.body none next .plain :: k)))
    refine ⟨_, hback, ?_⟩
    refine resumed_of_joined h hjoined hsubmitted hreach (hback.reachable hreach₁) hrequests
      (fun url rec hrec => .inr ?_) ⟨rfl, rfl⟩ ?_
    · show l₁.registry.get? url = _
      rw [hrecords, hrec]
      rfl
    · refine (hnotes.loads_append l₁.journal).trans ?_
      rw [hj]
      rfl

/-- A host requires specifiers, with an error handler, of a loader at rest that is established. If
all of them name modules that are ready, the callback is run with their values before the call
comes back, and is the only call of it ever. If something stands against one of them, the handler is
run before the call comes back with what stands against the first such one; it is run only once, the
callback never is, and nothing is left that waits for the request. In both cases, if what is run
leaves the loader alone (and the callback does not fail), the call comes back with as many requests
pending as before, with all records as they were, and with nothing loaded but what had not been heard
of among the specifiers before the first that names nothing, in their order. -/
theorem require_settles_at_once (h : m.Reachable) (hrest : m.AtRest)
    (hestablished : m.loader.bootstrap.state = .established)
    (hstack : m.stack =
      .body none (.require dependencies callback (some handler) next) .plain :: k) :
    (∀ values, dependencies.map (m.loader.registry.valueOf? (m.loader.resolve none)) =
        values.map some →
      ∃ id m₁, submissions m₁.loader.journal = id :: submissions m.loader.journal ∧
        m.Interposes m₁ (callback values) (.draining :: .body none next .plain :: k) ∧
        (∀ m', ReflTransGen Goes m₁ m' → .called id values ∈ m'.loader.journal ∧
          (calls m'.loader.journal).count id = 1) ∧
        ((callback values).Aloof Outcome.IsOk →
          ∃ l', Steps m₁ ⟨l', .body none next .plain :: k⟩ ∧
            m.loader.Resumed l' (m.loader.newTargets dependencies))) ∧
    ∀ e, dependencies.findSome? (m.loader.registry.refusal? (m.loader.resolve none)) = some e →
      ∃ id m₁, submissions m₁.loader.journal = id :: submissions m.loader.journal ∧
        m.Interposes m₁ (handler e) (.draining :: .body none next .plain :: k) ∧
        (∀ m', ReflTransGen Goes m₁ m' → .handled id e ∈ m'.loader.journal ∧
          (handlings m'.loader.journal).count id = 1 ∧ id ∉ calls m'.loader.journal ∧
          ∀ url, ∀ w ∈ m'.loader.registry.waiters url, w.request ≠ id) ∧
        ((handler e).Aloof (fun _ => True) →
          ∃ l', Steps m₁ ⟨l', .body none next .plain :: k⟩ ∧
            m.loader.Resumed l' (m.loader.newTargets dependencies)) :=
  ⟨fun _ hvalues => called_at_once h hrest hestablished hstack hvalues,
    fun _ he => refused_at_once h hrest hestablished hstack he⟩

end Call

theorem Loader.Resumed.keys {l l' : Loader ν} {loaded : List Target} (h : l.Resumed l' loaded) :
    (AsyncModule.loads l'.journal).map (·.1.key) =
      (loaded.map Target.key).reverse ++ (AsyncModule.loads l.journal).map (·.1.key) := by
  rw [h.loads, List.map_append, List.map_reverse, List.map_map]
  rfl

/-- One module defines a value, one cannot be fetched, and of the others nothing comes. -/
def unevenResources (t : Target) : Option (Fetched (Script Unit)) :=
  if t.key = "a:/x.js" then
    some (.code (.define [] (fun _ => .make (.data .null) fun v => .finish (.value v)) none
      (.finish .done)))
  else if t.key = "a:/y.js" then some (.failed (.fetch t.key "gone"))
  else none

/-- A host has asked for three modules, and still waits for one of them. -/
def unevenBefore : Machine Unit :=
  (Machine.start (Loader.new {} unevenResources)
    (.requireFrom "a:/" ["./x.js", "./z.js"] (fun _ => .finish .done) fun _ =>
      .require ["./y.js"] (fun _ => .finish .done) none (.settle fun _ => .finish .done))).run 40

/-- The three modules with two others, and a specifier that is empty. -/
def unevenSpecifiers : List String :=
  ["./x.js", "./n.js", "./z.js", "./y.js", "./p.js", "./q/../n.js", "", "./s.js"]

/-- Now the host asks for all of them. -/
def uneven : Machine Unit :=
  ⟨unevenBefore.loader, [.body none (.require unevenSpecifiers (fun _ => .finish .done)
    (some fun _ => .finish .done) (.finish .done)) .plain]⟩

theorem require_settles_at_once_uneven :
    uneven.loader.requests.size = 1 ∧
    ∃ id m₁ l', m₁.stack.length = 3 ∧ Machine.Steps uneven m₁ ∧
      Machine.Steps m₁ ⟨l', [.body none (.finish .done) .plain]⟩ ∧
      .handled id (.dependency "a:/y.js" (.fetch "a:/y.js" "gone")) ∈ m₁.loader.journal ∧
      (loads l'.journal).map (·.1.key) =
        ["a:/p.js", "a:/n.js"] ++ (loads uneven.loader.journal).map (·.1.key) ∧
      (l'.view none).pendingRequests = 1 := by
  have hbefore : unevenBefore.stack = [] := List.isEmpty_iff.mp (by decide +kernel)
  have hreach : uneven.Reachable :=
    ((Machine.reachable_start _ _ _).run 40 : unevenBefore.Reachable).goes (.call _ hbefore)
  have hidle : uneven.loader.dispatching = false := by decide +kernel
  have hrest : uneven.AtRest := by
    refine ⟨hidle, fun task htask => ?_⟩
    rw [List.mem_singleton.mp htask]
    trivial
  have hestablished : uneven.loader.bootstrap.state = .established := by decide +kernel
  have hrefused : unevenSpecifiers.findSome?
      (uneven.loader.registry.refusal? (uneven.loader.resolve none)) =
        some (.dependency "a:/y.js" (.fetch "a:/y.js" "gone")) := by decide +kernel
  have hpending : uneven.loader.requests.size = 1 := by decide +kernel
  have hnew : (uneven.loader.newTargets unevenSpecifiers).map Target.key =
      ["a:/n.js", "a:/p.js"] := by decide +kernel
  obtain ⟨_, hrefusals⟩ := require_settles_at_once hreach hrest hestablished rfl
  obtain ⟨id, m₁, _, hruns, honce, hback⟩ := hrefusals _ hrefused
  obtain ⟨l', hsteps, hresumed⟩ := hback (.finish trivial)
  obtain ⟨_, _, hstack, _⟩ := hruns.ends
  refine ⟨hpending, id, m₁, l', by rw [hstack]; rfl, hruns.starts, hsteps, (honce m₁ .refl).1, ?_,
    hresumed.pending.trans hpending⟩
  rw [hresumed.keys, hnew, List.reverse_cons, List.reverse_singleton, List.singleton_append]

end AsyncModule
