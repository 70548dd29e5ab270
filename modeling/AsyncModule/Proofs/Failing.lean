import AsyncModule.Proofs.Acyclic
import AsyncModule.Proofs.Lasting
import AsyncModule.Proofs.Once
import AsyncModule.Proofs.Waiting

/-!
# AsyncModule.Proofs.Failing

What is about to fail does. Steps are only ever added at the end of the worklist and taken from its
front, so a request that cannot be called back any more, since it waits for a module that has
failed, fails with the first error that is due to it.

* `Fated`            — the invariant: the request is live and its first failure is due, or it has
  failed so.
* `maintained_fated` — everything the machine does keeps it.
-/

namespace AsyncModule

open Relation

variable {ν : Type}

/-- Whether a step fails a request. -/
def Step.fails (w : RequestId) : Step → Bool
  | fail id _ => id == w
  | _ => false

namespace Loader

variable {l l' : Loader ν} {w id : RequestId} {e : LoadError} {r : Request ν}
  {definition : Option String}

/-! ## The worklist grows at its end -/

theorem prefix_attach (l : Loader ν) (id : RequestId) (i : Nat) (t : Target) :
    l.worklist <+: (l.attach id i t).worklist := by
  rcases l.registry.open_or_settled t.key with ho | ⟨v, hv⟩ | ⟨e, he⟩
  · exact (attach_open id i ho).1 ▸ List.prefix_rfl
  · rw [(attach_ready id i hv).2]
    exact List.prefix_append _ _
  · rw [(attach_failed id i he).2]
    exact List.prefix_append _ _

/-- Steps and requests are added. -/
structure Grows (l l' : Loader ν) : Prop where
  worklist : l.worklist <+: l'.worklist
  serial : l.requests.serial ≤ l'.requests.serial

theorem keptByLinking_grows (l : Loader ν) : KeptByLinking l.Grows where
  linked _ _ h := ⟨h.worklist, h.serial⟩
  context _ _ h := ⟨h.worklist, by simpa using h.serial⟩
  stop _ h _ := ⟨h.worklist.trans (List.prefix_append _ _), h.serial⟩
  attach i t h _ _ := ⟨h.worklist.trans (prefix_attach _ _ i t), by simpa using h.serial⟩

theorem grows_submit (l : Loader ν) (frame : Option Frame) (dependencies : List String)
    (callback : List ModuleValue → Script ν) (errback : Option (LoadError → Script ν))
    (definitionUrl : Option String) :
    l.Grows (l.submit frame dependencies callback errback definitionUrl) := by
  have henter : l.Grows (l.enter (.ofCall dependencies callback errback (l.context? frame)
      definitionUrl)).2 := ⟨List.prefix_rfl, Nat.le_succ _⟩
  exact (keptByLinking_grows l).begin henter
    (fun _ => ⟨List.prefix_append _ _, henter.serial⟩) fun _ _ => ⟨henter.worklist, henter.serial⟩

theorem grows_afterEstablishing (l : Loader ν) (change : Bool × Bootstrap) :
    l.Grows (l.afterEstablishing change).2 := by
  unfold afterEstablishing
  dsimp only
  split
  · exact (keptByLinking_grows l).drainDeferred (fun _ => ⟨List.prefix_rfl, Nat.le_refl _⟩)
      ⟨List.prefix_rfl, Nat.le_refl _⟩
  · exact ⟨List.prefix_rfl, Nat.le_refl _⟩

/-! ## Other requests are left alone -/

theorem get?_submit_of_issued (h : l.requests.Issued w) (frame : Option Frame)
    (dependencies : List String) (callback : List ModuleValue → Script ν)
    (errback : Option (LoadError → Script ν)) (definitionUrl : Option String) :
    (l.submit frame dependencies callback errback definitionUrl).requests.get? w =
      l.requests.get? w := by
  have hne : ∀ r, w ≠ (l.enter r).1 := fun r => Requests.ne_insert_of_issued r h
  have henter : ∀ r, (l.enter r).2.requests.get? w = l.requests.get? w := by
    intro r
    exact (Requests.get?_insert l.requests r w).trans (if_neg (hne r))
  unfold submit
  dsimp only
  unfold begin
  split
  · exact henter _
  · split
    · rw [get?_link_of_ne (hne _)]
      exact henter _
    · exact henter _

theorem get?_linkAll_of_not_mem (ctx : Context) (ids : List RequestId) :
    ∀ {l : Loader ν}, w ∉ ids →
      (ids.foldl (fun l id => l.link id ctx) l).requests.get? w = l.requests.get? w := by
  induction ids with
  | nil => exact fun _ => rfl
  | cons id rest ih =>
    intro l hnot
    rw [List.mem_cons, not_or] at hnot
    rw [List.foldl_cons, ih hnot.2, get?_link_of_ne hnot.1]

theorem get?_afterEstablishing_of_not_mem {change : Bool × Bootstrap}
    (h : w ∉ change.2.deferred) :
    (l.afterEstablishing change).2.requests.get? w = l.requests.get? w := by
  unfold afterEstablishing
  dsimp only
  split
  · unfold drainDeferred
    split
    · rfl
    · exact get?_linkAll_of_not_mem _ _ h
  · rfl

/-! ## The fate of a request -/

/-- A slot of a request waits for a module that has failed. -/
def Stuck (l : Loader ν) (r : Request ν) : Prop :=
  ∃ i s url e, r.slot? i = some s ∧ s.module = some url ∧ s.value = none ∧
    l.registry.state? url = some (.failed e)

/-- A request is live and the first failure due to it is by an error, or it has failed so without
being called back. One that is to define a module may have failed with that module before. -/
structure Fated (w : RequestId) (e : LoadError) (definition : Option String) (l : Loader ν) :
    Prop where
  issued : l.requests.Issued w
  doomed : ∀ {r}, l.requests.get? w = some r → r.definitionUrl = definition ∧ l.Stuck r ∧
    l.worklist.find? (·.fails w) = some (.fail w e)
  done : l.requests.get? w = none → ∃ e' older, .failed w e' :: older <:+ l.journal ∧
    w ∉ calls older ∧ (definition = none → e' = e)

theorem Stuck.lasts (h : l.Stuck r) (hl : l.Lasts l') : l'.Stuck r := by
  obtain ⟨i, s, url, e, hs, hm, hv, hfailed⟩ := h
  exact ⟨i, s, url, e, hs, hm, hv, hl.settled hfailed rfl⟩

namespace Fated

theorem keep (h : Fated w e definition l) (hl : l.Lasts l')
    (hserial : l.requests.serial ≤ l'.requests.serial)
    (hget : l'.requests.get? w = l.requests.get? w)
    (hdue : l.worklist.find? (·.fails w) = some (.fail w e) →
      l'.worklist.find? (·.fails w) = some (.fail w e)) : Fated w e definition l' where
  issued := Nat.le_trans h.issued hserial
  doomed := by
    intro r hr
    rw [hget] at hr
    obtain ⟨hd, hstuck, hfail⟩ := h.doomed hr
    exact ⟨hd, hstuck.lasts hl, hdue hfail⟩
  done := by
    intro hnone
    rw [hget] at hnone
    obtain ⟨e', older, hsuffix, hdone⟩ := h.done hnone
    exact ⟨e', older, hsuffix.trans hl.journal, hdone⟩

theorem grow (h : Fated w e definition l) (hl : l.Lasts l') (hgrows : l.Grows l')
    (hget : l'.requests.get? w = l.requests.get? w) : Fated w e definition l' := by
  refine h.keep hl hgrows.serial hget ?_
  intro hfail
  obtain ⟨steps, hsteps⟩ := hgrows.worklist
  rw [← hsteps, List.find?_append, hfail]
  rfl

/-- It has come to pass. -/
theorem happened {e' : LoadError} {older : List (Event ν)} (hissued : l.requests.Issued w)
    (hgone : l.requests.get? w = none) (hj : .failed w e' :: older <:+ l.journal)
    (hnot : w ∉ calls older) (he : definition = none → e' = e) : Fated w e definition l where
  issued := hissued
  doomed hr := by
    rw [hgone] at hr
    cases hr
  done _ := ⟨e', older, hj, hnot, he⟩

/-- Neither the journal nor the modules that are not settled matter. -/
theorem same (h : Fated w e definition l) (hl : l.Lasts l') (hr : l'.requests = l.requests)
    (hwork : l'.worklist = l.worklist) : Fated w e definition l' :=
  h.keep hl (Nat.le_of_eq (by rw [hr])) (by rw [hr]) fun hfail => by rw [hwork, hfail]

theorem record (h : Fated w e definition l) (event : Event ν) :
    Fated w e definition (l.record event) :=
  h.same ((Lasts.refl l).record event) rfl rfl

theorem not_mem_deferred (h : Fated w e definition l) (hlinked : l.AllLinked) :
    w ∉ l.bootstrap.deferred := by
  intro hmem
  obtain ⟨r, hr, _, _, hm⟩ := hlinked.deferred hmem
  obtain ⟨_, ⟨i, s, url, _, hs, hsome, _⟩, _⟩ := h.doomed hr
  rw [hm s (Request.mem_slots.mpr ⟨i, hs⟩)] at hsome
  cases hsome

theorem submit (h : Fated w e definition l) (frame : Option Frame) (dependencies : List String)
    (callback : List ModuleValue → Script ν) (errback : Option (LoadError → Script ν))
    (definitionUrl : Option String) :
    Fated w e definition (l.submit frame dependencies callback errback definitionUrl) :=
  h.grow (.submit l frame dependencies callback errback definitionUrl)
    (grows_submit l frame dependencies callback errback definitionUrl)
    (get?_submit_of_issued h.issued frame dependencies callback errback definitionUrl)

theorem afterEstablishing (h : Fated w e definition l) (hlinked : l.AllLinked)
    {change : Bool × Bootstrap} (hd : change.2.deferred = l.bootstrap.deferred) :
    Fated w e definition (l.afterEstablishing change).2 := by
  refine h.grow (.afterEstablishing l change) (grows_afterEstablishing l change)
    (get?_afterEstablishing_of_not_mem ?_)
  rw [hd]
  exact h.not_mem_deferred hlinked

theorem finishMain (h : Fated w e definition l) (hlinked : l.AllLinked) (t : Target) :
    Fated w e definition (l.finishMain t) := by
  unfold Loader.finishMain
  dsimp only
  split
  · exact h.afterEstablishing hlinked (Bootstrap.deferred_finishEstablishing _ _)
  · exact h

/-- A module is settled, which adds steps. -/
theorem settle (h : Fated w e definition l) (hl : l.Lasts l') (hr : l'.requests = l.requests)
    {steps : List Step} (hwork : l'.worklist = l.worklist ++ steps) : Fated w e definition l' :=
  h.grow hl ⟨by rw [hwork]; exact List.prefix_append _ _, Nat.le_of_eq (by rw [hr])⟩ (by rw [hr])

theorem withdraw (h : Fated w e definition l) (hne : w ≠ id) (r : Request ν) :
    Fated w e definition (l.withdraw id r) := by
  refine h.grow (.withdraw l id r) ⟨List.prefix_rfl, ?_⟩ ?_
  · exact Nat.le_of_eq (Requests.serial_erase l.requests id).symm
  · exact (Requests.get?_erase l.requests id w).trans (if_neg hne)

/-- A request that is not live is not among those whose fate is still to come. -/
theorem rest (h : Fated w e definition l) {s : Step} {rest : List Step}
    (hw : l.worklist = s :: rest) (hs : l.requests.get? w = none ∨ s.fails w = false) :
    Fated w e definition { l with worklist := rest } where
  issued := h.issued
  doomed := by
    intro r hr
    obtain ⟨hd, hstuck, hfail⟩ := h.doomed hr
    refine ⟨hd, hstuck, ?_⟩
    have hr : l.requests.get? w = some r := hr
    rw [hw, List.find?_cons_of_neg] at hfail
    · exact hfail
    · rcases hs with hnone | hs
      · rw [hnone] at hr
        cases hr
      · simp [hs]
  done := h.done

/-- What the step makes of a live request that is to be called back: it is another one. -/
theorem ne_of_full (h : Fated w e definition l) (hlinked : l.AllLinked) {i : Nat} {v : ModuleValue}
    (hr : l.requests.get? id = some r) (hdue : .fill id i v ∈ l.worklist)
    (hfull : (r.fill i v).isSatisfied = true) : w ≠ id := by
  rintro rfl
  obtain ⟨_, ⟨j, s, url, e', hs, hm, _, hfailed⟩, _⟩ := h.doomed hr
  have hs' : (r.fill i v).slot? j = some
      (if j = i ∧ s.value = none then { s with value := some v } else s) := by
    rw [Request.slot?_fill, hs]
    rfl
  obtain ⟨url', v', hm', _, hready⟩ := hlinked.ready_of_fill hr hdue hfull hs'
  have hsame : url' = url := by
    split at hm'
    · rw [hm] at hm'
      cases hm'
      rfl
    · rw [hm] at hm'
      cases hm'
      rfl
  rw [hsame, hfailed] at hready
  cases hready

theorem fill (h : Fated w e definition l) (hlinked : l.AllLinked) {i : Nat} {v : ModuleValue}
    (hdue : .fill id i v ∈ l.worklist) :
    Fated w e definition { l with requests := l.requests.modify id (·.fill i v) } where
  issued := by
    show w.serial ≤ (l.requests.modify id (·.fill i v)).serial
    rw [Requests.serial_modify]
    exact h.issued
  doomed := by
    intro r' hr'
    rcases Requests.get?_modify_eq_some hr' with ⟨rfl, r, hr, rfl⟩ | ⟨_, hr⟩
    · obtain ⟨hd, ⟨j, s, url, e', hs, hm, hv, hfailed⟩, hfail⟩ := h.doomed hr
      refine ⟨by rw [Request.definitionUrl_fill, hd], ⟨j, s, url, e', ?_, hm, hv, hfailed⟩, hfail⟩
      -- only a slot of a module that is ready is filled
      have hj : j ≠ i := by
        rintro rfl
        obtain ⟨s', url', hs', hm', hready⟩ := hlinked.fill_due hdue hr
        rw [hs] at hs'
        cases hs'
        rw [hm] at hm'
        cases hm'
        rw [hfailed] at hready
        cases hready
      rw [Request.slot?_fill, hs, Option.map_some, if_neg fun hc => hj hc.1]
    · exact h.doomed hr
  done := by
    intro hnone
    refine h.done ?_
    have hnone : (l.requests.modify id (·.fill i v)).get? w = none := hnone
    rw [Requests.get?_modify] at hnone
    split at hnone
    · exact Option.map_eq_none_iff.mp hnone
    · exact hnone

theorem ne_of_fire (h : Fated w e definition l) (hlinked : l.AllLinked)
    (hr : l.requests.get? id = some r) (hdue : .fire id ∈ l.worklist) : w ≠ id := by
  rintro rfl
  obtain ⟨_, ⟨i, s, _, _, hs, _⟩, _⟩ := h.doomed hr
  have hempty : r.slots = [] := hlinked.fire_due hdue hr
  rw [Request.slot?, hempty] at hs
  cases hs

/-- A request is called back: it is another one. -/
theorem call (h : Fated w e definition l) {s : Step} {rest : List Step} {rs : Requests ν}
    (hw : l.worklist = s :: rest) (hs : s.fails w = false)
    (hserial : rs.serial = l.requests.serial) (hget : rs.get? w = l.requests.get? w)
    (values : List ModuleValue) :
    Fated w e definition
      (Loader.record { l with worklist := rest, requests := rs } (.called id values)) :=
  (h.rest hw (.inr hs)).keep (.of_state? (List.suffix_cons _ _) fun _ => rfl)
    (Nat.le_of_eq hserial.symm) hget fun hfirst => hfirst

/-- The request itself fails. -/
theorem erase (h : Fated w e definition l) {e' : LoadError} (hnot : w ∉ calls l.journal)
    (hrequests : l'.requests = l.requests.erase w) (hj : l'.journal = .failed w e' :: l.journal)
    (he : definition = none → e' = e) : Fated w e definition l' := by
  refine .happened ?_ ?_ (hj ▸ List.suffix_rfl) hnot he
  · rw [hrequests, Requests.Issued, Requests.serial_erase]
    exact h.issued
  · rw [hrequests, Requests.get?_erase, if_pos rfl]

/-- A module fails, and its definition with it. -/
theorem abandonDefinition (h : Fated w e definition l) (hdefining : l.WellDefining)
    {url : String} (hid : l.registry.definition? url = some id)
    (hr : l.requests.get? id = some r) (hnot : id ∉ calls l.journal) (e' : LoadError) :
    Fated w e definition (((l.abandonModule url e').withdraw id r).record (.failed id e')) := by
  by_cases hw : w = id
  · subst hw
    refine h.erase hnot rfl rfl ?_
    rintro rfl
    have hbound := hdefining.bound hid hr
    rw [(h.doomed hr).1] at hbound
    cases hbound
  · exact ((h.settle (.abandonModule l url e') rfl rfl).withdraw hw r).record _

/-- The failure that is due first comes to pass. -/
theorem fail (h : Fated w e definition l) {e' : LoadError} {rest : List Step}
    (hw : l.worklist = .fail id e' :: rest) (hr : l.requests.get? id = some r)
    (hnot : id ∉ calls l.journal) :
    Fated w e definition
      ((Loader.withdraw { l with worklist := rest } id r).record (.failed id e')) := by
  by_cases hid : w = id
  · subst hid
    have hfirst := (h.doomed hr).2.2
    rw [hw, List.find?_cons_of_pos (by simp [Step.fails])] at hfirst
    cases hfirst
    exact h.erase hnot rfl rfl fun _ => rfl
  · have hne : id ≠ w := fun heq => hid heq.symm
    exact ((h.rest hw (.inr (by simp [Step.fails, hne]))).withdraw hid r).record _

/-- As soon as nothing is due any more, the request has failed. -/
theorem failed_of_idle (h : Fated w e definition l) (hidle : l.worklist = []) :
    ∃ e', .failed w e' ∈ l.journal ∧ (definition = none → e' = e) := by
  have hgone : l.requests.get? w = none := by
    by_contra hlive
    obtain ⟨r, hr⟩ := Option.ne_none_iff_exists'.mp hlive
    have hfirst := (h.doomed hr).2.2
    rw [hidle] at hfirst
    cases hfirst
  obtain ⟨e', older, hsuffix, _, he⟩ := h.done hgone
  exact ⟨e', hsuffix.subset List.mem_cons_self, he⟩

end Fated
end Loader

theorem maintained_linked_accounted :
    Maintained fun (l : Loader ν) k => (l.AllLinked ∧ l.WellDefining) ∧ l.Accounted k :=
  (maintained_linked.and maintained_defining).and maintained_accounted

open Loader in
theorem maintained_fated (w : RequestId) (e : LoadError) (definition : Option String) :
    Maintained fun (l : Loader ν) k =>
      ((l.AllLinked ∧ l.WellDefining) ∧ l.Accounted k) ∧ Fated w e definition l where
  aside h ha := ⟨maintained_linked_accounted.aside h.1 ha, h.2.record _⟩
  make payload h := ⟨maintained_linked_accounted.make payload h.1,
    h.2.same (.of_state? List.suffix_rfl fun _ => rfl) rfl rfl⟩
  fetches h ha := ⟨maintained_linked_accounted.fetches h.1 ha,
    h.2.same (.of_state? List.suffix_rfl fun _ => rfl) rfl rfl⟩
  arrive h htake := ⟨maintained_linked_accounted.arrive h.1 htake,
    h.2.same (.of_state? (List.suffix_cons _ _) fun _ => rfl) rfl rfl⟩
  enter role h hj := ⟨maintained_linked_accounted.enter role h.1 hj, h.2.record _⟩
  require frame dependencies callback errback h :=
    ⟨maintained_linked_accounted.require frame dependencies callback errback h.1,
      h.2.submit frame dependencies callback errback none⟩
  define ctx defined dependencies factory errback h :=
    ⟨maintained_linked_accounted.define ctx defined dependencies factory errback h.1,
      h.2.submit _ dependencies factory errback _⟩
  unwatch h := ⟨maintained_linked_accounted.unwatch h.1, h.2⟩
  setDefaultBase base h := ⟨maintained_linked_accounted.setDefaultBase base h.1,
    h.2.same (.of_state? List.suffix_rfl fun _ => rfl) rfl rfl⟩
  establish ctx h := ⟨maintained_linked_accounted.establish ctx h.1,
    h.2.afterEstablishing h.1.1.1 (Bootstrap.deferred_establish _ ctx)⟩
  beginMain root t h hd := ⟨maintained_linked_accounted.beginMain root t h.1 hd,
    h.2.same (.of_state? (List.suffix_cons _ _) fun _ => rfl) rfl rfl⟩
  finishMain t h := ⟨maintained_linked_accounted.finishMain t h.1, h.2.finishMain h.1.1.1 t⟩
  ready v h := ⟨maintained_linked_accounted.ready v h.1,
    h.2.settle (.readyModule _ _ v) rfl rfl⟩
  abandon e h hm hd := ⟨maintained_linked_accounted.abandon e h.1 hm hd,
    h.2.settle (.abandonModule _ _ e) rfl rfl⟩
  abandonDefinition e h hm hid hr :=
    ⟨maintained_linked_accounted.abandonDefinition e h.1 hm hid hr,
      h.2.abandonDefinition h.1.1.2 hid hr (h.1.2.live_iff.mp ⟨_, hr⟩).2.1 e⟩
  finish h ho := ⟨maintained_linked_accounted.finish h.1 ho, h.2.record _⟩
  fault h ho := ⟨maintained_linked_accounted.fault h.1 ho, (h.2.record _).record _⟩
  handle h hj := ⟨maintained_linked_accounted.handle h.1 hj, h.2.record _⟩
  dispatch h hd := ⟨maintained_linked_accounted.dispatch h.1 hd,
    h.2.same (.of_state? List.suffix_rfl fun _ => rfl) rfl rfl⟩
  redispatch h hd := ⟨maintained_linked_accounted.redispatch h.1 hd, h.2⟩
  drained h hw := ⟨maintained_linked_accounted.drained h.1 hw,
    h.2.same (.of_state? List.suffix_rfl fun _ => rfl) rfl rfl⟩
  dead {l k s rest} h hw hr := by
    refine ⟨maintained_linked_accounted.dead h.1 hw hr, h.2.rest hw ?_⟩
    cases s with
    | fail id e' =>
      by_cases hid : id = w
      · exact .inl (hid ▸ hr)
      · exact .inr (by simp [Step.fails, hid])
    | _ => exact .inr rfl
  fill h hw hr hs := by
    refine ⟨maintained_linked_accounted.fill h.1 hw hr hs, ?_⟩
    have hfill := h.2.fill h.1.1.1 (by rw [hw]; exact List.mem_cons_self)
    exact hfill.rest hw (.inr rfl)
  fillFire {l k id i v rest r} h hw hr hs := by
    refine ⟨maintained_linked_accounted.fillFire h.1 hw hr hs, ?_⟩
    have hne := h.2.ne_of_full h.1.1.1 hr (by rw [hw]; exact List.mem_cons_self) hs
    exact h.2.call hw rfl (by simp)
      ((Requests.get?_erase_modify l.requests id w _).trans (if_neg hne)) _
  fire {l k id rest r} h hw hr := by
    refine ⟨maintained_linked_accounted.fire h.1 hw hr, ?_⟩
    have hne := h.2.ne_of_fire h.1.1.1 hr (by rw [hw]; exact List.mem_cons_self)
    exact h.2.call hw rfl (by simp) ((Requests.get?_erase l.requests id w).trans (if_neg hne)) _
  fail h hw hr := ⟨maintained_linked_accounted.fail h.1 hw hr,
    h.2.fail hw hr (h.1.2.live_iff.mp ⟨_, hr⟩).2.1⟩

variable {m m' : Machine ν} {w : RequestId} {e : LoadError} {definition : Option String}

/-- In every run a request meets its fate. -/
theorem Machine.Reachable.fated (h : m.Reachable) (hfated : Loader.Fated w e definition m.loader)
    (hrun : ReflTransGen Machine.Goes m m') : Loader.Fated w e definition m'.loader := by
  have hnow := maintained_linked_accounted.reachable
    (fun _ _ => ⟨⟨Linkage.init, Defining.init⟩, Accounts.init⟩) h
  exact ((maintained_fated w e definition).later h ⟨hnow, hfated⟩ hrun).2

/-- What has failed before it was called back never is. -/
theorem Orderly.not_mem_calls_of_failed {j older : List (Event ν)} (h : Orderly j)
    (hj : .failed w e :: older <:+ j) (hnot : w ∉ calls older) : w ∉ calls j := by
  obtain ⟨newer, rfl⟩ := hj
  have hnewer := h.not_mem_calls (List.mem_cons_self : w ∈ failures (.failed w e :: older))
  rw [calls, List.filterMap_append, List.mem_append, not_or]
  exact ⟨hnewer, hnot⟩

theorem Loader.Fated.not_mem_calls {l : Loader ν} {k : List Duty}
    (h : Loader.Fated w e definition l) (hacc : l.Accounted k) : w ∉ calls l.journal := by
  cases hr : l.requests.get? w with
  | none =>
    obtain ⟨_, older, hsuffix, hnot, _⟩ := h.done hr
    exact hacc.orderly.not_mem_calls_of_failed hsuffix hnot
  | some r => exact (hacc.live_iff.mp ⟨r, hr⟩).2.1

end AsyncModule
