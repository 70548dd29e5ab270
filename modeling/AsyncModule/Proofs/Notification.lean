import AsyncModule.Proofs.Programs
import AsyncModule.Proofs.SetUp
import AsyncModule.Proofs.Tally
import AsyncModule.Proofs.Tasks
import AsyncModule.Proofs.Turns

/-!
# AsyncModule.Proofs.Notification

The order in which the requests that wait for a module are called back. A request is called back
when the last of its slots is filled; of the requests whose last slot is filled with the value of
one module, the first to be linked is the first to be called back. Requests that are made outside
of units are linked in the order in which they are made, whether or not they are deferred.

* `Machine.Notified`   — a machine that can be reached, with the requests called back by then, each
  with the module it had waited for last, and those made outside of units.
* `Reachable.notified` — every machine that can be reached is one of these.
* `notified_in_order`  — the whole statement.
-/

namespace AsyncModule

open Relation

variable {ν : Type}

/-! ## Calling back -/

/-- The request that is called back with values. -/
def Event.calledBack? : Event ν → Option RequestId
  | .called id (_ :: _) => some id
  | _ => none

def callbacks (j : List (Event ν)) : List RequestId := j.filterMap Event.calledBack?

theorem callbacks_sublist_calls (j : List (Event ν)) : (callbacks j).Sublist (calls j) := by
  refine filterMap_sublist_of_le fun e _ id he => ?_
  cases e with
  | called id' values =>
    cases values with
    | nil => cases he
    | cons v values => exact he
  | _ => cases he

/-- The request whose last slot is filled by a step, with the module whose value it gets. -/
def Step.completes? (rs : Requests ν) : Step → Option (RequestId × String)
  | .fill id i v => (rs.get? id).bind fun r =>
      if (r.fill i v).isSatisfied then (rs.module? id i).map (id, ·) else none
  | _ => none

def Task.completes? (l : Loader ν) : Task ν → Option (RequestId × String)
  | .draining => l.worklist.head?.bind (Step.completes? l.requests)
  | _ => none

namespace Loader

variable {l l' : Loader ν}

theorem callbacks_of_startsNone (h : l.StartsNone l') :
    callbacks l'.journal = callbacks l.journal := by
  obtain ⟨events, hj, hall⟩ := h
  have hnone : callbacks events = [] := by
    refine List.filterMap_eq_nil_iff.mpr fun e he => ?_
    have hstarts := hall e he
    cases e with
    | called id values => cases hstarts
    | _ => rfl
  rw [hj, callbacks, List.filterMap_append, ← callbacks, hnone]
  rfl

end Loader

namespace Machine

variable {l l' : Loader ν} {task : Task ν} {tasks : List (Task ν)}

/-- Where no callback is started no request is called back. -/
theorem callbacks_of_launches (h : Launches l task (l', tasks))
    (hnone : ∀ frame script id r, .body frame script (.callback id r) ∉ tasks) :
    callbacks l'.journal = callbacks l.journal := by
  cases h with
  | nothing hj _ => exact Loader.callbacks_of_startsNone hj
  | @program l₁ _ event new tasks hstarts hj hevent _ =>
    rw [hevent, ← Loader.callbacks_of_startsNone hj]
    cases hstarts with
    | enter => rfl
    | call => exact absurd List.mem_cons_self (hnone _ _ _ _)
    | handle => rfl

theorem not_mem_of_handles {e : LoadError} (h : Handles e tasks) (frame : Option Frame)
    (script : Script ν) (id : RequestId) (r : Request ν) :
    .body frame script (.callback id r) ∉ tasks := by
  rcases h with rfl | ⟨ctx, script', definition, rfl⟩
  · exact List.not_mem_nil
  · simp

theorem callbacks_takeUp (l : Loader ν) :
    callbacks (takeUp l).2.1.journal = callbacks l.journal := by
  have hlaunches : Launches l .draining (takeUp l).2 := launches_takeUp
  refine callbacks_of_launches hlaunches fun frame script id r hmem => ?_
  rcases tasks_takeUp l with hnil | ⟨f, result, fetches, _, heq⟩
  · rw [hnil] at hmem
    cases hmem
  · rw [heq, List.mem_append] at hmem
    have hmem := hmem.resolve_right (by simp)
    rcases tasks_complete { l with fetches } f result with
      hnil | ⟨frame', script', ending, hone, hending⟩ | ⟨e, hfail, _⟩
    · rw [hnil] at hmem
      cases hmem
    · rw [hone, List.mem_singleton] at hmem
      cases hmem
      cases hending
    · rw [hfail] at hmem
      exact not_mem_of_handles (handles_failModule _ _ e) _ _ _ _ hmem

/-- Only by working off the worklist are requests called back. -/
theorem callbacks_advance (l : Loader ν) (hne : task ≠ .draining) :
    callbacks (advance l task).1.journal = callbacks l.journal := by
  have hchange : ∀ (frame : Option Frame) (next : Option LoadError → Script ν) ending out,
      l.StartsNone out.2 →
      callbacks (afterChange frame next ending out).1.journal = callbacks l.journal := by
    intro frame next ending out hj
    rw [fst_afterChange]
    exact Loader.callbacks_of_startsNone hj
  cases task with
  | body frame script ending =>
    cases script with
    | finish o =>
      obtain ⟨e, hhandles⟩ := handles_conclude l frame o ending
      have hlaunches : Launches l (.body frame (.finish o) ending) (conclude l frame o ending) :=
        launches_conclude frame o ending ⟨frame, rfl⟩
      exact callbacks_of_launches hlaunches (not_mem_of_handles hhandles)
    | require dependencies callback errback next =>
      exact Loader.callbacks_of_startsNone (.submit _ _ _ _ _ _)
    | define dependencies factory errback next =>
      exact Loader.callbacks_of_startsNone
        ((startsNone_bindDefinition l frame).trans (.submit _ _ _ _ _ _))
    | configure base next =>
      simp only [advance, perform]
      exact hchange _ _ _ _ (.configure l base)
    | bootstrap entry main next =>
      simp only [advance, perform]
      exact hchange _ _ _ _ (.boot l entry main)
    | turn next => exact callbacks_takeUp l
    | deliver url result next =>
      simp only [advance, perform]
      split <;> rfl
    | _ => rfl
  | settling frame next ending =>
    rw [fst_settling]
    exact callbacks_takeUp l
  | dispatch =>
    simp only [advance]
    split <;> rfl
  | draining => exact absurd rfl hne

end Machine

namespace Loader

variable {l : Loader ν} {id : RequestId} {i : Nat} {v : ModuleValue} {r : Request ν}

/-- A slot that is filled last is linked to a module, whose value it gets. -/
theorem AllLinked.completes? (h : l.AllLinked) (hdue : .fill id i v ∈ l.worklist)
    (hr : l.requests.get? id = some r) (hfull : (r.fill i v).isSatisfied = true) :
    ∃ url, Step.completes? l.requests (.fill id i v) = some (id, url) ∧
      l.requests.module? id i = some url ∧ (r.fill i v).values ≠ [] := by
  obtain ⟨s, url, hs, hm, _⟩ := h.fill_due hdue hr
  have hmodule : l.requests.module? id i = some url :=
    Requests.module?_eq_some_iff.mpr ⟨r, s, hr, hs, hm⟩
  have hfilled : (r.fill i v).slot? i ≠ none := by
    rw [Request.slot?_fill, hs]
    simp
  obtain ⟨s', hs'⟩ := Option.ne_none_iff_exists'.mp hfilled
  obtain ⟨_, w, _, hw, _⟩ := h.ready_of_fill hr hdue hfull hs'
  refine ⟨url, by simp [Step.completes?, hr, hfull, hmodule], hmodule, ?_⟩
  exact List.ne_nil_of_mem
    (List.mem_filterMap.mpr ⟨s', Request.mem_slots.mpr ⟨i, hs'⟩, hw⟩)

end Loader

namespace Machine

variable {m : Machine ν}

/-- The request that the next step calls back, with the module whose value it has waited for. -/
def completes? (m : Machine ν) : Option (RequestId × String) :=
  m.stack.head?.bind (Task.completes? m.loader)

/-- What the next step makes of a request that it calls back. -/
structure Completes (m : Machine ν) (id : RequestId) (url : String) : Prop where
  stack : ∃ below, m.stack = .draining :: below
  work : ∃ i v rest r, m.loader.worklist = .fill id i v :: rest ∧
    m.loader.requests.get? id = some r ∧ (r.fill i v).isSatisfied = true ∧
    m.loader.requests.module? id i = some url

theorem completes_of_eq {p : RequestId × String} (h : m.completes? = some p) :
    m.Completes p.1 p.2 := by
  obtain ⟨task, hhead, htask⟩ := Option.bind_eq_some_iff.mp h
  obtain ⟨below, hstack⟩ := List.head?_eq_some_iff.mp hhead
  cases task with
  | draining =>
    obtain ⟨s, hs, hcompletes⟩ := Option.bind_eq_some_iff.mp htask
    obtain ⟨rest, hw⟩ := List.head?_eq_some_iff.mp hs
    cases s with
    | fill id i v =>
      obtain ⟨r, hr, hcompletes⟩ := Option.bind_eq_some_iff.mp hcompletes
      split at hcompletes
      · rename_i hfull
        obtain ⟨url, hmodule, rfl⟩ := Option.map_eq_some_iff.mp hcompletes
        exact ⟨⟨below, hstack⟩, i, v, rest, r, hw, hr, hfull, hmodule⟩
      · cases hcompletes
    | fire id => cases hcompletes
    | fail id e => cases hcompletes
  | _ => cases htask

theorem callbacks_process {l : Loader ν} (h : l.AllLinked) {s : Step} {rest : List Step}
    (hw : l.worklist = s :: rest) :
    callbacks (process { l with worklist := rest } s).1.journal =
      ((Step.completes? l.requests s).map Prod.fst).toList ++ callbacks l.journal := by
  have hmem : s ∈ l.worklist := by rw [hw]; exact List.mem_cons_self
  cases s with
  | fill id i v =>
    simp only [process, fill]
    cases hr : l.requests.get? id with
    | none => simp [Step.completes?, hr]
    | some r =>
      dsimp only
      cases hfull : (r.fill i v).isSatisfied with
      | false => simp [Step.completes?, hr, hfull]
      | true =>
        obtain ⟨url, hcompletes, _, hvalues⟩ := h.completes? hmem hr hfull
        obtain ⟨w, ws, hcons⟩ := List.exists_cons_of_ne_nil hvalues
        rw [hcompletes]
        simp only [if_true, fire, Requests.get?_modify_self (·.fill i v) hr]
        show callbacks (.called id (r.fill i v).values :: l.journal) = _
        rw [hcons]
        rfl
  | fire id =>
    simp only [process, fire]
    cases hr : l.requests.get? id with
    | none => rfl
    | some r =>
      show callbacks (.called id r.values :: l.journal) = _
      rw [Request.values, h.fire_due hmem hr]
      rfl
  | fail id e =>
    have hlaunches : Launches l .draining (process { l with worklist := rest } (.fail id e)) :=
      launches_process
    refine callbacks_of_launches hlaunches ?_
    show ∀ frame script id' r, _ ∉ (failRequest _ id e).2
    unfold failRequest
    split
    · simp
    · exact not_mem_of_handles (handles_report _ id _ e)

theorem callbacks_step (h : m.Reachable) :
    callbacks m.step.loader.journal =
      (m.completes?.map Prod.fst).toList ++ callbacks m.loader.journal := by
  cases hstack : m.stack with
  | nil => simp [step, completes?, hstack]
  | cons task below =>
    have hcompletes : m.completes? = task.completes? m.loader := by simp [completes?, hstack]
    rw [step_of_cons hstack, hcompletes]
    cases task with
    | draining =>
      simp only [advance, Task.completes?]
      cases hw : m.loader.worklist with
      | nil => rfl
      | cons s rest => exact callbacks_process h.allLinked hw
    | _ => exact callbacks_advance m.loader (by simp)

/-! ## Who hears of a module, in their order -/

/-- The requests that were called back when they got the value of a module, oldest first. -/
def heardOf (heard : List (RequestId × String)) (url : String) : List RequestId :=
  ((heard.filter (·.2 = url)).map Prod.fst).reverse

theorem heardOf_cons (p : RequestId × String) (heard : List (RequestId × String)) (url : String) :
    heardOf (p :: heard) url = heardOf heard url ++ if p.2 = url then [p.1] else [] := by
  unfold heardOf
  by_cases hp : p.2 = url
  · rw [List.filter_cons_of_pos (by simpa using hp), if_pos hp]
    simp
  · rw [List.filter_cons_of_neg (by simpa using hp), if_neg hp, List.append_nil]

theorem turns_of_work {l : Loader ν} {s : Step} {rest : List Step} (hw : l.worklist = s :: rest)
    (url : String) :
    l.turns url = (s.turn? l.requests url).toList ++
      Loader.turns { l with worklist := rest } url := by
  unfold Loader.turns
  rw [hw]
  cases hs : s.turn? l.requests url with
  | none => rw [List.filterMap_cons_none hs, Option.toList_none, List.nil_append]
  | some id =>
    rw [List.filterMap_cons_some hs, Option.toList_some, List.singleton_append, List.cons_append]

/-- Whoever is called back has had its turn. -/
theorem lined_step (h : m.Reachable) {heard : List (RequestId × String)}
    (hl : m.loader.Lined (heardOf heard)) :
    m.step.loader.Lined (heardOf (m.completes?.toList ++ heard)) := by
  cases hp : m.completes? with
  | none => exact ((maintained_lined _).goes ⟨h.allLinked, hl⟩ h.fits (.step m)).1.2
  | some p =>
    obtain ⟨⟨below, hstack⟩, i, v, rest, r, hw, hr, hfull, hmodule⟩ := completes_of_eq hp
    have hstep : m.step.loader = Loader.record { m.loader with
        worklist := rest
        requests := (m.loader.requests.modify p.1 (·.fill i v)).erase p.1 }
        (.called p.1 (r.fill i v).values) := by
      rw [step_of_cons hstack]
      simp only [advance, hw, process, fill, hr, hfull, if_true, fire,
        Requests.get?_modify_self (·.fill i v) hr]
    rw [hstep]
    intro url
    have horder := hl url
    rw [turns_of_work hw] at horder
    rw [Option.toList_some, List.singleton_append, heardOf_cons, List.append_assoc]
    refine horder.sublist ((List.Sublist.refl _).append (List.Sublist.append ?_ ?_))
    · simp only [Step.turn?, hmodule, Option.some.injEq]
      split
      · exact .refl _
      · exact .refl _
    · refine Loader.turns_sublist ?_ ?_ ?_ url
      · exact .refl _
      · exact fun hm => Requests.module?_of_fill (Requests.module?_of_erase hm)
      · exact fun _ => .refl _

end Machine

/-! ## Requests that are made outside of units -/

namespace Loader

variable {l l' : Loader ν}

/-- Nothing is asked for, or what was deferred is linked. -/
def Drains (l l' : Loader ν) : Prop :=
  dependents l'.journal = dependents l.journal ∧
    (linkings l'.journal = linkings l.journal ∨
      linkings l'.journal = unlinked l.journal ++ linkings l.journal)

theorem Drains.of_eq (h : l'.journal = l.journal) : l.Drains l' := by
  unfold Drains
  rw [h]
  exact ⟨rfl, .inl rfl⟩

theorem drains_of_notes (h : Notes l l') : l.Drains l' :=
  ⟨told_of_notes (fun e he => by cases e <;> first | rfl | exact he.elim) h,
    .inl (told_of_notes (fun e he => by cases e <;> first | rfl | exact he.elim) h)⟩

theorem drains_afterEstablishing (hlinked : l.AllLinked) (hdeferring : l.Deferring)
    {change : Bool × Bootstrap} (hd : change.2.deferred = l.bootstrap.deferred) :
    l.Drains (l.afterEstablishing change).2 := by
  unfold Loader.afterEstablishing
  dsimp only
  split
  · unfold Loader.drainDeferred
    split
    · exact .of_eq rfl
    · rename_i ctx _
      dsimp only
      rw [hd]
      have hlinks := links_linkAll ctx l.bootstrap.deferred
        (l := { l with bootstrap := { change.2 with deferred := [] } }) hlinked.deferred_nodup
        fun id hid => by
          obtain ⟨r, hr, _⟩ := hlinked.deferred hid
          exact ⟨r, hr⟩
      refine ⟨hlinks.dependents, .inr ?_⟩
      rw [hlinks.linkings, hdeferring.order, List.reverse_reverse]
  · exact .of_eq rfl

theorem drains_finishMain (hlinked : l.AllLinked) (hdeferring : l.Deferring) (t : Target) :
    l.Drains (l.finishMain t) := by
  unfold Loader.finishMain
  dsimp only
  split
  · exact drains_afterEstablishing hlinked hdeferring (Bootstrap.deferred_finishEstablishing _ _)
  · exact .of_eq rfl

theorem drains_of_deals (hlinked : l.AllLinked) (hdeferring : l.Deferring) {finished : Option Target}
    (h : Deals l finished l') : l.Drains l' := by
  cases h with
  | @enter l₁ t hl =>
    obtain ⟨hdependents, hlinkings⟩ := drains_of_notes hl
    exact ⟨hdependents, hlinkings⟩
  | @finish l₁ t hl =>
    have hnoted := drains_of_notes hl
    have hsame : linkings l₁.journal = linkings l.journal :=
      told_of_notes (fun e he => by cases e <;> first | rfl | exact he.elim) hl
    have hlinked₁ : l₁.AllLinked := by
      unfold AllLinked Linked
      rw [hl.registry, hl.requests, hl.worklist, hl.bootstrap]
      exact hlinked
    have hdeferring₁ : l₁.Deferring :=
      hdeferring.keep (by rw [hl.bootstrap]) hnoted.1 hsame fun _ _ hf => .inl (hl.worklist ▸ hf)
    have hfinish := drains_finishMain hlinked₁ hdeferring₁ t
    unfold Drains at hfinish ⊢
    rwa [unlinked_of_eq hnoted.1 hsame, hsame, hnoted.1] at hfinish

theorem drains_configure (hlinked : l.AllLinked) (hdeferring : l.Deferring) (base : String) :
    l.Drains (l.configure base).2 := by
  cases hout : l.configure base with
  | mk result l' =>
    cases result with
    | error e =>
      rw [configure_eq_error hout]
      exact .of_eq rfl
    | ok drained =>
      obtain ⟨url, ctx, _, _, rfl⟩ := configure_eq_ok hout
      exact drains_afterEstablishing (l := l.setDefaultBase url) hlinked
        (hdeferring.same rfl rfl (List.Subset.refl _)) (Bootstrap.deferred_establish _ ctx)

theorem drains_boot (hlinked : l.AllLinked) (hdeferring : l.Deferring) (entry : String)
    (main : Option String) : l.Drains (l.boot entry main).2 := by
  cases hout : l.boot entry main with
  | mk result l' =>
    cases result with
    | error e =>
      rcases boot_eq_error hout with ⟨_, rfl⟩ | ⟨_, ctx, _, _, rfl, _⟩
      · exact .of_eq rfl
      · exact .of_eq rfl
    | ok drained =>
      cases main with
      | some main =>
        obtain ⟨ctx, t, directory, root, _, rfl⟩ := boot_main_eq_ok hout
        exact ⟨rfl, .inl rfl⟩
      | none =>
        unfold boot at hout
        split at hout
        · cases hout
        · rename_i ctx _
          cases hout
          exact drains_afterEstablishing (l := l.setDefaultBase ctx.base) hlinked
            (hdeferring.same rfl rfl (List.Subset.refl _)) (Bootstrap.deferred_establish _ ctx)

end Loader

/-- Whoever makes no request asks for nothing, or has what was deferred linked. -/
theorem Machine.drains_step {m : Machine ν} (h : m.Reachable) {task : Task ν}
    {rest : List (Task ν)} (hstack : m.stack = task :: rest) (hsubmits : task.submits = false) :
    m.loader.Drains m.step.loader := by
  have hlinked := h.allLinked
  have hdeferring := h.deferring
  cases ht : task.tends m.loader with
  | true =>
    exact ⟨asked_of_tends (fun e he => by cases e <;> first | rfl | cases he) h hstack ht,
      .inl (asked_of_tends (fun e he => by cases e <;> first | rfl | cases he) h hstack ht)⟩
  | false =>
    rw [step_of_cons hstack]
    cases task with
    | body frame script ending =>
      cases script with
      | finish o =>
        cases ending with
        | main t => exact Loader.drains_of_deals hlinked hdeferring (deals_concludeMain _ t o)
        | _ => cases ht
      | require => cases hsubmits
      | define => cases hsubmits
      | configure base next =>
        simp only [advance, perform, fst_afterChange]
        exact Loader.drains_configure hlinked hdeferring base
      | bootstrap entry main next =>
        simp only [advance, perform, fst_afterChange]
        exact Loader.drains_boot hlinked hdeferring entry main
      | turn next =>
        exact Loader.drains_of_deals hlinked hdeferring
          (deals_takeUp (by simpa [Task.tends] using ht))
      | _ => cases ht
    | settling frame next ending =>
      rw [fst_settling]
      exact Loader.drains_of_deals hlinked hdeferring
        (deals_takeUp (by simpa [Task.tends] using ht))
    | dispatch => cases ht
    | draining => cases ht

/-- The name that the next request gets. -/
def Requests.nextId (rs : Requests ν) : RequestId := ⟨rs.nextKey, rs.serial + 1⟩

/-- The dependencies of the request that a program makes next. -/
def Script.dependencies? : Script ν → Option (List String)
  | .require dependencies _ _ _ => some dependencies
  | .define dependencies _ _ _ => some dependencies
  | _ => none

/-- The request with dependencies that a task is about to make outside of units. -/
def Task.asksOutside? (l : Loader ν) : Task ν → Option RequestId
  | .body frame script _ => script.dependencies?.bind fun dependencies =>
      if dependencies ≠ [] ∧ frame.bind Frame.context? = none then some l.requests.nextId else none
  | _ => none

/-- The request with dependencies that the next step makes outside of units. -/
def Machine.asksOutside? (m : Machine ν) : Option RequestId :=
  m.stack.head?.bind (Task.asksOutside? m.loader)

namespace Loader

variable {l l' : Loader ν} {outside : List RequestId}

/-- Requests that are made outside of units, the newest first: some are deferred, and all before
them have been linked, in the same order. -/
def Outside (outside : List RequestId) (l : Loader ν) : Prop :=
  unlinked l.journal ++ (linkings l.journal).filter (· ∈ outside) = outside

namespace Outside

theorem unlinked_subset (h : l.Outside outside) : unlinked l.journal ⊆ outside := by
  unfold Outside at h
  rw [← h]
  exact List.subset_append_left _ _

theorem drains (h : l.Outside outside) (hd : l.Drains l') : l'.Outside outside := by
  obtain ⟨hdependents, hsame | hdrained⟩ := hd
  · unfold Outside
    rw [unlinked_of_eq hdependents hsame, hsame]
    exact h
  · have hall : (unlinked l.journal).filter (· ∈ outside) = unlinked l.journal :=
      List.filter_eq_self.mpr fun id hid => by simpa using h.unlinked_subset hid
    have hnone : unlinked l'.journal = [] := by
      rw [unlinked_of_linkings hdependents hdrained]
      exact List.filter_eq_nil_iff.mpr fun id hid => by simpa using hid
    unfold Outside
    rw [hnone, hdrained, List.filter_append, hall, List.nil_append]
    exact h

theorem not_mem (h : l.Outside outside) {id : RequestId} (hunlinked : id ∉ unlinked l.journal)
    (hlinkings : id ∉ linkings l.journal) : id ∉ outside := by
  unfold Outside at h
  rw [← h, List.mem_append, not_or]
  exact ⟨hunlinked, fun hmem => hlinkings (List.mem_filter.mp hmem).1⟩

/-- A request that is new makes no difference to those that have been linked. -/
theorem filter_cons {id : RequestId} (hid : id ∉ linkings l.journal) :
    (linkings l.journal).filter (· ∈ id :: outside) =
      (linkings l.journal).filter (· ∈ outside) := by
  refine List.filter_congr fun id' hid' => ?_
  have hne : id' ≠ id := fun heq => hid (heq ▸ hid')
  simp [hne]

/-- A request that is linked as soon as it is made. -/
theorem linked (h : l.Outside outside) (htraced : l.Traced) {r : Request ν} (hne : r.slots ≠ [])
    (hnew : (l.enter r).1 ∉ unlinked l.journal) (ctx : Context) :
    ((l.enter r).2.link (l.enter r).1 ctx).Outside outside ∧
      (unlinked l.journal = [] →
        ((l.enter r).2.link (l.enter r).1 ctx).Outside ((l.enter r).1 :: outside)) := by
  have hlinkings : (l.enter r).1 ∉ linkings l.journal :=
    fun hid => not_issued_enter l r (htraced.issued hid)
  have hlinks := links_link (get?_enter_self l r) ctx
  have hlinked : linkings ((l.enter r).2.link (l.enter r).1 ctx).journal =
      (l.enter r).1 :: linkings l.journal := hlinks.linkings
  have hunlinked : unlinked ((l.enter r).2.link (l.enter r).1 ctx).journal = unlinked l.journal := by
    rw [unlinked_of_linkings hlinks.dependents hlinks.linkings, Deferring.unlinked_enter htraced hne,
      List.filter_cons_of_neg (by simp)]
    refine List.filter_eq_self.mpr fun id hid => ?_
    have hid' : id ≠ (l.enter r).1 := fun heq => hnew (heq ▸ hid)
    simpa using hid'
  have hout := h.not_mem hnew hlinkings
  unfold Outside at h ⊢
  rw [hunlinked, hlinked]
  constructor
  · rw [List.filter_cons_of_neg (by simpa using hout)]
    exact h
  · intro hnone
    rw [hnone, List.nil_append] at h ⊢
    rw [List.filter_cons_of_pos (by simp), filter_cons hlinkings, h]

theorem submit (h : l.Outside outside) (hlinked : l.AllLinked) (htraced : l.Traced)
    (hdeferring : l.Deferring)
    (hestablished : l.bootstrap.context? ≠ none → l.bootstrap.deferred = [])
    (frame : Option Frame) (dependencies : List String) (callback : List ModuleValue → Script ν)
    (errback : Option (LoadError → Script ν)) (definitionUrl : Option String) :
    (l.submit frame dependencies callback errback definitionUrl).Outside
      ((if dependencies ≠ [] ∧ frame.bind Frame.context? = none then [l.requests.nextId] else []) ++
        outside) := by
  have hdeps : ∀ ctx, (Request.ofCall dependencies callback errback ctx definitionUrl).slots = [] ↔
      dependencies = [] := by
    intro ctx
    simp [Request.ofCall]
  unfold Loader.submit
  generalize hr : Request.ofCall dependencies callback errback (l.context? frame) definitionUrl = r
  have hid : (l.enter r).1 = l.requests.nextId := rfl
  have hslots : r.slots = [] ↔ dependencies = [] := hr ▸ hdeps _
  have hcontext : r.context = l.context? frame := hr ▸ rfl
  have hnew := hdeferring.not_mem_unlinked hlinked (not_issued_enter l r)
  have hlinkings : (l.enter r).1 ∉ linkings l.journal :=
    fun hid => not_issued_enter l r (htraced.issued hid)
  dsimp only
  unfold Loader.begin
  by_cases hdependencies : dependencies = []
  -- Without dependencies it is nothing to be linked.
  · have hnone : dependents (l.enter r).2.journal = dependents l.journal := by
      refine List.filterMap_cons_none ?_
      rw [Request.dependencies, hslots.mpr hdependencies]
      rfl
    rw [if_neg (fun hboth => hboth.1 hdependencies), List.nil_append,
      if_pos (by rw [hslots.mpr hdependencies]; rfl)]
    exact h.drains ⟨hnone, .inl rfl⟩
  · have hne : r.slots ≠ [] := fun heq => hdependencies (hslots.mp heq)
    rw [if_neg (c := r.slots.isEmpty = true) (by simpa using hne), hcontext]
    unfold Loader.context?
    cases hframe : frame.bind Frame.context? with
    | some ctx =>
      rw [if_neg (fun hboth => by cases hboth.2), List.nil_append]
      exact (h.linked htraced hne hnew ctx).1
    | none =>
      rw [if_pos ⟨hdependencies, rfl⟩, List.singleton_append, ← hid]
      cases hambient : l.bootstrap.context? with
      | some ctx =>
        refine (h.linked htraced hne hnew ctx).2 ?_
        have hnone := hestablished (by simp [hambient])
        rw [hdeferring.order] at hnone
        exact List.reverse_eq_nil_iff.mp hnone
      | none =>
        show unlinked (l.enter r).2.journal ++
          (linkings (l.enter r).2.journal).filter (· ∈ (l.enter r).1 :: outside) = _
        have hsame : linkings (l.enter r).2.journal = linkings l.journal := rfl
        rw [Deferring.unlinked_enter htraced hne, hsame, filter_cons hlinkings, List.cons_append, h]

end Outside
end Loader
namespace Machine

variable {m : Machine ν} {heard : List (RequestId × String)} {outside : List RequestId}

theorem outside_step (h : m.Reachable) (ho : m.loader.Outside outside) :
    m.step.loader.Outside (m.asksOutside?.toList ++ outside) := by
  have hlinked := h.allLinked
  have hestablished : m.loader.bootstrap.context? ≠ none → m.loader.bootstrap.deferred = [] := by
    intro hctx
    refine (h.mains.established ?_).2
    unfold Bootstrap.context? at hctx
    split at hctx
    · assumption
    · exact absurd rfl hctx
  -- What a program makes next it makes outside of units if there is no context around it.
  have htoList : ∀ (frame : Option Frame) (dependencies : List String),
      (if dependencies ≠ [] ∧ frame.bind Frame.context? = none then some m.loader.requests.nextId
        else none).toList =
      if dependencies ≠ [] ∧ frame.bind Frame.context? = none then [m.loader.requests.nextId]
        else [] := by
    intro frame dependencies
    split <;> rfl
  cases hstack : m.stack with
  | nil =>
    unfold asksOutside? step
    rw [hstack]
    exact ho
  | cons task rest =>
    have hasks : m.asksOutside? = task.asksOutside? m.loader := by simp [asksOutside?, hstack]
    cases hsubmits : task.submits with
    | false =>
      have hnone : task.asksOutside? m.loader = none := by
        cases task with
        | body frame script ending =>
          cases script with
          | require => cases hsubmits
          | define => cases hsubmits
          | _ => rfl
        | _ => rfl
      rw [hasks, hnone]
      exact ho.drains (drains_step h hstack hsubmits)
    | true =>
      rw [hasks, step_of_cons hstack]
      cases task with
      | body frame script ending =>
        cases script with
        | require dependencies callback errback next =>
          have hsubmit := ho.submit hlinked h.traced h.deferring hestablished frame dependencies
            callback errback none
          rwa [← htoList] at hsubmit
        | define dependencies factory errback next =>
          simp only [advance, perform]
          unfold Loader.bindDefinition
          have hsubmit := ho.submit hlinked h.traced h.deferring hestablished frame dependencies
            factory errback
          rw [← htoList] at hsubmit
          split
          · exact hsubmit _
          · rename_i url ctx
            have hreported : (m.loader.record (.report (.extraDefinition url))).Outside outside := ho
            have hsubmit := hreported.submit hlinked (h.traced.record rfl rfl)
              (h.deferring.record rfl rfl) hestablished (some (.unit url ctx true true))
              dependencies factory errback none
            exact htoList _ _ ▸ hsubmit
          · exact hsubmit _
        | _ => cases hsubmits
      | _ => cases hsubmits

/-- A machine that can be reached; with the requests that have been called back with values, each
with the module whose value it was that it had waited for last, and the requests with dependencies
that have been made outside of units, the newest first. -/
inductive Notified : List (RequestId × String) → List RequestId → Machine ν → Prop where
  | start (config : Config) (resources : Target → Option (Fetched (Script ν))) (script : Script ν) :
      Notified [] [] (start (Loader.new config resources) script)
  | configured {config : Config} {resources : Target → Option (Fetched (Script ν))} {l : Loader ν}
      (hl : Loader.ofConfig config resources = .ok l) (script : Script ν) :
      Notified [] [] (Machine.start l script)
  | step {heard : List (RequestId × String)} {outside : List RequestId} {m : Machine ν}
      (h : Notified heard outside m) :
      Notified (m.completes?.toList ++ heard) (m.asksOutside?.toList ++ outside) m.step
  | pass {heard : List (RequestId × String)} {outside : List RequestId} {m : Machine ν}
      (h : Notified heard outside m) {fetches : Fetches ν}
      (hagree : m.loader.fetches.Agree fetches) :
      Notified heard outside { m with loader := { m.loader with fetches } }
  | call {heard : List (RequestId × String)} {outside : List RequestId} {m : Machine ν}
      (h : Notified heard outside m) (script : Script ν) (hs : m.stack = []) :
      Notified heard outside { m with stack := [.body none script .plain] }

theorem Notified.reachable (h : m.Notified heard outside) : m.Reachable := by
  induction h with
  | start config resources script => exact reachable_start config resources script
  | configured hl script => exact ⟨_, ⟨_, _, _, script, .inr hl, rfl⟩, .refl⟩
  | step _ ih => exact ih.goes (.step _)
  | pass _ hagree ih => exact ih.goes (.pass _ hagree)
  | call _ script hs ih => exact ih.goes (.call script hs)

/-- Every machine that can be reached has a history. -/
theorem Reachable.notified (h : m.Reachable) : ∃ heard outside, m.Notified heard outside := by
  obtain ⟨m₀, ⟨config, resources, l, script, hl, rfl⟩, hrun⟩ := h
  induction hrun with
  | refl =>
    rcases hl with rfl | hl
    · exact ⟨_, _, .start config resources script⟩
    · exact ⟨_, _, .configured hl script⟩
  | tail _ hgo ih =>
    obtain ⟨heard, outside, ih⟩ := ih
    cases hgo with
    | step => exact ⟨_, _, ih.step⟩
    | pass hagree => exact ⟨_, _, ih.pass hagree⟩
    | call script hs => exact ⟨_, _, ih.call script hs⟩

/-- What some steps add to the history of a machine. -/
def history : Nat → Machine ν → List (RequestId × String) × List RequestId
  | 0, _ => ([], [])
  | n + 1, m =>
    if m.isDone then ([], [])
    else
      let later := history n m.step
      (later.1 ++ m.completes?.toList, later.2 ++ m.asksOutside?.toList)

theorem Notified.run (h : m.Notified heard outside) (n : Nat) :
    (Machine.run n m).Notified ((history n m).1 ++ heard) ((history n m).2 ++ outside) := by
  induction n generalizing m heard outside with
  | zero => exact h
  | succ n ih =>
    simp only [Machine.run, history]
    split
    · exact h
    · have hstep := ih h.step
      rwa [← List.append_assoc, ← List.append_assoc] at hstep

/-- A new loader has made no request, whatever its settings. -/
theorem asked_ofConfig {config : Config} {resources : Target → Option (Fetched (Script ν))}
    {l : Loader ν} (hl : Loader.ofConfig config resources = .ok l) :
    unlinked l.journal = [] ∧ linkings l.journal = [] ∧ callbacks l.journal = [] := by
  have hlinked : (Loader.new config resources).AllLinked := Linkage.init
  have hdeferring := Loader.Deferring.init config resources
  have hnone : ∀ {l' : Loader ν}, (Loader.new config resources).Drains l' →
      (Loader.new config resources).StartsNone l' →
      unlinked l'.journal = [] ∧ linkings l'.journal = [] ∧ callbacks l'.journal = [] := by
    intro l' hdrains hstarts
    have hdependents : dependents l'.journal = [] := hdrains.1
    have hlinkings : linkings l'.journal = [] := hdrains.2.elim id id
    refine ⟨?_, hlinkings, Loader.callbacks_of_startsNone hstarts⟩
    rw [unlinked, hdependents]
    rfl
  rcases Loader.ofConfig_eq_ok hl with
    ⟨_, _, rfl⟩ | ⟨base, drained, _, _, hconfigure⟩ | ⟨base, main, entry, drained, _, _, _, hboot⟩
  · exact ⟨rfl, rfl, rfl⟩
  · rw [show l = ((Loader.new config resources).configure base).2 by rw [hconfigure]]
    exact hnone (Loader.drains_configure hlinked hdeferring base) (.configure _ base)
  · rw [show l = ((Loader.new config resources).boot entry.toString (some main)).2 by rw [hboot]]
    exact hnone (Loader.drains_boot hlinked hdeferring entry.toString (some main)) (.boot _ _ _)

/-- What the history of a machine tells of its requests. -/
structure Tells (heard : List (RequestId × String)) (outside : List RequestId) (m : Machine ν) :
    Prop where
  callbacks : callbacks m.loader.journal = heard.map Prod.fst
  lined : m.loader.Lined (heardOf heard)
  outside : m.loader.Outside outside
  named : ∀ p ∈ heard, ∃ dependencies definition specifier,
    .submitted p.1 dependencies definition ∈ m.loader.journal ∧ specifier ∈ dependencies ∧
      Named m.loader.journal p.1 specifier p.2

theorem tells_start {l : Loader ν} (hunlinked : unlinked l.journal = [])
    (hlinkings : linkings l.journal = []) (hcallbacks : AsyncModule.callbacks l.journal = [])
    (hlined : l.Lined (heardOf [])) (script : Script ν) : (start l script).Tells [] [] where
  callbacks := hcallbacks
  lined := hlined
  outside := by
    show unlinked l.journal ++ (linkings l.journal).filter _ = []
    rw [hunlinked, hlinkings]
    rfl
  named p hp := by cases hp

theorem tells_step (h : m.Reachable) (ht : m.Tells heard outside) :
    m.step.Tells (m.completes?.toList ++ heard) (m.asksOutside?.toList ++ outside) where
  callbacks := by
    rw [callbacks_step h, ht.callbacks]
    cases m.completes? <;> rfl
  lined := lined_step h ht.lined
  outside := outside_step h ht.outside
  named := by
    have hlasts := (h.lasts (.single (.step m))).journal
    intro p hp
    rcases List.mem_append.mp hp with hnew | hold
    · obtain ⟨_, i, v, rest, r, hw, hr, _, hmodule⟩ :=
        completes_of_eq (Option.mem_toList.mp hnew)
      obtain ⟨r', s, hr', hs, hm⟩ := Requests.module?_eq_some_iff.mp hmodule
      rw [hr] at hr'
      cases hr'
      refine ⟨r.dependencies, r.definitionUrl, s.specifier, hlasts.mem (h.traced.made hr), ?_,
        (h.traced.named hr hs hm).suffix hlasts⟩
      exact List.mem_map_of_mem (Request.mem_slots.mpr ⟨i, hs⟩)
    · obtain ⟨dependencies, definition, specifier, hsubmitted, hmem, hnamed⟩ := ht.named p hold
      exact ⟨dependencies, definition, specifier, hlasts.mem hsubmitted, hmem,
        hnamed.suffix hlasts⟩

theorem Notified.tells (h : m.Notified heard outside) : m.Tells heard outside := by
  have hnew : ∀ config (resources : Target → Option (Fetched (Script ν))),
      (Loader.new config resources).AllLinked ∧
        (Loader.new config resources).Lined (heardOf []) :=
    fun _ _ => ⟨Linkage.init, fun _ => ⟨List.nil_subset _, .nil⟩⟩
  induction h with
  | start config resources script => exact tells_start rfl rfl rfl (hnew config resources).2 script
  | @configured config resources l hl script =>
    obtain ⟨hunlinked, hlinkings, hcallbacks⟩ := asked_ofConfig hl
    exact tells_start hunlinked hlinkings hcallbacks
      ((maintained_lined _).ofConfig (hnew config resources) hl).2 script
  | step h ih => exact tells_step h.reachable ih
  | pass _ _ ih => exact ⟨ih.callbacks, ih.lined.same rfl rfl rfl rfl, ih.outside, ih.named⟩
  | call _ _ _ ih => exact ⟨ih.callbacks, ih.lined, ih.outside, ih.named⟩

end Machine

/-! ## The order of callbacks -/

theorem pair_sublist_of_append {α : Type} {a b : α} {xs ys : List α} (ha : a ∉ xs)
    (h : [a, b].Sublist (xs ++ ys)) : [a, b].Sublist ys := by
  induction xs with
  | nil => exact h
  | cons x xs ih =>
    rw [List.mem_cons, not_or] at ha
    exact ih ha.2 (pair_sublist_of_cons ha.1 h)

/-- Two that stand in the order of a list without repetition do so in a part of it. -/
theorem pair_sublist_of_mem {α : Type} {xs ys : List α} {a b : α} (h : xs.Sublist ys)
    (hys : ys.Nodup) (ha : a ∈ xs) (hb : b ∈ xs) (hab : [a, b].Sublist ys) :
    [a, b].Sublist xs := by
  induction h with
  | slnil => cases ha
  | cons y hsub ih =>
    obtain ⟨hy, hys⟩ := List.nodup_cons.mp hys
    refine ih hys ha hb (pair_sublist_of_cons ?_ hab)
    rintro rfl
    exact hy (hsub.subset ha)
  | @cons_cons xs ys y hsub ih =>
    obtain ⟨hy, hys⟩ := List.nodup_cons.mp hys
    cases hab with
    | cons _ hab =>
      -- Neither of the two is the head, which stands before them.
      have hmem : ∀ c ∈ [a, b], c ∈ y :: xs → c ∈ xs := by
        intro c hc hcx
        refine (List.mem_cons.mp hcx).resolve_left ?_
        rintro rfl
        exact hy (hab.subset hc)
      exact (ih hys (hmem a (by simp) ha) (hmem b (by simp) hb) hab).cons y
    | cons_cons _ hb' =>
      have hbys : b ∈ ys := List.singleton_sublist.mp hb'
      have hbxs : b ∈ xs := by
        refine (List.mem_cons.mp hb).resolve_left ?_
        rintro rfl
        exact hy hbys
      exact (List.singleton_sublist.mpr hbxs).cons_cons a

/-- All dependencies of a request named the same module. -/
def NeedsOnly (j : List (Event ν)) (id : RequestId) (url : String) : Prop :=
  ∀ dependencies definition, .submitted id dependencies definition ∈ j →
    ∀ specifier ∈ dependencies, ∀ url', Named j id specifier url' → url' = url

/-- At every moment of every run: the requests that have been called back with values are those whose
last slot has been filled, in this order; the value that it got is that of a module that one of the
dependencies named, and is among those given to the callback. Those that got the value of one module
last have been called back in the order in which they were linked. And of two requests that have
been made outside of units, need only one module and have been called back, the one made first has
been called back first. -/
theorem notified_in_order {m : Machine ν} {heard : List (RequestId × String)}
    {outside : List RequestId} (h : m.Notified heard outside) (frame : Option Frame) :
    callbacks m.loader.journal = heard.map Prod.fst ∧
    (∀ id url, (id, url) ∈ heard → ∃ dependencies definition specifier values v,
      .submitted id dependencies definition ∈ m.loader.journal ∧ specifier ∈ dependencies ∧
        Named m.loader.journal id specifier url ∧ (m.loader.view frame).value url = some v ∧
          .called id values ∈ m.loader.journal ∧ v ∈ values) ∧
    (∀ url, ((heard.filter (·.2 = url)).map Prod.fst).Sublist (linkings m.loader.journal)) ∧
    ∀ url first second, [second, first].Sublist outside →
      first ∈ callbacks m.loader.journal → second ∈ callbacks m.loader.journal →
      NeedsOnly m.loader.journal first url → NeedsOnly m.loader.journal second url →
        [second, first].Sublist (callbacks m.loader.journal) := by
  have hreach := h.reachable
  have htells := h.tells
  have hnodup : (heard.map Prod.fst).Nodup := by
    rw [← htells.callbacks]
    exact hreach.accounts.orderly.nodup_calls.sublist (callbacks_sublist_calls _)
  have horder : ∀ url,
      ((heard.filter (·.2 = url)).map Prod.fst).Sublist (linkings m.loader.journal) := by
    intro url
    have hlined := (htells.lined url).sublist (List.sublist_append_left _ _)
    have hsub := hlined.reverse_sublist (List.nodup_reverse.mpr
      (hnodup.sublist (List.filter_sublist.map _))) hreach.traced.once
    rwa [Machine.heardOf, List.reverse_reverse] at hsub
  refine ⟨htells.callbacks, ?_, horder, ?_⟩
  · intro id url hmem
    obtain ⟨dependencies, definition, specifier, hsubmitted, hspecifier, hnamed⟩ :=
      htells.named _ hmem
    have hcalled : id ∈ callbacks m.loader.journal := by
      rw [htells.callbacks]
      exact List.mem_map_of_mem (f := Prod.fst) hmem
    obtain ⟨values, hcalled⟩ := mem_calls.mp ((callbacks_sublist_calls _).subset hcalled)
    obtain ⟨dependencies', definition', hsubmitted', hvalues⟩ := hreach.traced.called hcalled
    cases eq_of_nodup_filterMap hreach.accounts.orderly.nodup_submissions hsubmitted' hsubmitted
      rfl rfl
    obtain ⟨i, hi, rfl⟩ := List.getElem_of_mem hspecifier
    have hlt : i < values.length := hvalues.length_eq ▸ hi
    obtain ⟨url', ⟨resolver', ctx', t', hlinked', ht', rfl⟩, hready⟩ := hvalues.get hi hlt
    obtain ⟨resolver, ctx, t, hlinked, ht, rfl⟩ := hnamed
    obtain ⟨rfl, rfl⟩ := hreach.traced.linked_unique hlinked hlinked'
    cases Except.ok.inj (ht.symm.trans ht')
    exact ⟨dependencies, definition, dependencies[i], values, values[i], hsubmitted,
      List.getElem_mem hi, ⟨_, _, _, hlinked, ht, rfl⟩,
      (Loader.status_of_ready hready).2, hcalled, List.getElem_mem hlt⟩
  · intro url first second hmade hfirst hsecond hneeds hneeds'
    -- What they have waited for last is the one module that they need.
    have hheard : ∀ id, id ∈ callbacks m.loader.journal → NeedsOnly m.loader.journal id url →
        id ∈ (heard.filter (·.2 = url)).map Prod.fst := by
      intro id hid honly
      rw [htells.callbacks] at hid
      obtain ⟨⟨_, url'⟩, hmem, rfl⟩ := List.mem_map.mp hid
      obtain ⟨dependencies, definition, specifier, hsubmitted, hspecifier, hnamed⟩ :=
        htells.named _ hmem
      obtain rfl := honly _ _ hsubmitted specifier hspecifier url' hnamed
      exact List.mem_map_of_mem (f := Prod.fst) (List.mem_filter.mpr ⟨hmem, by simp⟩)
    have hfirst := hheard first hfirst hneeds
    have hsecond := hheard second hsecond hneeds'
    have hlinked : [second, first].Sublist (linkings m.loader.journal) := by
      rw [← show _ = outside from htells.outside] at hmade
      have hmem := (horder url).subset hsecond
      exact (pair_sublist_of_append (fun hun => by simp [unlinked, hmem] at hun) hmade).trans
        List.filter_sublist
    rw [htells.callbacks]
    exact (pair_sublist_of_mem (horder url) hreach.traced.once hsecond hfirst hlinked).trans
      (List.filter_sublist.map _)

/-- A program that needs one module three times, twice while it is loading and once afterwards. -/
def queueing : Script Unit :=
  .configure "a:/" fun _ =>
    .require ["./x.js", "x.js"] (fun _ => .finish .done) none <|
      .require ["x.js"] (fun _ => .finish .done) none <|
        .settle fun _ => .require ["./x.js"] (fun _ => .finish .done) none (.finish .done)

def queued : Machine Unit :=
  Machine.start
    (Loader.new {} fun _ => some (.code (.define []
      (fun _ => .make (.data .null) fun v => .finish (.value v)) none (.finish .done))))
    queueing

theorem notified_in_order_queued :
    callbacks (queued.run 60).loader.journal = [⟨1, 4⟩, ⟨1, 2⟩, ⟨0, 1⟩] ∧
    ([⟨1, 4⟩, ⟨1, 2⟩, ⟨0, 1⟩] : List RequestId).Sublist
      (linkings (queued.run 60).loader.journal) := by
  have hnotified := (Machine.Notified.start {} queued.loader.resources queueing).run 60
  obtain ⟨hcallbacks, _, horder, _⟩ := notified_in_order hnotified none
  have hheard : (Machine.history 60 queued).1 =
      [(⟨1, 4⟩, "a:/x.js"), (⟨1, 2⟩, "a:/x.js"), (⟨0, 1⟩, "a:/x.js")] := by decide +kernel
  have hlinked := horder "a:/x.js"
  rw [show (Machine.start (Loader.new {} queued.loader.resources) queueing) = queued from rfl,
    List.append_nil, hheard] at hcallbacks hlinked
  exact ⟨hcallbacks, hlinked⟩

end AsyncModule
