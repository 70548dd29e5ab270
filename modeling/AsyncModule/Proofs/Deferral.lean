import AsyncModule.Proofs.Acyclic
import AsyncModule.Proofs.Supply

/-!
# AsyncModule.Proofs.Deferral

Requests that are deferred. They are those that have been made and not been linked, in the order in
which they were made: none gets lost, none is settled before it is linked, and none that names no
dependencies is ever among them.

* `Loader.Links`         — what linking some requests makes of a loader.
* `Loader.Deferring`     — the invariant.
* `maintained_deferring` — everything the machine does keeps it.
-/

namespace AsyncModule

variable {ν : Type}

namespace Event

/-- The request that is made, if it names dependencies. -/
def depends? : Event ν → Option RequestId
  | submitted id (_ :: _) _ => some id
  | _ => none

end Event

/-- The requests that have been made and name dependencies. -/
def dependents (j : List (Event ν)) : List RequestId := j.filterMap Event.depends?

/-- Those that have not been linked. -/
def unlinked (j : List (Event ν)) : List RequestId :=
  (dependents j).filter fun id => id ∉ linkings j

theorem unlinked_of_linkings {j j' : List (Event ν)} {ids : List RequestId}
    (hd : dependents j' = dependents j) (hl : linkings j' = ids ++ linkings j) :
    unlinked j' = (unlinked j).filter fun id => id ∉ ids := by
  rw [unlinked, unlinked, hd, hl, List.filter_filter]
  congr 1
  funext id
  simp

theorem unlinked_of_eq {j j' : List (Event ν)} (hd : dependents j' = dependents j)
    (hl : linkings j' = linkings j) : unlinked j' = unlinked j := by
  rw [unlinked, unlinked, hd, hl]

namespace Loader

variable {l l' l'' : Loader ν} {id : RequestId} {ids ids' : List RequestId} {r : Request ν}

/-- One loader comes from another by linking requests, the last one first. -/
structure Links (ids : List RequestId) (l l' : Loader ν) : Prop where
  bootstrap : l'.bootstrap = l.bootstrap
  dependents : dependents l'.journal = dependents l.journal
  linkings : linkings l'.journal = ids ++ linkings l.journal
  failing : ∀ {id e}, .fail id e ∈ l'.worklist → .fail id e ∈ l.worklist ∨ id ∈ ids

theorem Links.trans (h : Links ids l l') (h' : Links ids' l' l'') : Links (ids' ++ ids) l l'' where
  bootstrap := h'.bootstrap.trans h.bootstrap
  dependents := h'.dependents.trans h.dependents
  linkings := by rw [h'.linkings, h.linkings, List.append_assoc]
  failing hf := by
    rcases h'.failing hf with hold | hid
    · exact (h.failing hold).imp_right (List.mem_append_right _)
    · exact .inr (List.mem_append_left _ hid)

theorem Links.attach (h : Links [id] l l') (i : Nat) (t : Target) :
    Links [id] l (l'.attach id i t) where
  bootstrap := by rw [bootstrap_attach, h.bootstrap]
  dependents := by
    rcases attach_cases l' id i t with ⟨_, hj⟩ | ⟨_, hj⟩
    · rw [hj, h.dependents]
    · rw [hj]
      exact h.dependents
  linkings := by rw [Traced.linkings_attach, h.linkings]
  failing hf := by
    rcases fail_of_attach hf with hold | ⟨rfl, _⟩
    · exact h.failing hold
    · exact .inr List.mem_cons_self

theorem Links.enqueue (h : Links [id] l l') (e : LoadError) :
    Links [id] l (l'.enqueue (.fail id e)) where
  bootstrap := h.bootstrap
  dependents := h.dependents
  linkings := h.linkings
  failing hf := by
    rcases List.mem_append.mp hf with hold | hnew
    · exact h.failing hold
    · cases List.mem_singleton.mp hnew
      exact .inr List.mem_cons_self

theorem links_link (hr : l.requests.get? id = some r) (ctx : Context) :
    Links [id] l (l.link id ctx) := by
  unfold link
  rw [hr]
  dsimp only
  have hstart : Links [id] l (record { l with
      requests := l.requests.modify id fun r => { r with context := some ctx } }
        (.linked id l.resolver ctx)) := ⟨rfl, rfl, rfl, .inl⟩
  rcases linkSlots_cases (Q := fun _ l' => Links [id] l l') (fun hq _ _ => hq.attach _ _)
    r.dependencies.zipIdx hstart with hdone | ⟨_, _, _, l', e, hq, _, heq⟩
  · exact hdone
  · rw [heq]
    exact hq.enqueue e

theorem links_linkAll (ctx : Context) (ids : List RequestId) :
    ∀ {l : Loader ν}, ids.Nodup → (∀ id ∈ ids, ∃ r, l.requests.get? id = some r) →
      Links ids.reverse l (ids.foldl (fun l id => l.link id ctx) l) := by
  induction ids with
  | nil => exact fun _ _ => ⟨rfl, rfl, rfl, .inl⟩
  | cons id rest ih =>
    intro l hnodup hall
    obtain ⟨hnot, hnodup⟩ := List.nodup_cons.mp hnodup
    obtain ⟨r, hr⟩ := hall id List.mem_cons_self
    rw [List.reverse_cons, List.foldl_cons]
    refine (links_link hr ctx).trans (ih hnodup ?_)
    intro id' hid'
    obtain ⟨r', hr'⟩ := hall id' (List.mem_cons_of_mem _ hid')
    have hne : id' ≠ id := fun heq => hnot (heq ▸ hid')
    exact ⟨r', by rw [get?_link_of_ne hne, hr']⟩

/-- What is deferred is what has not been linked, and what is about to fail has been. -/
structure Deferring (l : Loader ν) : Prop where
  order : l.bootstrap.deferred = (unlinked l.journal).reverse
  failing : ∀ {id e}, .fail id e ∈ l.worklist → id ∈ linkings l.journal

namespace Deferring

theorem init (config : Config) (resources : Target → Option (Fetched (Script ν))) :
    (Loader.new config resources).Deferring where
  order := rfl
  failing hf := by cases hf

/-- Whatever makes no request and links none. -/
theorem keep (h : l.Deferring) (hb : l'.bootstrap.deferred = l.bootstrap.deferred)
    (hd : dependents l'.journal = dependents l.journal)
    (hl : linkings l'.journal = linkings l.journal)
    (hw : ∀ id e, .fail id e ∈ l'.worklist →
      .fail id e ∈ l.worklist ∨ id ∈ linkings l.journal) : l'.Deferring where
  order := by rw [hb, unlinked_of_eq hd hl, h.order]
  failing {id e} hf := by
    rw [hl]
    rcases hw id e hf with hold | hid
    · exact h.failing hold
    · exact hid

theorem same (h : l.Deferring) (hb : l'.bootstrap = l.bootstrap) (hj : l'.journal = l.journal)
    (hw : l'.worklist ⊆ l.worklist) : l'.Deferring :=
  h.keep (by rw [hb]) (by rw [hj]) (by rw [hj]) fun _ _ hf => .inl (hw hf)

theorem record (h : l.Deferring) {e : Event ν} (hd : e.depends? = none) (hl : e.linked? = none) :
    (l.record e).Deferring :=
  h.keep rfl (List.filterMap_cons_none hd) (List.filterMap_cons_none hl) fun _ _ => .inl

/-- Requests that have been linked are not deferred any more. -/
theorem links (h : Links ids l l')
    (ho : l.bootstrap.deferred = ((unlinked l.journal).filter fun id => id ∉ ids).reverse)
    (hf : ∀ {id e}, .fail id e ∈ l.worklist → id ∈ linkings l.journal) : l'.Deferring where
  order := by rw [h.bootstrap, ho, unlinked_of_linkings h.dependents h.linkings]
  failing hfail := by
    rw [h.linkings]
    rcases h.failing hfail with hold | hid
    · exact List.mem_append_right _ (hf hold)
    · exact List.mem_append_left _ hid

theorem not_mem_unlinked (h : l.Deferring) (hlinked : l.AllLinked)
    (hid : ¬ l.requests.Issued id) : id ∉ unlinked l.journal := by
  intro hmem
  have hdeferred : id ∈ l.bootstrap.deferred := by rwa [h.order, List.mem_reverse]
  obtain ⟨r, hr, _⟩ := hlinked.deferred hdeferred
  exact hid (Requests.issued_of_get? hr)

theorem unlinked_enter (htraced : l.Traced) (hne : r.slots ≠ []) :
    unlinked (l.enter r).2.journal = (l.enter r).1 :: unlinked l.journal := by
  have hnew : (l.enter r).1 ∉ AsyncModule.linkings l.journal :=
    fun hid => not_issued_enter l r (htraced.issued hid)
  have hdependents : AsyncModule.dependents (l.enter r).2.journal =
      (l.enter r).1 :: AsyncModule.dependents l.journal := by
    have hdeps : r.dependencies ≠ [] := by simpa [Request.dependencies] using hne
    obtain ⟨specifier, rest, heq⟩ := List.exists_cons_of_ne_nil hdeps
    refine List.filterMap_cons_some ?_
    rw [heq]
    rfl
  have hlinkings : AsyncModule.linkings (l.enter r).2.journal = AsyncModule.linkings l.journal :=
    rfl
  rw [unlinked, hdependents, hlinkings, List.filter_cons_of_pos (by simpa using hnew), unlinked]

theorem submit (h : l.Deferring) (hlinked : l.AllLinked) (htraced : l.Traced)
    (frame : Option Frame) (dependencies : List String) (callback : List ModuleValue → Script ν)
    (errback : Option (LoadError → Script ν)) (definitionUrl : Option String) :
    (l.submit frame dependencies callback errback definitionUrl).Deferring := by
  unfold Loader.submit
  generalize Request.ofCall dependencies callback errback (l.context? frame) definitionUrl = r
  have hunlinked := unlinked_enter htraced (r := r)
  have hnew := h.not_mem_unlinked hlinked (not_issued_enter l r)
  dsimp only
  unfold Loader.begin
  split
  -- Without dependencies the request goes into the worklist, and is nothing to be linked.
  · rename_i he
    have hdeps : r.dependencies = [] := by simpa [Request.dependencies] using he
    refine h.keep rfl (List.filterMap_cons_none ?_) rfl ?_
    · rw [hdeps]
      rfl
    · intro id e hf
      exact .inl ((List.mem_append.mp hf).resolve_right (by simp))
  · rename_i he
    have hunlinked := hunlinked fun heq => he (by rw [heq]; rfl)
    split
    · refine links (links_link (get?_enter_self l r) _) ?_ h.failing
      rw [hunlinked, List.filter_cons_of_neg (by simp)]
      refine h.order.trans (congrArg _ (List.filter_eq_self.mpr ?_).symm)
      intro id hid
      have hne : id ≠ (l.enter r).1 := fun heq => hnew (heq ▸ hid)
      simpa using hne
    · refine ⟨?_, h.failing⟩
      show l.bootstrap.deferred ++ [(l.enter r).1] = (unlinked (l.enter r).2.journal).reverse
      rw [hunlinked, List.reverse_cons, h.order]

theorem afterEstablishing (h : l.Deferring) (hlinked : l.AllLinked) {change : Bool × Bootstrap}
    (hd : change.2.deferred = l.bootstrap.deferred) :
    (l.afterEstablishing change).2.Deferring := by
  have h1 : Deferring { l with bootstrap := change.2 } := ⟨hd.trans h.order, h.failing⟩
  unfold Loader.afterEstablishing
  dsimp only
  split
  · unfold Loader.drainDeferred
    split
    · exact h1
    · rename_i ctx _
      dsimp only
      rw [hd]
      refine links (links_linkAll ctx l.bootstrap.deferred hlinked.deferred_nodup ?_) ?_ h.failing
      · intro id hid
        obtain ⟨r, hr, _⟩ := hlinked.deferred hid
        exact ⟨r, hr⟩
      · symm
        rw [List.reverse_eq_nil_iff, List.filter_eq_nil_iff]
        intro id hid
        have hid : id ∈ unlinked l.journal := hid
        rw [h.order, List.reverse_reverse]
        simpa using hid
  · exact h1

theorem finishMain (h : l.Deferring) (hlinked : l.AllLinked) (t : Target) :
    (l.finishMain t).Deferring := by
  unfold Loader.finishMain
  dsimp only
  split
  · exact h.afterEstablishing hlinked (Bootstrap.deferred_finishEstablishing _ _)
  · exact h

/-- Whoever waits for a module has been linked to it. -/
theorem mem_linkings_of_waiter (hlinked : l.AllLinked) (htraced : l.Traced) {url : String}
    {w : Waiter} (hw : w ∈ l.registry.waiters url) :
    w.request ∈ AsyncModule.linkings l.journal := by
  obtain ⟨_, r, s, hr, hs, hm, _⟩ := hlinked.waiter hw
  obtain ⟨resolver, ctx, _, hmem, _⟩ := htraced.named hr hs hm
  exact List.mem_filterMap.mpr ⟨_, hmem, rfl⟩

theorem abandonModule (h : l.Deferring) (hlinked : l.AllLinked) (htraced : l.Traced)
    (url : String) (e : LoadError) : (l.abandonModule url e).Deferring := by
  refine h.keep rfl rfl rfl ?_
  intro id e' hf
  rcases List.mem_append.mp hf with hold | hnew
  · exact .inl hold
  · obtain ⟨w, hw, heq⟩ := List.mem_map.mp hnew
    cases heq
    have hw := Registry.mem_waiters_of_settle hw
    rw [Registry.waiters_setDefinition] at hw
    exact .inr (mem_linkings_of_waiter hlinked htraced hw)

theorem readyModule (h : l.Deferring) (url : String) (v : ModuleValue) :
    (l.readyModule url v).Deferring := by
  refine h.keep rfl rfl rfl ?_
  intro id e hf
  refine .inl ((List.mem_append.mp hf).resolve_right ?_)
  intro hnew
  obtain ⟨w, _, heq⟩ := List.mem_map.mp hnew
  cases heq

theorem rest (h : l.Deferring) {s : Step} {rest : List Step} (hw : l.worklist = s :: rest) :
    Deferring { l with worklist := rest } :=
  h.same rfl rfl (by rw [hw]; exact List.subset_cons_self s rest)

/-- A request that is taken out is not deferred. -/
theorem withdraw (h : l.Deferring) (hid : id ∉ l.bootstrap.deferred) (r : Request ν) :
    (l.withdraw id r).Deferring := by
  refine h.keep (List.filter_eq_self.mpr ?_) rfl rfl fun _ _ => .inl
  intro id' hid'
  have hne : id' ≠ id := fun heq => hid (heq ▸ hid')
  simpa using hne

end Deferring
end Loader

theorem maintained_traced_defining :
    Maintained fun (l : Loader ν) _ => (l.AllLinked ∧ l.Traced) ∧ l.WellDefining :=
  maintained_traced.and maintained_defining

open Loader in
theorem maintained_deferring : Maintained fun (l : Loader ν) _ =>
    ((l.AllLinked ∧ l.Traced) ∧ l.WellDefining) ∧ l.Deferring where
  aside {l k e} h ha := by
    refine ⟨maintained_traced_defining.aside (k := k) h.1 ha, h.2.record ?_ ?_⟩
    · cases e <;> first | rfl | cases ha
    · cases e <;> first | rfl | cases ha
  make {_ k} payload h := ⟨maintained_traced_defining.make (k := k) payload h.1,
    h.2.same rfl rfl (List.Subset.refl _)⟩
  fetches {_ k _} h ha := ⟨maintained_traced_defining.fetches (k := k) h.1 ha,
    h.2.same rfl rfl (List.Subset.refl _)⟩
  arrive {l k f result fs} h htake :=
    ⟨maintained_traced_defining.arrive (k := k) h.1 htake,
      (h.2.record (e := .arrived f.target f.role) rfl rfl).same rfl rfl (List.Subset.refl _)⟩
  enter {_ k _ _} role h hj :=
    ⟨maintained_traced_defining.enter (k := k) role h.1 hj, h.2.record rfl rfl⟩
  require {_ k} frame dependencies callback errback h :=
    ⟨maintained_traced_defining.require (k := k) frame dependencies callback errback h.1,
      h.2.submit h.1.1.1 h.1.1.2 frame dependencies callback errback none⟩
  define {_ k _} ctx defined dependencies factory errback h :=
    ⟨maintained_traced_defining.define (k := k) ctx defined dependencies factory errback h.1,
      h.2.submit h.1.1.1 h.1.1.2 _ dependencies factory errback _⟩
  unwatch h := h
  setDefaultBase {_ k} base h := ⟨maintained_traced_defining.setDefaultBase (k := k) base h.1,
    h.2.same rfl rfl (List.Subset.refl _)⟩
  establish {_ k} ctx h := ⟨maintained_traced_defining.establish (k := k) ctx h.1,
    h.2.afterEstablishing h.1.1.1 (Bootstrap.deferred_establish _ ctx)⟩
  beginMain {_ k _} root t h hd := ⟨maintained_traced_defining.beginMain (k := k) root t h.1 hd,
    h.2.keep rfl rfl rfl fun _ _ => .inl⟩
  finishMain {_ k} t h := ⟨maintained_traced_defining.finishMain (k := k) t h.1,
    h.2.finishMain h.1.1.1 t⟩
  ready {_ k _} v h := ⟨maintained_traced_defining.ready (k := k) v h.1, h.2.readyModule _ v⟩
  abandon {_ k _ _} e h hm hd := ⟨maintained_traced_defining.abandon (k := k) e h.1 hm hd,
    h.2.abandonModule h.1.1.1 h.1.1.2 _ e⟩
  abandonDefinition {l k d url id r} e h hm hd hr := by
    have habandon := h.2.abandonModule h.1.1.1 h.1.1.2 url e
    have hid : id ∉ l.bootstrap.deferred := by
      intro hmem
      obtain ⟨r', hr', _, hnone, _⟩ := h.1.1.1.deferred hmem
      rw [hr] at hr'
      cases hr'
      rw [h.1.2.bound hd hr] at hnone
      cases hnone
    exact ⟨maintained_traced_defining.abandonDefinition (k := k) e h.1 hm hd hr,
      (habandon.withdraw hid r).record rfl rfl⟩
  finish {_ k _ _ _} h ho :=
    ⟨maintained_traced_defining.finish (k := k) h.1 ho, h.2.record rfl rfl⟩
  fault {_ k _ _ _ _} h he := ⟨maintained_traced_defining.fault (k := k) h.1 he,
    (h.2.record rfl rfl).record rfl rfl⟩
  handle {_ k _ _ _} h hj :=
    ⟨maintained_traced_defining.handle (k := k) h.1 hj, h.2.record rfl rfl⟩
  dispatch {_ k} h hd := ⟨maintained_traced_defining.dispatch (k := k) h.1 hd,
    h.2.same rfl rfl (List.Subset.refl _)⟩
  redispatch h _ := h
  drained {_ k} h hw := ⟨maintained_traced_defining.drained (k := k) h.1 hw,
    h.2.same rfl rfl (List.Subset.refl _)⟩
  dead {l k s rest} h hw hr :=
    ⟨maintained_traced_defining.dead (k := k) h.1 hw hr, h.2.rest hw⟩
  fill {l k id i v rest r} h hw hr hs :=
    ⟨maintained_traced_defining.fill (k := k) h.1 hw hr hs,
      (h.2.rest hw).same rfl rfl (List.Subset.refl _)⟩
  fillFire {l k id i v rest r} h hw hr hs :=
    ⟨maintained_traced_defining.fillFire (k := k) h.1 hw hr hs,
      (h.2.rest hw).keep rfl rfl rfl fun _ _ => .inl⟩
  fire {l k id rest r} h hw hr :=
    ⟨maintained_traced_defining.fire (k := k) h.1 hw hr,
      (h.2.rest hw).keep rfl rfl rfl fun _ _ => .inl⟩
  fail {l k id e rest r} h hw hr := by
    have hlinked : id ∈ linkings l.journal :=
      h.2.failing (e := e) (by rw [hw]; exact List.mem_cons_self)
    have hid : id ∉ l.bootstrap.deferred := fun hmem => h.1.1.2.unlinked hmem hlinked
    exact ⟨maintained_traced_defining.fail (k := k) h.1 hw hr,
      ((h.2.rest hw).withdraw hid r).record rfl rfl⟩

theorem Machine.Reachable.deferring {m : Machine ν} (h : m.Reachable) : m.loader.Deferring :=
  (maintained_deferring.reachable (fun config resources =>
    ⟨⟨⟨Linkage.init, .init config resources⟩, Defining.init⟩, .init config resources⟩) h).2

end AsyncModule
