import AsyncModule.Proofs.Circles
import AsyncModule.Proofs.Deeds
import AsyncModule.Proofs.Draining
import AsyncModule.Proofs.Dropped
import AsyncModule.Proofs.Supply

/-!
# AsyncModule.Proofs.Blame

Why requests are about to fail. A request fails on account of a module only if it is linked to that
module, which has failed with the very error that is passed on; and it fails on any other account
only because linking it has stopped at one of its specifiers.

* `Stopped`            — linking a request has stopped with an error.
* `Loader.Blaming`     — the invariant: whatever is about to fail has one of the two reasons.
* `maintained_blaming` — everything the machine does keeps it.
* `stops_step`         — a request that linking has stopped at is linked by that very step.
-/

namespace AsyncModule

variable {ν : Type}

theorem LoadError.IsUnresolved.not_isDependency {e : LoadError} (h : e.IsUnresolved) :
    ¬ e.IsDependency := by
  cases e with
  | unresolved specifier reason => exact id
  | _ => cases h

/-- Linking a request has stopped at one of its specifiers. The specifier names nothing in the
context of the request; or the request is a definition, and it names a module over which the
definition would wait for itself. -/
inductive Stopped (j : List (Event ν)) (id : RequestId) : LoadError → Prop where
  | unresolved {dependencies : List String} {definition : Option String} {resolver : Resolver}
      {ctx : Context} {specifier : String} {e : LoadError}
      (hmade : .submitted id dependencies definition ∈ j) (hlinked : .linked id resolver ctx ∈ j)
      (hmem : specifier ∈ dependencies) (he : resolver.resolve specifier ctx = .error e) :
      Stopped j id e
  | circle {dependencies : List String} {url : String} {resolver : Resolver} {ctx : Context}
      {specifier : String} {t : Target} {g : Registry} {rs : Requests ν} {chain : List String}
      (hmade : .submitted id dependencies (some url) ∈ j) (hlinked : .linked id resolver ctx ∈ j)
      (hmem : specifier ∈ dependencies) (ht : resolver.resolve specifier ctx = .ok t)
      (hchain : g.findCycle rs url t.key = some chain) : Stopped j id (.cycle chain)

namespace Stopped

variable {j j' : List (Event ν)} {id : RequestId} {e : LoadError}

theorem suffix (h : Stopped j id e) (hj : j <:+ j') : Stopped j' id e := by
  cases h with
  | unresolved hmade hlinked hmem he =>
    exact .unresolved (hj.mem hmade) (hj.mem hlinked) hmem he
  | circle hmade hlinked hmem ht hchain =>
    exact .circle (hj.mem hmade) (hj.mem hlinked) hmem ht hchain

theorem not_isDependency (h : Stopped j id e) : ¬ e.IsDependency := by
  cases h with
  | unresolved _ _ _ he => exact (Resolver.isUnresolved_of_resolve he).not_isDependency
  | circle => exact fun hd => hd

end Stopped

theorem Request.modules_link (r : Request ν) {i : Nat} (url : String)
    (h : ∀ s, r.slot? i = some s → s.module = none) : r.modules ⊆ (r.link i url).modules := by
  intro u hu
  obtain ⟨j, s, hs, hm⟩ := mem_modules.mp hu
  have hj : j ≠ i := by
    rintro rfl
    rw [h s hs] at hm
    cases hm
  refine mem_modules.mpr ⟨j, s, ?_, hm⟩
  rw [slot?_link, hs, Option.map_some, if_neg hj]

theorem Request.modules_fill (r : Request ν) (i : Nat) (v : ModuleValue) :
    r.modules ⊆ (r.fill i v).modules := by
  intro u hu
  obtain ⟨j, s, hs, hm⟩ := mem_modules.mp hu
  refine mem_modules.mpr ⟨j, _, by rw [slot?_fill, hs, Option.map_some], ?_⟩
  split <;> exact hm

namespace Loader

/-- Why a request is about to fail with an error. -/
inductive Due (l : Loader ν) (id : RequestId) : LoadError → Prop where
  /-- For a module that it is linked to, and that has failed so. -/
  | blamed {url : String} {e : LoadError} (hfailed : l.registry.state? url = some (.failed e))
      (hlinked : ∀ r, l.requests.get? id = some r → url ∈ r.modules) :
      Due l id (.dependency url e)
  | stopped {e : LoadError} (h : Stopped l.journal id e) : Due l id e

/-- Whatever is about to fail is so for a reason. -/
structure Blaming (l : Loader ν) : Prop where
  due : ∀ {id e}, .fail id e ∈ l.worklist → l.Due id e

variable {l l' : Loader ν} {id : RequestId} {r : Request ν} {url : String} {e : LoadError}

/-- The links of a live request stay. -/
def KeepsLinks (l l' : Loader ν) (id : RequestId) : Prop :=
  ∀ r', l'.requests.get? id = some r' →
    ∃ r, l.requests.get? id = some r ∧ r.modules ⊆ r'.modules

theorem Due.keep (h : l.Due id e) (hl : l.Lasts l') (hlinks : l.KeepsLinks l' id) :
    l'.Due id e := by
  cases h with
  | blamed hfailed hlinked =>
    refine .blamed (hl.settled hfailed rfl) fun r' hr' => ?_
    obtain ⟨r, hr, hsub⟩ := hlinks r' hr'
    exact hsub (hlinked r hr)
  | stopped h => exact .stopped (h.suffix hl.journal)

theorem keepsLinks_modify (l : Loader ν) (id id' : RequestId) {f : Request ν → Request ν}
    (hf : ∀ r, l.requests.get? id = some r → r.modules ⊆ (f r).modules)
    (hl : l'.requests = l.requests.modify id f) : l.KeepsLinks l' id' := by
  intro r' hr'
  rw [hl] at hr'
  rcases Requests.get?_modify_eq_some hr' with ⟨rfl, r, hr, rfl⟩ | ⟨_, hr⟩
  · exact ⟨r, hr, hf r hr⟩
  · exact ⟨r', hr, List.Subset.refl _⟩

/-- A module that fails fails whoever waits for it. -/
theorem fail_of_abandonModule {e' : LoadError}
    (h : .fail id e' ∈ (l.abandonModule url e).worklist) : .fail id e' ∈ l.worklist ∨
      ∃ w ∈ l.registry.waiters url, id = w.request ∧ e' = .dependency url e := by
  rcases List.mem_append.mp h with hold | hnew
  · exact .inl hold
  · obtain ⟨w, hw, heq⟩ := List.mem_map.mp hnew
    cases heq
    have hmem := Registry.mem_waiters_of_settle hw
    rw [Registry.waiters_setDefinition] at hmem
    exact .inr ⟨w, hmem, rfl, rfl⟩

/-! ### Linking one request -/

/-- The slot that is linked next is linked to nothing. -/
theorem Reaches.slot {l₀ : Loader ν} {ctx : Context} {dependencies : List String} {n : Nat}
    {specifier : String} (h : Reaches l₀ ctx id dependencies n l)
    (hn : dependencies[n]? = some specifier) :
    ∃ r s, l.requests.get? id = some r ∧ r.slot? n = some s ∧ s.module = none := by
  obtain ⟨r, hr, rfl, hlinked⟩ := h.live
  rw [Request.dependencies, List.getElem?_map] at hn
  obtain ⟨s, hs, _⟩ := Option.map_eq_some_iff.mp hn
  exact ⟨r, s, hr, hs, hlinked.unlinked hs (Nat.le_refl n)⟩

theorem Reaches.stopped {ctx : Context} {dependencies : List String} {n : Nat}
    {specifier : String} {definition : Option String}
    (h : Reaches (l.record (.linked id l.resolver ctx)) ctx id dependencies n l')
    (hmade : .submitted id dependencies definition ∈ l.journal)
    (hn : dependencies[n]? = some specifier) (hstop : Stop l' ctx definition specifier e) :
    Stopped l'.journal id e := by
  obtain ⟨_, _, hj⟩ := h.loaded
  have hsuffix : (l.record (.linked id l.resolver ctx)).journal <:+ l'.journal :=
    hj ▸ List.suffix_append _ _
  have hlinked : .linked id l.resolver ctx ∈ l'.journal := hsuffix.mem List.mem_cons_self
  have hmade' := hsuffix.mem (List.mem_cons_of_mem _ hmade)
  have hmem := List.mem_of_getElem? hn
  cases hstop with
  | unresolved he =>
    rw [h.resolver] at he
    exact .unresolved hmade' hlinked hmem he
  | cycle ht hd hc =>
    subst hd
    rw [h.resolver] at ht
    exact .circle hmade' hlinked hmem ht hc

namespace Blaming

theorem keep (h : l.Blaming) (hl : l.Lasts l')
    (hlinks : ∀ {id e}, .fail id e ∈ l.worklist → l.KeepsLinks l' id)
    (hwork : ∀ {id e}, .fail id e ∈ l'.worklist → .fail id e ∈ l.worklist ∨ l'.Due id e) :
    l'.Blaming where
  due hf := by
    rcases hwork hf with hold | hdue
    · exact (h.due hold).keep hl (hlinks hold)
    · exact hdue

/-- Live requests stay as they are, and nothing else is about to fail. -/
theorem same (h : l.Blaming) (hl : l.Lasts l')
    (hlive : ∀ id r, l'.requests.get? id = some r → l.requests.get? id = some r)
    (hwork : ∀ {id e}, .fail id e ∈ l'.worklist → .fail id e ∈ l.worklist) : l'.Blaming :=
  h.keep hl (fun _ r hr => ⟨r, hlive _ r hr, List.Subset.refl _⟩) fun hf => .inl (hwork hf)

theorem record (h : l.Blaming) (event : Event ν) : (l.record event).Blaming :=
  h.same ((Lasts.refl l).record event) (fun _ _ hr => hr) fun hf => hf

theorem rest (h : l.Blaming) {s : Step} {rest : List Step} (hw : l.worklist = s :: rest) :
    Blaming { l with worklist := rest } := by
  refine h.same (.of_state? List.suffix_rfl fun _ => rfl) (fun _ _ hr => hr) fun hf => ?_
  rw [hw]
  exact List.mem_cons_of_mem _ hf

theorem modify (h : l.Blaming) (id : RequestId) {f : Request ν → Request ν}
    (hf : ∀ r : Request ν, r.modules ⊆ (f r).modules) :
    Blaming { l with requests := l.requests.modify id f } :=
  h.keep (.of_state? List.suffix_rfl fun _ => rfl)
    (fun _ => keepsLinks_modify l id _ (fun r _ => hf r) rfl) .inl

theorem erase (h : l.Blaming) (id : RequestId) :
    Blaming { l with requests := l.requests.erase id } := by
  refine h.same (.of_state? List.suffix_rfl fun _ => rfl) (fun id' r hr => ?_) fun hf => hf
  have hr : (l.requests.erase id).get? id' = some r := hr
  rw [Requests.get?_erase] at hr
  split at hr
  · cases hr
  · exact hr

theorem withdraw (h : l.Blaming) (id : RequestId) (r : Request ν) : (l.withdraw id r).Blaming :=
  (h.erase id).same (.of_state? List.suffix_rfl (state?_foldl_dropWaiters r.modules _ id))
    (fun _ _ hr => hr) fun hf => hf

/-! ### Settling modules -/

theorem readyModule (h : l.Blaming) (url : String) (v : ModuleValue) :
    (l.readyModule url v).Blaming := by
  refine h.same (.readyModule l url v) (fun _ _ hr => hr) fun hf => ?_
  exact (List.mem_append.mp hf).resolve_right (by simp)

/-- Whoever waits for a module that fails is linked to it. -/
theorem abandonModule (h : l.Blaming) (hlinked : l.AllLinked) (url : String) (e : LoadError) :
    (l.abandonModule url e).Blaming := by
  refine h.keep (.abandonModule l url e) (fun _ r hr => ⟨r, hr, List.Subset.refl _⟩) ?_
  intro id e' hf
  rcases fail_of_abandonModule hf with hold | ⟨w, hw, rfl, rfl⟩
  · exact .inl hold
  · obtain ⟨hloading, r, s, hr, hs, hm, _⟩ := hlinked.waiter hw
    refine .inr (.blamed (Machine.state?_abandonModule hloading e) fun r' hr' => ?_)
    have hr' : l.requests.get? w.request = some r' := hr'
    rw [hr] at hr'
    cases hr'
    exact Request.mem_modules.mpr ⟨_, s, hs, hm⟩

/-! ### Linking -/

theorem attach (h : l.Blaming) {i : Nat} {s : Slot} {t : Target}
    (hr : l.requests.get? id = some r) (hs : r.slot? i = some s) (hm : s.module = none) :
    (l.attach id i t).Blaming := by
  have hlinks : ∀ {id'}, l.KeepsLinks (l.attach id i t) id' := by
    intro id'
    refine keepsLinks_modify l id id' (fun r' hr' => ?_) (requests_attach l id i t)
    rw [hr] at hr'
    cases hr'
    refine r.modules_link t.key fun s' hs' => ?_
    rw [hs] at hs'
    cases hs'
    exact hm
  refine h.keep (.attach l id i t) (fun _ => hlinks) fun hf => ?_
  rcases l.registry.open_or_settled t.key with ho | ⟨v, hv⟩ | ⟨e, he⟩
  · rw [(attach_open id i ho).1] at hf
    exact .inl hf
  · rw [(attach_ready id i hv).2] at hf
    exact .inl ((List.mem_append.mp hf).resolve_right (by simp))
  · rw [(attach_failed id i he).2] at hf
    rcases List.mem_append.mp hf with hold | hnew
    · exact .inl hold
    · cases List.mem_singleton.mp hnew
      refine .inr (.blamed ((Lasts.attach l id i t).settled he rfl) fun r' hr' => ?_)
      rw [requests_attach, Requests.get?_modify_self _ hr] at hr'
      cases hr'
      refine Request.mem_modules.mpr ⟨i, { s with module := some t.key }, ?_, rfl⟩
      rw [Request.slot?_link, hs, Option.map_some, if_pos rfl]

theorem enqueue (h : l.Blaming) (hdue : l.Due id e) : (l.enqueue (.fail id e)).Blaming := by
  refine h.keep (.of_state? List.suffix_rfl fun _ => rfl)
    (fun _ r hr => ⟨r, hr, List.Subset.refl _⟩) fun hf => ?_
  rcases List.mem_append.mp hf with hold | hnew
  · exact .inl hold
  · cases List.mem_singleton.mp hnew
    exact .inr (hdue.keep (.of_state? List.suffix_rfl fun _ => rfl)
      fun r hr => ⟨r, hr, List.Subset.refl _⟩)

/-- A request is linked, up to where linking stops. -/
theorem link (h : l.Blaming) (hr : l.requests.get? id = some r) (hun : Unlinked r)
    (hmade : .submitted id r.dependencies r.definitionUrl ∈ l.journal) (ctx : Context) :
    (l.link id ctx).Blaming := by
  have hset := h.modify id (f := fun r => { r with context := some ctx })
    fun _ => List.Subset.refl _
  have hnext : ∀ {n specifier} {l' : Loader ν} {t},
      l'.Blaming ∧ Reaches (l.record (.linked id l.resolver ctx)) ctx id r.dependencies n l' →
      r.dependencies[n]? = some specifier → l'.resolver.resolve specifier ctx = .ok t →
      (l'.attach id n t).Blaming ∧
        Reaches (l.record (.linked id l.resolver ctx)) ctx id r.dependencies (n + 1)
          (l'.attach id n t) := by
    intro n specifier l' t hR hn ht
    obtain ⟨r', s, hr', hs, hm⟩ := hR.2.slot hn
    exact ⟨hR.1.attach hr' hs hm, hR.2.attach hn ht⟩
  unfold Loader.link
  rw [hr]
  dsimp only
  obtain ⟨n, l', ⟨hblaming, hreaches⟩, ⟨_, heq⟩ | ⟨specifier, e, hn, hstop, heq⟩⟩ :=
    linkSlots_upTo (fun hR hn ht _ => hnext hR hn ht)
      ⟨hset.record _, reaches_linked hr hun ctx⟩
  · rw [heq]
    exact hblaming
  · rw [heq]
    exact hblaming.enqueue (.stopped (hreaches.stopped hmade hn hstop))

/-- Requests that are linked to nothing are linked one after the other. -/
theorem linkAll (ctx : Context) (ids : List RequestId) :
    ∀ {l : Loader ν}, l.Blaming → ids.Nodup →
      (∀ id ∈ ids, ∃ r, l.requests.get? id = some r ∧ Unlinked r ∧
        .submitted id r.dependencies r.definitionUrl ∈ l.journal) →
      (ids.foldl (fun l id => l.link id ctx) l).Blaming := by
  induction ids with
  | nil => exact fun h _ _ => h
  | cons id rest ih =>
    intro l h hnodup hall
    obtain ⟨hnot, hnodup⟩ := List.nodup_cons.mp hnodup
    obtain ⟨r, hr, hun, hmade⟩ := hall id List.mem_cons_self
    have hlasts : l.Lasts (l.link id ctx) := (Lasts.keptByLinking l).link (.refl l) id ctx
    rw [List.foldl_cons]
    refine ih (h.link hr hun hmade ctx) hnodup fun id' hid' => ?_
    obtain ⟨r', hr', hun', hmade'⟩ := hall id' (List.mem_cons_of_mem _ hid')
    have hne : id' ≠ id := fun heq => hnot (heq ▸ hid')
    exact ⟨r', by rw [get?_link_of_ne hne, hr'], hun', hlasts.journal.mem hmade'⟩

theorem afterEstablishing (h : l.Blaming) (hlinked : l.AllLinked) (htraced : l.Traced)
    {change : Bool × Bootstrap} (hd : change.2.deferred = l.bootstrap.deferred) :
    (l.afterEstablishing change).2.Blaming := by
  have hset : ∀ b, Blaming { l with bootstrap := b } := fun b =>
    h.same (.of_state? List.suffix_rfl fun _ => rfl) (fun _ _ hr => hr) fun hf => hf
  unfold Loader.afterEstablishing
  dsimp only
  split
  · unfold Loader.drainDeferred
    split
    · exact hset _
    · dsimp only
      rw [hd]
      refine linkAll _ _ (hset _) hlinked.deferred_nodup fun id hid => ?_
      obtain ⟨r, hr, _, _, hm⟩ := hlinked.deferred hid
      exact ⟨r, hr, fun s hs => ⟨hm s hs, hlinked.value_of_deferred hid hr hs⟩, htraced.made hr⟩
  · exact hset _

theorem finishMain (h : l.Blaming) (hlinked : l.AllLinked) (htraced : l.Traced) (t : Target) :
    (l.finishMain t).Blaming := by
  unfold Loader.finishMain
  dsimp only
  split
  · exact h.afterEstablishing hlinked htraced (Bootstrap.deferred_finishEstablishing _ _)
  · exact h

/-! ### Making requests -/

/-- Nothing is about to fail a request that has not been made before. -/
theorem enter (h : l.Blaming) (hlinked : l.AllLinked) (r : Request ν) : (l.enter r).2.Blaming := by
  refine h.keep (.enter l r) (fun {id e} hf r' hr' => ?_) .inl
  have hissued : l.requests.Issued id := hlinked.issued hf
  rcases Requests.get?_insert_eq_some hr' with ⟨rfl, _⟩ | hold
  · exact absurd hissued (not_issued_enter l r)
  · exact ⟨r', hold, List.Subset.refl _⟩

theorem submit (h : l.Blaming) (hlinked : l.AllLinked) (frame : Option Frame)
    (dependencies : List String) (callback : List ModuleValue → Script ν)
    (errback : Option (LoadError → Script ν)) (definitionUrl : Option String) :
    (l.submit frame dependencies callback errback definitionUrl).Blaming := by
  unfold Loader.submit
  generalize hr : Request.ofCall dependencies callback errback (l.context? frame) definitionUrl = r
  have hun : Unlinked r := hr ▸ unlinked_ofCall _ _ _ _ _
  have henter := h.enter hlinked r
  dsimp only
  unfold Loader.begin
  split
  · refine henter.same (.of_state? List.suffix_rfl fun _ => rfl) (fun _ _ hr => hr) fun hf => ?_
    exact (List.mem_append.mp hf).resolve_right (by simp)
  · split
    · exact henter.link (get?_enter_self l r) hun List.mem_cons_self _
    · exact henter.same (.of_state? List.suffix_rfl fun _ => rfl) (fun _ _ hr => hr) fun hf => hf

end Blaming
end Loader

open Loader in
theorem maintained_blaming : Maintained fun (l : Loader ν) _ =>
    (l.AllLinked ∧ l.Traced) ∧ l.Blaming where
  aside {_ k _} h ha := ⟨maintained_traced.aside (k := k) h.1 ha, h.2.record _⟩
  make {_ k} payload h := ⟨maintained_traced.make (k := k) payload h.1,
    h.2.same (.of_state? List.suffix_rfl fun _ => rfl) (fun _ _ hr => hr) fun hf => hf⟩
  fetches {_ k _} h ha := ⟨maintained_traced.fetches (k := k) h.1 ha,
    h.2.same (.of_state? List.suffix_rfl fun _ => rfl) (fun _ _ hr => hr) fun hf => hf⟩
  arrive {_ k _ _ _} h htake := ⟨maintained_traced.arrive (k := k) h.1 htake,
    h.2.same (.of_state? (List.suffix_cons _ _) fun _ => rfl) (fun _ _ hr => hr) fun hf => hf⟩
  enter {_ k _ _} role h hj := ⟨maintained_traced.enter (k := k) role h.1 hj, h.2.record _⟩
  require {_ k} frame dependencies callback errback h :=
    ⟨maintained_traced.require (k := k) frame dependencies callback errback h.1,
      h.2.submit h.1.1 frame dependencies callback errback none⟩
  define {_ k _} ctx defined dependencies factory errback h :=
    ⟨maintained_traced.define (k := k) ctx defined dependencies factory errback h.1,
      h.2.submit h.1.1 _ dependencies factory errback _⟩
  unwatch h := h
  setDefaultBase {_ k} base h := ⟨maintained_traced.setDefaultBase (k := k) base h.1,
    h.2.same (.of_state? List.suffix_rfl fun _ => rfl) (fun _ _ hr => hr) fun hf => hf⟩
  establish {_ k} ctx h := ⟨maintained_traced.establish (k := k) ctx h.1,
    h.2.afterEstablishing h.1.1 h.1.2 (Bootstrap.deferred_establish _ ctx)⟩
  beginMain {_ k _} root t h hd := ⟨maintained_traced.beginMain (k := k) root t h.1 hd,
    h.2.same (.of_state? (List.suffix_cons _ _) fun _ => rfl) (fun _ _ hr => hr) fun hf => hf⟩
  finishMain {_ k} t h :=
    ⟨maintained_traced.finishMain (k := k) t h.1, h.2.finishMain h.1.1 h.1.2 t⟩
  ready {_ k url} v h := ⟨maintained_traced.ready (k := k) v h.1, h.2.readyModule url v⟩
  abandon {_ k _ url} e h hm hd :=
    ⟨maintained_traced.abandon (k := k) e h.1 hm hd, h.2.abandonModule h.1.1 url e⟩
  abandonDefinition {_ k _ url id r} e h hm hd hr :=
    ⟨maintained_traced.abandonDefinition (k := k) e h.1 hm hd hr,
      ((h.2.abandonModule h.1.1 url e).withdraw id r).record _⟩
  finish {_ k _ _ _} h ho := ⟨maintained_traced.finish (k := k) h.1 ho, h.2.record _⟩
  fault {_ k _ _ _ _} h he :=
    ⟨maintained_traced.fault (k := k) h.1 he, (h.2.record _).record _⟩
  handle {_ k _ _ _} h hj := ⟨maintained_traced.handle (k := k) h.1 hj, h.2.record _⟩
  dispatch {_ k} h hd := ⟨maintained_traced.dispatch (k := k) h.1 hd,
    h.2.same (.of_state? List.suffix_rfl fun _ => rfl) (fun _ _ hr => hr) fun hf => hf⟩
  redispatch h _ := h
  drained {_ k} h hw := ⟨maintained_traced.drained (k := k) h.1 hw,
    h.2.same (.of_state? List.suffix_rfl fun _ => rfl) (fun _ _ hr => hr) fun hf => hf⟩
  dead {_ k _ _} h hw hr := ⟨maintained_traced.dead (k := k) h.1 hw hr, h.2.rest hw⟩
  fill {_ k id i v _ _} h hw hr hs := ⟨maintained_traced.fill (k := k) h.1 hw hr hs,
    (h.2.rest hw).modify id fun r => r.modules_fill i v⟩
  fillFire {_ k id i v _ _} h hw hr hs :=
    ⟨maintained_traced.fillFire (k := k) h.1 hw hr hs,
      (((h.2.rest hw).modify id fun r => r.modules_fill i v).erase id).record _⟩
  fire {_ k id _ _} h hw hr := ⟨maintained_traced.fire (k := k) h.1 hw hr,
    ((h.2.rest hw).erase id).record _⟩
  fail {_ k id _ _ r} h hw hr := ⟨maintained_traced.fail (k := k) h.1 hw hr,
    ((h.2.rest hw).withdraw id r).record _⟩

theorem Machine.Reachable.blaming {m : Machine ν} (h : m.Reachable) : m.loader.Blaming :=
  (maintained_blaming.reachable (fun config resources =>
    ⟨⟨Linkage.init, .init config resources⟩, ⟨fun hf => by cases hf⟩⟩) h).2

/-! ## When linking stops -/

namespace Loader

variable {l l₁ l' : Loader ν} {ids : List RequestId}

/-- What is about to fail, and not on account of a module, was so before; or it is a request that
has been linked since. -/
def StopsLinked (l l' : Loader ν) : Prop :=
  ∀ id e, ¬ e.IsDependency → .fail id e ∈ l'.worklist →
    .fail id e ∈ l.worklist ∨ id ∉ linkings l.journal ∧ id ∈ linkings l'.journal

theorem stopsLinked_of_eq (h : l'.worklist = l.worklist) : l.StopsLinked l' := by
  intro id e _ hf
  rw [h] at hf
  exact .inl hf

theorem Links.stopsLinked (h : Links ids l l')
    (hids : ∀ id ∈ ids, id ∉ AsyncModule.linkings l.journal) :
    l.StopsLinked l' := by
  intro id e _ hf
  rcases h.failing hf with hold | hid
  · exact .inl hold
  · refine .inr ⟨hids id hid, ?_⟩
    rw [h.linkings]
    exact List.mem_append_left _ hid

theorem stopsLinked_submit (htraced : l.Traced) (frame : Option Frame)
    (dependencies : List String) (callback : List ModuleValue → Script ν)
    (errback : Option (LoadError → Script ν)) (definitionUrl : Option String) :
    l.StopsLinked (l.submit frame dependencies callback errback definitionUrl) := by
  unfold submit
  generalize Request.ofCall dependencies callback errback (l.context? frame) definitionUrl = r
  have hnew : (l.enter r).1 ∉ linkings l.journal :=
    fun hid => not_issued_enter l r (htraced.issued hid)
  dsimp only
  unfold begin
  split
  · intro id e _ hf
    exact .inl ((List.mem_append.mp hf).resolve_right (by simp))
  · split
    · have hlinks := links_link (get?_enter_self l r) ‹Context›
      exact hlinks.stopsLinked fun id hid => by rwa [List.mem_singleton.mp hid]
    · exact stopsLinked_of_eq rfl

theorem stopsLinked_afterEstablishing (hlinked : l.AllLinked) (htraced : l.Traced)
    {change : Bool × Bootstrap} (hd : change.2.deferred = l.bootstrap.deferred) :
    l.StopsLinked (l.afterEstablishing change).2 := by
  unfold Loader.afterEstablishing
  dsimp only
  split
  · unfold Loader.drainDeferred
    split
    · exact stopsLinked_of_eq rfl
    · rename_i ctx _
      dsimp only
      rw [hd]
      have hlinks := links_linkAll (l := { l with bootstrap := { change.2 with deferred := [] } })
        ctx l.bootstrap.deferred hlinked.deferred_nodup fun id hid => by
          obtain ⟨r, hr, _⟩ := hlinked.deferred hid
          exact ⟨r, hr⟩
      exact hlinks.stopsLinked fun id hid => htraced.unlinked (List.mem_reverse.mp hid)
  · exact stopsLinked_of_eq rfl

theorem stopsLinked_finishMain (hlinked : l.AllLinked) (htraced : l.Traced) (t : Target) :
    l.StopsLinked (l.finishMain t) := by
  unfold Loader.finishMain
  dsimp only
  split
  · exact stopsLinked_afterEstablishing hlinked htraced
      (Bootstrap.deferred_finishEstablishing _ _)
  · exact stopsLinked_of_eq rfl

theorem linkings_of_notes (h : Notes l l₁) : linkings l₁.journal = linkings l.journal := by
  obtain ⟨events, hj, hnotice⟩ := h.journal
  rw [hj, linkings, List.filterMap_append]
  refine List.append_left_eq_self.mpr (List.filterMap_eq_nil_iff.mpr fun e he => ?_)
  have he := hnotice e he
  cases e <;> first | rfl | cases he

theorem AllLinked.notes (h : l.AllLinked) (hl : Notes l l₁) : l₁.AllLinked := by
  unfold AllLinked Linked
  rw [hl.registry, hl.requests, hl.worklist, hl.bootstrap]
  exact h

theorem Traced.notes (h : l.Traced) (hl : Notes l l₁) : l₁.Traced := by
  obtain ⟨events, hj, hnotice⟩ := hl.journal
  refine h.keep (.of_state? (hj ▸ List.suffix_append _ _) fun u => by rw [hl.registry])
    (Nat.le_of_eq (by rw [hl.requests])) (linkings_of_notes hl) ?_ ?_
    fun _ r hr => ⟨r, hl.requests ▸ hr, .refl r⟩
  · intro id values hmem
    rw [hj] at hmem
    exact (List.mem_append.mp hmem).resolve_left fun hnew => hnotice _ hnew
  · rw [hl.bootstrap]
    exact List.Subset.refl _

theorem StopsLinked.notes (h : l₁.StopsLinked l') (hl : Notes l l₁) : l.StopsLinked l' := by
  intro id e he hf
  rw [← hl.worklist, ← linkings_of_notes hl]
  exact h id e he hf

theorem stopsLinked_of_deed {setUp : Bool} {finished : Option Target}
    (h : Deed l setUp finished l') (hlinked : l.AllLinked) (htraced : l.Traced) :
    l.StopsLinked l' := by
  cases h with
  | submit hl => exact (stopsLinked_submit (htraced.notes hl) _ _ _ _ _).notes hl
  | refuse hl =>
    rcases hl with rfl | ⟨base, rfl⟩
    · exact stopsLinked_of_eq rfl
    · exact stopsLinked_of_eq rfl
  | establish base ctx =>
    have hset : (l.setDefaultBase base).Traced :=
      htraced.congr (.of_state? List.suffix_rfl fun _ => rfl) rfl rfl (List.Subset.refl _)
    exact stopsLinked_afterEstablishing (l := l.setDefaultBase base) hlinked hset
      (Bootstrap.deferred_establish _ ctx)
  | begin base root t => exact stopsLinked_of_eq rfl
  | enter t hl => exact stopsLinked_of_eq hl.worklist
  | finish t hl =>
    exact (stopsLinked_finishMain (hlinked.notes hl) (htraced.notes hl) t).notes hl

end Loader

open Loader in
/-- Whoever tends to what is under way fails requests on account of modules only. -/
theorem keptByTending_stops (l₀ : Loader ν) : KeptByTending fun (l : Loader ν) _ =>
    ∀ id e, ¬ e.IsDependency → .fail id e ∈ l.worklist → .fail id e ∈ l₀.worklist where
  aside h _ := h
  make _ h := h
  fetches h _ := h
  arrive h _ := h
  enter _ h _ := h
  unwatch h := h
  ready _ h id e he hf := h id e he ((List.mem_append.mp hf).resolve_right (by simp))
  abandon e h _ _ id e' he hf := by
    rcases fail_of_abandonModule hf with hold | ⟨w, _, _, rfl⟩
    · exact h id e' he hold
    · exact absurd trivial he
  abandonDefinition e h _ _ _ id e' he hf := by
    rcases fail_of_abandonModule hf with hold | ⟨w, _, _, rfl⟩
    · exact h id e' he hold
    · exact absurd trivial he
  finish h _ := h
  fault h _ := h
  handle h _ := h
  dispatch h _ := h
  redispatch h _ := h
  drained h _ := h
  dead h hw _ id e he hf := h id e he (hw ▸ List.mem_cons_of_mem _ hf)
  fill h hw _ _ id e he hf := h id e he (hw ▸ List.mem_cons_of_mem _ hf)
  fillFire h hw _ _ id e he hf := h id e he (hw ▸ List.mem_cons_of_mem _ hf)
  fire h hw _ id e he hf := h id e he (hw ▸ List.mem_cons_of_mem _ hf)
  fail h hw _ id e he hf := h id e he (hw ▸ List.mem_cons_of_mem _ hf)

/-- The step after which a request is about to fail, and not on account of a module, has linked
it. -/
theorem stops_step {m : Machine ν} (h : m.Reachable) : m.loader.StopsLinked m.step.loader := by
  cases hstack : m.stack with
  | nil =>
    unfold Machine.step
    rw [hstack]
    exact Loader.stopsLinked_of_eq rfl
  | cons task rest =>
    rw [Machine.step_of_cons hstack]
    cases ht : task.tends m.loader with
    | false =>
      exact Loader.stopsLinked_of_deed (Machine.deed_of_not_tends ht) h.allLinked h.traced
    | true =>
      have hfit : task.Fits := h.fits task (hstack ▸ List.mem_cons_self)
      intro id e he hf
      exact .inl (((keptByTending_stops m.loader).advance (k := [])
        (fun _ _ _ hf => hf) hfit ht).1 id e he hf)

end AsyncModule
