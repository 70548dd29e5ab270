import AsyncModule.Proofs.Accounts
import AsyncModule.Proofs.Lasting
import AsyncModule.Proofs.Waiting

/-!
# AsyncModule.Proofs.Tracing

What the journal tells of how requests have been linked. A request is linked once at most, in one
context; the module that a slot is linked to is the one that its specifier named there; and
a callback has been given the values of the modules that its specifiers named, in their order.

* `Loader.Traced`   — the invariant.
* `Traced.submit`   — a request that is made is linked at once, or later, or never.
* `Traced.call`     — a callback that is started has the values of its modules.
-/

namespace AsyncModule

variable {ν : Type}

theorem eq_of_nodup_filterMap {α β : Type} {f : α → Option β} {l : List α}
    (h : (l.filterMap f).Nodup) {a b : α} {x : β} (ha : a ∈ l) (hb : b ∈ l)
    (hfa : f a = some x) (hfb : f b = some x) : a = b := by
  induction l with
  | nil => cases ha
  | cons c l ih =>
    have htail : ∀ {y}, y ∈ l → f y = some x → f c = some x → False := by
      intro y hy hfy hfc
      rw [List.filterMap_cons_some hfc, List.nodup_cons] at h
      exact h.1 (List.mem_filterMap.mpr ⟨y, hy, hfy⟩)
    have hnodup : (l.filterMap f).Nodup :=
      h.sublist ((List.sublist_cons_self c l).filterMap f)
    rcases List.mem_cons.mp ha with hac | ha
    · rcases List.mem_cons.mp hb with hbc | hb
      · rw [hac, hbc]
      · exact (htail hb hfb (hac ▸ hfa)).elim
    · rcases List.mem_cons.mp hb with hbc | hb
      · exact (htail ha hfa (hbc ▸ hfb)).elim
      · exact ih hnodup ha hb

def Event.linked? : Event ν → Option RequestId
  | linked id _ _ => some id
  | _ => none

/-- The requests that have been linked. -/
def linkings (j : List (Event ν)) : List RequestId := j.filterMap Event.linked?

/-- When a request was linked, a specifier named the module with a URL. -/
def Named (j : List (Event ν)) (id : RequestId) (specifier url : String) : Prop :=
  ∃ resolver ctx t, .linked id resolver ctx ∈ j ∧ resolver.resolve specifier ctx = .ok t ∧
    t.key = url

/-- A value is that of the module that a specifier named. -/
def Provides (l : Loader ν) (id : RequestId) (specifier : String) (v : ModuleValue) : Prop :=
  ∃ url, Named l.journal id specifier url ∧ l.registry.state? url = some (.ready v)

theorem Named.suffix {j j' : List (Event ν)} {id : RequestId} {specifier url : String}
    (h : Named j id specifier url) (hj : j <:+ j') : Named j' id specifier url := by
  obtain ⟨resolver, ctx, t, hmem, hrest⟩ := h
  exact ⟨resolver, ctx, t, hj.mem hmem, hrest⟩

theorem Provides.lasts {l l' : Loader ν} {id : RequestId} {specifier : String} {v : ModuleValue}
    (h : Provides l id specifier v) (hl : l.Lasts l') : Provides l' id specifier v := by
  obtain ⟨url, hnamed, hready⟩ := h
  exact ⟨url, hnamed.suffix hl.journal, hl.ready hready⟩

/-- A request has the dependencies of another, its purpose, and its links. -/
structure Request.SameLinks (r r' : Request ν) : Prop where
  dependencies : r'.dependencies = r.dependencies
  definitionUrl : r'.definitionUrl = r.definitionUrl
  links : ∀ {i s'}, r'.slot? i = some s' →
    ∃ s, r.slot? i = some s ∧ s'.specifier = s.specifier ∧ s'.module = s.module

theorem Request.SameLinks.refl (r : Request ν) : r.SameLinks r :=
  ⟨rfl, rfl, fun hs => ⟨_, hs, rfl, rfl⟩⟩

theorem Request.sameLinks_fill (r : Request ν) (i : Nat) (v : ModuleValue) :
    r.SameLinks (r.fill i v) where
  dependencies := dependencies_fill r i v
  definitionUrl := definitionUrl_fill r i v
  links := by
    intro j s' hs'
    rw [slot?_fill] at hs'
    obtain ⟨s, hs, rfl⟩ := Option.map_eq_some_iff.mp hs'
    exact ⟨s, hs, by split <;> exact ⟨rfl, rfl⟩⟩

theorem Request.mem_zipIdx_dependencies {r : Request ν} {p : String × Nat}
    (hp : p ∈ r.dependencies.zipIdx) : ∃ s, r.slot? p.2 = some s ∧ s.specifier = p.1 := by
  obtain ⟨specifier, i⟩ := p
  rw [List.mem_zipIdx_iff_getElem?, Request.dependencies, List.getElem?_map] at hp
  exact Option.map_eq_some_iff.mp hp

namespace Loader

/-- The journal tells truly how requests have been made, linked and called back. -/
structure Traced (l : Loader ν) : Prop where
  made : ∀ {id r}, l.requests.get? id = some r →
    .submitted id r.dependencies r.definitionUrl ∈ l.journal
  issued : ∀ {id}, id ∈ linkings l.journal → l.requests.Issued id
  once : (linkings l.journal).Nodup
  unlinked : ∀ {id}, id ∈ l.bootstrap.deferred → id ∉ linkings l.journal
  named : ∀ {id r i s url}, l.requests.get? id = some r → r.slot? i = some s →
    s.module = some url → Named l.journal id s.specifier url
  called : ∀ {id values}, .called id values ∈ l.journal →
    ∃ dependencies definition, .submitted id dependencies definition ∈ l.journal ∧
      List.Forall₂ (Provides l id) dependencies values

namespace Traced

variable {l l' : Loader ν} {id : RequestId} {r : Request ν} {e : Event ν}

theorem init (config : Config) (resources : Target → Option (Fetched (Script ν))) :
    (Loader.new config resources).Traced where
  made h := by cases h
  issued h := by cases h
  once := .nil
  unlinked h := by cases h
  named h := by cases h
  called h := by cases h

/-- Whatever links no request and calls none back. -/
theorem keep (h : l.Traced) (hl : l.Lasts l') (hserial : l.requests.serial ≤ l'.requests.serial)
    (hlinkings : linkings l'.journal = linkings l.journal)
    (hcalled : ∀ id values, .called id values ∈ l'.journal → .called id values ∈ l.journal)
    (hdeferred : l'.bootstrap.deferred ⊆ l.bootstrap.deferred)
    (hlive : ∀ id r', l'.requests.get? id = some r' →
      ∃ r, l.requests.get? id = some r ∧ r.SameLinks r') : l'.Traced where
  made := by
    intro id r' hr'
    obtain ⟨r, hr, hsame⟩ := hlive id r' hr'
    rw [hsame.dependencies, hsame.definitionUrl]
    exact hl.journal.mem (h.made hr)
  issued := by
    intro id hid
    rw [hlinkings] at hid
    exact Nat.le_trans (h.issued hid) hserial
  once := by
    rw [hlinkings]
    exact h.once
  unlinked := by
    intro id hid
    rw [hlinkings]
    exact h.unlinked (hdeferred hid)
  named := by
    intro id r' i s' url hr' hs' hm
    obtain ⟨r, hr, hsame⟩ := hlive id r' hr'
    obtain ⟨s, hs, hspecifier, hmodule⟩ := hsame.links hs'
    rw [hspecifier]
    exact (h.named hr hs (hmodule ▸ hm)).suffix hl.journal
  called := by
    intro id values hmem
    obtain ⟨dependencies, definition, hsubmitted, hvalues⟩ := h.called (hcalled id values hmem)
    exact ⟨dependencies, definition, hl.journal.mem hsubmitted,
      hvalues.imp fun _ _ hp => hp.lasts hl⟩

theorem record (h : l.Traced) (hlinked : e.linked? = none) (hcalled : e.called? = none) :
    (l.record e).Traced := by
  refine h.keep ((Lasts.refl l).record e) (Nat.le_refl _) (List.filterMap_cons_none hlinked) ?_
    (List.Subset.refl _) fun _ r hr => ⟨r, hr, .refl r⟩
  intro id values hmem
  rcases List.mem_cons.mp hmem with rfl | hmem
  · cases hcalled
  · exact hmem

/-- Neither the modules that are not settled nor the worklist matter. -/
theorem congr (h : l.Traced) (hl : l.Lasts l') (hj : l'.journal = l.journal)
    (hr : l'.requests = l.requests) (hdeferred : l'.bootstrap.deferred ⊆ l.bootstrap.deferred) :
    l'.Traced :=
  h.keep hl (Nat.le_of_eq (by rw [hr])) (by rw [hj]) (fun _ _ hmem => hj ▸ hmem) hdeferred
    fun _ r hr' => ⟨r, hr ▸ hr', .refl r⟩

theorem same (h : l.Traced) (hg : l'.registry = l.registry) (hr : l'.requests = l.requests)
    (hj : l'.journal = l.journal) (hb : l'.bootstrap = l.bootstrap) : l'.Traced := by
  refine h.congr (.of_state? ?_ ?_) hj hr ?_
  · exact hj ▸ List.suffix_rfl
  · rw [hg]
    exact fun _ => rfl
  · rw [hb]
    exact List.Subset.refl _

theorem modify (h : l.Traced) (id : RequestId) {f : Request ν → Request ν}
    (hf : ∀ r : Request ν, r.SameLinks (f r)) :
    Traced { l with requests := l.requests.modify id f } := by
  refine h.keep (.of_state? List.suffix_rfl fun _ => rfl) (by simp) rfl (fun _ _ hmem => hmem)
    (List.Subset.refl _) ?_
  intro id' r' hr'
  rcases Requests.get?_modify_eq_some hr' with ⟨rfl, r, hr, rfl⟩ | ⟨_, hr⟩
  · exact ⟨r, hr, hf r⟩
  · exact ⟨r', hr, .refl r'⟩

theorem erase (h : l.Traced) (id : RequestId) :
    Traced { l with requests := l.requests.erase id } := by
  refine h.keep (.of_state? List.suffix_rfl fun _ => rfl) (by simp) rfl (fun _ _ hmem => hmem)
    (List.Subset.refl _) ?_
  intro id' r' hr'
  have hr' : (l.requests.erase id).get? id' = some r' := hr'
  rw [Requests.get?_erase] at hr'
  split at hr'
  · cases hr'
  · exact ⟨r', hr', .refl r'⟩

theorem withdraw (h : l.Traced) (id : RequestId) (r : Request ν) : (l.withdraw id r).Traced :=
  (h.erase id).congr (.of_state? List.suffix_rfl (state?_foldl_dropWaiters r.modules _ id)) rfl rfl
    List.filter_sublist.subset

/-! ### Linking -/

theorem linked (h : l.Traced) (hid : id ∉ linkings l.journal) (hissued : l.requests.Issued id)
    (hdeferred : id ∉ l.bootstrap.deferred) (ctx : Context) :
    (l.record (.linked id l.resolver ctx)).Traced := by
  have hl := (Lasts.refl l).record (.linked id l.resolver ctx)
  refine ⟨fun hr => hl.journal.mem (h.made hr), ?_, List.nodup_cons.mpr ⟨hid, h.once⟩, ?_,
    fun hr hs hm => (h.named hr hs hm).suffix hl.journal, ?_⟩
  · intro id' hid'
    rcases List.mem_cons.mp hid' with rfl | hid'
    · exact hissued
    · exact h.issued hid'
  · intro id' hid' hmem
    rcases List.mem_cons.mp hmem with rfl | hmem
    · exact hdeferred hid'
    · exact h.unlinked hid' hmem
  · intro id' values hmem
    obtain ⟨dependencies, definition, hsubmitted, hvalues⟩ :=
      h.called ((List.mem_cons.mp hmem).resolve_left (by simp))
    exact ⟨dependencies, definition, hl.journal.mem hsubmitted,
      hvalues.imp fun _ _ hp => hp.lasts hl⟩

theorem linkings_attach (l : Loader ν) (id : RequestId) (i : Nat) (t : Target) :
    linkings (l.attach id i t).journal = linkings l.journal := by
  rcases attach_cases l id i t with ⟨_, hj⟩ | ⟨_, hj⟩
  · rw [hj]
  · rw [hj]
    rfl

theorem attach (h : l.Traced) {i : Nat} {s : Slot} {t : Target}
    (hr : l.requests.get? id = some r) (hs : r.slot? i = some s)
    (hnamed : Named l.journal id s.specifier t.key) : (l.attach id i t).Traced := by
  have hl := Lasts.attach l id i t
  have hlive : ∀ {id' r'}, (l.attach id i t).requests.get? id' = some r' →
      id' = id ∧ r' = r.link i t.key ∨ l.requests.get? id' = some r' := by
    intro id' r' hr'
    rw [requests_attach] at hr'
    rcases Requests.get?_modify_eq_some hr' with ⟨rfl, r'', hr'', rfl⟩ | ⟨_, hold⟩
    · rw [hr] at hr''
      cases hr''
      exact .inl ⟨rfl, rfl⟩
    · exact .inr hold
  refine ⟨?_, ?_, ?_, ?_, ?_, ?_⟩
  · intro id' r' hr'
    rcases hlive hr' with ⟨rfl, rfl⟩ | hold
    · rw [Request.dependencies_link, Request.definitionUrl_link]
      exact hl.journal.mem (h.made hr)
    · exact hl.journal.mem (h.made hold)
  · intro id' hid'
    rw [linkings_attach] at hid'
    rw [Requests.Issued, requests_attach, Requests.serial_modify]
    exact h.issued hid'
  · rw [linkings_attach]
    exact h.once
  · intro id' hid'
    rw [bootstrap_attach] at hid'
    rw [linkings_attach]
    exact h.unlinked hid'
  · intro id' r' j s' url hr' hs' hm
    rcases hlive hr' with ⟨rfl, rfl⟩ | hold
    · rw [Request.slot?_link] at hs'
      obtain ⟨s'', hs'', rfl⟩ := Option.map_eq_some_iff.mp hs'
      by_cases hj : j = i
      · subst hj
        rw [hs] at hs''
        cases hs''
        rw [if_pos rfl] at hm ⊢
        cases hm
        exact hnamed.suffix hl.journal
      · rw [if_neg hj] at hm ⊢
        exact (h.named hr hs'' hm).suffix hl.journal
    · exact (h.named hold hs' hm).suffix hl.journal
  · intro id' values hmem
    have hmem : .called id' values ∈ l.journal := by
      rcases attach_cases l id i t with ⟨_, hj⟩ | ⟨_, hj⟩
      · rwa [hj] at hmem
      · rw [hj] at hmem
        exact (List.mem_cons.mp hmem).resolve_left (by simp)
    obtain ⟨dependencies, definition, hsubmitted, hvalues⟩ := h.called hmem
    exact ⟨dependencies, definition, hl.journal.mem hsubmitted,
      hvalues.imp fun _ _ hp => hp.lasts hl⟩

/-- While a request is being linked the slots that are left have the specifiers that are left. -/
structure Linking (id : RequestId) (ctx : Context) (resolver : Resolver)
    (linked : List RequestId) (slots : List (String × Nat)) (l : Loader ν) : Prop where
  traced : l.Traced
  begun : .linked id resolver ctx ∈ l.journal
  resolver : l.resolver = resolver
  linkings : linkings l.journal = linked
  left : ∃ r, l.requests.get? id = some r ∧
    ∀ p ∈ slots, ∃ s, r.slot? p.2 = some s ∧ s.specifier = p.1

theorem Linking.attach {ctx : Context} {resolver : Resolver} {linked : List RequestId}
    {specifier : String} {i : Nat} {rest : List (String × Nat)} {t : Target}
    (h : Linking id ctx resolver linked ((specifier, i) :: rest) l)
    (ht : l.resolver.resolve specifier ctx = .ok t) :
    Linking id ctx resolver linked rest (l.attach id i t) := by
  obtain ⟨r, hr, hslots⟩ := h.left
  obtain ⟨s, hs, rfl⟩ := hslots _ List.mem_cons_self
  have hnamed : Named l.journal id s.specifier t.key :=
    ⟨resolver, ctx, t, h.begun, h.resolver ▸ ht, rfl⟩
  refine ⟨h.traced.attach hr hs hnamed, (Lasts.attach l id i t).journal.mem h.begun, ?_, ?_, ?_⟩
  · rw [resolver_attach, h.resolver]
  · rw [linkings_attach, h.linkings]
  · refine ⟨r.link i t.key, ?_, ?_⟩
    · rw [requests_attach]
      exact Requests.get?_modify_self _ hr
    · intro p hp
      obtain ⟨s', hs', hspecifier⟩ := hslots p (List.mem_cons_of_mem _ hp)
      rw [Request.slot?_link, hs']
      exact ⟨_, rfl, by split <;> exact hspecifier⟩

/-- A request that has not been linked is linked, unless it is gone. -/
theorem link (h : l.Traced) (hid : id ∉ linkings l.journal)
    (hdeferred : id ∉ l.bootstrap.deferred) (ctx : Context) :
    (l.link id ctx).Traced ∧
      ∀ id' ∈ linkings (l.link id ctx).journal, id' = id ∨ id' ∈ linkings l.journal := by
  unfold Loader.link
  split
  · exact ⟨h, fun _ => .inr⟩
  · rename_i r hr
    have h1 := h.modify id (f := fun r => { r with context := some ctx })
      fun r => ⟨rfl, rfl, fun hs => ⟨_, hs, rfl, rfl⟩⟩
    have hget := Requests.get?_modify_self (fun r => { r with context := some ctx }) hr
    have h2 := h1.linked hid (Requests.issued_of_get? hget) hdeferred ctx
    have hstart : Linking id ctx l.resolver (id :: linkings l.journal) r.dependencies.zipIdx
        (Loader.record { l with
            requests := l.requests.modify id fun r => { r with context := some ctx } }
          (.linked id l.resolver ctx)) :=
      ⟨h2, List.mem_cons_self, rfl, rfl, _, hget, fun _ hp => Request.mem_zipIdx_dependencies hp⟩
    have hnew : ∀ {id'}, id' ∈ id :: linkings l.journal → id' = id ∨ id' ∈ linkings l.journal :=
      List.mem_cons.mp
    rcases linkSlots_cases (Q := Linking id ctx l.resolver (id :: linkings l.journal))
      (fun hq ht _ => hq.attach ht) r.dependencies.zipIdx hstart with
      hdone | ⟨_, _, _, l', e, hstop, _, heq⟩
    · refine ⟨hdone.traced, fun id' hid' => hnew ?_⟩
      rw [hdone.linkings] at hid'
      exact hid'
    · dsimp only at heq ⊢
      rw [heq]
      refine ⟨hstop.traced.same rfl rfl rfl rfl, fun id' hid' => hnew ?_⟩
      have hid' : id' ∈ linkings l'.journal := hid'
      rw [hstop.linkings] at hid'
      exact hid'

theorem linkAll (ctx : Context) (ids : List RequestId) :
    ∀ {l : Loader ν}, l.Traced → ids.Nodup → l.bootstrap.deferred = [] →
      (∀ id ∈ ids, id ∉ linkings l.journal) →
      (ids.foldl (fun l id => l.link id ctx) l).Traced := by
  induction ids with
  | nil => exact fun h _ _ _ => h
  | cons id rest ih =>
    intro l h hnodup hdeferred hnot
    obtain ⟨hid, hnodup⟩ := List.nodup_cons.mp hnodup
    obtain ⟨h1, hnew⟩ := h.link (hnot id List.mem_cons_self) (by simp [hdeferred]) ctx
    rw [List.foldl_cons]
    refine ih h1 hnodup (by rw [bootstrap_link, hdeferred]) ?_
    intro id' hid' hmem
    rcases hnew id' hmem with rfl | hmem
    · exact hid hid'
    · exact hnot id' (List.mem_cons_of_mem _ hid') hmem

theorem drainDeferred (h : l.Traced) (hnodup : l.bootstrap.deferred.Nodup) :
    l.drainDeferred.Traced := by
  unfold Loader.drainDeferred
  split
  · exact h
  · have h1 : Traced { l with bootstrap := { l.bootstrap with deferred := [] } } :=
      h.congr (.of_state? List.suffix_rfl fun _ => rfl) rfl rfl (List.nil_subset _)
    exact linkAll _ _ h1 hnodup rfl fun _ hid => h.unlinked hid

theorem afterEstablishing (h : l.Traced) (hnodup : l.bootstrap.deferred.Nodup)
    {change : Bool × Bootstrap} (hd : change.2.deferred = l.bootstrap.deferred) :
    (l.afterEstablishing change).2.Traced := by
  have h1 : Traced { l with bootstrap := change.2 } :=
    h.congr (.of_state? List.suffix_rfl fun _ => rfl) rfl rfl (by
      intro id hid
      have hid : id ∈ change.2.deferred := hid
      rwa [hd] at hid)
  unfold Loader.afterEstablishing
  dsimp only
  split
  · refine h1.drainDeferred ?_
    show change.2.deferred.Nodup
    rw [hd]
    exact hnodup
  · exact h1

theorem finishMain (h : l.Traced) (hnodup : l.bootstrap.deferred.Nodup) (t : Target) :
    (l.finishMain t).Traced := by
  unfold Loader.finishMain
  dsimp only
  split
  · exact h.afterEstablishing hnodup (Bootstrap.deferred_finishEstablishing _ _)
  · exact h

/-! ### Making and calling back -/

theorem enter (h : l.Traced) (hun : Unlinked r) : (l.enter r).2.Traced := by
  have hl := Lasts.enter l r
  have hlive : ∀ {id' r'}, (l.enter r).2.requests.get? id' = some r' →
      id' = (l.enter r).1 ∧ r' = r ∨ l.requests.get? id' = some r' :=
    fun hr' => Requests.get?_insert_eq_some hr'
  refine ⟨?_, fun hid => Nat.le_succ_of_le (h.issued hid), h.once, h.unlinked, ?_, ?_⟩
  · intro id' r' hr'
    rcases hlive hr' with ⟨rfl, rfl⟩ | hold
    · exact List.mem_cons_self
    · exact hl.journal.mem (h.made hold)
  · intro id' r' i s url hr' hs hm
    rcases hlive hr' with ⟨rfl, rfl⟩ | hold
    · rw [(hun s (Request.mem_slots.mpr ⟨i, hs⟩)).1] at hm
      cases hm
    · exact (h.named hold hs hm).suffix hl.journal
  · intro id' values hmem
    obtain ⟨dependencies, definition, hsubmitted, hvalues⟩ :=
      h.called ((List.mem_cons.mp hmem).resolve_left (by simp))
    exact ⟨dependencies, definition, hl.journal.mem hsubmitted,
      hvalues.imp fun _ _ hp => hp.lasts hl⟩

theorem submit (h : l.Traced) (hlinked : l.AllLinked) (frame : Option Frame)
    (dependencies : List String) (callback : List ModuleValue → Script ν)
    (errback : Option (LoadError → Script ν)) (definitionUrl : Option String) :
    (l.submit frame dependencies callback errback definitionUrl).Traced := by
  have hnew := not_issued_enter l
    (.ofCall dependencies callback errback (l.context? frame) definitionUrl)
  have henter := h.enter (unlinked_ofCall dependencies callback errback (l.context? frame)
    definitionUrl)
  have hunlinked : (l.enter (.ofCall dependencies callback errback (l.context? frame)
      definitionUrl)).1 ∉ linkings l.journal := fun hid => hnew (h.issued hid)
  unfold Loader.submit
  dsimp only
  unfold Loader.begin
  split
  · exact henter.same rfl rfl rfl rfl
  · split
    · refine (henter.link hunlinked ?_ _).1
      intro hmem
      obtain ⟨_, hr, _⟩ := hlinked.deferred hmem
      exact hnew (Requests.issued_of_get? hr)
    · exact
        { henter with
          unlinked := by
            intro id hid
            rcases List.mem_append.mp hid with hid | hid
            · exact henter.unlinked hid
            · rw [List.mem_singleton.mp hid]
              exact hunlinked }

theorem call (h : l.Traced) (hr : l.requests.get? id = some r) {values : List ModuleValue}
    (hvalues : List.Forall₂ (Provides l id) r.dependencies values) :
    (Loader.record { l with requests := l.requests.erase id } (.called id values)).Traced := by
  have h1 := h.erase id
  have hl : l.Lasts (Loader.record { l with requests := l.requests.erase id }
      (.called id values)) := .of_state? (List.suffix_cons _ _) fun _ => rfl
  refine ⟨fun hr' => List.mem_cons_of_mem _ (h1.made hr'), h1.issued, h1.once, h1.unlinked,
    fun hr' hs hm => (h1.named hr' hs hm).suffix (List.suffix_cons _ _), ?_⟩
  intro id' values' hmem
  rcases List.mem_cons.mp hmem with heq | hmem
  · cases heq
    exact ⟨_, _, List.mem_cons_of_mem _ (h.made hr), hvalues.imp fun _ _ hp => hp.lasts hl⟩
  · obtain ⟨dependencies, definition, hsubmitted, hall⟩ := h.called hmem
    exact ⟨dependencies, definition, List.mem_cons_of_mem _ hsubmitted,
      hall.imp fun _ _ hp => hp.lasts hl⟩

end Traced
end Loader
end AsyncModule
