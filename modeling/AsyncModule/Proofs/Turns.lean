import AsyncModule.Proofs.Supply

/-!
# AsyncModule.Proofs.Turns

The order in which requests get the value of a module. While the module is loading their slots
wait in its record, and afterwards steps that fill them go through the worklist; at all times they
stand there in the order in which the requests were linked, behind those that have had their turn.

* `Loader.turns`     — whose turn it is with a module, and whose turn comes next.
* `Loader.Lined`     — they come in the order in which they were linked, after those before them.
* `maintained_lined` — everything the machine does keeps it.
-/

namespace AsyncModule

variable {ν : Type}

theorem filterMap_sublist_of_le {α β : Type} {f g : α → Option β} {xs : List α}
    (h : ∀ a ∈ xs, ∀ b, f a = some b → g a = some b) :
    (xs.filterMap f).Sublist (xs.filterMap g) := by
  induction xs with
  | nil => exact .slnil
  | cons a xs ih =>
    have hrest := ih fun a' ha' => h a' (List.mem_cons_of_mem _ ha')
    cases hf : f a with
    | none =>
      rw [List.filterMap_cons_none hf]
      exact hrest.trans ((List.sublist_cons_self a xs).filterMap g)
    | some b =>
      rw [List.filterMap_cons_some hf, List.filterMap_cons_some (h a List.mem_cons_self b hf)]
      exact hrest.cons_cons b

theorem pair_sublist_of_cons {α : Type} {a b y : α} {ys : List α} (hne : a ≠ y)
    (h : [a, b].Sublist (y :: ys)) : [a, b].Sublist ys := by
  cases h with
  | cons _ h => exact h
  | cons_cons _ _ => exact absurd rfl hne

/-- What stands in the order of a list, without repetition, is a part of it. -/
theorem sublist_of_pairwise {α : Type} {xs ys : List α} (hxs : xs.Nodup) (hys : ys.Nodup)
    (hsub : xs ⊆ ys) (hord : xs.Pairwise fun a b => a = b ∨ [a, b].Sublist ys) :
    xs.Sublist ys := by
  induction ys generalizing xs with
  | nil =>
    rw [List.subset_nil.mp hsub]
  | cons y ys ih =>
    obtain ⟨hy, hys⟩ := List.nodup_cons.mp hys
    cases xs with
    | nil => exact List.nil_sublist _
    | cons x xs =>
      obtain ⟨hx, hxs'⟩ := List.nodup_cons.mp hxs
      obtain ⟨hfirst, hord'⟩ := List.pairwise_cons.mp hord
      -- Past the head of the whole list, the rest stands in the order of what is left of it.
      have hrest : ∀ {zs : List α}, zs.Nodup → y ∉ zs → zs ⊆ y :: ys →
          (zs.Pairwise fun a b => a = b ∨ [a, b].Sublist (y :: ys)) → zs.Sublist ys := by
        intro zs hzs hnot hsub hord
        refine ih hzs hys (fun z hz => ?_) (hord.imp_of_mem fun ha _ hab => ?_)
        · exact (List.mem_cons.mp (hsub hz)).resolve_left fun heq => hnot (heq ▸ hz)
        · refine hab.imp_right (pair_sublist_of_cons ?_)
          rintro rfl
          exact hnot ha
      by_cases hxy : x = y
      · subst hxy
        exact (hrest hxs' hx (fun z hz => hsub (List.mem_cons_of_mem _ hz)) hord').cons_cons x
      · refine (hrest hxs ?_ hsub hord).cons y
        intro hmem
        rcases List.mem_cons.mp hmem with heq | hmem
        · exact hxy heq.symm
        · have hpair := (hfirst y hmem).resolve_left hxy
          exact hy ((pair_sublist_of_cons hxy hpair).subset (by simp))

/-! ## Standing in order -/

/-- One request has been linked before another, or it is the same; the newest are first. -/
def NotAfter (linked : List RequestId) (a b : RequestId) : Prop := a = b ∨ [b, a].Sublist linked

/-- Requests in the order in which they have been linked. A request may stand there several times,
in a row, once for each of its slots. -/
structure InOrder (linked xs : List RequestId) : Prop where
  subset : xs ⊆ linked
  ordered : xs.Pairwise (NotAfter linked)

namespace InOrder

variable {linked xs xs' : List RequestId} {id : RequestId}

theorem sublist (h : InOrder linked xs) (hsub : xs'.Sublist xs) : InOrder linked xs' :=
  ⟨fun _ hid => h.subset (hsub.subset hid), h.ordered.sublist hsub⟩

/-- One more request is linked. -/
theorem cons (h : InOrder linked xs) (id : RequestId) : InOrder (id :: linked) xs :=
  ⟨fun _ hid => List.mem_cons_of_mem _ (h.subset hid),
    h.ordered.imp fun hab => hab.imp_right fun hpair => hpair.cons id⟩

/-- The request linked last goes to the end. -/
theorem concat (h : InOrder (id :: linked) xs) : InOrder (id :: linked) (xs ++ [id]) where
  subset := List.append_subset.mpr ⟨h.subset, by simp⟩
  ordered := by
    refine List.pairwise_append.mpr ⟨h.ordered, List.pairwise_singleton _ _, ?_⟩
    intro a ha b hb
    obtain rfl := List.mem_singleton.mp hb
    rcases List.mem_cons.mp (h.subset ha) with heq | hold
    · exact .inl heq
    · exact .inr ((List.singleton_sublist.mpr hold).cons_cons b)

theorem reverse_sublist (h : InOrder linked xs) (hxs : xs.Nodup) (hlinked : linked.Nodup) :
    xs.reverse.Sublist linked := by
  refine sublist_of_pairwise (List.nodup_reverse.mpr hxs) hlinked ?_ ?_
  · intro id hid
    exact h.subset (List.mem_reverse.mp hid)
  · exact List.pairwise_reverse.mpr (h.ordered.imp fun hab => hab.imp_left Eq.symm)

end InOrder

/-! ## Turns -/

namespace Requests

/-- The module that a slot of a live request is linked to. -/
def module? (rs : Requests ν) (id : RequestId) (i : Nat) : Option String :=
  ((rs.get? id).bind (·.slot? i)).bind Slot.module

theorem module?_eq_some_iff {rs : Requests ν} {id : RequestId} {i : Nat} {url : String} :
    rs.module? id i = some url ↔
      ∃ r s, rs.get? id = some r ∧ r.slot? i = some s ∧ s.module = some url := by
  simp only [module?, Option.bind_eq_some_iff]
  constructor
  · rintro ⟨s, ⟨r, hr, hs⟩, hm⟩
    exact ⟨r, s, hr, hs, hm⟩
  · rintro ⟨r, s, hr, hs, hm⟩
    exact ⟨s, ⟨r, hr, hs⟩, hm⟩

/-- Requests that are still there have kept their links, and none has been linked since. -/
theorem module?_of_live {rs rs' : Requests ν} {id : RequestId} {i : Nat} {url : String}
    (hlive : ∀ {r'}, rs'.get? id = some r' →
      ∃ r, rs.get? id = some r ∧ ∀ {s'}, r'.slot? i = some s' →
        ∃ s, r.slot? i = some s ∧ s'.module = s.module)
    (h : rs'.module? id i = some url) : rs.module? id i = some url := by
  obtain ⟨r', s', hr', hs', hm⟩ := module?_eq_some_iff.mp h
  obtain ⟨r, hr, hslots⟩ := hlive hr'
  obtain ⟨s, hs, heq⟩ := hslots hs'
  exact module?_eq_some_iff.mpr ⟨r, s, hr, hs, heq ▸ hm⟩

theorem module?_of_erase {rs : Requests ν} {id id' : RequestId} {i : Nat} {url : String}
    (h : (rs.erase id').module? id i = some url) : rs.module? id i = some url := by
  refine module?_of_live (fun {r'} hr' => ⟨r', ?_, fun hs' => ⟨_, hs', rfl⟩⟩) h
  rw [get?_erase] at hr'
  split at hr'
  · cases hr'
  · exact hr'

/-- Filling a slot leaves the links of its request as they are. -/
theorem module?_of_fill {rs : Requests ν} {id id' : RequestId} {i j : Nat} {v : ModuleValue}
    {url : String} (h : (rs.modify id' (·.fill j v)).module? id i = some url) :
    rs.module? id i = some url := by
  refine module?_of_live (fun hr' => ?_) h
  rcases get?_modify_eq_some hr' with ⟨rfl, r, hr, rfl⟩ | ⟨_, hold⟩
  · refine ⟨r, hr, fun hs' => ?_⟩
    obtain ⟨s, hs, _, hm⟩ := (Request.sameLinks_fill r j v).links hs'
    exact ⟨s, hs, hm⟩
  · exact ⟨_, hold, fun hs' => ⟨_, hs', rfl⟩⟩

theorem module?_modify_of_slots (rs : Requests ν) (id id' : RequestId) (i : Nat)
    {f : Request ν → Request ν} (hf : ∀ r, (f r).slots = r.slots) :
    (rs.modify id' f).module? id i = rs.module? id i := by
  unfold module?
  rw [get?_modify]
  split
  · cases rs.get? id with
    | none => rfl
    | some r =>
      show ((f r).slots[i]?).bind Slot.module = (r.slots[i]?).bind Slot.module
      rw [hf]
  · rfl

end Requests

/-- The request that a step gives the value of a module to. -/
def Step.turn? (rs : Requests ν) (url : String) : Step → Option RequestId
  | .fill id i _ => if rs.module? id i = some url then some id else none
  | _ => none

namespace Loader

variable {l l' : Loader ν} {heard : String → List RequestId} {id : RequestId} {r : Request ν}
  {url : String}

/-- The requests that get the value of a module, if it comes to have one: those that steps of the
worklist give it to, and after them those whose slots wait for it. -/
def turns (l : Loader ν) (url : String) : List RequestId :=
  l.worklist.filterMap (Step.turn? l.requests url) ++
    (l.registry.waiters url).map Waiter.request

theorem turns_sublist (hw : l'.worklist.Sublist l.worklist)
    (hm : ∀ {id i url}, l'.requests.module? id i = some url → l.requests.module? id i = some url)
    (hwaiters : ∀ url, (l'.registry.waiters url).Sublist (l.registry.waiters url)) (url : String) :
    (l'.turns url).Sublist (l.turns url) := by
  refine List.Sublist.append ?_ ((hwaiters url).map _)
  refine List.Sublist.trans (filterMap_sublist_of_le ?_) (hw.filterMap _)
  intro s _ id hs
  cases s with
  | fill id' i v =>
    simp only [Step.turn?] at hs ⊢
    split at hs
    · rename_i hlinked
      rw [if_pos (hm hlinked)]
      exact hs
    · cases hs
  | fire id' => cases hs
  | fail id' e => cases hs

theorem turns_enqueue {s : Step} (h : s.turn? l.requests url = none) :
    (l.enqueue s).turns url = l.turns url := by
  unfold turns enqueue
  rw [List.filterMap_append, List.filterMap_cons_none h, List.filterMap_nil, List.append_nil]

/-- The requests that get the value of a module do so in the order in which they were linked, after
those that have heard of it before. -/
def Lined (heard : String → List RequestId) (l : Loader ν) : Prop :=
  ∀ url, InOrder (linkings l.journal) (heard url ++ l.turns url)

/-- What makes a turn go right: nothing waits for a module that has its value, and no slot is to be
filled before it is linked. -/
structure Quiet (l : Loader ν) : Prop where
  ready : ∀ {url v}, l.registry.state? url = some (.ready v) → l.registry.waiters url = []
  due : ∀ {id i v r s}, .fill id i v ∈ l.worklist → l.requests.get? id = some r →
    r.slot? i = some s → s.module ≠ none

theorem AllLinked.quiet (h : l.AllLinked) : l.Quiet where
  ready := by
    intro url v hready
    refine List.eq_nil_iff_forall_not_mem.mpr fun w hw => ?_
    rw [(h.waiter hw).1] at hready
    cases hready
  due := by
    intro id i v r s hdue hr hs
    obtain ⟨s', url, hs', hm, _⟩ := h.fill_due hdue hr
    rw [hs] at hs'
    cases hs'
    simp [hm]

namespace Lined

/-- Whatever links no request and gives none a turn. -/
theorem keep (h : l.Lined heard) (hj : linkings l'.journal = linkings l.journal)
    (ht : ∀ url, (l'.turns url).Sublist (l.turns url)) : l'.Lined heard := by
  intro url
  rw [hj]
  exact (h url).sublist ((List.Sublist.refl _).append (ht url))

theorem same (h : l.Lined heard) (hj : linkings l'.journal = linkings l.journal)
    (hg : l'.registry = l.registry) (hr : l'.requests = l.requests)
    (hw : l'.worklist = l.worklist) : l'.Lined heard := by
  refine h.keep hj fun url => ?_
  unfold turns
  rw [hg, hr, hw]

end Lined

/-! ### Linking -/

theorem Quiet.attach (h : l.Quiet) (id : RequestId) (i : Nat) (t : Target) :
    (l.attach id i t).Quiet := by
  have hwork : ∀ {id' j v}, .fill id' j v ∈ (l.attach id i t).worklist →
      .fill id' j v ∈ l.worklist ∨ id' = id ∧ j = i := by
    intro id' j v hmem
    rcases l.registry.open_or_settled t.key with ho | ⟨w, hready⟩ | ⟨e, hfailed⟩
    · rw [(attach_open id i ho).1] at hmem
      exact .inl hmem
    · rw [(attach_ready id i hready).2, List.mem_append, List.mem_singleton] at hmem
      rcases hmem with hmem | heq
      · exact .inl hmem
      · cases heq
        exact .inr ⟨rfl, rfl⟩
    · rw [(attach_failed id i hfailed).2, List.mem_append, List.mem_singleton] at hmem
      exact .inl (hmem.resolve_right (by simp))
  constructor
  · intro url v hready
    rcases l.registry.open_or_settled t.key with ho | ⟨w, hready'⟩ | ⟨e, hfailed⟩
    · obtain ⟨_, hstate, hwaiters, _⟩ := attach_open id i ho
      rw [hstate] at hready
      rw [hwaiters]
      split at hready
      · cases hready
      · rename_i hne
        rw [if_neg hne]
        exact h.ready hready
    · rw [(attach_ready id i hready').1] at hready ⊢
      exact h.ready hready
    · rw [(attach_failed id i hfailed).1] at hready ⊢
      exact h.ready hready
  · intro id' j v r' s' hdue hr' hs'
    rw [requests_attach] at hr'
    rcases Requests.get?_modify_eq_some hr' with ⟨rfl, r, hr, rfl⟩ | ⟨hne, hold⟩
    · rw [Request.slot?_link] at hs'
      obtain ⟨s, hs, rfl⟩ := Option.map_eq_some_iff.mp hs'
      by_cases hj : j = i
      · simp [hj]
      · rw [if_neg hj]
        exact h.due ((hwork hdue).resolve_right fun heq => hj heq.2) hr hs
    · exact h.due ((hwork hdue).resolve_right fun heq => hne heq.1) hold hs'

/-- Linking a slot gives its request a turn with the module, the last one, unless that has
failed. -/
theorem turns_attach (h : l.Quiet) {i : Nat} {s : Slot} (hr : l.requests.get? id = some r)
    (hs : r.slot? i = some s) (hm : s.module = none) (t : Target) (url : String) :
    (l.attach id i t).turns url = l.turns url ∨
      (l.attach id i t).turns url = l.turns url ++ [id] := by
  have hmodule : (l.requests.modify id (·.link i t.key)).module? id i = some t.key := by
    refine Requests.module?_eq_some_iff.mpr
      ⟨_, { s with module := some t.key }, Requests.get?_modify_self _ hr, ?_, rfl⟩
    rw [Request.slot?_link, hs]
    simp
  have hothers : ∀ {id' j}, id' ≠ id ∨ j ≠ i →
      (l.requests.modify id (·.link i t.key)).module? id' j = l.requests.module? id' j := by
    intro id' j hne
    unfold Requests.module?
    by_cases hid : id' = id
    · subst hid
      have hj : j ≠ i := hne.resolve_left (by simp)
      rw [Requests.get?_modify_self _ hr, hr]
      simp only [Option.bind_some, Request.slot?_link, if_neg hj]
      simp
    · rw [Requests.get?_modify_of_ne _ hid]
  -- No step of the worklist fills the slot that is being linked.
  have hturn : l.worklist.filterMap (Step.turn? (l.requests.modify id (·.link i t.key)) url) =
      l.worklist.filterMap (Step.turn? l.requests url) := by
    refine List.filterMap_congr fun s' hs' => ?_
    cases s' with
    | fill id' j v =>
      have hne : id' ≠ id ∨ j ≠ i := by
        by_contra hboth
        obtain ⟨rfl, rfl⟩ := not_or.mp hboth |>.imp not_not.mp not_not.mp
        exact h.due hs' hr hs hm
      simp only [Step.turn?, hothers hne]
    | fire id' => rfl
    | fail id' e => rfl
  unfold turns
  rw [requests_attach]
  rcases l.registry.open_or_settled t.key with ho | ⟨v, hready⟩ | ⟨e, hfailed⟩
  · obtain ⟨hwork, _, hwaiters, _⟩ := attach_open id i ho
    rw [hwork, hwaiters, hturn]
    by_cases hurl : url = t.key
    · rw [if_pos hurl, List.map_append, ← List.append_assoc]
      exact .inr rfl
    · rw [if_neg hurl]
      exact .inl rfl
  · obtain ⟨hreg, hwork⟩ := attach_ready id i hready
    rw [hwork, hreg, List.filterMap_append, hturn]
    by_cases hurl : url = t.key
    · subst hurl
      have hsome : Step.turn? (l.requests.modify id (·.link i t.key)) t.key (.fill id i v) =
          some id := if_pos hmodule
      rw [h.ready hready, List.filterMap_cons_some hsome]
      simp
    · have hnone : Step.turn? (l.requests.modify id (·.link i t.key)) url (.fill id i v) = none := by
        simp only [Step.turn?, hmodule, Option.some.injEq]
        exact if_neg fun heq => hurl heq.symm
      rw [List.filterMap_cons_none hnone]
      simp
  · obtain ⟨hreg, hwork⟩ := attach_failed id i hfailed
    rw [hwork, hreg, List.filterMap_append, hturn, List.filterMap_cons_none rfl]
    simp

/-- While a request is being linked it is the one linked last, and the slots that are left are
linked to nothing. -/
structure Lining (heard : String → List RequestId) (id : RequestId) (older : List RequestId)
    (slots : List (String × Nat)) (l : Loader ν) : Prop where
  lined : l.Lined heard
  quiet : l.Quiet
  newest : linkings l.journal = id :: older
  left : ∃ r, l.requests.get? id = some r ∧ Fresh r (slots.map (·.2))

theorem Lining.attach {older : List RequestId} {specifier : String} {i : Nat}
    {rest : List (String × Nat)} (h : Lining heard id older ((specifier, i) :: rest) l)
    (t : Target) : Lining heard id older rest (l.attach id i t) := by
  obtain ⟨r, hr, hnodup, hslots⟩ := h.left
  obtain ⟨hi, hnodup⟩ := List.nodup_cons.mp hnodup
  obtain ⟨s, hs, hm, _⟩ := hslots i List.mem_cons_self
  have hnewest : linkings (l.attach id i t).journal = id :: older := by
    rw [Traced.linkings_attach, h.newest]
  refine ⟨fun url => ?_, h.quiet.attach id i t, hnewest, r.link i t.key, ?_, hnodup, ?_⟩
  · have hlined := h.lined url
    rw [h.newest] at hlined
    rw [hnewest]
    rcases turns_attach h.quiet hr hs hm t url with heq | heq
    · rw [heq]
      exact hlined
    · rw [heq, ← List.append_assoc]
      exact hlined.concat
  · rw [requests_attach]
    exact Requests.get?_modify_self _ hr
  · intro j hj
    obtain ⟨s', hs', hm', hv'⟩ := hslots j (List.mem_cons_of_mem _ hj)
    have hji : j ≠ i := fun heq => hi (heq ▸ hj)
    exact ⟨s', by rw [Request.slot?_link, hs']; simp [hji], hm', hv'⟩

namespace Lined

theorem link (h : l.Lined heard) (hq : l.Quiet)
    (hun : ∀ {r}, l.requests.get? id = some r → Unlinked r) (ctx : Context) :
    (l.link id ctx).Lined heard ∧ (l.link id ctx).Quiet := by
  unfold Loader.link
  split
  · exact ⟨h, hq⟩
  · rename_i r hr
    have hctx : Lined heard { l with
        requests := l.requests.modify id fun r => { r with context := some ctx } } := by
      refine h.keep rfl (turns_sublist (.refl _) (fun hm => ?_) fun _ => .refl _)
      rwa [Requests.module?_modify_of_slots] at hm
      exact fun _ => rfl
    have hstart : Lining heard id (linkings l.journal) r.dependencies.zipIdx
        (Loader.record { l with
            requests := l.requests.modify id fun r => { r with context := some ctx } }
          (.linked id l.resolver ctx)) := by
      refine ⟨fun url => (hctx url).cons id, ⟨hq.ready, ?_⟩, rfl, _,
        Requests.get?_modify_self _ hr, (hun hr).fresh⟩
      intro id' i v r' s hdue hr' hs
      rcases Requests.get?_modify_eq_some hr' with ⟨rfl, r₀, hr₀, rfl⟩ | ⟨_, hold⟩
      · exact hq.due hdue hr₀ hs
      · exact hq.due hdue hold hs
    rcases linkSlots_cases (Q := Lining heard id (linkings l.journal))
      (fun hl _ _ => hl.attach _) r.dependencies.zipIdx hstart with
      hdone | ⟨_, _, _, l', e, hstop, _, heq⟩
    · exact ⟨hdone.lined, hdone.quiet⟩
    · dsimp only at heq ⊢
      rw [heq]
      refine ⟨hstop.lined.keep rfl fun url => ?_, hstop.quiet.ready, ?_⟩
      · rw [turns_enqueue rfl]
      · intro id' i v r' s hdue
        exact hstop.quiet.due ((List.mem_append.mp hdue).resolve_right (by simp))

theorem linkAll (ctx : Context) (ids : List RequestId) :
    ∀ {l : Loader ν}, l.Lined heard → l.Quiet → ids.Nodup →
      (∀ id ∈ ids, ∃ r, l.requests.get? id = some r ∧ Unlinked r) →
      (ids.foldl (fun l id => l.link id ctx) l).Lined heard := by
  induction ids with
  | nil => exact fun h _ _ _ => h
  | cons id rest ih =>
    intro l h hq hnodup hall
    obtain ⟨hnot, hnodup⟩ := List.nodup_cons.mp hnodup
    obtain ⟨r, hr, hun⟩ := hall id List.mem_cons_self
    have hunlinked : ∀ {r'}, l.requests.get? id = some r' → Unlinked r' := by
      intro r' hr'
      rw [hr] at hr'
      cases hr'
      exact hun
    have hlink := h.link hq hunlinked ctx
    rw [List.foldl_cons]
    refine ih hlink.1 hlink.2 hnodup fun id' hid' => ?_
    obtain ⟨r', hr', hun'⟩ := hall id' (List.mem_cons_of_mem _ hid')
    have hne : id' ≠ id := fun heq => hnot (heq ▸ hid')
    exact ⟨r', by rw [get?_link_of_ne hne, hr'], hun'⟩

theorem drainDeferred (h : l.Lined heard) (hlinked : l.AllLinked) :
    l.drainDeferred.Lined heard := by
  unfold Loader.drainDeferred
  split
  · exact h
  · have hquiet := hlinked.quiet
    refine linkAll _ _ (h.same rfl rfl rfl rfl) ⟨hquiet.ready, hquiet.due⟩ hlinked.deferred_nodup ?_
    intro id hid
    obtain ⟨r, hr, _, _, hm⟩ := hlinked.deferred hid
    exact ⟨r, hr, fun s hs => ⟨hm s hs, Linkage.value_of_deferred hlinked hid hr hs⟩⟩

theorem afterEstablishing (h : l.Lined heard) (hlinked : l.AllLinked) {change : Bool × Bootstrap}
    (hd : change.2.deferred = l.bootstrap.deferred) :
    (l.afterEstablishing change).2.Lined heard := by
  unfold Loader.afterEstablishing
  dsimp only
  split
  · refine drainDeferred (h.same rfl rfl rfl rfl) ?_
    unfold AllLinked Linked
    rw [hd]
    exact hlinked
  · exact h.same rfl rfl rfl rfl

theorem finishMain (h : l.Lined heard) (hlinked : l.AllLinked) (t : Target) :
    (l.finishMain t).Lined heard := by
  unfold Loader.finishMain
  dsimp only
  split
  · exact h.afterEstablishing hlinked (Bootstrap.deferred_finishEstablishing _ _)
  · exact h

/-! ### Making requests -/

theorem enter (h : l.Lined heard) (hun : Unlinked r) : (l.enter r).2.Lined heard := by
  refine h.keep rfl (turns_sublist (.refl _) ?_ fun url => ?_)
  · intro id i url hm
    obtain ⟨r', s, hr', hs, hlinked⟩ := Requests.module?_eq_some_iff.mp hm
    rcases Requests.get?_insert_eq_some hr' with ⟨_, rfl⟩ | hold
    · rw [(hun s (Request.mem_slots.mpr ⟨i, hs⟩)).1] at hlinked
      cases hlinked
    · exact Requests.module?_eq_some_iff.mpr ⟨r', s, hold, hs, hlinked⟩
  · unfold Loader.enter
    dsimp only [Loader.record]
    split
    · rw [Registry.waiters_setDefinition]
    · exact .refl _

theorem submit (h : l.Lined heard) (hlinked : l.AllLinked) (frame : Option Frame)
    (dependencies : List String) (callback : List ModuleValue → Script ν)
    (errback : Option (LoadError → Script ν)) (definitionUrl : Option String) :
    (l.submit frame dependencies callback errback definitionUrl).Lined heard := by
  have hun := unlinked_ofCall dependencies callback errback (l.context? frame) definitionUrl
  unfold Loader.submit
  generalize Request.ofCall dependencies callback errback (l.context? frame) definitionUrl = r
    at hun ⊢
  have henter := h.enter hun
  have hget := get?_enter_self l r
  dsimp only
  unfold Loader.begin
  split
  · exact henter.keep rfl fun url => by rw [turns_enqueue rfl]
  · split
    · refine (henter.link ?_ (fun hr' => ?_) _).1
      · have hquiet := hlinked.quiet
        constructor
        · intro url v hready
          unfold Loader.enter at hready ⊢
          dsimp only [Loader.record] at hready ⊢
          split at hready
          · rw [Registry.state?_setDefinition] at hready
            rw [Registry.waiters_setDefinition]
            exact hquiet.ready hready
          · exact hquiet.ready hready
        · intro id i v r' s hdue hr' hs
          rcases Requests.get?_insert_eq_some hr' with ⟨rfl, _⟩ | hold
          · exact absurd (hlinked.issued hdue) (Requests.not_issued_insert l.requests r)
          · exact hquiet.due hdue hold hs
      · rw [hget] at hr'
        cases hr'
        exact hun
    · exact henter.same rfl rfl rfl rfl

/-! ### Settling modules and taking requests out -/

theorem readyModule (h : l.Lined heard) (hlinked : l.AllLinked) (url : String) (v : ModuleValue) :
    (l.readyModule url v).Lined heard := by
  refine h.keep rfl fun u => ?_
  unfold Loader.readyModule Registry.markReady turns
  dsimp only
  by_cases ho : l.registry.IsOpen url
  · rw [Registry.fst_settle_of_isOpen _ ho, Registry.waiters_settle ho, List.filterMap_append,
      List.append_assoc]
    refine (List.Sublist.refl _).append ?_
    -- Those that wait for the module are the requests whose slots are linked to it.
    have hlinks : ∀ w ∈ l.registry.waiters url,
        l.requests.module? w.request w.slot = some url := by
      intro w hw
      obtain ⟨_, r, s, hr, hs, hm, _⟩ := hlinked.waiter hw
      exact Requests.module?_eq_some_iff.mpr ⟨r, s, hr, hs, hm⟩
    rw [List.filterMap_map]
    by_cases hu : u = url
    · subst hu
      have hturns : (l.registry.waiters u).filterMap
          (Step.turn? l.requests u ∘ fun w => .fill w.request w.slot v) =
          (l.registry.waiters u).map Waiter.request := by
        rw [← List.filterMap_eq_map]
        exact List.filterMap_congr fun w hw => if_pos (hlinks w hw)
      rw [hturns, if_pos rfl]
      simp
    · have hturns : (l.registry.waiters url).filterMap
          (Step.turn? l.requests u ∘ fun w => .fill w.request w.slot v) = [] := by
        refine List.filterMap_eq_nil_iff.mpr fun w hw => if_neg ?_
        rw [hlinks w hw, Option.some.injEq]
        exact fun heq => hu heq.symm
      rw [hturns, if_neg hu]
      exact .refl _
  · rw [Registry.settle_of_not_isOpen _ ho]
    simp

theorem abandonModule (h : l.Lined heard) (url : String) (e : LoadError) :
    (l.abandonModule url e).Lined heard := by
  refine h.keep rfl fun u => ?_
  have hnone : ∀ ws : List Waiter, (ws.map fun w => Step.fail w.request (.dependency url e)).filterMap
      (Step.turn? l.requests u) = [] := by
    intro ws
    refine List.filterMap_eq_nil_iff.mpr fun s hs => ?_
    obtain ⟨w, _, rfl⟩ := List.mem_map.mp hs
    rfl
  unfold Loader.abandonModule Registry.markFailed turns
  dsimp only
  rw [List.filterMap_append, hnone, List.append_nil]
  refine (List.Sublist.refl _).append (List.Sublist.map _ ?_)
  by_cases ho : (l.registry.setDefinition url none).IsOpen url
  · rw [Registry.waiters_settle ho]
    split
    · exact List.nil_sublist _
    · rw [Registry.waiters_setDefinition]
  · rw [Registry.settle_of_not_isOpen _ ho, Registry.waiters_setDefinition]

theorem withdraw (h : l.Lined heard) (id : RequestId) (r : Request ν) :
    (l.withdraw id r).Lined heard := by
  refine h.keep rfl (turns_sublist (.refl _) Requests.module?_of_erase fun url => ?_)
  simp only [Loader.withdraw, waiters_foldl_dropWaiters]
  split
  · exact List.filter_sublist
  · exact .refl _

theorem filled (h : l.Lined heard) (id : RequestId) (i : Nat) (v : ModuleValue) :
    Lined heard { l with requests := l.requests.modify id (·.fill i v) } :=
  h.keep rfl (turns_sublist (.refl _) Requests.module?_of_fill fun _ => .refl _)

theorem erased (h : l.Lined heard) (id : RequestId) :
    Lined heard { l with requests := l.requests.erase id } :=
  h.keep rfl (turns_sublist (.refl _) Requests.module?_of_erase fun _ => .refl _)

theorem rest (h : l.Lined heard) {s : Step} {rest : List Step} (hw : l.worklist = s :: rest) :
    Lined heard { l with worklist := rest } :=
  h.keep rfl (turns_sublist (hw ▸ List.sublist_cons_self s rest) (fun hm => hm) fun _ => .refl _)

end Lined
end Loader

open Loader in
theorem maintained_lined (heard : String → List RequestId) :
    Maintained fun (l : Loader ν) _ => l.AllLinked ∧ l.Lined heard where
  aside {_ k e} h ha := by
    refine ⟨maintained_linked.aside (k := k) h.1 ha, h.2.same ?_ rfl rfl rfl⟩
    exact List.filterMap_cons_none (by cases e <;> first | rfl | cases ha)
  make {_ k} payload h :=
    ⟨maintained_linked.make (k := k) payload h.1, h.2.same rfl rfl rfl rfl⟩
  fetches {_ k _} h ha :=
    ⟨maintained_linked.fetches (k := k) h.1 ha, h.2.same rfl rfl rfl rfl⟩
  arrive {_ k _ _ _} h htake :=
    ⟨maintained_linked.arrive (k := k) h.1 htake, h.2.same rfl rfl rfl rfl⟩
  enter {_ k _ _} role h hj :=
    ⟨maintained_linked.enter (k := k) role h.1 hj, h.2.same rfl rfl rfl rfl⟩
  require {_ k} frame dependencies callback errback h :=
    ⟨maintained_linked.require (k := k) frame dependencies callback errback h.1,
      h.2.submit h.1 frame dependencies callback errback none⟩
  define {_ k _} ctx defined dependencies factory errback h :=
    ⟨maintained_linked.define (k := k) ctx defined dependencies factory errback h.1,
      h.2.submit h.1 _ dependencies factory errback _⟩
  unwatch h := h
  setDefaultBase {_ k} base h :=
    ⟨maintained_linked.setDefaultBase (k := k) base h.1, h.2.same rfl rfl rfl rfl⟩
  establish {_ k} ctx h := ⟨maintained_linked.establish (k := k) ctx h.1,
    h.2.afterEstablishing h.1 (Bootstrap.deferred_establish _ ctx)⟩
  beginMain {_ k _} root t h hd :=
    ⟨maintained_linked.beginMain (k := k) root t h.1 hd, h.2.same rfl rfl rfl rfl⟩
  finishMain {_ k} t h := ⟨maintained_linked.finishMain (k := k) t h.1, h.2.finishMain h.1 t⟩
  ready {_ k _} v h := ⟨maintained_linked.ready (k := k) v h.1, h.2.readyModule h.1 _ v⟩
  abandon {_ k _ _} e h hm hd :=
    ⟨maintained_linked.abandon (k := k) e h.1 hm hd, h.2.abandonModule _ e⟩
  abandonDefinition {_ k _ url id r} e h hm hd hr :=
    ⟨maintained_linked.abandonDefinition (k := k) e h.1 hm hd hr,
      ((h.2.abandonModule url e).withdraw id r).same rfl rfl rfl rfl⟩
  finish {_ k _ _ _} h ho :=
    ⟨maintained_linked.finish (k := k) h.1 ho, h.2.same rfl rfl rfl rfl⟩
  fault {_ k _ _ _ _} h he :=
    ⟨maintained_linked.fault (k := k) h.1 he, h.2.same rfl rfl rfl rfl⟩
  handle {_ k _ _ _} h hj :=
    ⟨maintained_linked.handle (k := k) h.1 hj, h.2.same rfl rfl rfl rfl⟩
  dispatch {_ k} h hd := ⟨maintained_linked.dispatch (k := k) h.1 hd, h.2.same rfl rfl rfl rfl⟩
  redispatch h _ := h
  drained {_ k} h hw := ⟨maintained_linked.drained (k := k) h.1 hw, h.2.same rfl rfl rfl rfl⟩
  dead {_ k _ _} h hw hr := ⟨maintained_linked.dead (k := k) h.1 hw hr, h.2.rest hw⟩
  fill {_ k _ _ _ _ _} h hw hr hs :=
    ⟨maintained_linked.fill (k := k) h.1 hw hr hs, (h.2.rest hw).filled _ _ _⟩
  fillFire {_ k id i v _ _} h hw hr hs :=
    ⟨maintained_linked.fillFire (k := k) h.1 hw hr hs,
      (((h.2.rest hw).filled id i v).erased id).same rfl rfl rfl rfl⟩
  fire {_ k id _ _} h hw hr :=
    ⟨maintained_linked.fire (k := k) h.1 hw hr,
      ((h.2.rest hw).erased id).same rfl rfl rfl rfl⟩
  fail {_ k id _ _ r} h hw hr :=
    ⟨maintained_linked.fail (k := k) h.1 hw hr,
      ((h.2.rest hw).withdraw id r).same rfl rfl rfl rfl⟩

end AsyncModule
