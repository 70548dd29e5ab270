import AsyncModule.Proofs.Poised

/-!
# AsyncModule.Proofs.Abreast

A host's requests, made of two loaders. The one has a context already, and sees to each request
before the next is made. The other has been made all of them before it had a context; it links them
one after the other, and fails those that cannot be linked only when all have been linked. Until
then these are hidden.

* `Heard`                    — what the requests have been told on both loaders.
* `Abreast`                  — how far the two loaders have come.
* `Machine.inStep_all`       — they stay abreast until all requests have been linked.
* `Machine.draining_abreast` — and come to the same in the end.
-/

namespace AsyncModule

open List (Forall₂)

variable {ν : Type}

/-- A request that the loader with the context has failed, and the other has still to fail. -/
structure Failing (ν : Type) where
  call : Call ν
  request : RequestId
  error : LoadError

namespace Failing

variable (f : Failing ν)

def number : Nat := f.request.serial

def step : Step := .fail f.request f.error

def told : List Upshot := f.call.failingTold f.error

def made : Nat := f.call.failingMade f.error

end Failing

/-! ## What has been told -/

/-- The first `n` requests have been told the same on both loaders, but for some that have been
failed on the one and told nothing yet on the other. -/
structure Heard (n : Nat) (failing : List (Failing ν)) (j j' : List (Event ν)) : Prop where
  loads : loads j' = loads j
  quiet : ∀ m, n < m → upshots m j = []
  told : ∀ m ≤ n, m ∉ failing.map Failing.number → upshots m j' = upshots m j
  owed : ∀ f ∈ failing, f.number ≤ n ∧ upshots f.number j = f.told ∧ upshots f.number j' = []
  distinct : (failing.map Failing.number).Nodup

theorem TellsOf.upshots_append {n : Nat} {us : List Upshot} {new : List (Event ν)}
    (h : TellsOf n us new) (j : List (Event ν)) (m : Nat) :
    AsyncModule.upshots m (new ++ j) =
      if m = n then us ++ AsyncModule.upshots m j else AsyncModule.upshots m j := by
  rw [AsyncModule.upshots_append, h.upshots]
  split <;> rfl

theorem TellsOf.loads_append {n : Nat} {us : List Upshot} {new : List (Event ν)}
    (h : TellsOf n us new) (j : List (Event ν)) :
    AsyncModule.loads (new ++ j) = AsyncModule.loads j := by
  rw [AsyncModule.loads_append, h.loads, List.nil_append]

namespace Heard

variable {n : Nat} {failing : List (Failing ν)} {f : Failing ν} {j j' j₁ j₁' new : List (Event ν)}

theorem number_le (h : Heard n failing j j') {m : Nat} (hm : m ∈ failing.map Failing.number) :
    m ≤ n := by
  obtain ⟨f, hf, rfl⟩ := List.mem_map.mp hm
  exact (h.owed f hf).1

/-- The next request has been told what it has been told already on the other loader. -/
theorem fired (h : Heard n failing j j') {us : List Upshot} (hnew : TellsOf (n + 1) us new)
    (hu : upshots (n + 1) j' = us) : Heard (n + 1) failing (new ++ j) j' where
  loads := by rw [hnew.loads_append, h.loads]
  quiet m hm := by
    rw [hnew.upshots_append, if_neg (by omega)]
    exact h.quiet m (by omega)
  told m hm hfailing := by
    rw [hnew.upshots_append]
    split
    · rename_i heq
      rw [heq, hu, h.quiet _ (by omega), List.append_nil]
    · exact h.told m (by omega) hfailing
  owed f hf := by
    obtain ⟨hle, htold, huntold⟩ := h.owed f hf
    rw [hnew.upshots_append, if_neg (by omega)]
    exact ⟨by omega, htold, huntold⟩
  distinct := h.distinct

/-- The next request has been linked on both loaders. -/
theorem linked (h : Heard n failing j j') (hloads : AsyncModule.loads j₁' = AsyncModule.loads j₁)
    (hu : ∀ m, upshots m j₁ = upshots m j) (hu' : ∀ m, upshots m j₁' = upshots m j')
    (hnone : upshots (n + 1) j' = []) : Heard (n + 1) failing j₁ j₁' where
  loads := hloads
  quiet m hm := (hu m).trans (h.quiet m (by omega))
  told m hm hfailing := by
    rw [hu, hu']
    rcases Nat.lt_or_ge n m with hlt | hle
    · obtain rfl : m = n + 1 := by omega
      rw [hnone, h.quiet _ hlt]
    · exact h.told m hle hfailing
  owed f hf := by
    obtain ⟨hle, htold, huntold⟩ := h.owed f hf
    rw [hu, hu']
    exact ⟨by omega, htold, huntold⟩
  distinct := h.distinct

/-- The newest request has been failed on the one loader. -/
theorem failed (h : Heard n failing j j') (hf : f.number = n) (hnew : TellsOf n f.told new)
    (hfresh : n ∉ failing.map Failing.number) (hnone : upshots n j = [])
    (hnone' : upshots n j' = []) : Heard n (failing ++ [f]) (new ++ j) j' where
  loads := by rw [hnew.loads_append, h.loads]
  quiet m hm := by
    rw [hnew.upshots_append, if_neg (by omega)]
    exact h.quiet m hm
  told m hm hfailing := by
    rw [List.map_append, List.mem_append, not_or, List.map_singleton, List.mem_singleton, hf]
      at hfailing
    rw [hnew.upshots_append, if_neg hfailing.2]
    exact h.told m hm hfailing.1
  owed f' hf' := by
    rcases List.mem_append.mp hf' with hold | hlast
    · obtain ⟨hle, htold, huntold⟩ := h.owed f' hold
      have hne : f'.number ≠ n := fun heq => hfresh (heq ▸ List.mem_map_of_mem hold)
      rw [hnew.upshots_append, if_neg hne]
      exact ⟨hle, htold, huntold⟩
    · obtain rfl := List.mem_singleton.mp hlast
      rw [hf, hnew.upshots_append, if_pos rfl, hnone, List.append_nil]
      exact ⟨le_rfl, rfl, hnone'⟩
  distinct := by
    rw [List.map_append, List.map_singleton, hf]
    exact h.distinct.append (List.nodup_singleton n) (List.disjoint_singleton.mpr hfresh)

/-- A request has been failed on the other loader too. -/
theorem caughtUp (h : Heard n (f :: failing) j j') (hnew : TellsOf f.number f.told new) :
    Heard n failing j (new ++ j') := by
  obtain ⟨hle, htold, huntold⟩ := h.owed f (.head _)
  obtain ⟨hnot, hdistinct⟩ := List.nodup_cons.mp h.distinct
  exact {
    loads := by rw [hnew.loads_append, h.loads]
    quiet := h.quiet
    told := by
      intro m hm hfailing
      rw [hnew.upshots_append]
      split
      · rename_i heq
        rw [heq, htold, huntold, List.append_nil]
      · rename_i hne
        exact h.told m hm (List.not_mem_cons_of_ne_of_not_mem hne hfailing)
    owed := by
      intro f' hf'
      obtain ⟨hle', htold', huntold'⟩ := h.owed f' (.tail _ hf')
      have hne : f'.number ≠ f.number := fun heq => hnot (heq ▸ List.mem_map_of_mem hf')
      rw [hnew.upshots_append, if_neg hne]
      exact ⟨hle', htold', huntold'⟩
    distinct := hdistinct }

end Heard

/-! ## Hiding requests -/

theorem SameSince.loads {past past' j j' : List (Event ν)} (h : SameSince past past' j j')
    (hpast : AsyncModule.loads past' = AsyncModule.loads past) :
    AsyncModule.loads j' = AsyncModule.loads j := by
  obtain ⟨new, new', rfl, rfl, hnew⟩ := h
  rw [loads_append, loads_append, hpast]
  exact congrArg (· ++ _) (filterMap_unplaced Event.load?_unplaced hnew)

theorem SameSince.upshots {past past' j j' : List (Event ν)} (h : SameSince past past' j j')
    {n : Nat} (hpast : AsyncModule.upshots n past' = AsyncModule.upshots n past) :
    AsyncModule.upshots n j' = AsyncModule.upshots n j := by
  obtain ⟨new, new', rfl, rfl, hnew⟩ := h
  rw [upshots_append, upshots_append, hpast]
  exact congrArg (· ++ _) (filterMap_unplaced (Event.upshot?_unplaced n) hnew)

namespace Matching

variable {μ μ₁ : Matching ν} {l l' : Loader ν} {id id' : RequestId}

/-- From now on the two loaders are compared by what they tell after this. -/
def since (μ : Matching ν) (past past' : List (Event ν)) : Matching ν := { μ with past, past' }

/-- A request of the second loader is hidden. -/
def hide (μ : Matching ν) (id' : RequestId) : Matching ν :=
  { μ with shown := fun i => μ.shown i && i != id' }

theorem SameStep.of_places (hp : μ₁.places = μ.places) {s s' : Step} (h : μ.SameStep s s') :
    μ₁.SameStep s s' := by
  have hpairs : ∀ {i i'}, μ.Pairs i i' → μ₁.Pairs i i' := fun hi => ⟨hi.1, hp ▸ hi.2⟩
  cases h with
  | fill hid slot v => exact .fill (hpairs hid) slot v
  | fire hid => exact .fire (hpairs hid)
  | fail hid e => exact .fail (hpairs hid) e

namespace Same

theorem since (h : μ.Same l l') (j j' : List (Event ν)) :
    (μ.since j j').Same { l with journal := j } { l' with journal := j' } where
  resolver := h.resolver
  resources := h.resources
  fetches := h.fetches
  modules := ⟨h.modules.outline, h.modules.state, h.modules.waiters, h.modules.definition⟩
  requests := h.requests
  worklist := h.worklist.imp fun _ _ hs => hs.of_places (by rfl)
  journal := ⟨[], [], rfl, rfl, rfl⟩

/-- A request is taken out of the first loader, and hidden in the second. -/
theorem hide (h : μ.Same l l') (hid : μ.Pairs id id') (r : Request ν)
    (hwaiters : ∀ u, (l.withdraw id r).registry.waiters u =
      (l.registry.waiters u).filter (·.request != id))
    (hw' : ∀ s ∈ l'.worklist, (μ.hide id').shown s.request = false) :
    (μ.hide id').Same { l.withdraw id r with worklist := [] } l' where
  resolver := h.resolver
  resources := h.resources
  fetches := h.fetches
  modules := {
    outline := by
      rw [h.modules.outline]
      exact (Registry.outline_foldl_dropWaiters r.modules l.registry id).symm
    state := by
      intro u
      rw [h.modules.state]
      exact (Loader.state?_foldl_dropWaiters r.modules l.registry id u).symm
    waiters := by
      intro u
      have hfiltered := SameModules.filter_waiters hid (h.modules.waiters u)
      rw [← hwaiters, List.filter_filter] at hfiltered
      have hcomm : (fun w : Waiter => (μ.hide id').shown w.request) =
          fun w => (w.request != id') && μ.shown w.request := funext fun w => Bool.and_comm _ _
      rw [hcomm]
      exact hfiltered
    definition := by
      intro u
      have hd := Loader.definition?_foldl_dropWaiters r.modules l.registry id u
      show Option.Rel _ ((r.modules.foldl (fun g url => g.dropWaiters url id)
        l.registry).definition? u) _
      rw [hd]
      exact h.modules.definition u }
  requests {i i'} hi hshown := by
    obtain ⟨hshown, hne⟩ := Bool.and_eq_true_iff.mp hshown
    have hne : i ≠ id := fun heq => bne_iff_ne.mp hne ((hid.eq_iff hi).mp heq)
    rw [h.requests hi hshown]
    exact ((Requests.get?_erase l.requests id i).trans (if_neg hne)).symm
  worklist := by
    have hnone : (l'.worklist.filter fun s => (μ.hide id').shown s.request) = [] :=
      List.filter_eq_nil_iff.mpr fun s hs => Bool.eq_false_iff.mp (hw' s hs)
    rw [hnone]
    exact .nil
  journal := h.journal

/-- A hidden request is taken out of the second loader. -/
theorem withdrawHidden (h : μ.Same l l') (hid' : μ.shown id' = false) (r : Request ν)
    {rest : List Step} (hrest : (rest.filter fun s => μ.shown s.request) =
      l'.worklist.filter fun s => μ.shown s.request) :
    μ.Same l { l'.withdraw id' r with worklist := rest } :=
  { h with
    modules := h.modules.dropHidden hid' r.modules
    requests := by
      intro i i' hi hshown
      have hne : i' ≠ id' := by
        rintro rfl
        rw [hid'] at hshown
        cases hshown
      rw [← h.requests hi hshown]
      exact (Requests.get?_erase l'.requests id' i').trans (if_neg hne)
    worklist := by
      dsimp only
      rw [hrest]
      exact h.worklist }

/-- The next request is linked on both loaders. It is made on the first one with the context, and
has been made on the second one without. -/
theorem submitted (h : μ.Same l l') {c : Call ν} (ctx : Context)
    (hnew : μ.places (l.requests.serial + 1) = none) (hserial : id'.serial = l.requests.serial + 1)
    (hr' : l'.requests.get? id' = some (c.request none)) (hshown : μ.shown id' = true) :
    ((μ.since (l.enter (c.request (some ctx))).2.journal l'.journal).add
      (l.enter (c.request (some ctx))).1 id').Same
      ((l.enter (c.request (some ctx))).2.link (l.enter (c.request (some ctx))).1 ctx)
      (l'.link id' ctx) := by
  have hself : ((μ.since (l.enter (c.request (some ctx))).2.journal l'.journal).add
      (l.enter (c.request (some ctx))).1 id').Pairs (l.enter (c.request (some ctx))).1 id' :=
    pairs_add_self hserial
  have hbase : ((μ.since (l.enter (c.request (some ctx))).2.journal l'.journal).add
      (l.enter (c.request (some ctx))).1 id').Same
      { (l.enter (c.request (some ctx))).2 with
        requests := (l.enter (c.request (some ctx))).2.requests.modify
          (l.enter (c.request (some ctx))).1 fun r => { r with context := some ctx } }
      { l' with requests := l'.requests.modify id' fun r => { r with context := some ctx } } := {
    resolver := h.resolver
    resources := h.resources
    fetches := h.fetches
    modules := (h.since _ _).modules.add hnew
    requests := by
      intro i i' hi hshown
      rcases of_pairs_add hserial hi with ⟨rfl, rfl⟩ | hold
      · rw [Requests.get?_modify_self _ hr',
          Requests.get?_modify_self _ (Loader.get?_enter_self l _)]
        rfl
      · have hne : i ≠ (l.enter (c.request (some ctx))).1 := by
          rintro rfl
          exact absurd (hold.2.symm.trans hnew) (by simp)
        have hne' : i' ≠ id' := fun heq => hne ((hself.eq_iff hi).mpr heq)
        rw [Requests.get?_modify_of_ne _ hne', Requests.get?_modify_of_ne _ hne, Loader.get?_enter,
          if_neg hne]
        exact h.requests hold hshown
    worklist := (h.since _ _).worklist.imp fun _ _ hs => hs.add hnew
    journal := ⟨[], [], rfl, rfl, rfl⟩ }
  unfold Loader.link
  rw [hr', Loader.get?_enter_self]
  refine Same.linkSlots hself hshown ctx none _ (hbase.record ?_) (.inl rfl)
  simp [Event.unplaced, hself.unplaced, h.resolver, Loader.enter, Loader.record]

end Same
end Matching

/-! ## How far the two loaders have come -/

/-- The second loader has still to link some requests, for calls that have not been made of the
first one yet, and it has to fail some others, which are hidden. But for these the loaders are the
same. -/
structure Abreast (μ : Matching ν) (calls : List (Call ν)) (ids : List RequestId)
    (failing : List (Failing ν)) (l l' : Loader ν) : Prop extends μ.Same l l' where
  bootstrap : l'.bootstrap = l.bootstrap
  left : ∀ {id r}, l.requests.get? id = some r → ∃ id', μ.Pairs id id' ∧ μ.shown id' = true
  right : ∀ {id' r}, l'.requests.get? id' = some r →
    id' ∈ ids ∨ id' ∈ failing.map Failing.request ∨ ∃ id, μ.Pairs id id' ∧ μ.shown id' = true
  fresh : ∀ id' : RequestId, l.requests.serial < id'.serial → μ.shown id' = true
  unissued : ∀ n, l.requests.serial < n → μ.places n = none
  serial : l'.requests.serial = l.requests.serial + calls.length
  queued : Queued l' l.requests.serial calls ids
  live : ∀ f ∈ failing, (l'.requests.get? f.request).map Request.sequel =
    some (f.call.callback, f.call.errback, none)
  hidden : ∀ f ∈ failing, μ.shown f.request = false
  values : l'.values + (failing.map Failing.made).sum =
    l.values + (calls.map Call.postponedMade).sum
  heard : Heard l.requests.serial failing l.journal l'.journal

namespace Abreast

variable {μ : Matching ν} {c : Call ν} {calls : List (Call ν)} {id id' : RequestId}
  {ids : List RequestId} {failing : List (Failing ν)} {f : Failing ν} {l l' : Loader ν}
  {r : Request ν} {e : LoadError} {ctx : Context} {new : List (Event ν)}

theorem dispatching (h : Abreast μ calls ids failing l l') (b : Bool) :
    Abreast μ calls ids failing l { l' with dispatching := b } :=
  { h with queued := h.queued.keep (fun _ _ => rfl) fun _ => rfl }

/-- A request without dependencies is made of the first loader; the second has seen to it. -/
theorem fired (h : Abreast μ (c :: calls) ids failing l l') (hw : l.worklist = [])
    (hc : c.dependencies = []) (ctx : Option Context)
    (hnew : TellsOf (l.requests.serial + 1) c.firingTold new) :
    Abreast (μ.since (new ++ (l.enter (c.request ctx)).2.journal) l'.journal) calls ids failing
      (Machine.fired c (l.enter (c.request ctx)).2 (l.enter (c.request ctx)).1 new) l' := by
  obtain ⟨hu, hqueued⟩ := h.queued.of_nil hc
  have hserial : (Machine.fired c (l.enter (c.request ctx)).2 (l.enter (c.request ctx)).1
      new).requests.serial = l.requests.serial + 1 := Requests.serial_erase _ _
  have hsince := h.toSame.since (new ++ (l.enter (c.request ctx)).2.journal) l'.journal
  exact { h with
    toSame := { hsince with
      requests := by
        intro i i' hi hshown
        have hne : i ≠ (l.enter (c.request ctx)).1 := by
          rintro rfl
          exact absurd (hi.2.symm.trans (h.unissued _ (Nat.lt_succ_self _))) (by simp)
        rw [Machine.get?_fired, if_neg hne]
        exact h.requests hi hshown
      worklist := by
        have hwork := hsince.worklist
        dsimp only at hwork
        rwa [hw] at hwork }
    left := by
      intro i q hq
      rw [Machine.get?_fired] at hq
      split at hq
      · cases hq
      · exact h.left hq
    fresh := fun i' hi' => h.fresh i' (by omega)
    unissued := fun n hn => h.unissued n (by omega)
    serial := by rw [h.serial, hserial, List.length_cons]; omega
    queued := hserial ▸ hqueued
    values := by
      have hvalues := h.values
      rw [List.map_cons, List.sum_cons, Call.postponedMade, if_pos hc, ← Nat.add_assoc] at hvalues
      exact hvalues
    heard := by
      have hentered : TellsOf (l.requests.serial + 1) [] [Event.submitted (ν := ν)
          (l.enter (c.request ctx)).1 (c.request ctx).dependencies none] :=
        .event rfl fun m => (ite_self _).symm
      have hheard := h.heard.fired (hentered.append hnew) (by rw [List.append_nil, hu])
      rw [List.append_assoc] at hheard
      rw [hserial]
      exact hheard }

/-- The next request is linked on both loaders. -/
theorem submitted (h : Abreast μ (c :: calls) (id' :: ids) failing l l') (hpoised : l.Poised ctx)
    (hc : c.dependencies ≠ []) :
    ∃ μ₁, μ₁.Pairs (l.enter (c.request (some ctx))).1 id' ∧ id'.serial = l.requests.serial + 1 ∧
      (l'.requests.get? id').map Request.sequel = some (c.callback, c.errback, none) ∧
      upshots (l.requests.serial + 1) l'.journal = [] ∧
      Abreast μ₁ calls ids failing (c.submitted l) (l'.link id' ctx) := by
  obtain ⟨_, _, heq, hid', hr', hu, hqueued⟩ := h.queued.of_ne_nil hc
  cases heq
  have hnew := h.unissued _ (Nat.lt_succ_self _)
  -- what has been told up to here came in another order, so the journals are compared from now on
  have hsame := h.toSame.submitted ctx hnew hid' hr' (h.fresh id' (by omega))
  have hlevel := Loader.Level.link (l.enter (c.request (some ctx))).2
    (l.enter (c.request (some ctx))).1 ctx
  have hlevel' := Loader.Level.link l' id' ctx
  rw [← c.submitted_of_some l hc hpoised.context] at hsame hlevel
  have hserial := hpoised.serial_submitted hc
  have hself : ((μ.since (l.enter (c.request (some ctx))).2.journal l'.journal).add
      (l.enter (c.request (some ctx))).1 id').Pairs (l.enter (c.request (some ctx))).1 id' :=
    Matching.pairs_add_self hid'
  have hold : ∀ {i i'}, μ.Pairs i i' → ((μ.since (l.enter (c.request (some ctx))).2.journal
      l'.journal).add (l.enter (c.request (some ctx))).1 id').Pairs i i' :=
    fun hi => Matching.Pairs.add (show (μ.since _ _).places
      (l.enter (c.request (some ctx))).1.serial = none from hnew) hi
  refine ⟨_, hself, hid', by rw [hr']; rfl, hu, ?_⟩
  exact { hsame with
    bootstrap := by rw [hlevel'.bootstrap, hlevel.bootstrap]; exact h.bootstrap
    left := by
      intro i q hq
      obtain ⟨q, hq, _⟩ := hlevel.get?_eq_some hq
      rcases Requests.get?_insert_eq_some hq with ⟨rfl, _⟩ | hq
      · exact ⟨id', hself, h.fresh id' (by omega)⟩
      · obtain ⟨i', hi, hshown⟩ := h.left hq
        exact ⟨i', hold hi, hshown⟩
    right := by
      intro i' q hq
      obtain ⟨q, hq, _⟩ := hlevel'.get?_eq_some hq
      rcases h.right hq with hmem | hmem | ⟨i, hi, hshown⟩
      · rcases List.mem_cons.mp hmem with rfl | hmem
        · exact .inr (.inr ⟨_, hself, h.fresh i' (by omega)⟩)
        · exact .inl hmem
      · exact .inr (.inl hmem)
      · exact .inr (.inr ⟨i, hold hi, hshown⟩)
    fresh := fun i' hi' => h.fresh i' (by omega)
    unissued := by
      intro n hn
      have hne : n ≠ (l.enter (c.request (some ctx))).1.serial := by
        have : (l.enter (c.request (some ctx))).1.serial = l.requests.serial + 1 := rfl
        omega
      exact (Matching.places_add_of_ne hne).trans (h.unissued n (by omega))
    serial := by rw [hlevel'.serial, h.serial, hserial, List.length_cons]; omega
    queued := by
      rw [hserial]
      refine hqueued.keep (fun i hi => ?_) (Loader.upshots_link l' id' ctx)
      exact Loader.get?_link_of_ne (by rintro rfl; omega)
    live := by
      intro f hf
      rw [hlevel'.sequel]
      exact h.live f hf
    hidden := h.hidden
    values := by
      have hvalues := h.values
      rw [List.map_cons, List.sum_cons, Call.postponedMade, if_neg hc, Nat.zero_add] at hvalues
      rw [hlevel'.values, hlevel.values]
      exact hvalues
    heard := by
      rw [hserial]
      exact h.heard.linked (hsame.journal.loads h.heard.loads) (hpoised.upshots_submitted hc)
        (Loader.upshots_link l' id' ctx) hu }

/-- The newest request is failed on the first loader, and is to be failed on the second. -/
theorem failed (h : Abreast μ calls ids failing l l') (hid : μ.Pairs f.request id')
    (hnumber : f.number = l.requests.serial) (hfresh : f.number ∉ failing.map Failing.number)
    (hwaiters : ∀ u, (l.withdraw f.request r).registry.waiters u =
      (l.registry.waiters u).filter (·.request != f.request))
    (hwork' : l'.worklist = (failing ++ [{ f with request := id' }]).map Failing.step)
    (hlive : (l'.requests.get? id').map Request.sequel =
      some (f.call.callback, f.call.errback, none))
    (hdeferred : l.bootstrap.deferred = [])
    (hnone : upshots f.number l.journal = []) (hnone' : upshots f.number l'.journal = [])
    (hnew : TellsOf f.number f.told new) :
    Abreast ((μ.hide id').since (new ++ l.journal) l'.journal) calls ids
      (failing ++ [{ f with request := id' }])
      { l.withdraw f.request r with
        worklist := []
        dispatching := false
        values := l.values + f.made
        journal := new ++ l.journal } l' := by
  have hserial' : id'.serial = l.requests.serial := hid.1.trans hnumber
  have hkept : (l.withdraw f.request r).requests.serial = l.requests.serial :=
    Requests.serial_erase _ _
  have hhidden : ∀ f' ∈ failing ++ [{ f with request := id' }],
      (μ.hide id').shown f'.request = false := by
    intro f' hf'
    rcases List.mem_append.mp hf' with hf' | hf'
    · simp [Matching.hide, h.hidden f' hf']
    · simp [Matching.hide, List.mem_singleton.mp hf']
  have hsame : (μ.hide id').Same { l.withdraw f.request r with worklist := [] } l' := by
    refine h.toSame.hide hid r hwaiters fun s hs => ?_
    rw [hwork'] at hs
    obtain ⟨f', hf', rfl⟩ := List.mem_map.mp hs
    exact hhidden f' hf'
  have hshown : ∀ {i'}, μ.shown i' = true → i' ≠ id' → (μ.hide id').shown i' = true := by
    intro i' hi' hne
    simp [Matching.hide, hi', hne]
  exact { hsame.since (new ++ l.journal) l'.journal with
    bootstrap := by
      show l'.bootstrap = l.bootstrap.forget f.request
      rw [h.bootstrap, Bootstrap.forget, hdeferred, List.filter_nil, ← hdeferred]
    left := by
      intro i q hq
      have hne : i ≠ f.request := by
        rintro rfl
        exact absurd ((Requests.get?_erase l.requests _ _).symm.trans hq) (by simp)
      obtain ⟨i', hi, hi'⟩ := h.left (Requests.get?_of_erase hq)
      exact ⟨i', hi, hshown hi' fun heq => hne ((hid.eq_iff hi).mpr heq)⟩
    right := by
      intro i' q hq
      rw [List.map_append, List.mem_append]
      rcases h.right hq with hmem | hmem | ⟨i, hi, hi'⟩
      · exact .inl hmem
      · exact .inr (.inl (.inl hmem))
      · by_cases heq : i' = id'
        · exact .inr (.inl (.inr (List.mem_singleton.mpr heq)))
        · exact .inr (.inr ⟨i, hi, hshown hi' heq⟩)
    fresh := by
      intro i' hi'
      have hlt : l.requests.serial < i'.serial := hkept.symm.trans_lt hi'
      exact hshown (h.fresh i' hlt) (by rintro rfl; omega)
    unissued := fun n hn => h.unissued n (hkept.symm.trans_lt hn)
    serial := h.serial.trans (congrArg (· + calls.length) hkept.symm)
    queued := by
      have hqueued := h.queued
      rw [← hkept] at hqueued
      exact hqueued
    live := by
      intro f' hf'
      rcases List.mem_append.mp hf' with hf' | hf'
      · exact h.live f' hf'
      · rw [List.mem_singleton.mp hf']
        exact hlive
    hidden := hhidden
    values := by
      have hvalues := h.values
      rw [List.map_append, List.sum_append]
      show l'.values + (_ + (f.made + 0)) = l.values + f.made + _
      omega
    heard := by
      have htold := h.heard.failed (f := { f with request := id' }) hserial'
        (hnumber ▸ hnew) (hnumber ▸ hfresh) (hnumber ▸ hnone) (hnumber ▸ hnone')
      rw [← hkept] at htold
      exact htold }

/-- A request is failed on the second loader too. -/
theorem caughtUp (h : Abreast μ [] [] (f :: failing) l l') (hw' : l'.worklist =
      (f :: failing).map Failing.step) (hdeferred : l.bootstrap.deferred = [])
    (hnew : TellsOf f.number f.told new) :
    Abreast (μ.since l.journal (new ++ l'.journal)) [] [] failing l
      { l'.withdraw f.request r with
        worklist := failing.map Failing.step
        values := l'.values + f.made
        journal := new ++ l'.journal } := by
  have hhidden := h.hidden f (.head _)
  have hrest : ((failing.map Failing.step).filter fun s => μ.shown s.request) =
      l'.worklist.filter fun s => μ.shown s.request := by
    rw [hw', List.map_cons, List.filter_cons_of_neg]
    exact Bool.eq_false_iff.mp hhidden
  have hsame := h.toSame.withdrawHidden hhidden r hrest
  exact { hsame.since l.journal (new ++ l'.journal) with
    bootstrap := by
      show l'.bootstrap.forget f.request = l.bootstrap
      rw [h.bootstrap, Bootstrap.forget, hdeferred, List.filter_nil, ← hdeferred]
    left := h.left
    right := by
      intro i' q hq
      have hne : i' ≠ f.request := by
        rintro rfl
        exact absurd ((Requests.get?_erase l'.requests _ _).symm.trans hq) (by simp)
      rcases h.right (Requests.get?_of_erase hq) with hmem | hmem | hpaired
      · exact .inl hmem
      · exact .inr (.inl ((List.mem_cons.mp hmem).resolve_left hne))
      · exact .inr (.inr hpaired)
    fresh := h.fresh
    unissued := h.unissued
    serial := (Requests.serial_erase _ _).trans h.serial
    queued := by
      have hle := (h.heard.owed f (.head _)).1
      cases h.queued with
      | nil hquiet =>
        refine .nil fun m hm => ?_
        exact (hnew.upshots_append _ _).trans ((if_neg (by omega)).trans (hquiet m hm))
    live := by
      intro f' hf'
      have hne : f'.request ≠ f.request := by
        intro heq
        exact (List.nodup_cons.mp h.heard.distinct).1
          (List.mem_map.mpr ⟨f', hf', congrArg RequestId.serial heq⟩)
      show ((l'.requests.erase f.request).get? f'.request).map _ = _
      rw [Requests.get?_erase, if_neg hne]
      exact h.live f' (.tail _ hf')
    hidden := fun f' hf' => h.hidden f' (.tail _ hf')
    values := by
      have hvalues := h.values
      rw [List.map_cons, List.sum_cons] at hvalues
      show l'.values + f.made + _ = _
      omega
    heard := h.heard.caughtUp hnew }

end Abreast

/-! ## From one request to the next -/

/-- The first loader has nothing to do, and the second nothing but to fail what the first one has
failed. -/
def InStep (ctx : Context) (calls : List (Call ν)) (ids : List RequestId) (l l' : Loader ν) :
    Prop :=
  ∃ μ failing, Abreast μ calls ids failing l l' ∧ l.Poised ctx ∧
    l'.worklist = failing.map Failing.step

namespace Machine

variable {μ : Matching ν} {c : Call ν} {calls : List (Call ν)} {id' : RequestId}
  {ids : List RequestId} {failing : List (Failing ν)} {l l' : Loader ν} {ctx : Context}
  {e : LoadError}

/-- What the loaders have to do once the next request is linked. -/
theorem worklists_submitted (h : Abreast μ (c :: calls) (id' :: ids) failing l l')
    (hpoised : l.Poised ctx) (hc : c.dependencies ≠ []) :
    (l'.link id' ctx).worklist = l'.worklist ++
      ((l.resolver.obstacle? ctx c.dependencies).map (Step.fail id')).toList := by
  obtain ⟨_, _, heq, _, hr', _⟩ := h.queued.of_ne_nil hc
  cases heq
  have hunsettled : l'.registry.Unsettled :=
    fun url s hs => hpoised.unsettled url s ((h.modules.state url).symm.trans hs)
  have hw := (Loader.link_unsettled ctx hunsettled hr' rfl).2
  rwa [h.resolver, Loader.Poised.dependencies_request] at hw

/-- The next request can be linked. -/
theorem linked_inStep (h : Abreast μ (c :: calls) (id' :: ids) failing l l')
    (hpoised : l.Poised ctx) (hw' : l'.worklist = failing.map Failing.step)
    (hc : c.dependencies ≠ []) (hfree : l.resolver.obstacle? ctx c.dependencies = none)
    (next : Script ν) :
    Steps ⟨l, [.body none (c.script next) .plain]⟩ ⟨c.submitted l, [.body none next .plain]⟩ ∧
      InStep ctx calls ids (c.submitted l) (l'.link id' ctx) := by
  obtain ⟨μ₁, _, _, _, _, hsubmitted⟩ := h.submitted hpoised hc
  obtain ⟨hrested, hw⟩ := hpoised.submitted hc
  have hw₁' := worklists_submitted h hpoised hc
  rw [hfree] at hw hw₁'
  refine ⟨submitted_steps c next hrested.idle hw, μ₁, failing, hsubmitted, ?_, ?_⟩
  · exact { hrested with worklist := hw }
  · rw [hw₁', hw']
    exact List.append_nil _

/-- The next request cannot be linked. -/
theorem failed_inStep (h : Abreast μ (c :: calls) (id' :: ids) failing l l')
    (hpoised : l.Poised ctx) (hw' : l'.worklist = failing.map Failing.step)
    (hc : c.dependencies ≠ []) (hobstacle : l.resolver.obstacle? ctx c.dependencies = some e)
    (next : Script ν) (hreachable : Reachable ⟨l, [.body none (c.script next) .plain]⟩) :
    ∃ l₁, Steps ⟨l, [.body none (c.script next) .plain]⟩ ⟨l₁, [.body none next .plain]⟩ ∧
      InStep ctx calls ids l₁ (l'.link id' ctx) := by
  obtain ⟨μ₁, hself, hserial', hlive, hnone', hsubmitted⟩ := h.submitted hpoised hc
  obtain ⟨hrested, hw⟩ := hpoised.submitted hc
  have hw₁' := worklists_submitted h hpoised hc
  rw [hobstacle] at hw hw₁'
  -- a request waits for no module but those that it is linked to: taking it out leaves no waiter
  have hlinked := ((call_steps c l next hrested.idle).reachable hreachable).allLinked
  obtain ⟨r, hr, herrback, hd⟩ := hpoised.get?_submitted hc
  have hserial := hpoised.serial_submitted hc
  have hnumber_le : ∀ m ∈ failing.map Failing.number, m ≤ l.requests.serial :=
    fun m hm => h.heard.number_le hm
  obtain ⟨new, hnew, hsteps⟩ := failed_steps c next hrested.idle hw hr herrback hd
  let f : Failing ν := ⟨c, (l.enter (c.request (some ctx))).1, e⟩
  have hnumber : f.number = l.requests.serial + 1 := rfl
  have hfailed := hsubmitted.failed (f := f) (r := r) hself (hnumber.trans hserial.symm)
    (fun hmem => absurd (hnumber_le _ hmem) (by omega))
    (Loader.Linked.waiters_withdraw hlinked hr) ?_ ?_ hrested.deferred ?_ ?_ hnew
  · refine ⟨_, hsteps, _, _, hfailed, { hrested.withdraw _ r with idle := rfl }, ?_⟩
    rw [hw₁', hw', List.map_append]
    rfl
  · rw [hw₁', hw', List.map_append]
    rfl
  · rw [(Loader.Level.link l' id' ctx).sequel]
    exact hlive
  · rw [hpoised.upshots_submitted hc, hnumber]
    exact h.heard.quiet _ (Nat.lt_succ_self _)
  · rw [Loader.upshots_link]
    exact hnone'

/-- The next request is made of the first loader, and linked on the second one if it is deferred. -/
theorem inStep_cons (h : InStep ctx (c :: calls) ids l l') (next : Script ν)
    (hreachable : Reachable ⟨l, [.body none (c.script next) .plain]⟩) :
    ∃ ids₀ ids₁ l₁, ids = ids₀ ++ ids₁ ∧
      Steps ⟨l, [.body none (c.script next) .plain]⟩ ⟨l₁, [.body none next .plain]⟩ ∧
      InStep ctx calls ids₁ l₁ (ids₀.foldl (fun l id => l.link id ctx) l') := by
  obtain ⟨μ, failing, h, hpoised, hw'⟩ := h
  by_cases hc : c.dependencies = []
  · obtain ⟨new, hnew, hsteps⟩ := fired_steps c next hpoised.worklist hpoised.idle hc
    rw [hpoised.context] at hsteps
    exact ⟨[], ids, _, rfl, hsteps, _, failing, h.fired hpoised.worklist hc _ hnew,
      hpoised.fired new, hw'⟩
  · obtain ⟨id', ids₁, rfl, _⟩ := h.queued.of_ne_nil hc
    cases hobstacle : l.resolver.obstacle? ctx c.dependencies with
    | none =>
      obtain ⟨hsteps, hlinked⟩ := linked_inStep h hpoised hw' hc hobstacle next
      exact ⟨[id'], ids₁, _, rfl, hsteps, hlinked⟩
    | some e =>
      obtain ⟨l₁, hsteps, hfailed⟩ := failed_inStep h hpoised hw' hc hobstacle next hreachable
      exact ⟨[id'], ids₁, l₁, rfl, hsteps, hfailed⟩

/-- All requests are made of the first loader, and linked on the second one if they are deferred. -/
theorem inStep_all (next : Script ν) (calls : List (Call ν)) :
    ∀ {ids : List RequestId} {l l' : Loader ν}, InStep ctx calls ids l l' →
      Reachable ⟨l, [.body none (callAll calls next) .plain]⟩ →
      ∃ l₁, Steps ⟨l, [.body none (callAll calls next) .plain]⟩ ⟨l₁, [.body none next .plain]⟩ ∧
        InStep ctx [] [] l₁ (ids.foldl (fun l id => l.link id ctx) l') := by
  induction calls with
  | nil =>
    intro ids l l' h _
    obtain rfl : ids = [] := by
      obtain ⟨_, _, h, _⟩ := h
      cases h.queued
      rfl
    exact ⟨l, .refl, h⟩
  | cons c calls ih =>
    intro ids l l' h hreachable
    obtain ⟨ids₀, ids₁, l₁, rfl, hsteps, h₁⟩ := inStep_cons h (callAll calls next) hreachable
    obtain ⟨l₂, hsteps₂, h₂⟩ := ih h₁ (hsteps.reachable hreachable)
    rw [← List.foldl_append] at h₂
    exact ⟨l₂, hsteps.trans hsteps₂, h₂⟩

/-- The second loader fails what the first one has failed. -/
theorem draining_abreast (hpoised : l.Poised ctx) (k : List (Task ν)) (failing : List (Failing ν)) :
    ∀ {μ : Matching ν} {l' : Loader ν}, Abreast μ [] [] failing l l' →
      l'.worklist = failing.map Failing.step →
      ∃ μ₁ l₁', Steps ⟨l', .draining :: k⟩ ⟨l₁', k⟩ ∧ l₁'.worklist = [] ∧
        l₁'.dispatching = false ∧ Abreast μ₁ [] [] [] l l₁' := by
  induction failing with
  | nil =>
    intro μ l' h hw'
    exact ⟨μ, _, drained_steps l' hw' k, hw', rfl, h.dispatching false⟩
  | cons f failing ih =>
    intro μ l' h hw'
    obtain ⟨r, hr, hsequel⟩ := Option.map_eq_some_iff.mp (h.live f (.head _))
    simp only [Request.sequel, Prod.mk.injEq] at hsequel
    obtain ⟨new, hnew, hsteps⟩ := fail_steps f.call l' hw' hr hsequel.2.1 hsequel.2.2 k
    obtain ⟨μ₁, l₁', hrest, hdone⟩ := ih (h.caughtUp hw' hpoised.deferred hnew) rfl
    exact ⟨μ₁, l₁', hsteps.trans hrest, hdone⟩

end Machine
end AsyncModule
