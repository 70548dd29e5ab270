import AsyncModule.Proofs.Deferral
import AsyncModule.Proofs.Failing

/-!
# AsyncModule.Proofs.Draining

How what was deferred is linked, once there is a context. One request comes after the other, in
their order. The dependencies of each are linked in the order in which they are declared, up to
the first that names nothing, and for this the request is about to fail.

* `Loader.LinkedIn`  — how one request has been linked.
* `linkedIn_linkAll` — so has each of those that are linked one after the other.
-/

namespace AsyncModule

variable {ν : Type}

/-- The targets that specifiers name, without those specifiers that name none. -/
def Resolver.targets (resolver : Resolver) (ctx : Context) (specifiers : List String) :
    List Target :=
  specifiers.filterMap fun specifier => (resolver.resolve specifier ctx).toOption

namespace Loader

variable {l l' l'' l₀ : Loader ν} {ctx : Context} {id : RequestId} {r : Request ν} {n : Nat}
  {specifier : String} {t : Target} {loaded : List Target}

/-- A request is live and linked up to its `n`-th dependency, and what has been loaded since the
loader was `l₀` is among what these dependencies name, in their order. -/
structure Reaches (l₀ : Loader ν) (ctx : Context) (id : RequestId) (dependencies : List String)
    (n : Nat) (l : Loader ν) : Prop where
  resolver : l.resolver = l₀.resolver
  live : ∃ r, l.requests.get? id = some r ∧ r.dependencies = dependencies ∧
    r.LinkedUpTo l₀.resolver ctx n
  loaded : ∃ loaded : List Target, loaded.Sublist (l₀.resolver.targets ctx (dependencies.take n)) ∧
    l.journal = (loaded.map (Event.load · .module)).reverse ++ l₀.journal

theorem targets_take {ρ : Resolver} {dependencies : List String}
    (hn : dependencies[n]? = some specifier) (ht : ρ.resolve specifier ctx = .ok t) :
    ρ.targets ctx (dependencies.take (n + 1)) = ρ.targets ctx (dependencies.take n) ++ [t] := by
  rw [Resolver.targets, List.take_add_one, hn, List.filterMap_append]
  simp [Resolver.targets, ht, Except.toOption]

theorem Reaches.attach {dependencies : List String} (h : Reaches l₀ ctx id dependencies n l)
    (hn : dependencies[n]? = some specifier) (ht : l.resolver.resolve specifier ctx = .ok t) :
    Reaches l₀ ctx id dependencies (n + 1) (l.attach id n t) := by
  obtain ⟨r, hr, rfl, hlinked⟩ := h.live
  rw [h.resolver] at ht
  have hslot := hn
  rw [Request.dependencies, List.getElem?_map] at hslot
  obtain ⟨s, hs, rfl⟩ := Option.map_eq_some_iff.mp hslot
  refine ⟨?_, ⟨r.link n t.key, ?_, Request.dependencies_link r n t.key, hlinked.link hs ht⟩, ?_⟩
  · rw [resolver_attach, h.resolver]
  · rw [requests_attach]
    exact Requests.get?_modify_self _ hr
  · obtain ⟨loaded, hsub, hj⟩ := h.loaded
    rw [targets_take hn ht]
    rcases attach_cases l id n t with ⟨_, hold⟩ | ⟨_, hnew⟩
    · exact ⟨loaded, hsub.trans (List.sublist_append_left _ _), by rw [hold, hj]⟩
    · refine ⟨loaded ++ [t], hsub.append (List.Sublist.refl _), ?_⟩
      rw [hnew, hj]
      simp

/-- A request that is linked to nothing begins to be linked. -/
theorem reaches_linked (hr : l.requests.get? id = some r) (hun : Unlinked r) (ctx : Context) :
    Reaches (l.record (.linked id l.resolver ctx)) ctx id r.dependencies 0
      (record { l with requests := l.requests.modify id fun r => { r with context := some ctx } }
        (.linked id l.resolver ctx)) := by
  refine ⟨rfl, ⟨_, Requests.get?_modify_self _ hr, rfl, ?_⟩, [], List.nil_sublist _, rfl⟩
  exact ⟨fun _ hj => absurd hj (Nat.not_lt_zero _),
    fun hs _ => (hun _ (Request.mem_slots.mpr ⟨_, hs⟩)).1,
    fun hs => (hun _ (Request.mem_slots.mpr ⟨_, hs⟩)).2⟩

/-- How a request that defines nothing has been linked in a context, from one moment to another:
up to its `n`-th dependency. -/
structure LinkedIn (l l' : Loader ν) (ctx : Context) (id : RequestId) (r : Request ν) (n : Nat)
    (loaded : List Target) : Prop where
  live : l.requests.get? id = some r
  linked : ∃ r', l'.requests.get? id = some r' ∧ r'.dependencies = r.dependencies ∧
    r'.LinkedUpTo l.resolver ctx n
  inOrder : loaded.Sublist (l.resolver.targets ctx (r.dependencies.take n))
  stops : r.dependencies[n]? = none ∨ ∃ specifier e, r.dependencies[n]? = some specifier ∧
    l.resolver.resolve specifier ctx = .error e ∧ .fail id e ∈ l'.worklist

theorem linkedIn_link (hr : l.requests.get? id = some r) (hd : r.definitionUrl = none)
    (hun : Unlinked r) (ctx : Context) :
    (l.link id ctx).resolver = l.resolver ∧ ∃ n loaded,
      LinkedIn l (l.link id ctx) ctx id r n loaded ∧
      (l.link id ctx).journal =
        (loaded.map (Event.load · .module)).reverse ++ .linked id l.resolver ctx :: l.journal := by
  unfold link
  rw [hr]
  dsimp only
  rw [hd]
  obtain ⟨n, l', hreaches, ⟨hend, heq⟩ | ⟨specifier, e, hspecifier, hstop, heq⟩⟩ :=
    @linkSlots_upTo _ ctx id none _ _ (fun h hn ht _ => h.attach hn ht) _
      (reaches_linked hr hun ctx)
  · obtain ⟨loaded, hsub, hj⟩ := hreaches.loaded
    rw [heq]
    exact ⟨hreaches.resolver, n, loaded, ⟨hr, hreaches.live, hsub, .inl hend⟩, hj⟩
  · obtain ⟨loaded, hsub, hj⟩ := hreaches.loaded
    rw [heq]
    refine ⟨hreaches.resolver, n, loaded, ⟨hr, hreaches.live, hsub, .inr ?_⟩, hj⟩
    cases hstop with
    | unresolved he =>
      rw [hreaches.resolver] at he
      exact ⟨specifier, e, hspecifier, he, List.mem_append_right _ List.mem_cons_self⟩
    | cycle _ hsome _ => cases hsome

/-- What is done to other requests after one has been linked does not matter to it. -/
theorem LinkedIn.later (h : LinkedIn l l' ctx id r n loaded)
    (hget : l''.requests.get? id = l'.requests.get? id) (hgrows : l'.Grows l'') :
    LinkedIn l l'' ctx id r n loaded where
  live := h.live
  linked := by
    rw [hget]
    exact h.linked
  inOrder := h.inOrder
  stops := by
    refine h.stops.imp_right ?_
    rintro ⟨specifier, e, hspecifier, he, hfail⟩
    exact ⟨specifier, e, hspecifier, he, hgrows.worklist.subset hfail⟩

theorem LinkedIn.earlier (h : LinkedIn l' l'' ctx id r n loaded)
    (hget : l'.requests.get? id = l.requests.get? id) (hresolver : l'.resolver = l.resolver) :
    LinkedIn l l'' ctx id r n loaded where
  live := hget ▸ h.live
  linked := hresolver ▸ h.linked
  inOrder := hresolver ▸ h.inOrder
  stops := hresolver ▸ h.stops

/-- What is told of a request that has been linked, the first event first. -/
def Tells (l l' : Loader ν) (ctx : Context) (id : RequestId) (events : List (Event ν)) : Prop :=
  ∃ r n loaded, LinkedIn l l' ctx id r n loaded ∧
    events = .linked id l.resolver ctx :: loaded.map (Event.load · .module)

theorem linkedIn_linkAll (ctx : Context) (ids : List RequestId) :
    ∀ {l : Loader ν}, ids.Nodup →
      (∀ id ∈ ids, ∃ r, l.requests.get? id = some r ∧ r.definitionUrl = none ∧ Unlinked r) →
      ∃ told, List.Forall₂ (Tells l (ids.foldl (fun l id => l.link id ctx) l) ctx) ids told ∧
        (ids.foldl (fun l id => l.link id ctx) l).journal = told.flatten.reverse ++ l.journal := by
  induction ids with
  | nil => exact fun _ _ => ⟨[], .nil, rfl⟩
  | cons id rest ih =>
    intro l hnodup hall
    obtain ⟨hnot, hnodup⟩ := List.nodup_cons.mp hnodup
    obtain ⟨r, hr, hd, hun⟩ := hall id List.mem_cons_self
    obtain ⟨hresolver, n, loaded, hlinked, hj⟩ := linkedIn_link hr hd hun ctx
    have hother : ∀ id' ∈ rest, (l.link id ctx).requests.get? id' = l.requests.get? id' := by
      intro id' hid'
      exact get?_link_of_ne fun heq => hnot (heq ▸ hid')
    obtain ⟨told, htold, hj'⟩ := ih (l := l.link id ctx) hnodup (by
      intro id' hid'
      rw [hother id' hid']
      exact hall id' (List.mem_cons_of_mem _ hid'))
    rw [List.foldl_cons]
    refine ⟨(.linked id l.resolver ctx :: loaded.map (Event.load · .module)) :: told,
      .cons ⟨r, n, loaded, ?_, rfl⟩ ?_, ?_⟩
    · exact hlinked.later (get?_linkAll_of_not_mem ctx rest hnot)
        ((keptByLinking_grows _).linkAll ctx rest ⟨List.prefix_rfl, Nat.le_refl _⟩)
    -- The rest has been linked from the moment on at which the first had been; for each request of
    -- it that moment is as good as the one before.
    · refine ((List.forall₂_and_left _ _).mpr ⟨hother, htold⟩).imp ?_
      rintro id' events ⟨hget, r', n', loaded', hlinked', hevents⟩
      exact ⟨r', n', loaded', hlinked'.earlier hget hresolver, hresolver ▸ hevents⟩
    · rw [hj', hj]
      simp

end Loader
end AsyncModule
