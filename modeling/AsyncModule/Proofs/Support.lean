import AsyncModule.Proofs.Acyclic
import AsyncModule.Proofs.Mains

/-!
# AsyncModule.Proofs.Support

A module that is loading is somebody's business: it is being fetched, a program on the stack is
to settle it, or a request is to define it.

* `maintained_backed` — everything the machine does keeps the modules that are loading backed.
-/

namespace AsyncModule

variable {ν : Type}

/-- What sees to it that a module is settled. -/
inductive Support (g : Registry) (rs : Requests ν) (fs : Fetches ν) (k : List Duty)
    (url : String) : Prop where
  | fetch {id : Nat} {t : Target} (hf : (id, t, .module) ∈ fs.errands) (ht : t.key = url)
  | duty (hk : .settle url ∈ k)
  | definition {id : RequestId} {r : Request ν} (hd : g.definition? url = some id)
      (hr : rs.get? id = some r)

/-- Every module that is loading has support. -/
def Backed (l : Loader ν) (k : List Duty) : Prop :=
  ∀ url, l.registry.state? url = some .loading →
    Support l.registry l.requests l.fetches k url

theorem Support.keep {g g' : Registry} {rs rs' : Requests ν} {fs fs' : Fetches ν}
    {k k' : List Duty} {url : String} (h : Support g rs fs k url)
    (hf : fs.errands ⊆ fs'.errands) (hk : .settle url ∈ k → .settle url ∈ k')
    (hd : ∀ id r, g.definition? url = some id → rs.get? id = some r →
      Support g' rs' fs' k' url) : Support g' rs' fs' k' url := by
  cases h with
  | fetch hmem ht => exact .fetch (hf hmem) ht
  | duty hmem => exact .duty (hk hmem)
  | definition hdef hr => exact hd _ _ hdef hr

variable {l l' : Loader ν} {k k' : List Duty} {d : Duty} {url : String}

namespace Backed

theorem duties (h : Backed l k) (hk : ∀ url, .settle url ∈ k → .settle url ∈ k') : Backed l k' := by
  intro url hurl
  exact (h url hurl).keep (List.Subset.refl _) (hk url) fun _ _ hd hr => .definition hd hr

theorem requests (h : Backed l k) (hg : l'.registry = l.registry) (hf : l'.fetches = l.fetches)
    (hr : ∀ id r, l.requests.get? id = some r → ∃ r', l'.requests.get? id = some r') :
    Backed l' k := by
  intro url hurl
  rw [hg] at hurl
  refine (h url hurl).keep (by rw [hf]; exact List.Subset.refl _) (fun hk => hk) ?_
  intro id r hd hget
  obtain ⟨r', hget'⟩ := hr id r hget
  exact .definition (by rw [hg]; exact hd) hget'

theorem get?_modify_isSome {rs : Requests ν} {id id' : RequestId} {r : Request ν}
    (f : Request ν → Request ν) (h : rs.get? id' = some r) :
    ∃ r', (rs.modify id f).get? id' = some r' := by
  rw [Requests.get?_modify, h]
  split
  · exact ⟨f r, rfl⟩
  · exact ⟨r, rfl⟩

theorem attach (h : Backed l k) (id : RequestId) (i : Nat) (t : Target) :
    Backed (l.attach id i t) k := by
  have hold : ∀ {url}, l.registry.state? url = some .loading →
      Support (l.attach id i t).registry (l.attach id i t).requests (l.attach id i t).fetches
        k url := by
    intro url hurl
    refine (h url hurl).keep (Loader.errands_subset_attach l id i t) (fun hk => hk) ?_
    intro id' r hd hr
    obtain ⟨r', hr'⟩ := get?_modify_isSome (·.link i t.key) hr
    exact .definition ((Loader.definition?_attach l id i t url).trans hd)
      (by rw [Loader.requests_attach]; exact hr')
  intro url hurl
  rcases Loader.state?_of_attach hurl with hurl | ⟨rfl, _, hopen⟩
  · exact hold hurl
  · by_cases hloading : l.registry.state? t.key = some .loading
    · exact hold hloading
    · have hknown : ∀ s, l.registry.state? t.key = some s → s = .known := by
        intro s hs
        cases s with
        | known => rfl
        | loading => exact absurd hs hloading
        | ready v => cases hopen _ hs
        | failed e => cases hopen _ hs
      have hmem : (l.fetches.count, t, .module) ∈ (l.attach id i t).fetches.errands := by
        rw [Loader.fetches_attach id i hknown, Fetches.errands_start]
        simp
      exact .fetch hmem rfl

theorem keptByLinking (k : List Duty) : Loader.KeptByLinking fun l : Loader ν => Backed l k where
  linked _ _ h := h.requests rfl rfl fun _ r hr => ⟨r, hr⟩
  context _ _ h := h.requests rfl rfl fun _ _ hr => get?_modify_isSome _ hr
  stop _ h _ := h.requests rfl rfl fun _ r hr => ⟨r, hr⟩
  attach i t h _ _ := h.attach _ i t

theorem enter {r : Request ν} (h : Backed l (Duty.ofDefinition r.definitionUrl ++ k)) :
    Backed (l.enter r).2 k := by
  intro url hurl
  have hkeep : ∀ id r', l.requests.get? id = some r' →
      (l.enter r).2.requests.get? id = some r' :=
    fun id r' hr' => Requests.get?_insert_of_get? r hr'
  cases hd : r.definitionUrl with
  | none =>
    have hg : (l.enter r).2.registry = l.registry := by simp [Loader.enter, hd, Loader.record]
    rw [hd] at h
    rw [hg] at hurl
    refine (h url hurl).keep (List.Subset.refl _) (fun hk => hk) ?_
    intro id r' hdef hr'
    exact .definition (by rw [hg]; exact hdef) (hkeep id r' hr')
  | some u =>
    have hg : (l.enter r).2.registry = l.registry.setDefinition u (some (l.enter r).1) := by
      simp [Loader.enter, hd, Loader.record]
    rw [hd] at h
    rw [hg, Registry.state?_setDefinition] at hurl
    by_cases hu : url = u
    · obtain ⟨rec, hrec, _⟩ := Option.map_eq_some_iff.mp hurl
      refine .definition ?_ (Loader.get?_enter_self l r)
      rw [hg, Registry.definition?_setDefinition, if_pos hu, hrec]
      rfl
    · refine (h url hurl).keep (List.Subset.refl _) ?_ ?_
      · intro hk
        rcases List.mem_cons.mp hk with heq | hk
        · cases heq
          exact absurd rfl hu
        · exact hk
      · intro id r' hdef hr'
        refine .definition ?_ (hkeep id r' hr')
        rw [hg, Registry.definition?_setDefinition, if_neg hu]
        exact hdef

theorem submit {frame : Option Frame} {dependencies : List String}
    {callback : List ModuleValue → Script ν} {errback : Option (LoadError → Script ν)}
    {definitionUrl : Option String} (h : Backed l (Duty.ofDefinition definitionUrl ++ k)) :
    Backed (l.submit frame dependencies callback errback definitionUrl) k := by
  have henter : Backed (l.enter (.ofCall dependencies callback errback (l.context? frame)
      definitionUrl)).2 k := enter h
  exact (keptByLinking k).submit (fun _ h => h.requests rfl rfl fun _ r hr => ⟨r, hr⟩)
    (fun _ h => h.requests rfl rfl fun _ r hr => ⟨r, hr⟩) henter

theorem afterEstablishing (h : Backed l k) (change : Bool × Bootstrap) :
    Backed (l.afterEstablishing change).2 k :=
  (keptByLinking k).afterEstablishing (fun _ h => h.requests rfl rfl fun _ r hr => ⟨r, hr⟩) h change

theorem finishMain (h : Backed l k) (t : Target) : Backed (l.finishMain t) k :=
  (keptByLinking k).finishMain (fun _ h => h.requests rfl rfl fun _ r hr => ⟨r, hr⟩) h t

theorem settle (h : Backed l (d :: k)) {url : String} (hd : d.MayFail url)
    (hstate : ∀ u, l'.registry.state? u = some .loading →
      u ≠ url ∧ l.registry.state? u = some .loading)
    (hdef : ∀ u, u ≠ url → l'.registry.definition? u = l.registry.definition? u)
    (he : l'.fetches = l.fetches) (hr : l'.requests = l.requests) : Backed l' k := by
  intro u hu
  obtain ⟨hne, hu⟩ := hstate u hu
  refine (h u hu).keep (by rw [he]; exact List.Subset.refl _) ?_ ?_
  · intro hk
    rcases List.mem_cons.mp hk with heq | hk
    · rcases hd with rfl | rfl
      · cases heq
        exact absurd rfl hne
      · cases heq
    · exact hk
  · intro id r hid hget
    exact .definition (by rw [hdef u hne]; exact hid) (by rw [hr]; exact hget)

theorem readyModule (h : Backed l (.settle url :: k)) (v : ModuleValue) :
    Backed (l.readyModule url v) k :=
  h.settle (.inl rfl)
    (fun _ hu => Registry.loading_of_settle
      (f := fun r => { r with state := .ready v, definition := none }) (fun _ => rfl) rfl hu)
    (fun _ hu => Registry.definition?_settle_of_ne _ hu) rfl rfl

theorem loading_of_abandonModule {e : LoadError} {u : String}
    (h : (l.abandonModule url e).registry.state? u = some .loading) :
    u ≠ url ∧ l.registry.state? u = some .loading := by
  obtain ⟨hne, hu⟩ := Registry.loading_of_settle (f := fun r => { r with state := .failed e })
    (fun _ => rfl) rfl h
  exact ⟨hne, by rwa [Registry.state?_setDefinition] at hu⟩

theorem abandonModule (h : Backed l (d :: k)) (hd : d.MayFail url) (e : LoadError) :
    Backed (l.abandonModule url e) k := by
  refine h.settle hd (fun _ hu => loading_of_abandonModule hu) ?_ rfl rfl
  intro u hu
  have h1 := Registry.definition?_settle_of_ne (g := l.registry.setDefinition url none)
    (fun r => { r with state := .failed e }) hu
  rwa [Registry.definition?_setDefinition, if_neg hu] at h1

theorem drop (h : Backed l (.settle url :: k))
    (hn : l.registry.state? url ≠ some .loading) : Backed l k := by
  intro u hu
  refine (h u hu).keep (List.Subset.refl _) ?_ fun _ _ hd hr => .definition hd hr
  intro hk
  rcases List.mem_cons.mp hk with heq | hk
  · cases heq
    exact absurd hu hn
  · exact hk

theorem leave (h : Backed l k) (hw : l.WellDefining) {id : RequestId} {r : Request ν}
    (hr : l.requests.get? id = some r)
    (hstate : ∀ u, l'.registry.state? u = l.registry.state? u)
    (hdef : ∀ u, l'.registry.definition? u = l.registry.definition? u)
    (he : l'.fetches = l.fetches)
    (hlive : ∀ id' r', id' ≠ id → l.requests.get? id' = some r' →
      l'.requests.get? id' = some r') :
    Backed l' (Duty.ofDefinition r.definitionUrl ++ k) := by
  intro u hu
  rw [hstate] at hu
  refine (h u hu).keep (by rw [he]; exact List.Subset.refl _) (List.mem_append_right _) ?_
  intro id' r' hid' hr'
  by_cases hid : id' = id
  · subst hid
    rw [hw.bound hid' hr]
    exact .duty List.mem_cons_self
  · exact .definition (by rw [hdef u]; exact hid') (hlive id' r' hid hr')

theorem withdraw (h : Backed l k) (hw : l.WellDefining) {id : RequestId} {r : Request ν}
    (hr : l.requests.get? id = some r) :
    Backed (l.withdraw id r) (Duty.ofDefinition r.definitionUrl ++ k) := by
  refine h.leave hw hr (Loader.state?_foldl_dropWaiters r.modules l.registry id) ?_ rfl ?_
  · exact Loader.definition?_foldl_dropWaiters r.modules l.registry id
  · intro id' r' hne hr'
    simp only [Loader.withdraw, Requests.get?_erase, if_neg hne]
    exact hr'

theorem erase (h : Backed l k) (hw : l.WellDefining) {id : RequestId} {r : Request ν}
    (hr : l.requests.get? id = some r) :
    Backed { l with requests := l.requests.erase id }
      (Duty.ofDefinition r.definitionUrl ++ k) := by
  refine h.leave hw hr (fun _ => rfl) (fun _ => rfl) rfl ?_
  intro id' r' hne hr'
  simp only [Requests.get?_erase, if_neg hne]
  exact hr'

/-- The fetch of a module that is taken up becomes a duty. -/
theorem arrive (h : Backed l k) (hnumbered : l.fetches.Numbered) {f : Fetch ν}
    {result : Fetched (Script ν)} {fs : Fetches ν}
    (htake : l.fetches.take = (some (f, result), fs)) :
    Backed (Loader.record { l with fetches := fs } (.arrived f.target f.role))
      (.ofRole f.target f.role :: .dispatch :: k) := by
  obtain ⟨before, after, heq, heq'⟩ := hnumbered.errands_of_take htake
  have hstill : ∀ e, e ∈ before ∨ e ∈ after → e ∈ fs.errands := by
    intro e he
    rw [heq']
    exact List.mem_append.mpr he
  intro url hurl
  cases h url hurl with
  | @fetch id t hf ht =>
    rw [heq, List.mem_append, List.mem_cons] at hf
    rcases hf with hf | hf | hf
    · exact .fetch (hstill _ (.inl hf)) ht
    · simp only [Fetch.errand, Prod.mk.injEq] at hf
      obtain ⟨_, htarget, hrole⟩ := hf
      refine .duty ?_
      rw [← hrole, ← ht, htarget]
      exact List.mem_cons_self
    · exact .fetch (hstill _ (.inr hf)) ht
  | duty hk => exact .duty (List.mem_cons_of_mem _ (List.mem_cons_of_mem _ hk))
  | definition hd hr => exact .definition hd hr

end Backed

theorem maintained_wellDefining_mains :
    Maintained fun (l : Loader ν) k => l.WellDefining ∧ Mains l k :=
  maintained_defining.and maintained_mains

open Maintained in
theorem maintained_backed :
    Maintained fun (l : Loader ν) k => (l.WellDefining ∧ Mains l k) ∧ Backed l k where
  aside h ha := ⟨maintained_wellDefining_mains.aside h.1 ha, h.2⟩
  make payload h := ⟨maintained_wellDefining_mains.make payload h.1, h.2⟩
  fetches h ha := by
    refine ⟨maintained_wellDefining_mains.fetches h.1 ha, ?_⟩
    intro url hurl
    exact (h.2 url hurl).keep (by rw [ha.1]; exact List.Subset.refl _) (fun hk => hk)
      fun _ _ hd hr => .definition hd hr
  arrive h htake :=
    ⟨maintained_wellDefining_mains.arrive h.1 htake, h.2.arrive h.1.2.numbered htake⟩
  enter role h hj := ⟨maintained_wellDefining_mains.enter role h.1 hj, h.2⟩
  require {l k} frame dependencies callback errback h := by
    have h1 : Backed (l.submit frame dependencies callback errback none) k := Backed.submit h.2
    exact ⟨maintained_wellDefining_mains.require frame dependencies callback errback h.1,
      h1.duties fun _ => List.mem_cons_of_mem _⟩
  define {l k url} ctx defined dependencies factory errback h := by
    have h1 : Backed (l.submit (some (.unit url ctx true defined)) dependencies factory errback
      (some url)) k := h.2.submit
    exact ⟨maintained_wellDefining_mains.define ctx defined dependencies factory errback h.1,
      h1.duties fun _ hk => List.mem_cons_of_mem _ (List.mem_cons_of_mem _ hk)⟩
  unwatch h := ⟨maintained_wellDefining_mains.unwatch h.1, h.2.duties (by simp)⟩
  setDefaultBase base h := ⟨maintained_wellDefining_mains.setDefaultBase base h.1, h.2⟩
  establish ctx h := by
    refine ⟨maintained_wellDefining_mains.establish ctx h.1, ?_⟩
    have h1 := h.2.afterEstablishing
    split
    · exact (h1 _).duties fun _ => List.mem_cons_of_mem _
    · exact h1 _
  beginMain {l k _} root t h hd := by
    refine ⟨maintained_wellDefining_mains.beginMain root t h.1 hd, ?_⟩
    intro url hurl
    refine (h.2 url hurl).keep ?_ (fun hk => hk) fun _ _ hd hr => .definition hd hr
    intro e he
    have hmem := List.mem_append_left [(l.fetches.count, t, LoadRole.main)] he
    rwa [← Fetches.errands_start l.fetches t .main (l.resources t)] at hmem
  finishMain t h :=
    ⟨maintained_wellDefining_mains.finishMain t h.1, (h.2.duties (by simp)).finishMain t⟩
  ready v h := ⟨maintained_wellDefining_mains.ready v h.1, h.2.readyModule v⟩
  abandon e h hm hd :=
    ⟨maintained_wellDefining_mains.abandon e h.1 hm hd, h.2.abandonModule hm e⟩
  abandonDefinition {l k d url id r} e h hm hd hr := by
    refine ⟨maintained_wellDefining_mains.abandonDefinition e h.1 hm hd hr, ?_⟩
    have hw : (l.abandonModule url e).WellDefining := Defining.abandonModule h.1.1 url e
    have h1 := (h.2.abandonModule hm e).withdraw hw hr
    rw [h.1.1.bound hd hr] at h1
    refine h1.drop ?_
    rw [Loader.withdraw, Loader.state?_foldl_dropWaiters]
    intro hload
    exact (Backed.loading_of_abandonModule hload).1 rfl
  finish h ho := ⟨maintained_wellDefining_mains.finish h.1 ho, h.2.duties (by simp)⟩
  fault h ho := ⟨maintained_wellDefining_mains.fault h.1 ho, h.2.duties (by simp)⟩
  handle h hj := ⟨maintained_wellDefining_mains.handle h.1 hj, h.2⟩
  dispatch h hd := ⟨maintained_wellDefining_mains.dispatch h.1 hd, h.2.duties (by simp)⟩
  redispatch h hd := ⟨maintained_wellDefining_mains.redispatch h.1 hd, h.2.duties (by simp)⟩
  drained h hw := ⟨maintained_wellDefining_mains.drained h.1 hw, h.2.duties (by simp)⟩
  dead h hw hr := ⟨maintained_wellDefining_mains.dead h.1 hw hr, h.2⟩
  fill h hw hr hs := ⟨maintained_wellDefining_mains.fill h.1 hw hr hs,
    h.2.requests rfl rfl fun _ _ hr => Backed.get?_modify_isSome _ hr⟩
  fillFire {l k id i v rest r} h hw hr hs := by
    refine ⟨maintained_wellDefining_mains.fillFire h.1 hw hr hs, ?_⟩
    have hfill : Backed { l with requests := l.requests.modify id (·.fill i v) } (.drain :: k) :=
      h.2.requests rfl rfl fun _ _ hr => Backed.get?_modify_isSome _ hr
    have h1 := hfill.erase (Defining.fill h.1.1 id i v) (Requests.get?_modify_self (·.fill i v) hr)
    rw [Request.definitionUrl_fill] at h1
    exact h1.duties fun _ => List.mem_cons_of_mem _
  fire h hw hr := ⟨maintained_wellDefining_mains.fire h.1 hw hr,
    (h.2.erase h.1.1 hr).duties fun _ => List.mem_cons_of_mem _⟩
  fail h hw hr := ⟨maintained_wellDefining_mains.fail h.1 hw hr, h.2.withdraw h.1.1 hr⟩

end AsyncModule
