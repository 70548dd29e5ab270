import AsyncModule.Proofs.Fixpoint
import AsyncModule.Proofs.Rest
import AsyncModule.Proofs.Striking
import AsyncModule.Proofs.Trails

/-!
# AsyncModule.Proofs.Cascade

A module cannot be fetched. It fails, and with it fall the requests that wait for it, the modules
that these were to define, the requests that wait for those, and so on; nothing else is touched.

* `Registry.WaitsVia`  — how a module waits for the one where a failure begins.
* `Falling`            — the invariant: how far a failure has got, and what is still due.
* `Falling.strike`     — one request is failed.
* `falling_steps`      — the worklist is worked off.
* `failure_cascades`   — the whole statement.

What is still due comes in the order of how far it is from the beginning, and spans no more than two
distances (`Falling.sorted`). So every module falls by one of the shortest ways there are.
-/

namespace AsyncModule

open Relation

variable {ν : Type}

/-- An empty slot of the request is linked to a module. -/
def Request.WaitsOn (r : Request ν) (url : String) : Prop :=
  ∃ i s, r.slot? i = some s ∧ s.value = none ∧ s.module = some url

namespace Registry

variable {g : Registry} {rs : Requests ν} {origin x : String}

/-- A module falls if it is the one where a failure begins, or is held up by one that falls. -/
def Falls (g : Registry) (rs : Requests ν) (origin x : String) : Prop :=
  ReflTransGen (IsHeldUp g rs) x origin

/-- How a module waits for the one where a failure begins: by what holds it up, what holds that up,
and so on. -/
inductive WaitsVia (g : Registry) (rs : Requests ν) (origin : String) :
    String → List String → Prop where
  | origin : WaitsVia g rs origin origin []
  | next {x y : String} {urls : List String} (h : IsHeldUp g rs x y)
      (hy : WaitsVia g rs origin y urls) : WaitsVia g rs origin x (y :: urls)

theorem WaitsVia.falls {urls : List String} (h : WaitsVia g rs origin x urls) :
    g.Falls rs origin x := by
  induction h with
  | origin => exact .refl
  | next h _ ih => exact .head h ih

theorem Falls.exists_waitsVia (h : g.Falls rs origin x) : ∃ urls, WaitsVia g rs origin x urls := by
  induction h using ReflTransGen.head_induction_on with
  | refl => exact ⟨[], .origin⟩
  | head h _ ih =>
    obtain ⟨urls, hurls⟩ := ih
    exact ⟨_, .next h hurls⟩

/-- Of the ways in which a module waits, one is the shortest. -/
theorem Falls.exists_shortest (h : g.Falls rs origin x) :
    ∃ urls, WaitsVia g rs origin x urls ∧
      ∀ urls', WaitsVia g rs origin x urls' → urls.length ≤ urls'.length := by
  classical
  have hlength : ∃ n urls, WaitsVia g rs origin x urls ∧ urls.length = n := by
    obtain ⟨urls, hurls⟩ := h.exists_waitsVia
    exact ⟨_, urls, hurls, rfl⟩
  obtain ⟨urls, hurls, hleast⟩ := Nat.find_spec hlength
  refine ⟨urls, hurls, fun urls' hurls' => ?_⟩
  rw [hleast]
  exact Nat.find_min' hlength ⟨urls', hurls', rfl⟩

end Registry

open Registry

/-! ## A failure under way -/

/-- A request is hit by a failure: through a module that it waits for, which fell in a certain
way. -/
structure Blow where
  request : RequestId
  module : String
  via : List String

namespace Blow

/-- What the request is told if the failure began with an error. -/
def error (b : Blow) (e : LoadError) : LoadError :=
  .dependency b.module (b.via.foldr .dependency e)

def step (e : LoadError) (b : Blow) : Step := .fail b.request (b.error e)

end Blow

/-- The modules that have fallen once some requests have been told, each with its way. -/
def fallen (origin : String) (told : List (Blow × Request ν)) : List (String × List String) :=
  told.filterMap (fun t => t.2.definitionUrl.map (·, t.1.module :: t.1.via)) ++ [(origin, [])]

/-- The requests that have been told. -/
def struck (told : List (Blow × Request ν)) : List RequestId := told.map (·.1.request)

theorem struck_cons (b : Blow) (r : Request ν) (told : List (Blow × Request ν)) :
    struck ((b, r) :: told) = b.request :: struck told := rfl

/-- The blows that come of one: on those who wait for the module that falls with a request. -/
def Loader.blows (l : Loader ν) (b : Blow) (r : Request ν) : List Blow :=
  match r.definitionUrl with
  | some url => ((l.registry.waiters url).filter (·.request != b.request)).map
      (⟨·.request, url, b.module :: b.via⟩)
  | none => []

theorem mem_fallen_cons {origin : String} {told : List (Blow × Request ν)} {b : Blow}
    {r : Request ν} {p : String × List String} : p ∈ fallen origin ((b, r) :: told) ↔
      (r.definitionUrl = some p.1 ∧ p.2 = b.module :: b.via) ∨ p ∈ fallen origin told := by
  obtain ⟨url, via⟩ := p
  unfold fallen
  rw [List.filterMap_cons]
  cases r.definitionUrl with
  | none => simp
  | some url' =>
    simp only [Option.map_some, List.cons_append, List.mem_cons, Prod.mk.injEq, Option.some.injEq,
      @eq_comm _ url]

theorem Loader.mem_blows {l : Loader ν} {b c : Blow} {r : Request ν} : c ∈ l.blows b r ↔
    r.definitionUrl = some c.module ∧ c.via = b.module :: b.via ∧ c.request ≠ b.request ∧
      ∃ w ∈ l.registry.waiters c.module, w.request = c.request := by
  obtain ⟨id, url, via⟩ := c
  unfold blows
  cases r.definitionUrl with
  | none => simp
  | some url' =>
    simp only [List.mem_map, List.mem_filter, bne_iff_ne, ne_eq, Blow.mk.injEq, Option.some.injEq]
    constructor
    · rintro ⟨w, ⟨hw, hne⟩, rfl, rfl, rfl⟩
      exact ⟨rfl, rfl, hne, w, hw, rfl⟩
    · rintro ⟨rfl, rfl, hne, w, hw, rfl⟩
      exact ⟨w, ⟨hw, hne⟩, rfl, rfl, rfl⟩

/-- A loader with nothing to do: what waits for a module is what its waiters say. -/
structure Loader.Still (l : Loader ν) : Prop where
  idle : l.worklist = []
  waiter : ∀ {url w}, w ∈ l.registry.waiters url →
    ∃ r, l.requests.get? w.request = some r ∧ r.WaitsOn url
  tracked : ∀ {id r url}, l.requests.get? id = some r → r.WaitsOn url →
    ∃ w ∈ l.registry.waiters url, w.request = id
  defined : ∀ {id r url}, l.requests.get? id = some r → r.definitionUrl = some url →
    l.registry.definition? url = some id
  bound : ∀ {id r url}, l.registry.definition? url = some id → l.requests.get? id = some r →
    r.definitionUrl = some url
  undeferred : ∀ {id r url}, l.requests.get? id = some r → r.WaitsOn url →
    id ∉ l.bootstrap.deferred

theorem Machine.Reachable.still {m : Machine ν} (h : m.Reachable) (hrest : m.AtRest) :
    m.loader.Still := by
  have hwork := hrest.worklist_eq_nil h
  have hlinked := h.allLinked
  have hundeferred : ∀ {id r url}, m.loader.requests.get? id = some r → r.WaitsOn url →
      id ∉ m.loader.bootstrap.deferred := by
    intro id r url hr hwaits hdeferred
    obtain ⟨r', hr', _, _, hunlinked⟩ := hlinked.deferred hdeferred
    obtain ⟨i, s, hs, _, hm⟩ := hwaits
    cases hr.symm.trans hr'
    rw [hunlinked s (Request.mem_slots.mpr ⟨i, hs⟩)] at hm
    cases hm
  refine ⟨hwork, ?_, ?_, fun hr hd => (h.owned.defined hr hd).1,
    fun hid hr => h.wellDefining.bound hid hr, hundeferred⟩
  · intro url w hw
    obtain ⟨_, r, s, hr, hs, hm, hv⟩ := hlinked.waiter hw
    exact ⟨r, hr, _, s, hs, hv, hm⟩
  · intro id r url hr hwaits
    obtain ⟨i, s, hs, hv, hm⟩ := (show r.WaitsOn url from hwaits)
    cases hlinked.tracked hr hs hv not_false with
    | deferred hdeferred => exact absurd hdeferred (hundeferred hr hwaits)
    | waiting hm' _ hw =>
      cases hm.symm.trans hm'
      exact ⟨_, hw, rfl⟩
    | due _ _ hf =>
      rw [hwork] at hf
      cases hf
    | failing hf =>
      rw [hwork] at hf
      cases hf

theorem Loader.Still.isHeldUp_iff {l : Loader ν} (h : l.Still) {x y : String} :
    IsHeldUp l.registry l.requests x y ↔
      ∃ id r, l.requests.get? id = some r ∧ r.definitionUrl = some x ∧ r.WaitsOn y := by
  constructor
  · rintro ⟨id, r, i, s, hid, hr, hs⟩
    exact ⟨id, r, hr, h.bound hid hr, i, s, hs⟩
  · rintro ⟨id, r, hr, hd, i, s, hs⟩
    exact ⟨id, r, i, s, h.defined hr hd, hr, hs⟩

/-- How far a failure has got that began with a module and an error: some requests have been told,
the newest first, and others are still to be. -/
structure Falling (l₀ : Loader ν) (origin : String) (e : LoadError)
    (told : List (Blow × Request ν)) (work : List Blow) (l : Loader ν) : Prop where
  way : ∀ p ∈ fallen origin told, WaitsVia l₀.registry l₀.requests origin p.1 p.2
  hit : ∀ t ∈ told, l₀.requests.get? t.1.request = some t.2 ∧ t.2.WaitsOn t.1.module ∧
    (t.1.module, t.1.via) ∈ fallen origin told
  due : ∀ b ∈ work, ∃ r, l₀.requests.get? b.request = some r ∧ r.WaitsOn b.module ∧
    (b.module, b.via) ∈ fallen origin told
  /-- Who waits for a module that has fallen is to be told so, or has been told no later. -/
  reached : ∀ p ∈ fallen origin told, ∀ id r, l₀.requests.get? id = some r → r.WaitsOn p.1 →
    (∃ t ∈ told, t.1.request = id ∧ t.1.via.length ≤ p.2.length) ∨ ⟨id, p.1, p.2⟩ ∈ work
  sorted : work.Pairwise fun b c =>
    b.via.length ≤ c.via.length ∧ c.via.length ≤ b.via.length + 1
  passed : ∀ t ∈ told, ∀ b ∈ work, t.1.via.length ≤ b.via.length
  once : (struck told).Nodup
  requests : ∀ id, l.requests.get? id =
    if id ∈ struck told then none else l₀.requests.get? id
  fell : ∀ p ∈ fallen origin told, ∃ rec, l₀.registry.get? p.1 = some rec ∧
    rec.state = .loading ∧ l.registry.get? p.1 = some (rec.fell (p.2.foldr .dependency e))
  spared : ∀ url, (∀ via, (url, via) ∉ fallen origin told) →
    l.registry.get? url = (l₀.registry.get? url).map (·.without (struck told))
  worklist : l.worklist = work.map (Blow.step e)
  settings : l.resolver = l₀.resolver ∧ l.bootstrap = l₀.bootstrap ∧ l.resources = l₀.resources ∧
    l.fetches = l₀.fetches
  journal : ∃ new, l.journal = new ++ l₀.journal ∧
    deeds new = told.flatMap fun t => t.2.telling t.1.request (t.1.error e)

namespace Falling

variable {l₀ l : Loader ν} {origin : String} {e : LoadError} {told : List (Blow × Request ν)}
  {b : Blow} {work : List Blow} {r : Request ν}

/-- Who is not live any more has been told. -/
theorem told_of_gone (h : Falling l₀ origin e told work l) {id : RequestId}
    (hr : l₀.requests.get? id = some r) (hgone : l.requests.get? id = none) :
    ∃ t ∈ told, t.1.request = id := by
  rw [h.requests] at hgone
  split at hgone
  · rename_i hmem
    exact List.mem_map.mp hmem
  · rw [hr] at hgone
    cases hgone

/-- Who is live has not been told, and is as before. -/
theorem of_live (h : Falling l₀ origin e told work l) {id : RequestId}
    (hr : l.requests.get? id = some r) :
    id ∉ struck told ∧ l₀.requests.get? id = some r := by
  rw [h.requests] at hr
  split at hr
  · cases hr
  · rename_i hmem
    exact ⟨hmem, hr⟩

/-- A step for a request that is gone is passed over. -/
theorem pass (h : Falling l₀ origin e told (b :: work) l)
    (hgone : l.requests.get? b.request = none) :
    Falling l₀ origin e told work { l with worklist := work.map (Blow.step e) } where
  way := h.way
  hit := h.hit
  due c hc := h.due c (List.mem_cons_of_mem _ hc)
  reached p hp id r hr hwaits := by
    rcases h.reached p hp id r hr hwaits with htold | hmem
    · exact .inl htold
    · rcases List.mem_cons.mp hmem with rfl | hmem
      · obtain ⟨t, ht, hid⟩ := h.told_of_gone hr hgone
        exact .inl ⟨t, ht, hid, h.passed t ht _ List.mem_cons_self⟩
      · exact .inr hmem
  sorted := h.sorted.of_cons
  passed t ht c hc := h.passed t ht c (List.mem_cons_of_mem _ hc)
  once := h.once
  requests := h.requests
  fell := h.fell
  spared := h.spared
  worklist := rfl
  settings := h.settings
  journal := h.journal

/-- A module that is loading has not fallen. -/
theorem not_mem_fallen (h : Falling l₀ origin e told work l) {url : String}
    (hloading : l.registry.state? url = some .loading) (via : List String) :
    (url, via) ∉ fallen origin told := by
  intro hmem
  obtain ⟨rec, _, _, hrec⟩ := h.fell _ hmem
  rw [Registry.state?, hrec] at hloading
  cases hloading

/-- What waits for a module that has not fallen is what waited before, but for who has been told. -/
theorem mem_waiters (h : Falling l₀ origin e told work l) {url : String}
    (hloading : l.registry.state? url = some .loading) {w : Waiter} :
    w ∈ l.registry.waiters url ↔
      w ∈ l₀.registry.waiters url ∧ w.request ∉ struck told := by
  unfold Registry.waiters
  rw [h.spared url (h.not_mem_fallen hloading)]
  cases l₀.registry.get? url with
  | none => simp
  | some rec => simp [Record.without]

/-- The blows that come of one are due to who waits. -/
theorem due_blows (hstill : l₀.Still) (h : Falling l₀ origin e told work l)
    (hloading : ∀ url, r.definitionUrl = some url → l.registry.state? url = some .loading)
    {c : Blow} (hc : c ∈ l.blows b r) : ∃ r', l₀.requests.get? c.request = some r' ∧
      r'.WaitsOn c.module ∧ (c.module, c.via) ∈ fallen origin ((b, r) :: told) := by
  obtain ⟨hd, hvia, _, w, hw, hid⟩ := Loader.mem_blows.mp hc
  obtain ⟨r', hr', hwaits⟩ := hstill.waiter ((h.mem_waiters (hloading _ hd)).mp hw).1
  exact ⟨r', hid ▸ hr', hwaits, mem_fallen_cons.mpr (.inl ⟨hd, hvia⟩)⟩

/-- Who waits for a module that has just fallen has been told before, is told now or will be. -/
theorem reached_blows (hstill : l₀.Still) (h : Falling l₀ origin e told (b :: work) l)
    (hloading : ∀ url, r.definitionUrl = some url → l.registry.state? url = some .loading)
    {url : String} (hd : r.definitionUrl = some url) {id : RequestId} {r' : Request ν}
    (hr' : l₀.requests.get? id = some r') (hwaits : r'.WaitsOn url) :
    (∃ t ∈ (b, r) :: told, t.1.request = id ∧ t.1.via.length ≤ (b.module :: b.via).length) ∨
      ⟨id, url, b.module :: b.via⟩ ∈ l.blows b r := by
  by_cases hid : id = b.request
  · exact .inl ⟨_, List.mem_cons_self, hid.symm, Nat.le_succ _⟩
  · by_cases hmem : id ∈ struck told
    · obtain ⟨t, ht, hid⟩ := List.mem_map.mp hmem
      have hpassed := h.passed t ht b List.mem_cons_self
      exact .inl ⟨t, List.mem_cons_of_mem _ ht, hid, Nat.le_succ_of_le hpassed⟩
    · obtain ⟨w, hw, rfl⟩ := hstill.tracked hr' hwaits
      exact .inr (Loader.mem_blows.mpr
        ⟨hd, rfl, hid, w, (h.mem_waiters (hloading url hd)).mpr ⟨hw, hmem⟩, rfl⟩)

/-- The blows that come of the first one are further from the beginning than it by one, so none of
those that are still due is further. -/
theorem sorted_blows (h : Falling l₀ origin e told (b :: work) l) (r : Request ν) :
    (work ++ l.blows b r).Pairwise fun b c =>
      b.via.length ≤ c.via.length ∧ c.via.length ≤ b.via.length + 1 := by
  obtain ⟨hfirst, hrest⟩ := List.pairwise_cons.mp h.sorted
  refine List.pairwise_append.mpr ⟨hrest, ?_, ?_⟩
  · refine List.pairwise_of_forall_mem_list fun c hc d hd => ?_
    rw [(Loader.mem_blows.mp hc).2.1, (Loader.mem_blows.mp hd).2.1]
    exact ⟨Nat.le_refl _, Nat.le_succ _⟩
  · intro c hc d hd
    obtain ⟨_, hvia, _⟩ := Loader.mem_blows.mp hd
    have hspan := hfirst c hc
    simp only [hvia, List.length_cons]
    omega

theorem passed_blows (h : Falling l₀ origin e told (b :: work) l) (r : Request ν) :
    ∀ t ∈ (b, r) :: told, ∀ c ∈ work ++ l.blows b r, t.1.via.length ≤ c.via.length := by
  have hfirst : ∀ c ∈ work ++ l.blows b r, b.via.length ≤ c.via.length := by
    intro c hc
    rcases List.mem_append.mp hc with hc | hc
    · exact ((List.pairwise_cons.mp h.sorted).1 c hc).1
    · rw [(Loader.mem_blows.mp hc).2.1]
      exact Nat.le_succ _
  intro t ht c hc
  rcases List.mem_cons.mp ht with rfl | ht
  · exact hfirst c hc
  · exact (h.passed t ht b List.mem_cons_self).trans (hfirst c hc)

/-- The module that the next request was to define falls. -/
theorem fell_strike (h : Falling l₀ origin e told (b :: work) l)
    (hloading : ∀ url, r.definitionUrl = some url → l.registry.state? url = some .loading)
    {g : Registry} (hg : ∀ url, g.get? url = if r.definitionUrl = some url
      then (l.registry.get? url).map (·.fell (b.error e))
      else (l.registry.get? url).map fun rec =>
        { rec with waiters := rec.waiters.filter (·.request != b.request) }) :
    ∀ p ∈ fallen origin ((b, r) :: told), ∃ rec, l₀.registry.get? p.1 = some rec ∧
      rec.state = .loading ∧ g.get? p.1 = some (rec.fell (p.2.foldr .dependency e)) := by
  intro p hp
  rcases mem_fallen_cons.mp hp with ⟨hd, hvia⟩ | hp
  · have hspared := h.spared p.1 (h.not_mem_fallen (hloading p.1 hd))
    obtain ⟨rec, hrec, hstate⟩ := Option.map_eq_some_iff.mp (hloading p.1 hd)
    rw [hrec] at hspared
    obtain ⟨rec₀, hrec₀, rfl⟩ := Option.map_eq_some_iff.mp hspared.symm
    refine ⟨rec₀, hrec₀, hstate, (hg p.1).trans ?_⟩
    rw [if_pos hd, hrec, hvia]
    rfl
  · obtain ⟨rec, hrec, hstate, hfell⟩ := h.fell p hp
    have hother : r.definitionUrl ≠ some p.1 :=
      fun hd => h.not_mem_fallen (hloading p.1 hd) p.2 hp
    refine ⟨rec, hrec, hstate, (hg p.1).trans ?_⟩
    rw [if_neg hother, hfell]
    rfl

/-- The next request is told, and the module that it was to define falls. -/
theorem strike (hstill : l₀.Still) (h : Falling l₀ origin e told (b :: work) l)
    (hr : l.requests.get? b.request = some r) (hlinked : l.AllLinked)
    (hloading : ∀ url, r.definitionUrl = some url → l.registry.state? url = some .loading)
    (values : Nat) {new : List (Event ν)}
    (hnew : deeds new = r.telling b.request (b.error e)) :
    Falling l₀ origin e ((b, r) :: told) (work ++ l.blows b r)
      { Loader.strike { l with worklist := work.map (Blow.step e) } b.request r (b.error e) with
        values, journal := new ++ l.journal } := by
  obtain ⟨hnot, hr₀⟩ := h.of_live hr
  obtain ⟨r', hr', hwaits, hmem⟩ := h.due b List.mem_cons_self
  cases hr₀.symm.trans hr'
  have hkeep : ∀ {p}, p ∈ fallen origin told → p ∈ fallen origin ((b, r) :: told) :=
    fun hp => mem_fallen_cons.mpr (.inr hp)
  have hrecords := hlinked.get?_strike hr hloading (work.map (Blow.step e)) (b.error e)
  exact {
    way := by
      intro p hp
      rcases mem_fallen_cons.mp hp with ⟨hd, hvia⟩ | hp
      · rw [hvia]
        exact .next (hstill.isHeldUp_iff.mpr ⟨_, r, hr₀, hd, hwaits⟩) (h.way _ hmem)
      · exact h.way p hp
    hit := by
      intro t ht
      rcases List.mem_cons.mp ht with rfl | ht
      · exact ⟨hr₀, hwaits, hkeep hmem⟩
      · obtain ⟨hr', hwaits', hmem'⟩ := h.hit t ht
        exact ⟨hr', hwaits', hkeep hmem'⟩
    due := by
      intro c hc
      rcases List.mem_append.mp hc with hc | hc
      · obtain ⟨r', hr', hwaits', hmem'⟩ := h.due c (List.mem_cons_of_mem _ hc)
        exact ⟨r', hr', hwaits', hkeep hmem'⟩
      · exact h.due_blows hstill hloading hc
    reached := by
      rintro ⟨url, via⟩ hp id r' hr' hwaits'
      rcases mem_fallen_cons.mp hp with ⟨hd, rfl : via = _⟩ | hp
      · exact (h.reached_blows hstill hloading hd hr' hwaits').imp_right (List.mem_append_right _)
      · rcases h.reached _ hp id r' hr' hwaits' with ⟨t, ht, htold⟩ | hdue
        · exact .inl ⟨t, List.mem_cons_of_mem _ ht, htold⟩
        · rcases List.mem_cons.mp hdue with rfl | hdue
          · exact .inl ⟨_, List.mem_cons_self, rfl, Nat.le_refl _⟩
          · exact .inr (List.mem_append_left _ hdue)
    sorted := h.sorted_blows r
    passed := h.passed_blows r
    once := List.nodup_cons.mpr ⟨hnot, h.once⟩
    requests := by
      intro id
      simp only [Loader.requests_strike, Requests.get?_erase]
      by_cases hid : id = b.request
      · rw [if_pos hid, struck_cons, if_pos (List.mem_cons.mpr (.inl hid))]
      · simp only [h.requests, struck_cons, List.mem_cons, hid, false_or, if_false]
    fell := h.fell_strike hloading hrecords
    spared := by
      intro url hspared
      have hother : r.definitionUrl ≠ some url :=
        fun hd => hspared _ (mem_fallen_cons.mpr (.inl ⟨hd, rfl⟩))
      refine (hrecords url).trans ?_
      rw [if_neg hother, h.spared url fun via hmem => hspared via (hkeep hmem), Option.map_map]
      exact congrArg (Option.map · _) (funext fun rec => (rec.without_cons _ _).symm)
    worklist := by
      refine (hlinked.worklist_strike hr hloading _ _).trans ?_
      rw [List.map_append, Loader.blows]
      cases r.definitionUrl with
      | none => rfl
      | some url =>
        simp only [List.map_map]
        rfl
    settings := by
      obtain ⟨hresolver, hbootstrap, hresources, hfetches⟩ := Loader.settings_strike
        { l with worklist := work.map (Blow.step e) } b.request r (b.error e)
      refine ⟨hresolver.trans h.settings.1, hbootstrap.trans ?_,
        hresources.trans h.settings.2.2.1, hfetches.trans h.settings.2.2.2⟩
      show l.bootstrap.forget b.request = _
      rw [h.settings.2.1, Bootstrap.forget, List.filter_eq_self.mpr]
      intro id hid
      simp only [bne_iff_ne, ne_eq]
      rintro rfl
      exact hstill.undeferred hr₀ hwaits hid
    journal := by
      obtain ⟨old, hold, hdeeds⟩ := h.journal
      refine ⟨new ++ old, ?_, ?_⟩
      · rw [hold, List.append_assoc]
      · rw [deeds_append, hnew, hdeeds, List.flatMap_cons]
  }

/-- A module has just failed. -/
theorem start (hstill : l₀.Still) (hloading : l₀.registry.state? origin = some .loading) :
    Falling l₀ origin e [] ((l₀.registry.waiters origin).map (⟨·.request, origin, []⟩))
      { l₀.abandonModule origin e with dispatching := true } where
  way := by
    intro p hp
    cases List.mem_singleton.mp hp
    exact .origin
  hit t ht := by cases ht
  due b hb := by
    obtain ⟨w, hw, rfl⟩ := List.mem_map.mp hb
    obtain ⟨r, hr, hwaits⟩ := hstill.waiter hw
    exact ⟨r, hr, hwaits, List.mem_singleton.mpr rfl⟩
  reached p hp id r hr hwaits := by
    cases List.mem_singleton.mp hp
    obtain ⟨w, hw, rfl⟩ := hstill.tracked hr hwaits
    exact .inr (List.mem_map.mpr ⟨w, hw, rfl⟩)
  sorted := by
    refine List.pairwise_of_forall_mem_list fun b hb c hc => ?_
    obtain ⟨_, _, rfl⟩ := List.mem_map.mp hb
    obtain ⟨_, _, rfl⟩ := List.mem_map.mp hc
    exact ⟨Nat.le_refl _, Nat.le_succ _⟩
  passed t ht := by cases ht
  once := .nil
  requests id := (if_neg List.not_mem_nil).symm
  fell := by
    intro p hp
    cases List.mem_singleton.mp hp
    obtain ⟨rec, hrec, hstate⟩ := Option.map_eq_some_iff.mp hloading
    refine ⟨rec, hrec, hstate, (Loader.get?_abandonModule hloading e origin).trans ?_⟩
    rw [if_pos rfl, hrec]
    rfl
  spared url hspared := by
    have hother : url ≠ origin := fun hu => hspared [] (List.mem_singleton.mpr (hu ▸ rfl))
    refine (Loader.get?_abandonModule hloading e url).trans ?_
    rw [if_neg hother, struck, List.map_nil, funext Record.without_nil, Option.map_id']
  worklist := by
    refine (Loader.worklist_abandonModule hloading e).trans ?_
    rw [hstill.idle, List.nil_append, List.map_map]
    rfl
  settings := ⟨rfl, rfl, rfl, rfl⟩
  journal := ⟨[], rfl, rfl⟩

/-- At the end every module that falls has fallen, by a way no longer than any. -/
theorem exists_le (hstill : l₀.Still) (h : Falling l₀ origin e told [] l) {url : String}
    {urls : List String} (hway : WaitsVia l₀.registry l₀.requests origin url urls) :
    ∃ via, (url, via) ∈ fallen origin told ∧ via.length ≤ urls.length := by
  induction hway with
  | origin => exact ⟨[], List.mem_append_right _ (List.mem_singleton.mpr rfl), Nat.le_refl _⟩
  | @next x y urls hup _ ih =>
    obtain ⟨via, hmem, hle⟩ := ih
    obtain ⟨id, r, hr, hd, hwaits⟩ := hstill.isHeldUp_iff.mp hup
    obtain ⟨⟨b, r'⟩, ht, rfl, hshort⟩ := (h.reached _ hmem id r hr hwaits).resolve_right
      List.not_mem_nil
    cases hr.symm.trans (h.hit _ ht).1
    refine ⟨b.module :: b.via, List.mem_append_left _ (List.mem_filterMap.mpr ⟨_, ht, ?_⟩),
      Nat.succ_le_succ (hshort.trans hle)⟩
    rw [hd]
    rfl

end Falling

/-! ## The whole of it -/

namespace Machine

variable {l₀ : Loader ν} {origin : String} {e : LoadError} {k : List (Task ν)}

/-- The worklist is worked off. -/
theorem falling_steps (hstill : l₀.Still)
    (haloof : ∀ id r handler, l₀.requests.get? id = some r → r.errback = some handler →
      ∀ e, (handler e).Aloof fun _ => True) (n : Nat) :
    ∀ {told : List (Blow × Request ν)} {work : List Blow} {l : Loader ν}, l.requests.size ≤ n →
      Falling l₀ origin e told work l → Reachable ⟨l, .draining :: k⟩ →
      ∃ told' l', Steps ⟨l, .draining :: k⟩ ⟨l', .draining :: k⟩ ∧
        Falling l₀ origin e told' [] l' := by
  induction n using Nat.strongRecOn with
  | ind n ihn =>
    intro told work
    induction work with
    | nil => exact fun _ h _ => ⟨told, _, .refl, h⟩
    | cons b work ih =>
      intro l hsize h hreach
      cases hr : l.requests.get? b.request with
      | none =>
        have hstep := stale_step (k := k) h.worklist hr
        obtain ⟨told', l', hsteps, hdone⟩ :=
          ih (by exact hsize) (h.pass hr) (hstep.reachable hreach)
        exact ⟨told', l', hstep.trans hsteps, hdone⟩
      | some r =>
        obtain ⟨_, hr₀⟩ := h.of_live hr
        obtain ⟨values, new, hnew, hstep⟩ := strike_steps (k := k) h.worklist hr
          (fun url hd => (hreach.owned.defined hr hd).1)
          (fun handler hhandler => haloof _ r handler hr₀ hhandler _)
        have hnext := h.strike hstill hr hreach.allLinked
          (fun url hd => (hreach.owned.defined hr hd).2.2) values hnew
        have hless := Requests.size_erase hr
        rw [← Loader.requests_strike { l with worklist := work.map (Blow.step e) } b.request r
          (b.error e)] at hless
        obtain ⟨told', l', hsteps, hdone⟩ :=
          ihn (n - 1) (by omega) (by simp only; omega) hnext (hstep.reachable hreach)
        exact ⟨told', l', hstep.trans hsteps, hdone⟩

/-- A task takes up a finished fetch: a program outside of units that takes its turn, or that waits
until nothing is left to be taken up. -/
inductive TakesUp : Task ν → Task ν → Prop where
  | turn (next : Turn → Script ν) :
      TakesUp (.body none (.turn next) .plain) (.body none (next .completed) .plain)
  | settle (next : Bool → Script ν) :
      TakesUp (.settling none next .plain) (.settling none next .plain)

theorem TakesUp.steps {l : Loader ν} {task after : Task ν} (h : TakesUp task after) {f : Fetch ν}
    {result : Fetched (Script ν)} {fs : Fetches ν} (htake : l.fetches.take = (some (f, result), fs))
    {l' : Loader ν} (hcomplete : complete { l with fetches := fs } f result = (l', [])) :
    Steps ⟨l, task :: k⟩ ⟨l', .dispatch :: after :: k⟩ := by
  have htaken : takeUp l = (.completed, l', [.dispatch]) := by
    simp only [takeUp, htake, hcomplete, List.nil_append]
  cases h with
  | turn next =>
    have hadvance : advance l (.body none (.turn next) .plain) =
        (l', [.dispatch, .body none (next .completed) .plain]) := by
      simp [advance, perform, htaken]
    exact Steps.advance hadvance
  | settle next =>
    have hadvance : advance l (.settling none next .plain) =
        (l', [.dispatch, .settling none next .plain]) := by
      simp [advance, htaken]
    exact Steps.advance hadvance

/-- A module that is being fetched is loading, and no request is to define it. -/
theorem Reachable.loading_of_inFlight {m : Machine ν} (h : m.Reachable) {f : Fetch ν}
    (hf : f ∈ m.loader.fetches.inFlight) (hrole : f.role = .module) :
    m.loader.registry.state? f.target.key = some .loading ∧
      ∀ id r, m.loader.requests.get? id = some r → r.definitionUrl ≠ some f.target.key := by
  have hpos : 0 < hands m.loader.fetches (dutiesOf m.stack) f.target.key := by
    refine Nat.add_pos_left (List.countP_pos_iff.mpr ⟨f.errand, List.mem_map_of_mem hf, ?_⟩) _
    simp [Fetch.errand, hrole]
  refine ⟨h.owned.held hpos, fun id r hr hd => ?_⟩
  rw [(h.owned.defined hr hd).2.1] at hpos
  exact Nat.lt_irrefl 0 hpos

end Machine

/-- A failure has run its course that began with a module and an error. -/
structure Loader.Cascaded (l l' : Loader ν) (origin : String) (e : LoadError)
    (told : List (Blow × Request ν)) : Prop where
  /-- Those are told who wait for a module that falls. -/
  reaches : ∀ id r, (∃ t ∈ told, t.1.request = id ∧ t.2 = r) ↔
    l.requests.get? id = some r ∧ ∃ url, l.registry.Falls l.requests origin url ∧ r.WaitsOn url
  once : (struck told).Nodup
  blamed : ∀ t ∈ told, t.2.WaitsOn t.1.module ∧
    WaitsVia l.registry l.requests origin t.1.module t.1.via
  requests : ∀ id, l'.requests.get? id = if id ∈ struck told then none else l.requests.get? id
  /-- A module that falls was loading. It has failed with the error that came to it in one of the
  shortest ways. -/
  fell : ∀ url, l.registry.Falls l.requests origin url → ∃ rec urls,
    l.registry.get? url = some rec ∧ rec.state = .loading ∧
    l'.registry.get? url = some (rec.fell (urls.foldr .dependency e)) ∧
    WaitsVia l.registry l.requests origin url urls ∧
    ∀ urls', WaitsVia l.registry l.requests origin url urls' → urls.length ≤ urls'.length
  spared : ∀ url, ¬ l.registry.Falls l.requests origin url →
    l'.registry.get? url = (l.registry.get? url).map (·.without (struck told))
  settings : l'.resolver = l.resolver ∧ l'.bootstrap = l.bootstrap ∧ l'.resources = l.resources
  idle : l'.worklist = [] ∧ l'.dispatching = false

theorem Falling.cascaded {l₀ l : Loader ν} {origin : String} {e : LoadError}
    {told : List (Blow × Request ν)} (hstill : l₀.Still) (h : Falling l₀ origin e told [] l) :
    l₀.Cascaded { l with dispatching := false } origin e told where
  reaches := by
    intro id r
    constructor
    · rintro ⟨t, ht, rfl, rfl⟩
      obtain ⟨hr, hwaits, hmem⟩ := h.hit t ht
      exact ⟨hr, _, (h.way _ hmem).falls, hwaits⟩
    · rintro ⟨hr, url, hfalls, hwaits⟩
      obtain ⟨urls, hway⟩ := hfalls.exists_waitsVia
      obtain ⟨via, hmem, _⟩ := h.exists_le hstill hway
      obtain ⟨t, ht, rfl, _⟩ := (h.reached _ hmem id r hr hwaits).resolve_right List.not_mem_nil
      cases hr.symm.trans (h.hit t ht).1
      exact ⟨t, ht, rfl, rfl⟩
  once := h.once
  blamed t ht := ⟨(h.hit t ht).2.1, h.way _ (h.hit t ht).2.2⟩
  requests := h.requests
  fell := by
    intro url hfalls
    obtain ⟨urls, hway, hshortest⟩ := hfalls.exists_shortest
    obtain ⟨via, hmem, hle⟩ := h.exists_le hstill hway
    obtain ⟨rec, hrec, hstate, hfell⟩ := h.fell _ hmem
    exact ⟨rec, via, hrec, hstate, hfell, h.way _ hmem,
      fun urls' hurls' => hle.trans (hshortest urls' hurls')⟩
  spared := by
    intro url hspared
    exact h.spared url fun via hmem => hspared (h.way _ hmem).falls
  settings := ⟨h.settings.1, h.settings.2.1, h.settings.2.2.1⟩
  idle := ⟨h.worklist, rfl⟩

section Theorem

open Machine

variable {m : Machine ν} {k : List (Task ν)} {task after : Task ν} {f : Fetch ν} {e : LoadError}
  {fs : Fetches ν}

/-- A loader at rest takes up a fetch of a module that has come to an error, and no error handler of
a live request calls the loader. Then the worklist is worked off, and the failure has run its
course: exactly those modules have failed that fall with this one, each with the error that came to
it in one of the shortest ways; exactly those requests are gone that waited for one of them, and
every one of them has been told once; the waiters of the other modules are what is left of them in
their order. Nothing else has changed, and nothing has been loaded. -/
theorem failure_cascades (h : m.Reachable) (hrest : m.AtRest) (hstack : m.stack = task :: k)
    (htask : TakesUp task after) (htake : m.loader.fetches.take = (some (f, .failed e), fs))
    (hrole : f.role = .module)
    (haloof : ∀ id r handler, m.loader.requests.get? id = some r → r.errback = some handler →
      ∀ e, (handler e).Aloof fun _ => True) :
    ∃ l' told new, Steps m ⟨l', after :: k⟩ ∧
      m.loader.Cascaded l' f.target.key e told ∧ l'.fetches = fs ∧
      l'.journal = new ++ .arrived f.target .module :: m.loader.journal ∧
      (deeds new = told.flatMap fun t => t.2.telling t.1.request (t.1.error e)) ∧
      loads new = [] := by
  obtain ⟨l, stack⟩ := m
  subst hstack
  have hf := (Fetches.take_eq_some htake).1
  obtain ⟨hloading, hundefined⟩ := h.loading_of_inFlight hf hrole
  have hstill := h.still hrest
  obtain ⟨l₀, hl₀⟩ : ∃ l₀,
      l₀ = Loader.record { l with fetches := fs } (.arrived f.target .module) := ⟨_, rfl⟩
  have hstill₀ : l₀.Still := hl₀ ▸ { hstill with }
  have hcomplete : complete { l with fetches := fs } f (.failed e) =
      (l₀.abandonModule f.target.key e, []) := by
    simp only [complete, hrole, completeModule, ← hl₀]
    refine failModule_of_none (fun id => ?_) e
    rw [hl₀]
    exact fun hid => h.wellDefining.get?_eq_none (fun id r hr => hundefined id r hr) hid
  have hbegins := (htask.steps (k := k) htake hcomplete).trans
    (dispatch_steps _ (by rw [hl₀]; exact hrest.1) _)
  obtain ⟨told, l', hsteps, hdone⟩ := falling_steps hstill₀ (by rw [hl₀]; exact haloof) _
    (Nat.le_refl _) (Falling.start hstill₀ (by rw [hl₀]; exact hloading)) (hbegins.reachable h)
  have hcascaded := hdone.cascaded hstill₀
  obtain ⟨new, hj, hdeeds⟩ := hdone.journal
  refine ⟨_, told, new, hbegins.trans (hsteps.trans (drained_steps l' hdone.worklist _)), ?_, ?_,
    ?_, hdeeds, ?_⟩
  · subst hl₀
    exact { hcascaded with }
  · exact hdone.settings.2.2.2.trans (by rw [hl₀]; rfl)
  · exact hj.trans (by rw [hl₀]; rfl)
  · rw [← loads_deeds, hdeeds, loads, List.filterMap_eq_nil_iff]
    intro event hevent
    obtain ⟨t, _, hevent⟩ := List.mem_flatMap.mp hevent
    exact List.filterMap_eq_nil_iff.mp (t.2.loads_telling _ _) event hevent

/-- A request with a handler that is told of the failure is handled. -/
theorem handled_of_told {told : List (Blow × Request ν)} {new : List (Event ν)}
    (hdeeds : deeds new = told.flatMap fun t => t.2.telling t.1.request (t.1.error e))
    {t : Blow × Request ν} (ht : t ∈ told) {handler : LoadError → Script ν}
    (hhandler : t.2.errback = some handler) : .handled t.1.request (t.1.error e) ∈ new := by
  have hmem : .handled t.1.request (t.1.error e) ∈ deeds new := by
    rw [hdeeds, List.mem_flatMap]
    refine ⟨t, ht, ?_⟩
    rw [Request.telling, hhandler]
    exact List.mem_cons_self
  exact List.mem_of_mem_filter hmem

end Theorem

/-- How a fetch has failed, if it has. -/
def Fetched.error? {α : Type} : Fetched α → Option LoadError
  | failed e => some e
  | _ => none

/-- `x` waits for `y` and `z`, `z` for `y`, and both of these for `w`. -/
def sinkingTable : Table := fun url =>
  if url = "a:/x.js" then .defining ["./y.js", "./z.js"] fun _ => .ok none
  else if url = "a:/y.js" then .defining ["./w.js"] fun _ => .ok none
  else if url = "a:/z.js" then .defining ["./y.js", "./w.js"] fun _ => .ok none
  else .missing

/-- An error handler that takes a note. -/
def takeNote (_ : LoadError) : Script Unit := .note () (.finish .done)

/-- What the table says, where every definition has an error handler. -/
def sinkingFetched (t : Target) : Fetched (Script Unit) :=
  match sinkingTable t.key with
  | .defining dependencies factory =>
    .code (.define dependencies (fun values => .ofResult (factory (values.map (·.payload))))
      (some takeNote) (.finish .done))
  | fate => fate.fetched t

/-- All is fetched at once but `w` and `o`. -/
def sinkingResources (t : Target) : Option (Fetched (Script Unit)) :=
  if t.key = "a:/w.js" ∨ t.key = "a:/o.js" then none else some (sinkingFetched t)

def sinkingLoader : Except LoadError Bool × Loader Unit :=
  (Loader.new {} sinkingResources).configure "a:/"

/-- A host waits for some of them, twice together with `o`, and once for `o` alone; then the fetch
of `w` fails. -/
def sinkingRequests : Script Unit :=
  .require ["./o.js", "./x.js"] (fun _ => .finish .done) (some takeNote)
    (.require ["./o.js"] (fun _ => .finish .done) (some takeNote)
      (.require ["./z.js", "./o.js"] (fun _ => .finish .done) (some takeNote)
        (.settle fun _ => .deliver "a:/w.js" sinkingFetched fun _ => .finish .done)))

def sinkingBefore : Machine Unit :=
  Machine.run 80 ⟨sinkingLoader.2, [.body none sinkingRequests .plain]⟩

/-- Now the host lets the loader take that up. -/
def sinking : Machine Unit :=
  ⟨sinkingBefore.loader, [.body none (.turn fun _ => .finish .done) .plain]⟩

theorem ends_takeNote (e : LoadError) : (takeNote e).Ends fun _ => True :=
  .note (.here ⟨_, rfl, trivial⟩)

theorem serves_sinkingFetched (t : Target) : (sinkingTable t.key).Serves (sinkingFetched t) := by
  unfold sinkingFetched
  split
  · rename_i heq
    rw [heq]
    exact .here ⟨_, _, _, rfl, fun _ => Script.ends_ofResult _, by simpa using ends_takeNote,
      .here ⟨_, rfl, trivial⟩⟩
  · exact Fate.serves_fetched t _

/-- The programs are those of a run by a table, so the handlers of live requests leave the loader
alone. -/
theorem aloof_sinking (id : RequestId) (r : Request Unit) (handler : LoadError → Script Unit)
    (hr : sinking.loader.requests.get? id = some r) (hhandler : r.errback = some handler)
    (e : LoadError) : (handler e).Aloof fun _ => True := by
  have hconfigure : sinkingLoader = (.ok true, sinkingLoader.2) :=
    Prod.ext (by decide +kernel) rfl
  have hresources : ∀ t result, sinkingResources t = some result →
      (sinkingTable t.key).Serves result := by
    intro t result h
    unfold sinkingResources at h
    split at h <;> cases h
    exact serves_sinkingFetched t
  have hends : ∀ values : List ModuleValue,
      (Script.finish .done : Script Unit).Ends Outcome.IsOk := fun _ => .here ⟨_, rfl, trivial⟩
  have hscript : sinkingRequests.Hosts sinkingTable :=
    .require hends ends_takeNote (.require hends ends_takeNote (.require hends ends_takeNote
      (.settle fun _ => .deliver serves_sinkingFetched fun _ => .finish _)))
  have hrun : ReflTransGen (Machine.GoesBy sinkingTable) ⟨sinkingLoader.2, []⟩ sinkingBefore :=
    .head (.call hscript rfl) (Machine.goesBy_run 80 _)
  obtain ⟨σ, htable, _, _, hstart⟩ := exists_faithful hresources hconfigure
  rw [← htable] at hrun
  have hbefore : Faithful σ sinkingBefore :=
    (hstart.runs (Machine.reachable_configure hconfigure) hrun).1
  dsimp only [sinking] at hr
  obtain ⟨_, hapt⟩ := hbefore.truthful.apt id r hr
  exact (hapt.handler handler hhandler e).aloof

theorem failure_cascades_sinking :
    (sinking.loader.view none).pendingRequests = 6 ∧
    sinking.loader.requests.live.countP (·.2.errback.isSome) = 6 ∧
    ∃ l' told, Machine.Steps sinking ⟨l', [.body none (.finish .done) .plain]⟩ ∧
      sinking.loader.Cascaded l' "a:/w.js" (.fetch "a:/w.js" "not there") told ∧
      (∃ e, .handled ⟨2, 3⟩ e ∈ l'.journal) ∧
      (∃ urls : List String, urls.length ≤ 2 ∧ l'.registry.state? "a:/x.js" =
        some (.failed (urls.foldr .dependency (.fetch "a:/w.js" "not there")))) ∧
      l'.status "a:/o.js" = some .loading := by
  have hbefore : sinkingBefore.stack = [] := List.isEmpty_iff.mp (by decide +kernel)
  have hconfigure : sinkingLoader = (.ok true, sinkingLoader.2) :=
    Prod.ext (by decide +kernel) rfl
  have hreach : sinking.Reachable :=
    (((Machine.reachable_configure hconfigure).goes (.call _ rfl)).run 80 :
      sinkingBefore.Reachable).goes (.call _ hbefore)
  have hidle : sinking.loader.dispatching = false := by decide +kernel
  have hrest : sinking.AtRest := by
    refine ⟨hidle, fun task htask => ?_⟩
    rw [List.mem_singleton.mp htask]
    trivial
  have hfound : sinking.loader.fetches.take.1.map
      (fun p => (p.1.target.key, p.1.role, p.2.error?)) =
        some ("a:/w.js", .module, some (.fetch "a:/w.js" "not there")) := by decide +kernel
  have hxz : "a:/z.js" ∈ sinking.loader.registry.awaited sinking.loader.requests "a:/x.js" := by
    decide +kernel
  have hzw : "a:/w.js" ∈ sinking.loader.registry.awaited sinking.loader.requests "a:/z.js" := by
    decide +kernel
  have hasks : (sinking.loader.requests.get? ⟨2, 3⟩).map (fun r => (r.errback.isSome,
      (r.slot? 0).map fun s => (s.value.isNone, s.module))) =
        some (true, some (true, some "a:/z.js")) := by decide +kernel
  have hnone : sinking.loader.registry.definition? "a:/o.js" = none := by decide +kernel
  have hloading : sinking.loader.status "a:/o.js" = some .loading := by decide +kernel
  rw [← Registry.WaitsFor, ← Registry.isHeldUp_eq] at hxz hzw
  obtain ⟨⟨f, result⟩, htaken, hresult⟩ := Option.map_eq_some_iff.mp hfound
  obtain ⟨hkey, hresult⟩ := Prod.mk.inj hresult
  obtain ⟨hrole, herror⟩ := Prod.mk.inj hresult
  cases result with
  | code s => cases herror
  | markup fragment s => cases herror
  | failed e =>
    cases herror
    have htake : sinking.loader.fetches.take =
        (some (f, .failed (.fetch "a:/w.js" "not there")), sinking.loader.fetches.take.2) := by
      rw [← htaken]
    obtain ⟨l', told, new, hsteps, hcascaded, _, hjournal, hdeeds, _⟩ :=
      failure_cascades (k := []) hreach hrest rfl (.turn _) htake hrole aloof_sinking
    rw [hkey] at hcascaded
    refine ⟨by decide +kernel, by decide +kernel, l', told, hsteps, hcascaded, ?_, ?_, ?_⟩
    · obtain ⟨r, hr, hslot⟩ := Option.map_eq_some_iff.mp hasks
      obtain ⟨hhandler, hslot⟩ := Prod.mk.inj hslot
      obtain ⟨handler, hhandler⟩ := Option.isSome_iff_exists.mp hhandler
      obtain ⟨s, hs, hslot⟩ := Option.map_eq_some_iff.mp hslot
      obtain ⟨hempty, hmodule⟩ := Prod.mk.inj hslot
      obtain ⟨t, ht, hid, rfl⟩ := (hcascaded.reaches ⟨2, 3⟩ r).mpr
        ⟨hr, "a:/z.js", .single hzw, 0, s, hs, Option.isNone_iff_eq_none.mp hempty, hmodule⟩
      refine ⟨_, hid ▸ hjournal ▸ List.mem_append_left _ (handled_of_told hdeeds ht hhandler)⟩
    · obtain ⟨rec, urls, _, _, hrec, _, hshortest⟩ := hcascaded.fell "a:/x.js"
        (.head hxz (.single hzw))
      refine ⟨urls, hshortest _ (.next hxz (.next hzw .origin)), ?_⟩
      rw [Registry.state?, hrec]
      rfl
    · have hspared : ¬ Registry.Falls sinking.loader.registry sinking.loader.requests "a:/w.js"
          "a:/o.js" := by
        intro hfalls
        obtain heq | ⟨_, ⟨_, _, _, _, hdefined, _⟩, _⟩ := ReflTransGen.cases_head hfalls
        · revert heq
          decide
        · rw [hnone] at hdefined
          cases hdefined
      rw [← hloading]
      simp only [Loader.status, Registry.state?, hcascaded.spared _ hspared, Option.map_map]
      rfl

end AsyncModule
