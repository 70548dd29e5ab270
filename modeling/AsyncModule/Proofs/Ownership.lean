import AsyncModule.Proofs.Lasting
import AsyncModule.Proofs.Mains
import AsyncModule.Proofs.Support

/-!
# AsyncModule.Proofs.Ownership

A module is in one hand. Of the fetch that brings a module, the program that is to settle it and
the request that is to define it there is never more than one, and while there is one the module is
loading. A unit that has made its definition has given the module out of its hand: nothing beneath
it on the stack settles the module.

* `Owned`            — the invariant.
* `maintained_owned` — everything the machine does keeps it.
-/

namespace AsyncModule

variable {ν : Type}

theorem Registry.state?_settle_of_ne {g : Registry} {url u : String}
    (f : Record → Record) (hu : u ≠ url) : (g.settle url f).2.state? u = g.state? u := by
  unfold Registry.state?
  rw [Registry.get?_settle]
  simp [hu]

theorem Registry.asked_settle {g : Registry} {url : String}
    {f : Record → Record} {s : ModuleState} (st : ModuleState) (hf : ∀ r, (f r).state = st)
    (hst : st ≠ .known)
    (hs : g.state? url = some s) (hne : s ≠ .known) :
    ∃ s', (g.settle url f).2.state? url = some s' ∧ s' ≠ .known := by
  by_cases ho : g.IsOpen url
  · exact ⟨st, by rw [Registry.state?_settle ho hf, if_pos rfl], hst⟩
  · exact ⟨s, by rw [Registry.settle_of_not_isOpen f ho, hs], hne⟩

/-- How many fetches bring a module. -/
def Fetches.bringing (fs : Fetches ν) (url : String) : Nat :=
  fs.errands.countP fun e => e.2.2 = .module ∧ e.2.1.key = url

/-- How many fetches and programs have a module in hand. -/
def hands (fs : Fetches ν) (k : List Duty) (url : String) : Nat :=
  fs.bringing url + k.count (.settle url)

/-- Nothing beneath a unit that has made its definition is to settle its module. -/
def Apart (k : List Duty) : Prop :=
  k.Pairwise fun d d' => ∀ url, d = .watch url → d' ≠ .settle url

theorem Apart.cons {k : List Duty} {d : Duty} (h : Apart k) (hd : ∀ url, d ≠ .watch url) :
    Apart (d :: k) :=
  List.pairwise_cons.mpr ⟨fun _ _ url hdu => absurd hdu (hd url), h⟩

theorem Apart.tail {k : List Duty} {d : Duty} (h : Apart (d :: k)) : Apart k :=
  (List.pairwise_cons.mp h).2

/-- Every module is in one hand at most, and is loading while it is in one. -/
structure Owned (l : Loader ν) (k : List Duty) : Prop where
  single : ∀ url, hands l.fetches k url ≤ 1
  held : ∀ {url}, 0 < hands l.fetches k url → l.registry.state? url = some .loading
  /-- The request that is to define a module has it in hand alone. -/
  defined : ∀ {id r url}, l.requests.get? id = some r → r.definitionUrl = some url →
    l.registry.definition? url = some id ∧ hands l.fetches k url = 0 ∧
      l.registry.state? url = some .loading
  watched : ∀ {url}, .watch url ∈ k → l.fetches.bringing url = 0 ∧
    ∃ s, l.registry.state? url = some s ∧ s ≠ .known
  apart : Apart k

namespace Owned

variable {l l' : Loader ν} {k k' : List Duty} {d : Duty} {url : String} {id : RequestId}
  {r : Request ν}

theorem init (config : Config) (resources : Target → Option (Fetched (Script ν))) :
    Owned (Loader.new config resources) [] where
  single _ := Nat.zero_le 1
  held h := absurd h (Nat.lt_irrefl 0)
  defined h := by cases h
  watched h := by cases h
  apart := .nil

/-- Nothing changes hands. -/
theorem same (h : Owned l k) (hf : ∀ u, l'.fetches.bringing u = l.fetches.bringing u)
    (hstate : ∀ u, l'.registry.state? u = l.registry.state? u)
    (hdef : ∀ u, l'.registry.definition? u = l.registry.definition? u)
    (hlive : ∀ id r', l'.requests.get? id = some r' →
      ∃ r, l.requests.get? id = some r ∧ r'.definitionUrl = r.definitionUrl)
    (hk : ∀ u, k'.count (.settle u) = k.count (.settle u))
    (hwatch : ∀ u, .watch u ∈ k' → .watch u ∈ k) (hapart : Apart k') : Owned l' k' := by
  have hhands : ∀ u, hands l'.fetches k' u = hands l.fetches k u := by
    intro u
    rw [hands, hands, hf, hk]
  refine ⟨fun u => (hhands u).trans_le (h.single u), ?_, ?_, ?_, hapart⟩
  · intro u hu
    rw [hstate]
    exact h.held (hhands u ▸ hu)
  · intro id r' u hr' hd
    obtain ⟨r, hr, hsame⟩ := hlive id r' hr'
    rw [hdef, hhands, hstate]
    exact h.defined hr (hsame ▸ hd)
  · intro u hu
    rw [hf, hstate]
    exact h.watched (hwatch u hu)

/-- Duties change that have no module in hand. -/
theorem duties (h : Owned l k) (hk : ∀ u, k'.count (.settle u) = k.count (.settle u))
    (hwatch : ∀ u, .watch u ∈ k' → .watch u ∈ k) (hapart : Apart k') : Owned l k' :=
  h.same (fun _ => rfl) (fun _ => rfl) (fun _ => rfl) (fun _ r hr => ⟨r, hr, rfl⟩) hk hwatch hapart

theorem add (h : Owned l k) (hd : ∀ u, d ≠ .settle u) (hw : ∀ u, d ≠ .watch u) :
    Owned l (d :: k) := by
  refine h.duties (fun u => List.count_cons_of_ne (hd u)) ?_ (h.apart.cons hw)
  intro u hu
  exact (List.mem_cons.mp hu).resolve_left (hw u).symm

theorem drop (h : Owned l (d :: k)) (hd : ∀ u, d ≠ .settle u) : Owned l k :=
  h.duties (fun u => (List.count_cons_of_ne (hd u)).symm) (fun _ => List.mem_cons_of_mem d)
    h.apart.tail

/-- Only the worklist, the journal and the like change. -/
theorem loader (h : Owned l k) (hf : l'.fetches = l.fetches) (hg : l'.registry = l.registry)
    (hr : l'.requests = l.requests) : Owned l' k :=
  h.same (fun _ => by rw [hf]) (fun _ => by rw [hg]) (fun _ => by rw [hg])
    (fun _ r hr' => ⟨r, hr ▸ hr', rfl⟩) (fun _ => rfl) (fun _ hu => hu) h.apart

theorem modify (h : Owned l k) (id : RequestId) {f : Request ν → Request ν}
    (hf : ∀ r : Request ν, (f r).definitionUrl = r.definitionUrl) :
    Owned { l with requests := l.requests.modify id f } k := by
  refine h.same (fun _ => rfl) (fun _ => rfl) (fun _ => rfl) ?_ (fun _ => rfl) (fun _ hu => hu)
    h.apart
  intro id' r' hr'
  rcases Requests.get?_modify_eq_some hr' with ⟨rfl, r, hr, rfl⟩ | ⟨_, hr⟩
  · exact ⟨r, hr, hf r⟩
  · exact ⟨r', hr, rfl⟩

/-- No two live requests are to define one module. -/
theorem eq_of_defined (h : Owned l k) {id' : RequestId} {r' : Request ν}
    (hr : l.requests.get? id = some r) (hd : r.definitionUrl = some url)
    (hr' : l.requests.get? id' = some r') (hd' : r'.definitionUrl = some url) : id' = id := by
  have hfirst := (h.defined hr hd).1
  rw [(h.defined hr' hd').1] at hfirst
  cases hfirst
  rfl

theorem hands_cons_settle (fs : Fetches ν) (k : List Duty) (url u : String) :
    hands fs (.settle url :: k) u = hands fs k u + if u = url then 1 else 0 := by
  rw [hands, hands, List.count_cons]
  by_cases hu : u = url
  · simp [hu, Nat.add_assoc]
  · simp [hu, Ne.symm hu]

/-- A program that is to settle a module has it in hand alone. -/
theorem settling (h : Owned l (.settle url :: k)) :
    l.registry.state? url = some .loading ∧ hands l.fetches k url = 0 ∧
      ∀ {id r}, l.requests.get? id = some r → r.definitionUrl ≠ some url := by
  have hhands := hands_cons_settle l.fetches k url url
  rw [if_pos rfl] at hhands
  have hsingle := h.single url
  refine ⟨h.held (by omega), by omega, ?_⟩
  intro id r hr hd
  have hzero := (h.defined hr hd).2.1
  omega

/-- Nobody has a module in hand that a unit with a definition watches, but a request that is to
define it. -/
theorem hands_of_watch (h : Owned l (.watch url :: k)) : hands l.fetches k url = 0 := by
  have hnot : Duty.settle url ∉ k := by
    intro hmem
    exact (List.pairwise_cons.mp h.apart).1 _ hmem url rfl rfl
  rw [hands, (h.watched List.mem_cons_self).1, List.count_eq_zero_of_not_mem hnot]

/-! ### Linking -/

theorem bringing_start (fs : Fetches ν) (t : Target) (role : LoadRole)
    (result : Option (Fetched (Script ν))) (u : String) :
    (fs.start t role result).bringing u =
      fs.bringing u + if role = .module ∧ t.key = u then 1 else 0 := by
  simp [Fetches.bringing, List.countP_append, List.countP_singleton]

/-- A module that has not been asked for is in no hand. -/
theorem hands_of_known (h : Owned l k) (hs : ∀ s, l.registry.state? url = some s → s = .known) :
    hands l.fetches k url = 0 ∧
      ∀ {id r}, l.requests.get? id = some r → r.definitionUrl ≠ some url := by
  have hnot : l.registry.state? url ≠ some .loading := by
    intro hloading
    cases hs _ hloading
  refine ⟨?_, fun hr hd => hnot (h.defined hr hd).2.2⟩
  by_contra hne
  exact hnot (h.held (Nat.pos_of_ne_zero hne))

theorem asked_attach {i : Nat} {t : Target} {s : ModuleState}
    (hu : l.registry.state? url = some s) (hs : s ≠ .known) :
    ∃ s', (l.attach id i t).registry.state? url = some s' ∧ s' ≠ .known := by
  cases s with
  | known => exact absurd rfl hs
  | loading => exact ⟨_, Loader.loading_attach id i hu, hs⟩
  | ready v => exact ⟨_, (Loader.Lasts.attach l id i t).settled hu rfl, hs⟩
  | failed e => exact ⟨_, (Loader.Lasts.attach l id i t).settled hu rfl, hs⟩

theorem live_attach {i : Nat} {t : Target} {id' : RequestId} {r' : Request ν}
    (hr' : (l.attach id i t).requests.get? id' = some r') :
    ∃ r, l.requests.get? id' = some r ∧ r'.definitionUrl = r.definitionUrl := by
  rw [Loader.requests_attach] at hr'
  rcases Requests.get?_modify_eq_some hr' with ⟨rfl, r, hr, rfl⟩ | ⟨_, hr⟩
  · exact ⟨r, hr, Request.definitionUrl_link r i t.key⟩
  · exact ⟨r', hr, rfl⟩

/-- The module is asked for now, and its fetch is the first hand that it is in. -/
theorem attach_known (h : Owned l k) (id : RequestId) (i : Nat) {t : Target}
    (hknown : ∀ s, l.registry.state? t.key = some s → s = .known) :
    Owned (l.attach id i t) k := by
  have hfetches := Loader.fetches_attach id i hknown
  obtain ⟨hzero, hnone⟩ := h.hands_of_known hknown
  have hloading : (l.attach id i t).registry.state? t.key = some .loading := by
    have hopen : ∀ s, l.registry.state? t.key = some s → s.isSettled = false := by
      intro s hs
      rw [hknown s hs]
      rfl
    rw [(Loader.attach_open id i hopen).2.1, if_pos rfl]
  have hbringing : ∀ {u}, u ≠ t.key →
      (l.attach id i t).fetches.bringing u = l.fetches.bringing u := by
    intro u hu
    rw [hfetches, bringing_start, if_neg fun hc => hu hc.2.symm, Nat.add_zero]
  have hhands : ∀ {u}, u ≠ t.key → hands (l.attach id i t).fetches k u = hands l.fetches k u := by
    intro u hu
    rw [hands, hands, hbringing hu]
  have hone : hands (l.attach id i t).fetches k t.key = 1 := by
    rw [hands, hfetches, bringing_start, if_pos ⟨rfl, rfl⟩]
    rw [hands] at hzero
    omega
  refine ⟨?_, ?_, ?_, ?_, h.apart⟩
  · intro u
    by_cases hu : u = t.key
    · rw [hu, hone]
    · rw [hhands hu]
      exact h.single u
  · intro u hpos
    by_cases hu : u = t.key
    · rw [hu, hloading]
    · rw [hhands hu] at hpos
      exact Loader.loading_attach id i (h.held hpos)
  · intro id' r' u hr' hd
    obtain ⟨r, hr, hsame⟩ := live_attach hr'
    rw [hsame] at hd
    obtain ⟨hdef, hhand, hload⟩ := h.defined hr hd
    have hu : u ≠ t.key := fun hu => hnone hr (hu ▸ hd)
    rw [Loader.definition?_attach, hhands hu]
    exact ⟨hdef, hhand, Loader.loading_attach id i hload⟩
  · intro u hu
    obtain ⟨hbring, s, hs, hne⟩ := h.watched hu
    have hu : u ≠ t.key := fun hu => hne (hknown s (hu ▸ hs))
    rw [hbringing hu]
    exact ⟨hbring, asked_attach hs hne⟩

theorem attach_asked (h : Owned l k) (id : RequestId) (i : Nat) {t : Target} {s : ModuleState}
    (hs : l.registry.state? t.key = some s) (hne : s ≠ .known) : Owned (l.attach id i t) k := by
  have hfetches := Loader.fetches_attach_of_asked id i hs hne
  refine ⟨?_, ?_, ?_, ?_, h.apart⟩
  · rw [hfetches]
    exact h.single
  · rw [hfetches]
    exact fun hpos => Loader.loading_attach id i (h.held hpos)
  · intro id' r' u hr' hd
    obtain ⟨r, hr, hsame⟩ := live_attach hr'
    rw [hsame] at hd
    obtain ⟨hdef, hhand, hload⟩ := h.defined hr hd
    rw [Loader.definition?_attach, hfetches]
    exact ⟨hdef, hhand, Loader.loading_attach id i hload⟩
  · intro u hu
    obtain ⟨hbring, s', hs', hne'⟩ := h.watched hu
    rw [hfetches]
    exact ⟨hbring, asked_attach hs' hne'⟩

theorem attach (h : Owned l k) (id : RequestId) (i : Nat) (t : Target) :
    Owned (l.attach id i t) k := by
  by_cases hknown : ∀ s, l.registry.state? t.key = some s → s = .known
  · exact h.attach_known id i hknown
  · push Not at hknown
    obtain ⟨s, hs, hne⟩ := hknown
    exact h.attach_asked id i hs hne

theorem keptByLinking (k : List Duty) : Loader.KeptByLinking fun l : Loader ν => Owned l k where
  linked _ _ h := h.loader rfl rfl rfl
  context id _ h := h.modify id fun _ => rfl
  stop _ h _ := h.loader rfl rfl rfl
  attach i t h _ _ := h.attach _ i t

theorem afterEstablishing (h : Owned l k) (change : Bool × Bootstrap) :
    Owned (l.afterEstablishing change).2 k :=
  (keptByLinking k).afterEstablishing (fun _ h => h.loader rfl rfl rfl) h change

theorem finishMain (h : Owned l k) (t : Target) : Owned (l.finishMain t) k :=
  (keptByLinking k).finishMain (fun _ h => h.loader rfl rfl rfl) h t

/-! ### Making requests -/

theorem registry_enter_none (hd : r.definitionUrl = none) :
    (l.enter r).2.registry = l.registry := by
  simp [Loader.enter, hd, Loader.record]

theorem registry_enter_some (hd : r.definitionUrl = some url) :
    (l.enter r).2.registry = l.registry.setDefinition url (some (l.enter r).1) := by
  simp [Loader.enter, hd, Loader.record]

theorem enter (h : Owned l k) (hd : r.definitionUrl = none) : Owned (l.enter r).2 k := by
  have hg := registry_enter_none (l := l) hd
  refine ⟨h.single, ?_, ?_, ?_, h.apart⟩
  · intro u hpos
    rw [hg]
    exact h.held hpos
  · intro id' r' u hr' hd'
    rcases Requests.get?_insert_eq_some hr' with ⟨_, rfl⟩ | hold
    · rw [hd] at hd'
      cases hd'
    · rw [hg]
      exact h.defined hold hd'
  · intro u hu
    rw [hg]
    exact h.watched hu

/-- A unit gives its module into the hand of its definition. -/
theorem enterDefinition (h : Owned l (.settle url :: k)) (hd : r.definitionUrl = some url) :
    Owned (l.enter r).2 (.watch url :: k) := by
  obtain ⟨hloading, hzero, hnone⟩ := h.settling
  have hg := registry_enter_some (l := l) hd
  have hstate : ∀ u, (l.enter r).2.registry.state? u = l.registry.state? u := by
    intro u
    rw [hg, Registry.state?_setDefinition]
  have hdef : (l.enter r).2.registry.definition? url = some (l.enter r).1 := by
    obtain ⟨rec, hrec, _⟩ := Option.map_eq_some_iff.mp hloading
    rw [hg, Registry.definition?_setDefinition, if_pos rfl, hrec]
    rfl
  have hcount : ∀ u,
      hands l.fetches (.watch url :: k) u ≤ hands l.fetches (.settle url :: k) u := by
    intro u
    rw [hands, hands, List.count_cons_of_ne (by simp)]
    exact Nat.add_le_add_left List.count_le_count_cons _
  have hsettle : Duty.settle url ∉ k := by
    rw [← List.count_eq_zero]
    rw [hands] at hzero
    omega
  refine ⟨fun u => (hcount u).trans (h.single u), ?_, ?_, ?_,
    List.pairwise_cons.mpr ⟨?_, h.apart.tail⟩⟩
  · intro u hpos
    rw [hstate]
    exact h.held (Nat.lt_of_lt_of_le hpos (hcount u))
  · intro id' r' u hr' hd'
    rw [hstate]
    rcases Requests.get?_insert_eq_some hr' with ⟨rfl, rfl⟩ | hold
    · rw [hd] at hd'
      cases hd'
      refine ⟨hdef, ?_, hloading⟩
      rw [hands, List.count_cons_of_ne (by simp)]
      exact hzero
    · obtain ⟨hold_def, hhand, hload⟩ := h.defined hold hd'
      have hu : u ≠ url := by
        rintro rfl
        exact hnone hold hd'
      rw [hg, Registry.definition?_setDefinition, if_neg hu]
      exact ⟨hold_def, Nat.le_zero.mp (hhand ▸ hcount u), hload⟩
  · intro u hu
    rw [hstate]
    rcases List.mem_cons.mp hu with heq | hu
    · cases heq
      rw [hands] at hzero
      have hbring : l.fetches.bringing url = 0 := by omega
      exact ⟨hbring, _, hloading, by simp⟩
    · exact h.watched (List.mem_cons_of_mem _ hu)
  · intro d' hd' u hu hsettle'
    cases hu
    exact hsettle (hsettle' ▸ hd')

theorem begin (h : Owned l k) (id : RequestId) (r : Request ν) : Owned (l.begin id r) k :=
  (keptByLinking k).begin h (fun _ => h.loader rfl rfl rfl) fun _ _ => h.loader rfl rfl rfl

/-! ### Settling -/

theorem release (h : Owned l (.settle url :: k)) : Owned l k := by
  have hle : ∀ u, hands l.fetches k u ≤ hands l.fetches (.settle url :: k) u := by
    intro u
    rw [hands_cons_settle]
    exact Nat.le_add_right _ _
  refine ⟨fun u => (hle u).trans (h.single u), ?_, ?_,
    fun hu => h.watched (List.mem_cons_of_mem _ hu), h.apart.tail⟩
  · intro u hpos
    exact h.held (Nat.lt_of_lt_of_le hpos (hle u))
  intro id r u hr hd
  obtain ⟨hdef, hhand, hload⟩ := h.defined hr hd
  exact ⟨hdef, Nat.le_zero.mp (hhand ▸ hle u), hload⟩

/-- What becomes of a module that is in no hand does not matter. -/
theorem settle (h : Owned l k) (hzero : hands l.fetches k url = 0)
    (hfetches : l'.fetches = l.fetches)
    (hlive : ∀ {id r}, l'.requests.get? id = some r →
      l.requests.get? id = some r ∧ r.definitionUrl ≠ some url)
    (hstate : ∀ u, u ≠ url → l'.registry.state? u = l.registry.state? u)
    (hdef : ∀ u, u ≠ url → l'.registry.definition? u = l.registry.definition? u)
    (hasked : ∀ s, l.registry.state? url = some s → s ≠ .known →
      ∃ s', l'.registry.state? url = some s' ∧ s' ≠ .known) : Owned l' k := by
  refine ⟨by rw [hfetches]; exact h.single, ?_, ?_, ?_, h.apart⟩
  · intro u hpos
    rw [hfetches] at hpos
    have hu : u ≠ url := by
      rintro rfl
      omega
    rw [hstate u hu]
    exact h.held hpos
  · intro id' r' u hr' hd
    obtain ⟨hr, hne⟩ := hlive hr'
    have hu : u ≠ url := by
      rintro rfl
      exact hne hd
    rw [hstate u hu, hdef u hu, hfetches]
    exact h.defined hr hd
  · intro u hu
    obtain ⟨hbring, s, hs, hne⟩ := h.watched hu
    rw [hfetches]
    refine ⟨hbring, ?_⟩
    by_cases hurl : u = url
    · subst hurl
      exact hasked s hs hne
    · rw [hstate u hurl]
      exact ⟨s, hs, hne⟩

theorem readyModule (h : Owned l (.settle url :: k)) (v : ModuleValue) :
    Owned (l.readyModule url v) k := by
  obtain ⟨_, hzero, hnone⟩ := h.settling
  exact h.release.settle hzero rfl (fun hr => ⟨hr, hnone hr⟩)
    (fun _ hu => Registry.state?_settle_of_ne _ hu)
    (fun _ hu => Registry.definition?_settle_of_ne _ hu)
    (fun _ hs hne => Registry.asked_settle (.ready v) (fun _ => rfl) (by simp) hs hne)

/-- Who may fail a module has it in hand alone, or the request that is to define it has. -/
theorem hands_of_mayFail (h : Owned l (d :: k)) (hd : d.MayFail url) :
    Owned l k ∧ hands l.fetches k url = 0 := by
  rcases hd with rfl | rfl
  · exact ⟨h.release, h.settling.2.1⟩
  · exact ⟨h.drop (by simp), h.hands_of_watch⟩

theorem state?_abandonModule_of_ne {u : String} (e : LoadError) (hu : u ≠ url) :
    (l.abandonModule url e).registry.state? u = l.registry.state? u := by
  have hsettle := Registry.state?_settle_of_ne (g := l.registry.setDefinition url none)
    (fun r => { r with state := .failed e }) hu
  rwa [Registry.state?_setDefinition] at hsettle

theorem definition?_abandonModule_of_ne {u : String} (e : LoadError) (hu : u ≠ url) :
    (l.abandonModule url e).registry.definition? u = l.registry.definition? u := by
  have hsettle := Registry.definition?_settle_of_ne (g := l.registry.setDefinition url none)
    (fun r => { r with state := .failed e }) hu
  rwa [Registry.definition?_setDefinition, if_neg hu] at hsettle

theorem asked_abandonModule {s : ModuleState} (e : LoadError)
    (hs : l.registry.state? url = some s) (hne : s ≠ .known) :
    ∃ s', (l.abandonModule url e).registry.state? url = some s' ∧ s' ≠ .known :=
  Registry.asked_settle (.failed e) (fun _ => rfl) (by simp)
    (by rwa [Registry.state?_setDefinition]) hne

theorem abandonModule (h : Owned l (d :: k)) (hd : d.MayFail url) (e : LoadError)
    (hdead : ∀ id, l.registry.definition? url = some id → l.requests.get? id = none) :
    Owned (l.abandonModule url e) k := by
  obtain ⟨h1, hzero⟩ := h.hands_of_mayFail hd
  refine h1.settle hzero rfl (fun {id r} hr => ⟨hr, ?_⟩)
    (fun _ hu => state?_abandonModule_of_ne e hu)
    (fun _ hu => definition?_abandonModule_of_ne e hu)
    (fun _ hs hne => asked_abandonModule e hs hne)
  intro hdefines
  have hgone := hdead id (h1.defined hr hdefines).1
  have hr : l.requests.get? id = some r := hr
  rw [hgone] at hr
  cases hr

theorem abandonDefinition (h : Owned l (d :: k)) (hd : d.MayFail url) (e : LoadError)
    (hr : l.requests.get? id = some r) (hdefines : r.definitionUrl = some url) :
    Owned ((l.abandonModule url e).withdraw id r) k := by
  obtain ⟨h1, hzero⟩ := h.hands_of_mayFail hd
  refine h1.settle hzero rfl ?_ ?_ ?_ ?_
  · intro id' r' hr'
    simp only [Loader.withdraw, Requests.get?_erase] at hr'
    split at hr'
    · cases hr'
    · rename_i hne
      have hr' : l.requests.get? id' = some r' := hr'
      exact ⟨hr', fun hd' => hne (h1.eq_of_defined hr hdefines hr' hd')⟩
  · intro u hu
    rw [Loader.withdraw, Loader.state?_foldl_dropWaiters]
    exact state?_abandonModule_of_ne e hu
  · intro u hu
    rw [Loader.withdraw, Loader.definition?_foldl_dropWaiters]
    exact definition?_abandonModule_of_ne e hu
  · intro s hs hne
    rw [Loader.withdraw, Loader.state?_foldl_dropWaiters]
    exact asked_abandonModule e hs hne

/-- The program that a request becomes has the module in hand that the request was to define. -/
theorem leave (h : Owned l k) (hr : l.requests.get? id = some r)
    (hfetches : l'.fetches = l.fetches)
    (hstate : ∀ u, l'.registry.state? u = l.registry.state? u)
    (hdef : ∀ u, l'.registry.definition? u = l.registry.definition? u)
    (hlive : ∀ id' r', l'.requests.get? id' = some r' →
      id' ≠ id ∧ ∃ r, l.requests.get? id' = some r ∧ r'.definitionUrl = r.definitionUrl) :
    Owned l' (Duty.ofDefinition r.definitionUrl ++ k) := by
  cases hd : r.definitionUrl with
  | none =>
    exact h.same (fun _ => by rw [hfetches]) hstate hdef
      (fun id' r' hr' => (hlive id' r' hr').2) (fun _ => rfl) (fun _ hu => hu) h.apart
  | some url =>
    obtain ⟨_, hzero, hloading⟩ := h.defined hr hd
    show Owned l' (.settle url :: k)
    have hhands : ∀ u, hands l'.fetches (.settle url :: k) u =
        hands l.fetches k u + if u = url then 1 else 0 := by
      intro u
      rw [hfetches, hands_cons_settle]
    refine ⟨?_, ?_, ?_, ?_, h.apart.cons (by simp)⟩
    · intro u
      rw [hhands]
      split
      · rename_i hu
        rw [hu, hzero]
      · exact h.single u
    · intro u hpos
      rw [hstate]
      by_cases hu : u = url
      · rw [hu, hloading]
      · rw [hhands, if_neg hu] at hpos
        exact h.held hpos
    · intro id' r' u hr' hd'
      obtain ⟨hne, r'', hr'', hsame⟩ := hlive id' r' hr'
      rw [hsame] at hd'
      have hu : u ≠ url := by
        rintro rfl
        exact hne (h.eq_of_defined hr hd hr'' hd')
      rw [hdef, hstate, hhands, if_neg hu]
      exact h.defined hr'' hd'
    · intro u hu
      rw [hfetches, hstate]
      exact h.watched ((List.mem_cons.mp hu).resolve_left (by simp))

theorem withdraw (h : Owned l k) (hr : l.requests.get? id = some r) :
    Owned (l.withdraw id r) (Duty.ofDefinition r.definitionUrl ++ k) := by
  refine h.leave hr rfl (Loader.state?_foldl_dropWaiters r.modules l.registry id)
    (Loader.definition?_foldl_dropWaiters r.modules l.registry id) ?_
  intro id' r' hr'
  simp only [Loader.withdraw, Requests.get?_erase] at hr'
  split at hr'
  · cases hr'
  · rename_i hne
    exact ⟨hne, r', hr', rfl⟩

theorem erase (h : Owned l k) (hr : l.requests.get? id = some r) :
    Owned { l with requests := l.requests.erase id }
      (Duty.ofDefinition r.definitionUrl ++ k) := by
  refine h.leave hr rfl (fun _ => rfl) (fun _ => rfl) ?_
  intro id' r' hr'
  simp only [Requests.get?_erase] at hr'
  split at hr'
  · cases hr'
  · rename_i hne
    exact ⟨hne, r', hr', rfl⟩

/-- The program that a fetch becomes has the module in hand that the fetch has brought. -/
theorem arrive (h : Owned l k) (hnumbered : l.fetches.Numbered) {f : Fetch ν}
    {result : Fetched (Script ν)} {fs : Fetches ν}
    (htake : l.fetches.take = (some (f, result), fs)) :
    Owned (Loader.record { l with fetches := fs } (.arrived f.target f.role))
      (.ofRole f.target f.role :: .dispatch :: k) := by
  obtain ⟨before, after, heq, heq'⟩ := hnumbered.errands_of_take htake
  have hbringing : ∀ u, l.fetches.bringing u =
      fs.bringing u + if f.role = .module ∧ f.target.key = u then 1 else 0 := by
    intro u
    simp only [Fetches.bringing, heq, heq', List.countP_append, List.countP_cons, Fetch.errand,
      decide_eq_true_eq]
    omega
  have hhands : ∀ u, hands fs (.ofRole f.target f.role :: .dispatch :: k) u =
      hands l.fetches k u := by
    intro u
    rw [hands, hands, hbringing, List.count_cons, List.count_cons_of_ne (by simp)]
    cases f.role with
    | main => simp [Duty.ofRole]
    | module =>
      simp only [Duty.ofRole, beq_iff_eq, Duty.settle.injEq, true_and]
      omega
  refine ⟨fun u => (hhands u).trans_le (h.single u), ?_, ?_, ?_,
    Apart.cons (h.apart.cons (by simp)) (by cases f.role <;> simp [Duty.ofRole])⟩
  · intro u hpos
    exact h.held (hhands u ▸ hpos)
  · intro id' r' u hr' hd
    obtain ⟨hdef, hhand, hload⟩ := h.defined hr' hd
    exact ⟨hdef, (hhands u).trans hhand, hload⟩
  · intro u hu
    have hmem : Duty.watch u ∈ k := by
      rcases List.mem_cons.mp hu with heq | hu
      · cases hrole : f.role with
        | main =>
          rw [hrole] at heq
          cases heq
        | module =>
          rw [hrole] at heq
          cases heq
      · exact (List.mem_cons.mp hu).resolve_left (by simp)
    obtain ⟨hbring, hasked⟩ := h.watched hmem
    have hle := hbringing u
    have hbring' : fs.bringing u = 0 := by omega
    exact ⟨hbring', hasked⟩

end Owned

theorem maintained_owned :
    Maintained fun (l : Loader ν) k => (l.WellDefining ∧ Mains l k) ∧ Owned l k where
  aside h ha := ⟨maintained_wellDefining_mains.aside h.1 ha, h.2.loader rfl rfl rfl⟩
  make payload h := ⟨maintained_wellDefining_mains.make payload h.1, h.2.loader rfl rfl rfl⟩
  fetches h ha := by
    refine ⟨maintained_wellDefining_mains.fetches h.1 ha, h.2.same ?_ (fun _ => rfl)
      (fun _ => rfl) (fun _ r hr => ⟨r, hr, rfl⟩) (fun _ => rfl) (fun _ hu => hu) h.2.apart⟩
    intro u
    rw [Fetches.bringing, Fetches.bringing, ha.1]
  arrive h htake :=
    ⟨maintained_wellDefining_mains.arrive h.1 htake, h.2.arrive h.1.2.numbered htake⟩
  enter role h hj := ⟨maintained_wellDefining_mains.enter role h.1 hj, h.2.loader rfl rfl rfl⟩
  require frame dependencies callback errback h := by
    refine ⟨maintained_wellDefining_mains.require frame dependencies callback errback h.1, ?_⟩
    exact ((h.2.enter rfl).begin _ _).add (by simp) (by simp)
  define ctx defined dependencies factory errback h := by
    refine ⟨maintained_wellDefining_mains.define ctx defined dependencies factory errback h.1, ?_⟩
    exact ((h.2.enterDefinition rfl).begin _ _).add (by simp) (by simp)
  unwatch h := ⟨maintained_wellDefining_mains.unwatch h.1, h.2.drop (by simp)⟩
  setDefaultBase base h :=
    ⟨maintained_wellDefining_mains.setDefaultBase base h.1, h.2.loader rfl rfl rfl⟩
  establish ctx h := by
    refine ⟨maintained_wellDefining_mains.establish ctx h.1, ?_⟩
    split
    · exact (h.2.afterEstablishing _).add (by simp) (by simp)
    · exact h.2.afterEstablishing _
  beginMain root t h hd := by
    refine ⟨maintained_wellDefining_mains.beginMain root t h.1 hd, h.2.same ?_ (fun _ => rfl)
      (fun _ => rfl) (fun _ r hr => ⟨r, hr, rfl⟩) (fun _ => rfl) (fun _ hu => hu) h.2.apart⟩
    intro u
    exact (Owned.bringing_start _ t .main _ u).trans (by simp)
  finishMain t h := ⟨maintained_wellDefining_mains.finishMain t h.1,
    (h.2.drop (by simp)).finishMain t⟩
  ready v h := ⟨maintained_wellDefining_mains.ready v h.1, h.2.readyModule v⟩
  abandon e h hm hd :=
    ⟨maintained_wellDefining_mains.abandon e h.1 hm hd, h.2.abandonModule hm e hd⟩
  abandonDefinition e h hm hd hr := by
    refine ⟨maintained_wellDefining_mains.abandonDefinition e h.1 hm hd hr, ?_⟩
    exact (h.2.abandonDefinition hm e hr (h.1.1.bound hd hr)).loader rfl rfl rfl
  finish h ho := ⟨maintained_wellDefining_mains.finish h.1 ho,
    (h.2.drop (by simp)).loader rfl rfl rfl⟩
  fault h ho := ⟨maintained_wellDefining_mains.fault h.1 ho,
    (h.2.drop (by simp)).loader rfl rfl rfl⟩
  handle h hj := ⟨maintained_wellDefining_mains.handle h.1 hj, h.2.loader rfl rfl rfl⟩
  dispatch h hd := ⟨maintained_wellDefining_mains.dispatch h.1 hd,
    ((h.2.drop (by simp)).add (by simp) (by simp)).loader rfl rfl rfl⟩
  redispatch h hd := ⟨maintained_wellDefining_mains.redispatch h.1 hd, h.2.drop (by simp)⟩
  drained h hw := ⟨maintained_wellDefining_mains.drained h.1 hw,
    (h.2.drop (by simp)).loader rfl rfl rfl⟩
  dead h hw hr := ⟨maintained_wellDefining_mains.dead h.1 hw hr, h.2.loader rfl rfl rfl⟩
  fill {l k id i v rest r} h hw hr hs := by
    have hfill := h.2.modify id fun r => Request.definitionUrl_fill r i v
    exact ⟨maintained_wellDefining_mains.fill h.1 hw hr hs, hfill.loader rfl rfl rfl⟩
  fillFire {l k id i v rest r} h hw hr hs := by
    have hfill := h.2.modify id fun r => Request.definitionUrl_fill r i v
    have herase := hfill.erase (Requests.get?_modify_self (·.fill i v) hr)
    rw [Request.definitionUrl_fill] at herase
    exact ⟨maintained_wellDefining_mains.fillFire h.1 hw hr hs,
      (herase.add (by simp) (by simp)).loader rfl rfl rfl⟩
  fire h hw hr := ⟨maintained_wellDefining_mains.fire h.1 hw hr,
    ((h.2.erase hr).add (by simp) (by simp)).loader rfl rfl rfl⟩
  fail {l k id e rest r} h hw hr := by
    have hrest : Owned { l with worklist := rest } (.drain :: k) := h.2.loader rfl rfl rfl
    exact ⟨maintained_wellDefining_mains.fail h.1 hw hr, (hrest.withdraw hr).loader rfl rfl rfl⟩

theorem Machine.Reachable.owned {m : Machine ν} (h : m.Reachable) :
    Owned m.loader (dutiesOf m.stack) := by
  refine (maintained_owned.reachable ?_ h).2
  intro config resources
  exact ⟨⟨Defining.init, Mains.init config resources⟩, Owned.init config resources⟩

end AsyncModule
