import AsyncModule.Proofs.Deeds
import AsyncModule.Proofs.Linked

/-!
# AsyncModule.Proofs.Loads

What has been loaded, and for whom. A resource is loaded as a module when its record is made and
never again, so the records are those of the modules loaded; every load is in flight until it has
been taken up; and what was loaded once runs once.

* `Loaded`            — the invariant.
* `maintained_loaded` — everything the machine does keeps it.
* `single_flight`     — the whole statement, in terms of what programs can see.
-/

namespace AsyncModule

variable {ν : Type}

namespace Event

def load? : Event ν → Option (Target × LoadRole)
  | load t role => some (t, role)
  | _ => none

def arrived? : Event ν → Option (Target × LoadRole)
  | arrived t role => some (t, role)
  | _ => none

def entered? : Event ν → Option (Target × LoadRole)
  | entered t role => some (t, role)
  | _ => none

def note? : Event ν → Option ν
  | note n => some n
  | _ => none

/-- Whether an event tells of a resource on its way. -/
def isTraffic : Event ν → Bool
  | load _ _ => true
  | arrived _ _ => true
  | entered _ _ => true
  | _ => false

end Event

def loads (j : List (Event ν)) : List (Target × LoadRole) := j.filterMap Event.load?

/-- What has been taken up after it was fetched. -/
def arrivals (j : List (Event ν)) : List (Target × LoadRole) := j.filterMap Event.arrived?

/-- The units and scripts that have been started. -/
def entries (j : List (Event ν)) : List (Target × LoadRole) := j.filterMap Event.entered?

/-- What programs have noted, newest first. -/
def notes (j : List (Event ν)) : List ν := j.filterMap Event.note?

/-- The modules among what was loaded, taken up or started. -/
def modulesOf (ps : List (Target × LoadRole)) : List String :=
  ps.filterMap fun p => if p.2 = .module then some p.1.key else none

/-- Every unit or script that was started had just been taken up. -/
def Prompt : List (Event ν) → Prop
  | [] => True
  | .entered t role :: .arrived t' role' :: older => t = t' ∧ role = role' ∧ Prompt older
  | .entered _ _ :: _ => False
  | _ :: older => Prompt older

theorem Prompt.cons {j : List (Event ν)} {e : Event ν} (h : Prompt j) (he : e.isTraffic = false) :
    Prompt (e :: j) := by
  cases e with
  | load t role => cases he
  | arrived t role => cases he
  | entered t role => cases he
  | _ => exact h

/-- What was taken up is started once at most. -/
theorem Prompt.entries_sublist {j : List (Event ν)} (h : Prompt j) :
    (entries j).Sublist (arrivals j) := by
  induction j using Prompt.induct with
  | case1 => exact .slnil
  | case2 t role t' role' older ih =>
    obtain ⟨rfl, rfl, h⟩ := h
    exact (ih h).cons_cons _
  | case3 t role older hne =>
    cases older with
    | nil => cases h
    | cons e older =>
      cases e with
      | arrived t' role' => exact absurd rfl (hne t' role' older)
      | _ => cases h
  | case4 e older _ hne ih =>
    cases e with
    | entered t role => exact absurd rfl (hne t role)
    | arrived t role => exact (ih h).cons _
    | _ => exact ih h

namespace Registry

/-- The modules that there are records of, in the order in which they were first heard of. -/
def urls (g : Registry) : List String := g.records.map (·.1)

theorem state?_ne_none_iff {g : Registry} {url : String} :
    g.state? url ≠ none ↔ url ∈ g.urls := by
  rw [ne_eq, state?, Option.map_eq_none_iff, get?, List.lookup_eq_none_iff, urls, List.mem_map]
  constructor
  · intro h
    by_contra hnot
    refine h fun p hp => ?_
    simp only [bne_iff_ne, ne_eq]
    rintro rfl
    exact hnot ⟨p, hp, rfl⟩
  · rintro ⟨p, hp, rfl⟩ h
    simpa using h p hp

@[simp] theorem urls_modify (g : Registry) (url : String) (f : Record → Record) :
    (g.modify url f).urls = g.urls := by
  unfold urls modify
  rw [List.map_map]
  refine List.map_congr_left ?_
  rintro ⟨u, r⟩ _
  simp only [Function.comp]
  split <;> rfl

@[simp] theorem urls_settle (g : Registry) (url : String) (f : Record → Record) :
    (g.settle url f).2.urls = g.urls := by
  unfold settle
  split
  · rfl
  · split
    · rfl
    · exact urls_modify g url _

theorem urls_foldl_dropWaiters (urls : List String) (g : Registry) (id : RequestId) :
    (urls.foldl (fun g url => g.dropWaiters url id) g).urls = g.urls := by
  induction urls generalizing g with
  | nil => rfl
  | cons url rest ih =>
    rw [List.foldl_cons, ih]
    exact urls_modify g url _

/-- No module becomes one that has not been asked for by being settled. -/
theorem known_of_settle {g : Registry} {url u : String} {f : Record → Record} {s : ModuleState}
    (hf : ∀ r, (f r).state = s) (hs : s ≠ .known)
    (h : (g.settle url f).2.state? u = some .known) : g.state? u = some .known := by
  rcases state?_of_settle hf h with ⟨_, rfl⟩ | hold
  · exact absurd rfl hs
  · exact hold

theorem urls_insertNew (g : Registry) (t : Target) :
    (g.insertNew t).urls = if g.state? t.key = none then g.urls ++ [t.key] else g.urls := by
  unfold insertNew state?
  cases g.get? t.key with
  | none => simp [urls]
  | some r => simp

end Registry

namespace Loader

/-- The journal tells truly what has been loaded, and for which records. -/
structure Loaded (l : Loader ν) : Prop where
  numbered : l.fetches.Numbered
  /-- There are no records of modules that have not been asked for. -/
  asked : ∀ url, l.registry.state? url ≠ some .known
  urls : l.registry.urls = (modulesOf (loads l.journal)).reverse
  once : (modulesOf (loads l.journal)).Nodup
  taken : (l.fetches.errands.map (·.2) ++ arrivals l.journal).Perm (loads l.journal)
  prompt : Prompt l.journal

namespace Loaded

variable {l l' : Loader ν} {e : Event ν}

theorem init (config : Config) (resources : Target → Option (Fetched (Script ν))) :
    (Loader.new config resources).Loaded where
  numbered := Fetches.numbered_empty
  asked url h := by cases h
  urls := rfl
  once := .nil
  taken := .nil
  prompt := trivial

theorem size_eq (h : l.Loaded) : l.registry.size = (modulesOf (loads l.journal)).length := by
  have hlength := congrArg List.length h.urls
  simpa [Registry.urls, Registry.size] using hlength

theorem length_inFlight (h : l.Loaded) :
    l.fetches.inFlight.length + (arrivals l.journal).length = (loads l.journal).length := by
  have hlength := h.taken.length_eq
  simpa [Fetches.errands] using hlength

/-- What has been started was taken up before, and so it was loaded. -/
theorem nodup_entries (h : l.Loaded) : (modulesOf (entries l.journal)).Nodup := by
  have hall : (modulesOf (l.fetches.errands.map (·.2) ++ arrivals l.journal)).Nodup :=
    ((h.taken.filterMap _).nodup_iff).mpr h.once
  have htaken : (modulesOf (arrivals l.journal)).Nodup :=
    hall.sublist ((List.sublist_append_right _ _).filterMap _)
  exact htaken.sublist (h.prompt.entries_sublist.filterMap _)

theorem keep (h : l.Loaded) (hf : l'.fetches = l.fetches) (hj : l'.journal = l.journal)
    (hurls : l'.registry.urls = l.registry.urls)
    (hasked : ∀ url, l'.registry.state? url = some .known → l.registry.state? url = some .known) :
    l'.Loaded where
  numbered := hf ▸ h.numbered
  asked url hurl := h.asked url (hasked url hurl)
  urls := by rw [hurls, hj, h.urls]
  once := hj ▸ h.once
  taken := by
    rw [hf, hj]
    exact h.taken
  prompt := hj ▸ h.prompt

/-- Whatever changes neither records nor fetches nor the journal. -/
theorem same (h : l.Loaded) (hg : l'.registry = l.registry) (hf : l'.fetches = l.fetches)
    (hj : l'.journal = l.journal) : l'.Loaded :=
  h.keep hf hj (by rw [hg]) (by rw [hg]; exact fun _ hurl => hurl)

theorem record (h : l.Loaded) (he : e.isTraffic = false) : (l.record e).Loaded := by
  have hloads : loads (e :: l.journal) = loads l.journal := by
    cases e with
    | load t role => cases he
    | _ => rfl
  have harrivals : arrivals (e :: l.journal) = arrivals l.journal := by
    cases e with
    | arrived t role => cases he
    | _ => rfl
  refine ⟨h.numbered, h.asked, ?_, ?_, ?_, h.prompt.cons he⟩
  · show l.registry.urls = (modulesOf (loads (e :: l.journal))).reverse
    rw [hloads, h.urls]
  · show (modulesOf (loads (e :: l.journal))).Nodup
    rw [hloads]
    exact h.once
  · show (l.fetches.errands.map (·.2) ++ arrivals (e :: l.journal)).Perm (loads (e :: l.journal))
    rw [hloads, harrivals]
    exact h.taken

theorem fetches (h : l.Loaded) {fs : Fetches ν} (hagree : l.fetches.Agree fs) :
    Loaded { l with fetches := fs } where
  numbered := h.numbered.agree hagree
  asked := h.asked
  urls := h.urls
  once := h.once
  taken := by
    show (fs.errands.map (·.2) ++ arrivals l.journal).Perm (loads l.journal)
    rw [hagree.1]
    exact h.taken
  prompt := h.prompt

theorem perm_start (h : l.Loaded) (t : Target) (role : LoadRole) :
    ((l.fetches.start t role (l.resources t)).errands.map (·.2) ++ arrivals l.journal).Perm
      ((t, role) :: loads l.journal) := by
  rw [Fetches.errands_start, List.map_append, List.append_assoc]
  exact List.perm_middle.trans (h.taken.cons _)

/-- A main resource is loaded, which makes no record. -/
theorem loadMain (h : l.Loaded) (t : Target) : (l.load t .main).Loaded where
  numbered := h.numbered.start t .main _
  asked := h.asked
  urls := h.urls
  once := h.once
  taken := h.perm_start t .main
  prompt := h.prompt

theorem arrive (h : l.Loaded) {f : Fetch ν} {result : Fetched (Script ν)} {fs : Fetches ν}
    (htake : l.fetches.take = (some (f, result), fs)) :
    (Loader.record { l with fetches := fs } (.arrived f.target f.role)).Loaded where
  numbered := h.numbered.take htake
  asked := h.asked
  urls := h.urls
  once := h.once
  taken := by
    obtain ⟨before, after, heq, heq'⟩ := h.numbered.errands_of_take htake
    refine List.Perm.trans ?_ h.taken
    show (fs.errands.map (·.2) ++ (f.target, f.role) :: arrivals l.journal).Perm _
    rw [heq, heq', List.map_append, List.map_append, List.map_cons, List.append_assoc,
      List.append_assoc]
    exact List.perm_middle.append_left _
  prompt := h.prompt

/-- A unit or script is started that has just been taken up. -/
theorem enter (h : l.Loaded) {t : Target} {role : LoadRole} {older : List (Event ν)}
    (hj : l.journal = .arrived t role :: older) : (l.record (.entered t role)).Loaded := by
  refine ⟨h.numbered, h.asked, h.urls, h.once, h.taken, ?_⟩
  have hprompt := h.prompt
  show Prompt (.entered t role :: l.journal)
  rw [hj] at hprompt ⊢
  exact ⟨rfl, rfl, hprompt⟩

/-! ### Linking -/

/-- A module first heard of is loaded and gets a record; otherwise nothing is loaded. -/
theorem attach_cases (h : l.Loaded) (id : RequestId) (i : Nat) (t : Target) :
    (l.registry.state? t.key ≠ none ∧ (l.attach id i t).fetches = l.fetches ∧
      (l.attach id i t).journal = l.journal ∧ (l.attach id i t).registry.urls = l.registry.urls) ∨
    (l.registry.state? t.key = none ∧
      (l.attach id i t).fetches = l.fetches.start t .module (l.resources t) ∧
      (l.attach id i t).journal = .load t .module :: l.journal ∧
      (l.attach id i t).registry.urls = l.registry.urls ++ [t.key]) := by
  cases hs : l.registry.state? t.key with
  | none =>
    have hknown : (l.registry.insertNew t).state? t.key = some .known := by
      have hget : l.registry.get? t.key = none := Option.map_eq_none_iff.mp hs
      simp [Registry.state?, Registry.get?_insertNew, hget]
    have hurls := Registry.urls_insertNew l.registry t
    rw [if_pos hs] at hurls
    refine .inr ⟨rfl, ?_⟩
    unfold Loader.attach
    dsimp only
    simp only [hknown]
    refine ⟨rfl, rfl, ?_⟩
    rw [← hurls]
    exact Registry.urls_modify _ t.key _
  | some s =>
    refine .inl ⟨by simp, ?_⟩
    unfold Loader.attach
    dsimp only
    rw [Registry.insertNew_of_state? hs]
    cases s with
    | known => exact absurd hs (h.asked t.key)
    | loading =>
      simp only [hs]
      exact ⟨trivial, trivial, Registry.urls_modify _ t.key _⟩
    | ready v =>
      simp only [hs]
      exact ⟨rfl, rfl, rfl⟩
    | failed e =>
      simp only [hs]
      exact ⟨rfl, rfl, rfl⟩

theorem attach (h : l.Loaded) (id : RequestId) (i : Nat) (t : Target) :
    (l.attach id i t).Loaded := by
  have hasked : ∀ url, (l.attach id i t).registry.state? url ≠ some .known := by
    intro url hurl
    rcases state?_of_attach hurl with hold | ⟨_, hloading, _⟩
    · exact h.asked url hold
    · cases hloading
  rcases h.attach_cases id i t with ⟨_, hf, hj, hurls⟩ | ⟨hnew, hf, hj, hurls⟩
  · exact h.keep hf hj hurls fun url hurl => absurd hurl (hasked url)
  · have hmodules : modulesOf (loads (l.attach id i t).journal) =
        t.key :: modulesOf (loads l.journal) := by rw [hj]; rfl
    refine ⟨?_, hasked, ?_, ?_, ?_, ?_⟩
    · rw [hf]
      exact h.numbered.start t .module _
    · rw [hurls, hmodules, List.reverse_cons, h.urls]
    · rw [hmodules, List.nodup_cons]
      refine ⟨?_, h.once⟩
      rw [← List.mem_reverse, ← h.urls, ← Registry.state?_ne_none_iff, not_not]
      exact hnew
    · rw [hf, hj]
      exact h.perm_start t .module
    · rw [hj]
      exact h.prompt

theorem keptByLinking : KeptByLinking fun l : Loader ν => l.Loaded where
  linked _ _ h := h.record rfl
  context _ _ h := h.same rfl rfl rfl
  stop _ h _ := h.same rfl rfl rfl
  attach i t h _ _ := h.attach _ i t

theorem enterRequest (h : l.Loaded) (r : Request ν) : (l.enter r).2.Loaded := by
  unfold Loader.enter
  dsimp only
  refine Loaded.record (h.keep rfl rfl ?_ ?_) rfl
  · dsimp only
    split
    · exact Registry.urls_modify _ _ _
    · rfl
  · intro url hurl
    dsimp only at hurl
    split at hurl
    · rwa [Registry.state?_setDefinition] at hurl
    · exact hurl

theorem submit (h : l.Loaded) (frame : Option Frame) (dependencies : List String)
    (callback : List ModuleValue → Script ν) (errback : Option (LoadError → Script ν))
    (definitionUrl : Option String) :
    (l.submit frame dependencies callback errback definitionUrl).Loaded :=
  keptByLinking.submit (fun _ h => h.same rfl rfl rfl) (fun _ h => h.same rfl rfl rfl)
    (h.enterRequest _)

/-! ### Settling -/

theorem readyModule (h : l.Loaded) (url : String) (v : ModuleValue) :
    (l.readyModule url v).Loaded := by
  refine h.keep rfl rfl (Registry.urls_settle _ _ _) ?_
  intro u hu
  exact Registry.known_of_settle (f := fun r => { r with state := .ready v, definition := none })
    (fun _ => rfl) (by simp) hu

theorem abandonModule (h : l.Loaded) (url : String) (e : LoadError) :
    (l.abandonModule url e).Loaded := by
  refine h.keep rfl rfl ((Registry.urls_settle _ _ _).trans (Registry.urls_modify _ _ _)) ?_
  intro u hu
  have hknown := Registry.known_of_settle (g := l.registry.setDefinition url none)
    (f := fun r => { r with state := .failed e }) (fun _ => rfl) (by simp) hu
  rwa [Registry.state?_setDefinition] at hknown

theorem withdraw (h : l.Loaded) (id : RequestId) (r : Request ν) : (l.withdraw id r).Loaded := by
  refine h.keep rfl rfl (Registry.urls_foldl_dropWaiters r.modules l.registry id) ?_
  intro u hu
  rwa [Loader.withdraw, state?_foldl_dropWaiters] at hu

end Loaded
end Loader

open Loader in
theorem maintained_loaded : Maintained fun (l : Loader ν) _ => l.Loaded where
  aside {l k e} h ha := by
    cases e with
    | report r => exact h.record rfl
    | note n => exact h.record rfl
    | _ => cases ha
  make _ h := h.same rfl rfl rfl
  fetches h hagree := h.fetches hagree
  arrive h htake := h.arrive htake
  enter _ h hj := h.enter hj
  require frame dependencies callback errback h :=
    h.submit frame dependencies callback errback none
  define _ _ dependencies factory errback h := h.submit _ dependencies factory errback _
  unwatch h := h
  setDefaultBase _ h := h.same rfl rfl rfl
  establish _ h := Loaded.keptByLinking.afterEstablishing (fun _ h => h.same rfl rfl rfl) h _
  beginMain {l k _} root t h _ := by
    have hbegun : Loaded { l with bootstrap := l.bootstrap.beginEstablishing root } :=
      h.same rfl rfl rfl
    exact hbegun.loadMain t
  finishMain t h := Loaded.keptByLinking.finishMain (fun _ h => h.same rfl rfl rfl) h t
  ready v h := h.readyModule _ v
  abandon e h _ _ := h.abandonModule _ e
  abandonDefinition e h _ _ _ := ((h.abandonModule _ e).withdraw _ _).record rfl
  finish h _ := h.record rfl
  fault h _ := (h.record (e := .returned _ _) rfl).record rfl
  handle h _ := h.record rfl
  dispatch h _ := h.same rfl rfl rfl
  redispatch h _ := h
  drained h _ := h.same rfl rfl rfl
  dead h _ _ := h.same rfl rfl rfl
  fill h _ _ _ := h.same rfl rfl rfl
  fillFire h _ _ _ := (h.record rfl).same rfl rfl rfl
  fire h _ _ := (h.record rfl).same rfl rfl rfl
  fail {l k id e rest r} h _ _ := by
    have hrest : Loaded { l with worklist := rest } := h.same rfl rfl rfl
    exact (hrest.withdraw id r).record rfl

theorem Machine.Reachable.loaded {m : Machine ν} (h : m.Reachable) : m.loader.Loaded :=
  maintained_loaded.reachable Loader.Loaded.init h

/-! ## Main resources -/

/-- Whether a task is about to deal with a main resource: its fetch is taken up next, or its script
is about to end. -/
def Task.dealsWithMain (l : Loader ν) : Task ν → Bool
  | .body _ (.finish _) (.main _) => true
  | .body _ (.turn _) _ => l.takesMain
  | .settling _ _ _ => l.takesMain
  | _ => false

namespace Loader

theorem registry_boot_main (l : Loader ν) (entry main : String) :
    (l.boot entry (some main)).2.registry = l.registry := by
  unfold boot
  split
  · rfl
  · dsimp only
    split
    · rfl
    · split
      · rfl
      · split <;> rfl

theorem registry_finishMain {l : Loader ν} (hd : l.bootstrap.deferred = []) (t : Target) :
    (l.finishMain t).registry = l.registry := by
  have hdrain : ∀ b : Bootstrap, b.deferred = [] →
      (drainDeferred { l with bootstrap := b }).registry = l.registry := by
    intro b hb
    unfold drainDeferred
    split
    · rfl
    · simp [hb]
  unfold finishMain
  dsimp only
  split
  · unfold afterEstablishing
    dsimp only
    split
    · exact hdrain _ (by rw [Bootstrap.deferred_finishEstablishing, hd])
    · rfl
  · rfl

end Loader

namespace Machine

theorem registry_of_deals {l l' : Loader ν} {finished : Option Target}
    (hd : l.bootstrap.deferred = []) (h : Deals l finished l') : l'.registry = l.registry := by
  cases h with
  | enter t hl => exact hl.registry
  | finish t hl => rw [Loader.registry_finishMain (by rw [hl.bootstrap, hd]) t, hl.registry]

theorem registry_bootstrap_main (l : Loader ν) (frame : Option Frame) (entry main : String)
    (next : Option LoadError → Script ν) (ending : Ending ν) :
    (advance l (.body frame (.bootstrap entry (some main) next) ending)).1.registry =
      l.registry := by
  simp only [advance, perform, fst_afterChange]
  exact Loader.registry_boot_main l entry main

/-- To deal with a main resource is nothing to the modules, but for those of the requests that are
linked then. -/
theorem registry_of_dealsWithMain {l : Loader ν} {task : Task ν}
    (h : task.dealsWithMain l = true) (hd : l.bootstrap.deferred = []) :
    (advance l task).1.registry = l.registry := by
  unfold Task.dealsWithMain at h
  split at h
  · exact registry_of_deals hd (deals_concludeMain l _ _)
  · exact registry_of_deals hd (deals_takeUp h)
  · rw [fst_settling]
    exact registry_of_deals hd (deals_takeUp h)
  · cases h

end Machine

/-- At every moment of every run: no module is loaded twice; the modules loaded are those that there
are records of, and no record is of a module that is not loaded; what is in flight is what has been
loaded and not been taken up; and of what has been fetched for a module nothing is run twice.
Asking for a main resource changes no record, and dealing with one changes none by itself. -/
theorem single_flight {m : Machine ν} (h : m.Reachable) (frame : Option Frame) :
    (modulesOf (loads m.loader.journal)).Nodup ∧
    (∀ url, (m.loader.view frame).status url ≠ none ↔ url ∈ modulesOf (loads m.loader.journal)) ∧
    (m.loader.view frame).moduleCount = (modulesOf (loads m.loader.journal)).length ∧
    (∀ url, (m.loader.view frame).status url ≠ some .known) ∧
    (m.loader.view frame).inFlight + (arrivals m.loader.journal).length =
      (loads m.loader.journal).length ∧
    (modulesOf (entries m.loader.journal)).Nodup ∧
    (∀ frame' entry main next ending rest,
      m.stack = .body frame' (.bootstrap entry (some main) next) ending :: rest →
        m.step.loader.registry = m.loader.registry) ∧
    ∀ task rest, m.stack = task :: rest → task.dealsWithMain m.loader = true →
      m.loader.bootstrap.deferred = [] → m.step.loader.registry = m.loader.registry := by
  have hloaded := h.loaded
  have hstatus : ∀ url, m.loader.status url ≠ none ↔ url ∈ modulesOf (loads m.loader.journal) := by
    intro url
    rw [← List.mem_reverse, ← hloaded.urls, ← Registry.state?_ne_none_iff, Loader.status, ne_eq,
      Option.map_eq_none_iff]
  refine ⟨hloaded.once, hstatus, ?_, ?_, ?_, ?_, ?_, ?_⟩
  · exact hloaded.size_eq
  · intro url hknown
    obtain ⟨s, hs, hsk⟩ := Option.map_eq_some_iff.mp hknown
    cases s with
    | known => exact hloaded.asked url hs
    | _ => cases hsk
  · exact hloaded.length_inFlight
  · exact hloaded.nodup_entries
  · intro frame' entry main next ending rest hstack
    rw [Machine.step_of_cons hstack, Machine.registry_bootstrap_main]
  · intro task rest hstack hmain hd
    rw [Machine.step_of_cons hstack]
    exact Machine.registry_of_dealsWithMain hmain hd

/-- A main resource that asks for one module by two names. -/
def sharingResources (t : Target) : Option (Fetched (Script Unit)) :=
  if t.key = "a:/m.js" then
    some (.code (.require ["./x.js", "./d/../x.js"] (fun _ => .finish .done) none
      (.finish .done)))
  else
    some (.code (.define [] (fun _ => .make (.data .null) fun v => .finish (.value v)) none
      (.finish .done)))

/-- The end of the run that starts with it. -/
def sharing : Machine Unit :=
  (Machine.start (Loader.new {} sharingResources)
    (.bootstrap "a:/" (some "./m.js") fun _ => .settle fun _ => .finish .done)).run 40

theorem single_flight_sharing :
    (modulesOf (loads sharing.loader.journal)) = ["a:/x.js"] ∧
    (sharing.loader.view none).moduleCount = 1 ∧
    (∀ url, (sharing.loader.view none).status url ≠ none ↔ url = "a:/x.js") ∧
    (sharing.loader.view none).inFlight = 0 ∧
    (arrivals sharing.loader.journal).length = 2 := by
  have hreach : sharing.Reachable := (Machine.reachable_start _ _ _).run 40
  have hmodules : modulesOf (loads sharing.loader.journal) = ["a:/x.js"] := by decide +kernel
  have harrivals : (arrivals sharing.loader.journal).length = 2 := by decide +kernel
  have hloads : (loads sharing.loader.journal).length = 2 := by decide +kernel
  obtain ⟨_, hstatus, hcount, _, hflight, _⟩ := single_flight hreach none
  rw [harrivals, hloads] at hflight
  rw [hmodules] at hcount hstatus
  refine ⟨hmodules, hcount, ?_, by omega, harrivals⟩
  intro url
  rw [hstatus, List.mem_singleton]

end AsyncModule
