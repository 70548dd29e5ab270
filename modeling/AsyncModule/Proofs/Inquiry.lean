import AsyncModule.Command.Fetch
import AsyncModule.Proofs.Blame
import AsyncModule.Proofs.Contexts
import AsyncModule.Proofs.Mirroring

/-!
# AsyncModule.Proofs.Inquiry

What the loader knows while the command that loads specifiers asks for them. Each specifier is asked
for by a request of its own, in their order, and the first one that names a module has it loaded. A
note is taken of a request when it is done with; it tells what came of the module, or why there is
none.

* `firsts`          — the first target of each canonical URL.
* `Inquiry.Fares`   — what is true of the loader all along.
* `Fares.submit`    — the next specifier is asked for.
* `Fares.linkAll`   — requests are linked, one after the other.
* `Fares.answer`    — a request is done with.
-/

namespace AsyncModule

variable {ν : Type}

/-! ## What is read off the journal -/

/-- The modules among what has been loaded, newest first. -/
def moduleTargets (ps : List (Target × LoadRole)) : List Target :=
  ps.filterMap fun p => if p.2 = .module then some p.1 else none

theorem modulesOf_eq (ps : List (Target × LoadRole)) :
    modulesOf ps = (moduleTargets ps).map Target.key := by
  rw [modulesOf, moduleTargets, List.map_filterMap]
  refine congrArg (List.filterMap · ps) (funext fun p => ?_)
  split <;> rfl

/-- Of targets with the same canonical URL only the first. -/
def firsts (ts : List Target) : List Target :=
  ts.foldl (fun kept t => if t.key ∈ kept.map Target.key then kept else kept ++ [t]) []

theorem firsts_concat (ts : List Target) (t : Target) :
    firsts (ts ++ [t]) =
      if t.key ∈ (firsts ts).map Target.key then firsts ts else firsts ts ++ [t] := by
  rw [firsts, List.foldl_append]
  rfl

namespace Command

/-! ## Asking -/

/-- What the callback of a request does. -/
def answering (index : Nat) : List ModuleValue → Script Answer
  | v :: _ => .note ⟨index, .ok v⟩ (.finish .done)
  | [] => .finish .done

/-- What the error handler of a request does. -/
def apologizing (index : Nat) (e : LoadError) : Script Answer :=
  .note ⟨index, .error e⟩ (.finish .done)

/-- What is left of the command after the first specifiers have been asked for. -/
def askFrom (index : Nat) (specifiers : List String) : Script Answer :=
  (specifiers.zipIdx index).foldr (fun (s, i) next => ask i s next) (.settle fun _ => .finish .done)

theorem askFrom_cons (index : Nat) (s : String) (specifiers : List String) :
    askFrom index (s :: specifiers) = .require [s] (answering index) (some (apologizing index))
      (askFrom (index + 1) specifiers) := by
  have hanswering : answering index = fun values =>
      match values with
      | v :: _ => .note ⟨index, .ok v⟩ (.finish .done)
      | [] => .finish .done := by
    funext values
    cases values <;> rfl
  rw [hanswering]
  rfl

/-- Where the command resolves specifiers, what it can read, and what it is to load. -/
structure Inquiry where
  resolver : Resolver
  ctx : Context
  files : FileTree
  network : Network
  specifiers : List String

namespace Inquiry

variable (q : Inquiry)

def name (specifier : String) : Except LoadError Target := q.resolver.resolve specifier q.ctx

/-- What fetching a target yields. -/
def fetched (t : Target) : Fetched (Script Answer) :=
  (⟨[], q.files⟩ : LocalResources Answer).load t q.network

theorem fetched_cases (t : Target) :
    (∃ e, q.fetched t = .failed e) ∨ ∃ f, q.fetched t = .markup f none := by
  unfold fetched LocalResources.load
  cases t.kind with
  | code => exact .inl ⟨_, rfl⟩
  | markup =>
    dsimp only
    cases LocalResources.readText _ t.url q.network with
    | ok content => exact .inr ⟨_, rfl⟩
    | error e => exact .inl ⟨e, rfl⟩

/-- The specifier that a request is for. -/
def specifier? (id : RequestId) : Option String := q.specifiers[id.serial - 1]?

/-- The target that the specifier of a request names. -/
def target? (id : RequestId) : Option Target :=
  (q.specifier? id).bind fun s => (q.name s).toOption

/-- The request asks for its specifier, and notes what comes of it. -/
structure Asks (id : RequestId) (r : Request Answer) : Prop where
  dependencies : ∃ s, q.specifier? id = some s ∧ r.dependencies = [s]
  callback : r.callback = answering (id.serial - 1)
  errback : r.errback = some (apologizing (id.serial - 1))
  definitionUrl : r.definitionUrl = none

/-- What is known of a module is right for the target that it was first loaded for. -/
def Right (loaded : List Target) (url : String) : ModuleState → Prop
  | .ready v => ∃ t ∈ loaded, t.key = url ∧
      ∃ f, q.fetched t = .markup f none ∧ v.payload = .fragment f
  | .failed e => ∃ t ∈ loaded, t.key = url ∧ q.fetched t = .failed e
  | _ => True

/-- What comes of a specifier: the value of the module that it names; that the module has failed; or
that there is none. -/
def Comes (g : Registry) (s : String) : Except LoadError ModuleValue → Prop
  | .ok v => ∃ t, q.name s = .ok t ∧ g.state? t.key = some (.ready v)
  | .error e => q.name s = .error e ∨ ∃ t source, q.name s = .ok t ∧
      g.state? t.key = some (.failed source) ∧ e = .dependency t.key source

/-- Every request that has been made is live or noted, and never noted twice. -/
structure Made (rs : Requests Answer) (j : List (Event Answer)) : Prop where
  serials : (submissions j).reverse.map RequestId.serial = List.range' 1 rs.serial
  asks : ∀ {id r}, rs.get? id = some r → id ∈ submissions j ∧ q.Asks id r
  noted : ∀ id ∈ submissions j, (notes j).countP (·.index + 1 = id.serial) =
    if (rs.get? id).isSome then 0 else 1
  indices : ∀ a ∈ notes j, a.index < rs.serial

/-- Requests are linked in the order in which they were made, up to those that wait for a context;
and a module is loaded when a specifier first names it. -/
structure Ordered (waiting : List RequestId) (j : List (Event Answer)) : Prop where
  order : (linkings j).reverse ++ waiting = (submissions j).reverse
  linked : ∀ {id resolver ctx}, .linked id resolver ctx ∈ j → resolver = q.resolver ∧ ctx = q.ctx
  loads : (moduleTargets (loads j)).reverse = firsts ((linkings j).reverse.filterMap q.target?)

/-- What has been fetched is known aright, what is being fetched will be, and so are the notes. -/
structure Stocked (g : Registry) (fs : Fetches Answer) (j : List (Event Answer)) : Prop where
  modules : ∀ {url s}, g.state? url = some s → q.Right (moduleTargets (loads j)) url s
  fetches : ∀ f ∈ fs.inFlight, f.result = some (q.fetched f.target) ∧ f.id ∈ fs.queue
  notes : ∀ a ∈ notes j, ∃ s, q.specifiers[a.index]? = some s ∧ q.Comes g s a.result

structure Fares (waiting : List RequestId) (l : Loader Answer) : Prop where
  resolver : l.resolver = q.resolver
  resources : l.resources = fun t => some (q.fetched t)
  made : q.Made l.requests l.journal
  ordered : q.Ordered waiting l.journal
  stocked : q.Stocked l.registry l.fetches l.journal

variable {q} {rs rs' : Requests Answer} {j j' : List (Event Answer)} {id id' : RequestId}
  {r : Request Answer} {waiting : List RequestId} {l l' : Loader Answer}

theorem Right.mono {loaded loaded' : List Target} {url : String} {s : ModuleState}
    (h : q.Right loaded url s) (hsub : loaded ⊆ loaded') : q.Right loaded' url s := by
  cases s with
  | ready v =>
    obtain ⟨t, ht, hrest⟩ := h
    exact ⟨t, hsub ht, hrest⟩
  | failed e =>
    obtain ⟨t, ht, hrest⟩ := h
    exact ⟨t, hsub ht, hrest⟩
  | _ => trivial

theorem Comes.mono {g g' : Registry} {s : String} {result : Except LoadError ModuleValue}
    (h : q.Comes g s result)
    (hsettled : ∀ {url s}, g.state? url = some s → s.isSettled = true → g'.state? url = some s) :
    q.Comes g' s result := by
  cases result with
  | ok v =>
    obtain ⟨t, ht, hstate⟩ := h
    exact ⟨t, ht, hsettled hstate rfl⟩
  | error e =>
    refine h.imp_right ?_
    rintro ⟨t, source, ht, hstate, rfl⟩
    exact ⟨t, source, ht, hsettled hstate rfl, rfl⟩

namespace Made

theorem nodup_serials (h : q.Made rs j) : ((submissions j).map RequestId.serial).Nodup := by
  rw [← List.nodup_reverse, ← List.map_reverse, h.serials]
  exact List.nodup_range'

theorem eq_of_serial (h : q.Made rs j) (hid : id ∈ submissions j) (hid' : id' ∈ submissions j)
    (heq : id.serial = id'.serial) : id = id' :=
  List.inj_on_of_nodup_map h.nodup_serials hid hid' heq

theorem nodup_submissions (h : q.Made rs j) : (submissions j).Nodup := h.nodup_serials.of_map

theorem serial_mem (h : q.Made rs j) (hid : id ∈ submissions j) :
    1 ≤ id.serial ∧ id.serial ≤ rs.serial := by
  have hmem : id.serial ∈ (submissions j).reverse.map RequestId.serial :=
    List.mem_map_of_mem (List.mem_reverse.mpr hid)
  rw [h.serials, List.mem_range'_1] at hmem
  omega

/-- An event that is neither the making of a request nor a note does not matter. -/
theorem aside (h : q.Made rs j) {e : Event Answer} (hmade : e.submitted? = none)
    (hnote : e.note? = none) : q.Made rs (e :: j) := by
  have hsubmissions : submissions (e :: j) = submissions j := List.filterMap_cons_none hmade
  have hnotes : notes (e :: j) = notes j := List.filterMap_cons_none hnote
  constructor
  · rw [hsubmissions]
    exact h.serials
  · rw [hsubmissions]
    exact h.asks
  · rw [hsubmissions, hnotes]
    exact h.noted
  · rw [hnotes]
    exact h.indices

/-- The requests may change, as long as they ask for the same. -/
theorem modify (h : q.Made rs j) (id : RequestId) {f : Request Answer → Request Answer}
    (hf : ∀ r, q.Asks id r → q.Asks id (f r)) : q.Made (rs.modify id f) j where
  serials := by rw [Requests.serial_modify, h.serials]
  asks hr := by
    rcases Requests.get?_modify_eq_some hr with ⟨rfl, r, hold, rfl⟩ | ⟨_, hold⟩
    · exact ⟨(h.asks hold).1, hf r (h.asks hold).2⟩
    · exact h.asks hold
  noted id' hid' := by
    have hsame : ((rs.modify id f).get? id').isSome = (rs.get? id').isSome := by
      rw [Requests.get?_modify]
      split
      · exact Option.isSome_map
      · rfl
    rw [h.noted id' hid', hsame]
  indices := by
    rw [Requests.serial_modify]
    exact h.indices

end Made

/-- Nor does it matter for the order in which requests are linked, unless it links or loads. -/
theorem Ordered.aside (h : q.Ordered waiting j) {e : Event Answer} (hmade : e.submitted? = none)
    (hlinked : e.linked? = none) (hload : e.load? = none) : q.Ordered waiting (e :: j) := by
  have hsubmissions : submissions (e :: j) = submissions j := List.filterMap_cons_none hmade
  have hlinkings : linkings (e :: j) = linkings j := List.filterMap_cons_none hlinked
  have hloads : AsyncModule.loads (e :: j) = AsyncModule.loads j :=
    List.filterMap_cons_none hload
  constructor
  · rw [hlinkings, hsubmissions]
    exact h.order
  · intro id resolver ctx hmem
    refine h.linked ((List.mem_cons.mp hmem).resolve_left ?_)
    rintro rfl
    cases hlinked
  · rw [hloads, hlinkings]
    exact h.loads

theorem Stocked.aside {g : Registry} {fs : Fetches Answer} (h : q.Stocked g fs j)
    {e : Event Answer} (hload : e.load? = none) (hnote : e.note? = none) :
    q.Stocked g fs (e :: j) := by
  have hloads : AsyncModule.loads (e :: j) = AsyncModule.loads j :=
    List.filterMap_cons_none hload
  have hnotes : AsyncModule.notes (e :: j) = AsyncModule.notes j :=
    List.filterMap_cons_none hnote
  constructor
  · rw [hloads]
    exact h.modules
  · exact h.fetches
  · rw [hnotes]
    exact h.notes

theorem Asks.link (h : q.Asks id r) (i : Nat) (url : String) : q.Asks id (r.link i url) := by
  have hdependencies := Request.dependencies_link r i url
  rw [Request.link_eq] at hdependencies ⊢
  exact ⟨hdependencies ▸ h.dependencies, h.callback, h.errback, h.definitionUrl⟩

/-! ## Linking -/

theorem mem_loaded (hloaded : l.Loaded) {url : String} :
    l.registry.state? url ≠ none ↔
      url ∈ (moduleTargets (loads l.journal)).map Target.key := by
  rw [Registry.state?_ne_none_iff, hloaded.urls, List.mem_reverse, modulesOf_eq]

/-- The request that has waited longest is linked, and at most one module loaded. -/
theorem Ordered.link (h : q.Ordered (id :: waiting) j) (loaded : Option Target)
    (hfirsts : firsts ((linkings j).reverse.filterMap q.target? ++ (q.target? id).toList) =
      firsts ((linkings j).reverse.filterMap q.target?) ++ loaded.toList) :
    q.Ordered waiting
      (loaded.toList.map (.load · .module) ++ .linked id q.resolver q.ctx :: j) := by
  have hnamed : (id :: linkings j).reverse.filterMap q.target? =
      (linkings j).reverse.filterMap q.target? ++ (q.target? id).toList := by
    rw [List.reverse_cons, List.filterMap_append]
    cases htarget : q.target? id <;> simp [htarget]
  have hlinkings : linkings (loaded.toList.map (.load · .module) ++
      .linked id q.resolver q.ctx :: j) = id :: linkings j := by cases loaded <;> rfl
  have hsubmissions : submissions (loaded.toList.map (.load · .module) ++
      .linked id q.resolver q.ctx :: j) = submissions j := by cases loaded <;> rfl
  constructor
  · rw [hlinkings, hsubmissions, ← h.order, List.reverse_cons, List.append_assoc]
    rfl
  · intro id' resolver ctx hmem
    rcases List.mem_append.mp hmem with hload | hmem
    · obtain ⟨t, _, heq⟩ := List.mem_map.mp hload
      cases heq
    · rcases List.mem_cons.mp hmem with heq | hold
      · cases heq
        exact ⟨rfl, rfl⟩
      · exact h.linked hold
  · rw [hlinkings, hnamed, hfirsts, ← h.loads]
    cases loaded with
    | none => exact (List.append_nil _).symm
    | some t => exact List.reverse_cons

/-- A module that is first heard of is loaded. -/
theorem moduleTargets_attach (hloaded : l.Loaded) (id : RequestId) (i : Nat) (t : Target) :
    moduleTargets (loads (l.attach id i t).journal) =
      if t.key ∈ (moduleTargets (loads l.journal)).map Target.key then
        moduleTargets (loads l.journal)
      else t :: moduleTargets (loads l.journal) := by
  rcases hloaded.attach_cases id i t with ⟨hold, _, hj, _⟩ | ⟨hnew, _, hj, _⟩
  · rw [if_pos ((mem_loaded hloaded).mp hold), hj]
  · rw [if_neg fun hmem => (mem_loaded hloaded).mpr hmem hnew, hj]
    rfl

theorem Stocked.attach (h : q.Stocked l.registry l.fetches l.journal)
    (hresources : l.resources = fun t => some (q.fetched t)) (hloaded : l.Loaded)
    (id : RequestId) (i : Nat) (t : Target) :
    q.Stocked (l.attach id i t).registry (l.attach id i t).fetches (l.attach id i t).journal where
  modules := by
    intro url s hs
    rcases Loader.state?_of_attach hs with hold | ⟨_, rfl, _⟩
    · refine (h.modules hold).mono ?_
      rw [moduleTargets_attach hloaded]
      split
      · exact List.Subset.refl _
      · exact List.subset_cons_self _ _
    · trivial
  fetches := by
    rcases l.attach_cases id i t with ⟨hf, _⟩ | ⟨hf, _⟩
    · rw [hf]
      exact h.fetches
    · rw [hf, hresources]
      intro f hmem
      rcases List.mem_append.mp hmem with hold | hnew
      · exact (h.fetches f hold).imp_right (List.mem_append_left _)
      · rw [List.mem_singleton.mp hnew]
        exact ⟨rfl, List.mem_append_right _ List.mem_cons_self⟩
  notes := by
    have hnotes : AsyncModule.notes (l.attach id i t).journal = AsyncModule.notes l.journal := by
      rcases l.attach_cases id i t with ⟨_, hj⟩ | ⟨_, hj⟩
      · rw [hj]
      · rw [hj]
        rfl
    rw [hnotes]
    intro a ha
    obtain ⟨s, hs, hcomes⟩ := h.notes a ha
    exact ⟨s, hs, hcomes.mono (Loader.Lasts.attach l id i t).settled⟩

namespace Fares

/-- The loader with a request about to be linked. -/
def linking (l : Loader Answer) (id : RequestId) (ctx : Context) : Loader Answer :=
  Loader.record { l with requests := l.requests.modify id fun r => { r with context := some ctx } }
    (.linked id l.resolver ctx)

/-- What a request that asks for a specifier is linked to. -/
theorem link_eq (hresolver : l.resolver = q.resolver) (hr : l.requests.get? id = some r)
    (hasks : q.Asks id r) : ∃ s, q.specifier? id = some s ∧ l.link id q.ctx =
      match q.name s with
      | .error e => (linking l id q.ctx).enqueue (.fail id e)
      | .ok t => (linking l id q.ctx).attach id 0 t := by
  obtain ⟨s, hs, hdependencies⟩ := hasks.dependencies
  refine ⟨s, hs, ?_⟩
  unfold Loader.link
  simp only [hr, hdependencies, hasks.definitionUrl, name, ← hresolver]
  rfl

theorem made_linking (h : q.Made l.requests l.journal) (id : RequestId) (ctx : Context) :
    q.Made (linking l id ctx).requests (linking l id ctx).journal := by
  have hmodified : q.Made (l.requests.modify id fun r => { r with context := some ctx })
      l.journal := h.modify id fun _ h => ⟨h.1, h.2, h.3, h.4⟩
  exact hmodified.aside (e := .linked id l.resolver ctx) rfl rfl

/-- The request that has waited longest is linked. -/
theorem link (h : q.Fares (id :: waiting) l) (hloaded : l.Loaded)
    (hr : l.requests.get? id = some r) : q.Fares waiting (l.link id q.ctx) := by
  obtain ⟨s, hs, hlink⟩ := link_eq h.resolver hr (h.made.asks hr).2
  have hmade := made_linking h.made id q.ctx
  have hstocked : q.Stocked (linking l id q.ctx).registry (linking l id q.ctx).fetches
      (linking l id q.ctx).journal := ⟨h.stocked.1, h.stocked.2, h.stocked.3⟩
  have hjournal : (linking l id q.ctx).journal = .linked id q.resolver q.ctx :: l.journal := by
    rw [← h.resolver]
    rfl
  rw [hlink]
  cases hname : q.name s with
  | error e =>
    have hnone : q.target? id = none := by simp [target?, hs, hname, Except.toOption]
    have hordered := h.ordered.link none (by simp [hnone])
    rw [← hjournal] at hordered
    exact ⟨h.resolver, h.resources, hmade, hordered, hstocked⟩
  | ok t =>
    have hsome : q.target? id = some t := by simp [target?, hs, hname, Except.toOption]
    have hready : (linking l id q.ctx).Loaded := Loader.Loaded.keptByLinking.linked id q.ctx
      (Loader.Loaded.keptByLinking.context id q.ctx hloaded)
    refine ⟨?_, ?_, ?_, ?_, hstocked.attach h.resources hready id 0 t⟩
    · exact (Loader.resolver_attach _ id 0 t).trans h.resolver
    · exact (Loader.resources_attach _ id 0 t).trans h.resources
    · have hattached := hmade.modify id (f := (·.link 0 t.key)) fun _ hasks => hasks.link 0 t.key
      dsimp only
      rw [Loader.requests_attach]
      rcases Loader.attach_cases (linking l id q.ctx) id 0 t with ⟨_, hj⟩ | ⟨_, hj⟩
      · rw [hj]
        exact hattached
      · rw [hj]
        exact hattached.aside rfl rfl
    -- The module is loaded unless an earlier specifier has named it.
    · have hfirsts := firsts_concat ((linkings l.journal).reverse.filterMap q.target?) t
      have hkeys : t.key ∈ (firsts ((linkings l.journal).reverse.filterMap q.target?)).map
          Target.key ↔ (linking l id q.ctx).registry.state? t.key ≠ none := by
        rw [mem_loaded hready, ← h.ordered.loads, List.map_reverse, List.mem_reverse]
        rfl
      rcases hready.attach_cases id 0 t with ⟨hold, _, hj, _⟩ | ⟨hnew, _, hj, _⟩
      · rw [hj, hjournal]
        rw [if_pos (hkeys.mpr hold)] at hfirsts
        exact h.ordered.link none (by simpa [hsome] using hfirsts)
      · rw [hj, hjournal]
        rw [if_neg fun hmem => hkeys.mp hmem hnew] at hfirsts
        exact h.ordered.link (some t) (by simpa [hsome] using hfirsts)

end Fares

/-- From one loader to another requests have been linked, which leaves a step to be done for each
at most, and at most one module of each to be fetched. -/
structure Joins (ids : List RequestId) (l l' : Loader Answer) : Prop where
  worklist : ∃ new, l'.worklist = l.worklist ++ new ∧ (new.map Step.request).Sublist ids
  notes : AsyncModule.notes l'.journal = AsyncModule.notes l.journal
  inFlight : l'.fetches.inFlight.length ≤ l.fetches.inFlight.length + ids.length

namespace Joins

variable {ids ids' : List RequestId} {l'' : Loader Answer}

theorem refl (l : Loader Answer) : Joins [] l l :=
  ⟨⟨[], (List.append_nil _).symm, .slnil⟩, rfl, Nat.le_refl _⟩

theorem trans (h : Joins ids l l') (h' : Joins ids' l' l'') : Joins (ids ++ ids') l l'' where
  worklist := by
    obtain ⟨new, hw, hnew⟩ := h.worklist
    obtain ⟨new', hw', hnew'⟩ := h'.worklist
    refine ⟨new ++ new', by rw [hw', hw, List.append_assoc], ?_⟩
    rw [List.map_append]
    exact hnew.append hnew'
  notes := h'.notes.trans h.notes
  inFlight := by
    have hlater := h'.inFlight
    have hearlier := h.inFlight
    rw [List.length_append]
    omega

theorem attach (l : Loader Answer) (id : RequestId) (i : Nat) (t : Target) :
    Joins [id] l (l.attach id i t) where
  worklist := by
    rcases l.registry.open_or_settled t.key with ho | ⟨v, hv⟩ | ⟨e, he⟩
    · refine ⟨[], ?_, List.nil_sublist _⟩
      rw [(Loader.attach_open id i ho).1, List.append_nil]
    · exact ⟨[.fill id i v], (Loader.attach_ready id i hv).2, .refl _⟩
    · exact ⟨[.fail id (.dependency t.key e)], (Loader.attach_failed id i he).2, .refl _⟩
  notes := by
    rcases l.attach_cases id i t with ⟨_, hj⟩ | ⟨_, hj⟩
    · rw [hj]
    · rw [hj]
      rfl
  inFlight := by
    rcases l.attach_cases id i t with ⟨hf, _⟩ | ⟨hf, _⟩
    · rw [hf]
      exact Nat.le_add_right _ _
    · rw [hf]
      simp [Fetches.start]

end Joins

namespace Fares

theorem joins_link (h : q.Fares waiting l) (hr : l.requests.get? id = some r) :
    Joins [id] l (l.link id q.ctx) := by
  obtain ⟨s, _, hlink⟩ := link_eq h.resolver hr (h.made.asks hr).2
  rw [hlink]
  cases q.name s with
  | error e => exact ⟨⟨[.fail id e], rfl, .refl _⟩, rfl, Nat.le_add_right _ _⟩
  | ok t =>
    have hattach := Joins.attach (linking l id q.ctx) id 0 t
    exact ⟨hattach.worklist, hattach.notes, hattach.inFlight⟩

/-- Linking leaves live requests live. -/
theorem live_of_level (h : Loader.Level l l') (id : RequestId) :
    (l'.requests.get? id).isSome = (l.requests.get? id).isSome := by
  rw [← Option.isSome_map (f := Request.sequel), h.sequel, Option.isSome_map]

/-- The requests that wait are linked, one after the other. -/
theorem linkAll (ids : List RequestId) : ∀ {l : Loader Answer}, q.Fares ids l → l.Loaded →
    (∀ id ∈ ids, (l.requests.get? id).isSome) →
      q.Fares [] (ids.foldl (fun l id => l.link id q.ctx) l) ∧
        Joins ids l (ids.foldl (fun l id => l.link id q.ctx) l) := by
  induction ids with
  | nil => exact fun h _ _ => ⟨h, .refl _⟩
  | cons id ids ih =>
    intro l h hloaded hlive
    obtain ⟨r, hr⟩ := Option.isSome_iff_exists.mp (hlive id List.mem_cons_self)
    obtain ⟨hfares, hjoins⟩ := ih (h.link hloaded hr)
      (Loader.Loaded.keptByLinking.link hloaded id q.ctx) fun id' hid' => by
        rw [live_of_level (.link l id q.ctx)]
        exact hlive id' (List.mem_cons_of_mem _ hid')
    exact ⟨hfares, (h.joins_link hr).trans hjoins⟩

/-! ## Making requests -/

/-- The request that asks for a specifier outside of units. -/
def request (index : Nat) (s : String) (ctx : Option Context) : Request Answer :=
  .ofCall [s] (answering index) (some (apologizing index)) ctx none

theorem asks_request {s : String} (hs : q.specifiers[l.requests.serial]? = some s)
    (ctx : Option Context) : q.Asks (l.enter (request l.requests.serial s ctx)).1
      (request l.requests.serial s ctx) where
  dependencies := ⟨s, hs, rfl⟩
  callback := rfl
  errback := rfl
  definitionUrl := rfl

/-- The next specifier is asked for. -/
theorem enter (h : q.Fares waiting l) {s : String}
    (hs : q.specifiers[l.requests.serial]? = some s) (ctx : Option Context) :
    q.Fares (waiting ++ [(l.enter (request l.requests.serial s ctx)).1])
      (l.enter (request l.requests.serial s ctx)).2 := by
  have hasks := asks_request (q := q) hs ctx
  generalize hr : request l.requests.serial s ctx = r at hasks ⊢
  have hregistry : (l.enter r).2.registry = l.registry :=
    Owned.registry_enter_none hasks.definitionUrl
  have hserial : (l.enter r).1.serial = l.requests.serial + 1 := rfl
  have hsubmissions : submissions (l.enter r).2.journal = (l.enter r).1 :: submissions l.journal :=
    rfl
  have hnotes : notes (l.enter r).2.journal = notes l.journal := rfl
  refine ⟨h.resolver, h.resources, ⟨?_, ?_, ?_, ?_⟩, ⟨?_, ?_, h.ordered.loads⟩, ?_⟩
  · rw [hsubmissions, List.reverse_cons, List.map_append, h.made.serials, List.map_singleton,
      hserial, Nat.add_comm]
    exact (List.range'_1_concat).symm
  · intro id r' hr'
    rcases Requests.get?_insert_eq_some hr' with ⟨rfl, rfl⟩ | hold
    · exact ⟨List.mem_cons_self, hasks⟩
    · exact ⟨List.mem_cons_of_mem _ (h.made.asks hold).1, (h.made.asks hold).2⟩
  · intro id hid
    rw [hnotes, Loader.get?_enter]
    rw [hsubmissions, List.mem_cons] at hid
    rcases hid with rfl | hid
    · rw [if_pos rfl, Option.isSome_some, if_pos rfl, List.countP_eq_zero]
      intro a ha
      have hlt := h.made.indices a ha
      simp only [hserial, decide_eq_true_eq]
      omega
    · have hne : id ≠ (l.enter r).1 := by
        rintro rfl
        have hle := (h.made.serial_mem hid).2
        omega
      rw [if_neg hne]
      exact h.made.noted id hid
  · intro a ha
    exact Nat.lt_succ_of_lt (h.made.indices a ha)
  · rw [hsubmissions, List.reverse_cons, ← h.ordered.order, List.append_assoc]
    rfl
  · intro id resolver ctx hmem
    exact h.ordered.linked ((List.mem_cons.mp hmem).resolve_left (by simp))
  · rw [hregistry]
    exact ⟨h.stocked.modules, h.stocked.fetches, h.stocked.notes⟩

end Fares

/-! ## Answering them -/

/-- From one loader to another a request has been done with, and what came of it noted. -/
structure Answered (l : Loader Answer) (id : RequestId) (result : Except LoadError ModuleValue)
    (l' : Loader Answer) : Prop where
  resolver : l'.resolver = l.resolver
  resources : l'.resources = l.resources
  fetches : l'.fetches = l.fetches
  bootstrap : l'.bootstrap = l.bootstrap
  states : ∀ u, l'.registry.state? u = l.registry.state? u
  serial : l'.requests.serial = l.requests.serial
  requests : ∀ id', l'.requests.get? id' = if id' = id then none else l.requests.get? id'
  submissions : submissions l'.journal = submissions l.journal
  linkings : linkings l'.journal = linkings l.journal
  linked : ∀ {id resolver ctx}, .linked id resolver ctx ∈ l'.journal →
    .linked id resolver ctx ∈ l.journal
  loads : loads l'.journal = loads l.journal
  notes : notes l'.journal = ⟨id.serial - 1, result⟩ :: notes l.journal

/-- A request is done with. -/
theorem Fares.answer (h : q.Fares waiting l) {result : Except LoadError ModuleValue}
    (hl : Answered l id result l') (hr : l.requests.get? id = some r) {s : String}
    (hs : q.specifier? id = some s) (hcomes : q.Comes l.registry s result) :
    q.Fares waiting l' where
  resolver := hl.resolver.trans h.resolver
  resources := hl.resources.trans h.resources
  made := by
    obtain ⟨hid, _⟩ := h.made.asks hr
    obtain ⟨hpos, hle⟩ := h.made.serial_mem hid
    constructor
    · rw [hl.submissions, hl.serial]
      exact h.made.serials
    · intro id' r' hr'
      rw [hl.requests] at hr'
      split at hr'
      · cases hr'
      · rw [hl.submissions]
        exact h.made.asks hr'
    · intro id' hid'
      rw [hl.submissions] at hid'
      have hnoted := h.made.noted id' hid'
      rw [hl.notes, List.countP_cons, hl.requests]
      show _ + (if decide (id.serial - 1 + 1 = id'.serial) = true then 1 else 0) = _
      rw [Nat.sub_add_cancel hpos]
      by_cases hne : id' = id
      · subst hne
        rw [hr] at hnoted
        simp [hnoted]
      · have hserial : id.serial ≠ id'.serial :=
          fun heq => hne (h.made.eq_of_serial hid' hid heq.symm)
        simp [hne, hnoted, hserial]
    · rw [hl.notes, hl.serial]
      refine List.forall_mem_cons.mpr ⟨?_, h.made.indices⟩
      show id.serial - 1 < l.requests.serial
      omega
  ordered := by
    constructor
    · rw [hl.linkings, hl.submissions]
      exact h.ordered.order
    · exact fun hmem => h.ordered.linked (hl.linked hmem)
    · rw [hl.loads, hl.linkings]
      exact h.ordered.loads
  stocked := by
    have hsettled : ∀ {url s}, l.registry.state? url = some s → s.isSettled = true →
        l'.registry.state? url = some s := fun hu _ => (hl.states _).trans hu
    constructor
    · intro url s hu
      rw [hl.states] at hu
      rw [hl.loads]
      exact h.stocked.modules hu
    · rw [hl.fetches]
      exact h.stocked.fetches
    · rw [hl.notes]
      refine List.forall_mem_cons.mpr ⟨⟨s, hs, hcomes.mono hsettled⟩, fun a ha => ?_⟩
      obtain ⟨s', hs', hcomes'⟩ := h.stocked.notes a ha
      exact ⟨s', hs', hcomes'.mono hsettled⟩

/-! ## Taking up what has been fetched -/

/-- An event that asks for nothing and is no note does not matter. -/
theorem Fares.record (h : q.Fares waiting l) {e : Event Answer} (hasks : e.asks = false)
    (hnote : e.note? = none) : q.Fares waiting (l.record e) := by
  have hsubmitted : e.submitted? = none := by cases e <;> first | rfl | cases hasks
  have hlinked : e.linked? = none := by cases e <;> first | rfl | cases hasks
  have hload : e.load? = none := by cases e <;> first | rfl | cases hasks
  exact ⟨h.resolver, h.resources, h.made.aside hsubmitted hnote,
    h.ordered.aside hsubmitted hlinked hload, h.stocked.aside hload hnote⟩

/-- What is known of a module that has been loaded becomes known. -/
theorem Fares.settle (h : q.Fares waiting l) {s : ModuleState} {url : String} {g : Registry}
    {work : List Step} (hright : q.Right (moduleTargets (loads l.journal)) url s)
    (hstate : ∀ {u s'}, g.state? u = some s' → u = url ∧ s' = s ∨ l.registry.state? u = some s')
    (hlasts : ∀ {u s'}, l.registry.state? u = some s' → s'.isSettled = true →
      g.state? u = some s') : q.Fares waiting { l with registry := g, worklist := work } := by
  refine ⟨h.resolver, h.resources, h.made, h.ordered, ⟨?_, h.stocked.fetches, ?_⟩⟩
  · intro u s' hu
    rcases hstate hu with ⟨rfl, rfl⟩ | hold
    · exact hright
    · exact h.stocked.modules hold
  · intro a ha
    obtain ⟨s', hs', hcomes⟩ := h.stocked.notes a ha
    exact ⟨s', hs', hcomes.mono hlasts⟩

theorem Fares.readyModule (h : q.Fares waiting l) {url : String} {v : ModuleValue}
    (hright : q.Right (moduleTargets (loads l.journal)) url (.ready v)) :
    q.Fares waiting (l.readyModule url v) :=
  h.settle hright Loader.state?_of_readyModule (Loader.Lasts.readyModule l url v).settled

theorem Fares.abandonModule (h : q.Fares waiting l) {url : String} {e : LoadError}
    (hright : q.Right (moduleTargets (loads l.journal)) url (.failed e)) :
    q.Fares waiting (l.abandonModule url e) :=
  h.settle hright Loader.state?_of_abandonModule (Loader.Lasts.abandonModule l url e).settled

/-- As long as every fetch has its result and is queued, the first in the queue is taken. -/
theorem firstFinished_of_queued {inFlight : List (Fetch ν)} {result : Target → Fetched (Script ν)}
    (hne : inFlight ≠ []) (hresult : ∀ f ∈ inFlight, f.result = some (result f.target)) :
    ∀ {queue : List Nat}, (∀ f ∈ inFlight, f.id ∈ queue) →
      ∃ f queue', Fetches.firstFinished inFlight queue = (some (f, result f.target), queue') ∧
        ∀ f' ∈ inFlight, f'.id ≠ f.id → f'.id ∈ queue' := by
  intro queue
  induction queue with
  | nil =>
    intro hqueue
    obtain ⟨f, hf⟩ := List.exists_mem_of_ne_nil _ hne
    cases hqueue f hf
  | cons id queue ih =>
    intro hqueue
    simp only [Fetches.firstFinished]
    cases hfound : inFlight.find? (·.id == id) with
    | none =>
      refine ih fun f hf => (List.mem_cons.mp (hqueue f hf)).resolve_left ?_
      simpa using List.find?_eq_none.mp hfound f hf
    | some f =>
      have hid : f.id = id := by simpa using List.find?_some hfound
      simp only [hresult f (List.mem_of_find?_eq_some hfound)]
      refine ⟨f, queue, rfl, fun f' hf' hne' => ?_⟩
      exact (List.mem_cons.mp (hqueue f' hf')).resolve_left fun heq => hne' (heq.trans hid.symm)

/-- As long as anything is being fetched, the next fetch can be taken up. -/
theorem Stocked.take {g : Registry} {fs : Fetches Answer} (h : q.Stocked g fs j)
    (hnumbered : fs.Numbered) (hne : fs.inFlight ≠ []) :
    ∃ f fs', fs.take = (some (f, q.fetched f.target), fs') ∧ q.Stocked g fs' j ∧
      fs'.inFlight.length + 1 = fs.inFlight.length := by
  obtain ⟨f, queue, hfirst, hqueue⟩ := firstFinished_of_queued hne
    (fun f hf => (h.fetches f hf).1) fun f hf => (h.fetches f hf).2
  have htake : fs.take = (some (f, q.fetched f.target),
      { fs with inFlight := fs.inFlight.filter (·.id != f.id), queue }) := by
    unfold Fetches.take
    rw [hfirst]
  refine ⟨f, _, htake, ⟨h.modules, ?_, h.notes⟩, ?_⟩
  · intro f' hf'
    obtain ⟨hmem, hother⟩ := List.mem_filter.mp hf'
    exact ⟨(h.fetches f' hmem).1, hqueue f' hmem (by simpa using hother)⟩
  · obtain ⟨before, after, heq, heq'⟩ := hnumbered.errands_of_take htake
    have hlength := congrArg List.length heq
    have hlength' := congrArg List.length heq'
    simp only [Fetches.errands, List.length_map, List.length_append, List.length_cons]
      at hlength hlength'
    dsimp only
    omega

end Inquiry
end Command
end AsyncModule
