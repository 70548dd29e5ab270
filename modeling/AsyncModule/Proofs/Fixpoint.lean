import AsyncModule.Proofs.Faithful

/-!
# AsyncModule.Proofs.Fixpoint

A loader computes the least fixpoint of a table of modules, in whatever order the fetches come to
their ends. Once nothing is under way and nothing in flight, what has been heard of is ready with
its value if it is good, and has failed if it is not; a request whose dependencies are all good has
been called back once, with their values, and any other request has been handled once.

* `exists_faithful`  — a loader for which a base has been configured holds nothing untrue.
* `modules_at_rest`, `requests_at_rest` — what it has come to.
* `computes_good`    — the whole statement, in terms of what programs can see.
-/

namespace AsyncModule

open Relation

variable {ν : Type} {σ : Setting} {m : Machine ν}

theorem exists_faithful {τ : Table} {config : Config}
    {resources : Target → Option (Fetched (Script ν))} {base : String} {drained : Bool}
    {l : Loader ν}
    (hresources : ∀ t result, resources t = some result → (τ t.key).Serves result)
    (hconfigure : (Loader.new config resources).configure base = (.ok drained, l)) :
    ∃ σ : Setting, σ.table = τ ∧ σ.resolver = l.resolver ∧
      l.context? none = some σ.context ∧ Faithful σ ⟨l, []⟩ := by
  obtain ⟨url, ctx, hurl, hctx, _, rfl⟩ := Loader.configure_new_eq_ok hconfigure
  have hwf := Url.WellFormed.asDirectory hurl
  have hresolver : Resolver.WellFormed ⟨some url, config⟩ := by
    intro base hbase
    cases hbase
    exact hwf
  refine ⟨⟨τ, ⟨some url, config⟩, ctx, hresolver, Context.wellFormed_ofUrl hwf hctx⟩, rfl, rfl, rfl,
    ⟨?_, by simp⟩⟩
  exact
    { resolver := rfl
      context := rfl
      resources := hresources
      served := fun f hf => by cases hf
      errands := fun e he => by cases he
      recorded := fun u s hs => by cases hs
      apt := fun id q hq => by cases hq
      failing := fun id e q hmem => by cases hmem
      told := Told.init }

namespace Faithful

/-- A module that a loader at rest has heard of is good and ready, or doomed and failed. -/
theorem modules_at_rest (h : Faithful σ m) (hreach : m.Reachable) (hrest : m.AtRest)
    (hidle : m.loader.fetches.inFlight = []) {u : Url} (hu : u.Canonical) {s : ModuleState}
    (hs : m.loader.registry.state? u.toString = some s) :
    (∃ v, s = .ready v ∧ Good σ.table σ.resolver u v.payload) ∨
      (∃ e, s = .failed e) ∧ Doomed σ.table σ.resolver u := by
  have hadmits := h.truthful.recorded _ s hs
  have hsettled := settled_of_rest hreach hrest hidle hs
  cases s with
  | known => cases hsettled
  | loading => cases hsettled
  | ready v =>
    obtain ⟨w, hw, hkey, hgood⟩ := hadmits
    exact .inl ⟨v, rfl, (good_congr σ.resolver_wellFormed hw hu hkey).mp hgood⟩
  | failed e =>
    obtain ⟨w, hw, hkey, hdoomed⟩ := hadmits
    exact .inr ⟨⟨e, rfl⟩, (doomed_congr σ.resolver_wellFormed hw hu hkey).mp hdoomed⟩

theorem get?_of_rest (h : Faithful σ m) (hreach : m.Reachable) (hrest : m.AtRest)
    (hidle : m.loader.fetches.inFlight = []) (id : RequestId) :
    m.loader.requests.get? id = none := by
  have hestablished : m.loader.bootstrap.state = .established := by
    have hcontext := h.truthful.context
    unfold Bootstrap.context? at hcontext
    split at hcontext
    · assumption
    · cases hcontext
  have hnone := (hreach.mains.established hestablished).2
  cases hq : m.loader.requests.get? id with
  | none => rfl
  | some q =>
    have hdeferred := mem_deferred_of_rest hreach hrest hidle hq
    rw [hnone] at hdeferred
    cases hdeferred

/-- A request from outside that is gone has been called back once, with the values of its
dependencies, or handled once, when one of them names no good module. -/
theorem requests_at_rest (h : Faithful σ m) (hreach : m.Reachable) {id : RequestId}
    {dependencies : List String} (hsubmitted : .submitted id dependencies none ∈ m.loader.journal)
    (hgone : m.loader.requests.get? id = none) :
    (∃ values, .called id values ∈ m.loader.journal ∧
      σ.Supplied σ.context dependencies (values.map (·.payload)) ∧
      (calls m.loader.journal).count id = 1 ∧ (handlings m.loader.journal).count id = 0) ∨
    σ.Denied σ.context dependencies ∧
      (calls m.loader.journal).count id = 0 ∧ (handlings m.loader.journal).count id = 1 := by
  have ha := hreach.accounts
  have htold := h.truthful.told
  have hid : id ∈ submissions m.loader.journal :=
    List.mem_filterMap.mpr ⟨_, hsubmitted, rfl⟩
  by_cases hfailed : id ∈ failures m.loader.journal
  · obtain ⟨hdenied, hhandled⟩ := htold.failed hfailed hsubmitted
    refine .inr ⟨hdenied, ?_, List.count_eq_one_of_mem ha.orderly.nodup_handlings hhandled⟩
    rw [List.count_eq_zero]
    intro hcalled
    obtain ⟨values, hcalled⟩ := mem_calls.mp hcalled
    exact Setting.not_supplied_of_denied hdenied (htold.called hcalled hsubmitted)
  · have hcalled : id ∈ calls m.loader.journal := by
      by_contra hno
      obtain ⟨q, hq⟩ := ha.live_iff.mpr ⟨hid, hno, hfailed⟩
      rw [hgone] at hq
      cases hq
    obtain ⟨values, hvalues⟩ := mem_calls.mp hcalled
    refine .inl ⟨values, hvalues, htold.called hvalues hsubmitted,
      List.count_eq_one_of_mem ha.orderly.nodup_calls hcalled, ?_⟩
    rw [List.count_eq_zero]
    exact fun hhandled => hfailed (ha.orderly.handlings_subset hhandled)

end Faithful

/-- In every run by a table, of a loader for which a base has been configured: whenever nothing is
under way and nothing in flight, the modules that have been heard of are the good ones, which are
ready and have their value, and the doomed ones, which have failed; every request from outside has
been settled, by calling it back once with the values of its dependencies if all of them name good
modules, and by handling it once if not. -/
theorem computes_good {τ : Table} {config : Config}
    {resources : Target → Option (Fetched (Script ν))} {base : String} {drained : Bool}
    {l : Loader ν} {m : Machine ν}
    (hresources : ∀ t result, resources t = some result → (τ t.key).Serves result)
    (hconfigure : (Loader.new config resources).configure base = (.ok drained, l))
    (hrun : ReflTransGen (Machine.GoesBy τ) ⟨l, []⟩ m) (hrest : m.AtRest)
    (hidle : (m.loader.view none).inFlight = 0) :
    (∀ url status, (m.loader.view none).status url = some status →
      ∃ u : Url, u.Canonical ∧ u.toString = url) ∧
    (∀ u : Url, u.Canonical → ∀ status, (m.loader.view none).status u.toString = some status →
      (status = .ready ∧ ∃ v, (m.loader.view none).value u.toString = some v ∧
        Good τ l.resolver u v.payload) ∨
      status = .failed ∧ Doomed τ l.resolver u) ∧
    (m.loader.view none).pendingRequests = 0 ∧
    ∃ ctx, l.context? none = some ctx ∧ ∀ id dependencies,
      .submitted id dependencies none ∈ m.loader.journal →
      (∃ values, .called id values ∈ m.loader.journal ∧
        Supplied τ l.resolver ctx dependencies (values.map (·.payload)) ∧
        (calls m.loader.journal).count id = 1 ∧ (handlings m.loader.journal).count id = 0) ∨
      (∀ values, ¬ Supplied τ l.resolver ctx dependencies values) ∧
        (calls m.loader.journal).count id = 0 ∧ (handlings m.loader.journal).count id = 1 := by
  obtain ⟨σ, rfl, hresolver, hcontext, hstart⟩ := exists_faithful hresources hconfigure
  obtain ⟨h, hreach⟩ := hstart.runs (Machine.reachable_configure hconfigure) hrun
  have hidle : m.loader.fetches.inFlight = [] := List.eq_nil_of_length_eq_zero hidle
  have hgone := h.get?_of_rest hreach hrest hidle
  rw [← hresolver]
  refine ⟨?_, ?_, ?_, σ.context, hcontext, ?_⟩
  · intro url status hstatus
    obtain ⟨s, hs, _⟩ := Option.map_eq_some_iff.mp hstatus
    have hadmits := h.truthful.recorded url s hs
    cases s with
    | ready v => exact hadmits.imp fun u hu => ⟨hu.1, hu.2.1⟩
    | failed e => exact hadmits.imp fun u hu => ⟨hu.1, hu.2.1⟩
    | known => exact hadmits
    | loading => exact hadmits
  · intro u hu status hstatus
    obtain ⟨s, hs, rfl⟩ := Option.map_eq_some_iff.mp hstatus
    rcases h.modules_at_rest hreach hrest hidle hu hs with ⟨v, rfl, hgood⟩ | ⟨⟨e, rfl⟩, hdoomed⟩
    · refine .inl ⟨rfl, v, ?_, hgood⟩
      show (m.loader.registry.state? u.toString).bind ModuleState.value? = some v
      rw [hs]
      rfl
    · exact .inr ⟨rfl, hdoomed⟩
  · show m.loader.requests.live.length = 0
    rw [List.length_eq_zero_iff, List.eq_nil_iff_forall_not_mem]
    rintro ⟨id, q⟩ hlive
    rw [Requests.mem_live, hgone id] at hlive
    cases hlive
  · intro id dependencies hsubmitted
    rcases h.requests_at_rest hreach hsubmitted (hgone id) with hcalled | ⟨hdenied, hhandled⟩
    · exact .inl hcalled
    · exact .inr ⟨fun values => Setting.not_supplied_of_denied hdenied, hhandled⟩

/-- Markup, a definition by it, and two definitions by one another. -/
def smallTable : Table := fun url =>
  if url = "a:/note.html" then .markup ⟨"note", "a:/note.html", "<p>"⟩
  else if url = "a:/copy.js" then .defining ["./note.html"] fun values => .ok values.head?
  else if url = "a:/egg.js" then .defining ["./hen.js"] fun values => .ok values.head?
  else if url = "a:/hen.js" then .defining ["./egg.js"] fun values => .ok values.head?
  else .missing

def smallLoader : Except LoadError Bool × Loader Unit :=
  (Loader.new {} fun t => some ((smallTable t.key).fetched t)).configure "a:/"

/-- A request of what is good, and one of what is not. -/
def smallRequests : Script Unit :=
  .require ["./copy.js"] (fun _ => .finish .done) (some fun _ => .finish .done)
    (.require ["./copy.js", "./hen.js"] (fun _ => .finish .done) (some fun _ => .finish .done)
      (.settle fun _ => .finish .done))

def smallAtRest : Machine Unit := Machine.run 80 ⟨smallLoader.2, [.body none smallRequests .plain]⟩

theorem computes_good_small :
    (∃ u v, u.Canonical ∧ u.toString = "a:/copy.js" ∧
      (smallAtRest.loader.view none).value "a:/copy.js" = some v ∧
      Good smallTable smallLoader.2.resolver u v.payload) ∧
    (∃ u : Url, u.Canonical ∧ u.toString = "a:/hen.js" ∧
      (smallAtRest.loader.view none).status "a:/hen.js" = some .failed ∧
      Doomed smallTable smallLoader.2.resolver u) ∧
    (smallAtRest.loader.view none).pendingRequests = 0 := by
  have hconfigure : smallLoader = (.ok true, smallLoader.2) :=
    Prod.ext (by decide +kernel) rfl
  have hscript : smallRequests.Hosts smallTable :=
    .require (fun _ => .here ⟨_, rfl, trivial⟩) (fun _ => .here ⟨_, rfl, trivial⟩)
      (.require (fun _ => .here ⟨_, rfl, trivial⟩) (fun _ => .here ⟨_, rfl, trivial⟩)
        (.settle fun _ => .finish _))
  have hrun : ReflTransGen (Machine.GoesBy smallTable) ⟨smallLoader.2, []⟩ smallAtRest :=
    .head (.call hscript rfl) (Machine.goesBy_run 80 _)
  have hstack : smallAtRest.stack = [] := List.isEmpty_iff.mp (by decide +kernel)
  have hrest : smallAtRest.AtRest := by
    refine ⟨by decide +kernel, ?_⟩
    rw [hstack]
    intro task htask
    cases htask
  have hresources : ∀ t result, some ((smallTable t.key).fetched t) = some result →
      (smallTable t.key).Serves (result : Fetched (Script Unit)) := by
    rintro t _ ⟨rfl⟩
    exact Fate.serves_fetched t _
  obtain ⟨hheard, hmodules, hpending, _⟩ :=
    computes_good hresources hconfigure hrun hrest (by decide +kernel)
  have hcopy : (smallAtRest.loader.view none).status "a:/copy.js" = some .ready := by
    decide +kernel
  have hhen : (smallAtRest.loader.view none).status "a:/hen.js" = some .failed := by
    decide +kernel
  refine ⟨?_, ?_, hpending⟩
  · obtain ⟨u, hu, hkey⟩ := hheard _ _ hcopy
    rw [← hkey] at hcopy
    rcases hmodules u hu _ hcopy with ⟨_, v, hv, hgood⟩ | ⟨hfailed, _⟩
    · exact ⟨u, v, hu, hkey, hkey ▸ hv, hgood⟩
    · cases hfailed
  · obtain ⟨u, hu, hkey⟩ := hheard _ _ hhen
    have hfailed := hhen
    rw [← hkey] at hhen
    rcases hmodules u hu _ hhen with ⟨hready, _⟩ | ⟨_, hdoomed⟩
    · cases hready
    · exact ⟨u, hu, hkey, hfailed, hdoomed⟩

end AsyncModule
