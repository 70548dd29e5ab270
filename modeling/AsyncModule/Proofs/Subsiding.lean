import AsyncModule.Proofs.Aloof
import AsyncModule.Proofs.Calls

/-!
# AsyncModule.Proofs.Subsiding

How much there is to a dispatch. When a module is settled its waiters become steps of the worklist,
so what is due, the steps and the waiters together, does not grow on the way, and each step that is
processed takes one away. As long as the programs of the live requests leave the loader alone, the
worklist is therefore worked off, and no more steps are processed than were due at first.

* `Loader.Subsides`        — nothing has come to what is due, and nothing has been asked for.
* `Machine.calms_process`  — a step of the worklist, with the programs that it runs, lets a loader
  subside.
* `Machine.draining_works` — so does working off the worklist, to its end.
* `dispatch_ends`          — the whole statement.
-/

namespace AsyncModule

variable {ν : Type}

/-! ## What is due -/

namespace Registry

variable {url : String} {f : Record → Record}

/-- Who waits for some module, over all records. -/
def allWaiters (g : Registry) : List Waiter := g.records.flatMap fun p => p.2.waiters

theorem allWaiters_modify (g : Registry) (url : String)
    (hf : ∀ r, (f r).waiters.Sublist r.waiters) :
    (g.modify url f).allWaiters.Sublist g.allWaiters := by
  obtain ⟨records⟩ := g
  unfold modify allWaiters
  dsimp only
  induction records with
  | nil => exact .slnil
  | cons p rest ih =>
    rw [List.map_cons, List.flatMap_cons, List.flatMap_cons]
    refine List.Sublist.append ?_ ih
    split
    · exact hf p.2
    · exact .refl _

theorem length_allWaiters_modify {g : Registry} {r : Record} (hr : g.get? url = some r)
    (f : Record → Record) :
    r.waiters.length + (g.modify url fun r => { f r with waiters := [] }).allWaiters.length ≤
      g.allWaiters.length := by
  obtain ⟨records⟩ := g
  unfold get? at hr
  induction records with
  | nil => cases hr
  | cons p rest ih =>
    have hrest := (allWaiters_modify ⟨rest⟩ url
      (f := fun r => { f r with waiters := [] }) fun _ => List.nil_sublist _).length_le
    simp only [modify, allWaiters, List.map_cons, List.flatMap_cons, List.length_append]
      at hrest ih ⊢
    dsimp only at hr
    rw [List.lookup_cons] at hr
    by_cases hp : p.1 = url
    · simp only [hp, beq_self_eq_true, if_true, Option.some.injEq] at hr ⊢
      subst hr
      simp only [List.length_nil]
      omega
    · simp only [beq_eq_false_iff_ne.mpr hp, beq_eq_false_iff_ne.mpr (Ne.symm hp),
        Bool.false_eq_true, if_false] at hr ⊢
      have := ih hr
      omega

/-- Whoever is handed back waits no more. -/
theorem length_allWaiters_settle (g : Registry) (url : String) (f : Record → Record) :
    (g.settle url f).1.length + (g.settle url f).2.allWaiters.length ≤ g.allWaiters.length := by
  unfold settle
  split
  · simp
  · rename_i r hr
    split
    · simp
    · exact length_allWaiters_modify hr f

end Registry

namespace Loader

variable {l l' l'' : Loader ν} {id : RequestId} {r : Request ν}

/-- Steps of the worklist, and waiters that may become such. -/
def outstanding (l : Loader ν) : Nat := l.worklist.length + l.registry.allWaiters.length

/-- A loader has become another without anything being asked of it: nothing has come to what is due,
nothing has been loaded, no request has been made or given another program, and none has been
deferred or has lost its place among those that are. -/
structure Subsides (l l' : Loader ν) : Prop where
  outstanding : l'.outstanding ≤ l.outstanding
  dispatching : l'.dispatching = l.dispatching
  fetches : l'.fetches = l.fetches
  loads : loads l'.journal = loads l.journal
  programs : ∀ {id r'}, l'.requests.get? id = some r' →
    ∃ r, l.requests.get? id = some r ∧ r'.callback = r.callback ∧ r'.errback = r.errback
  deferred : l'.bootstrap.deferred.Sublist l.bootstrap.deferred
  kept : ∀ {id}, id ∈ l.bootstrap.deferred → l'.requests.get? id ≠ none →
    id ∈ l'.bootstrap.deferred

namespace Subsides

theorem refl (l : Loader ν) : l.Subsides l :=
  ⟨Nat.le_refl _, rfl, rfl, rfl, fun h => ⟨_, h, rfl, rfl⟩, .refl _, fun h _ => h⟩

theorem trans (h : l.Subsides l') (h' : l'.Subsides l'') : l.Subsides l'' where
  outstanding := h'.outstanding.trans h.outstanding
  dispatching := h'.dispatching.trans h.dispatching
  fetches := h'.fetches.trans h.fetches
  loads := h'.loads.trans h.loads
  programs hr := by
    obtain ⟨r', hr', hcallback', herrback'⟩ := h'.programs hr
    obtain ⟨r, hr, hcallback, herrback⟩ := h.programs hr'
    exact ⟨r, hr, hcallback'.trans hcallback, herrback'.trans herrback⟩
  deferred := h'.deferred.trans h.deferred
  kept hid hlive := by
    refine h'.kept (h.kept hid ?_) hlive
    obtain ⟨_, hr⟩ := Option.ne_none_iff_exists'.mp hlive
    obtain ⟨_, hr', _⟩ := h'.programs hr
    rw [hr']
    exact Option.some_ne_none _

theorem noted (h : l.Subsides l') (values : Nat) {events : List (Event ν)}
    (hloads : AsyncModule.loads events = []) :
    l.Subsides { l' with values, journal := events ++ l'.journal } where
  __ := h
  loads := by
    rw [AsyncModule.loads, List.filterMap_append, ← AsyncModule.loads, hloads, List.nil_append]
    exact h.loads

theorem record (h : l.Subsides l') {e : Event ν} (he : e.load? = none) :
    l.Subsides (l'.record e) := by
  have hloads : AsyncModule.loads [e] = [] := by simp [AsyncModule.loads, he]
  exact h.noted l'.values hloads

end Subsides

/-- The first step of the worklist is taken off. -/
theorem subsides_pop (l : Loader ν) {s : Step} {rest : List Step} (hw : l.worklist = s :: rest) :
    l.Subsides { l with worklist := rest } ∧
      ({ l with worklist := rest } : Loader ν).outstanding + 1 = l.outstanding := by
  have hcount : ({ l with worklist := rest } : Loader ν).outstanding + 1 = l.outstanding := by
    simp only [outstanding, hw, List.length_cons]
    omega
  exact ⟨{ Subsides.refl l with outstanding := by omega }, hcount⟩

/-- Requests may change, or be gone, as long as their programs stay. -/
theorem subsides_requests (l : Loader ν) {rs : Requests ν}
    (h : ∀ {id r'}, rs.get? id = some r' →
      ∃ r, l.requests.get? id = some r ∧ r'.callback = r.callback ∧ r'.errback = r.errback) :
    l.Subsides { l with requests := rs } where
  __ := Subsides.refl l
  programs := h
  kept hid _ := hid

theorem subsides_modify (l : Loader ν) (id : RequestId) {f : Request ν → Request ν}
    (h : ∀ r, (f r).callback = r.callback ∧ (f r).errback = r.errback) :
    l.Subsides { l with requests := l.requests.modify id f } := by
  refine l.subsides_requests fun {id' r'} hr' => ?_
  obtain ⟨rfl, r, hr, rfl⟩ | ⟨_, hr⟩ := Requests.get?_modify_eq_some hr'
  · exact ⟨r, hr, h r⟩
  · exact ⟨r', hr, rfl, rfl⟩

theorem subsides_erase (l : Loader ν) (id : RequestId) :
    l.Subsides { l with requests := l.requests.erase id } := by
  refine l.subsides_requests fun {id' r'} h => ?_
  rw [Requests.get?_erase] at h
  split at h
  · cases h
  · exact ⟨r', h, rfl, rfl⟩

theorem subsides_withdraw (l : Loader ν) (id : RequestId) (r : Request ν) :
    l.Subsides (l.withdraw id r) := by
  have hregistry : ∀ (urls : List String) (g : Registry),
      (urls.foldl (fun g url => g.dropWaiters url id) g).allWaiters.Sublist g.allWaiters := by
    intro urls
    induction urls with
    | nil => exact fun g => .refl _
    | cons url rest ih =>
      exact fun g => (ih _).trans (g.allWaiters_modify url fun _ => List.filter_sublist)
  exact {
    outstanding := Nat.add_le_add_left (hregistry r.modules l.registry).length_le _
    dispatching := rfl
    fetches := rfl
    loads := rfl
    programs := (l.subsides_erase id).programs
    deferred := List.filter_sublist
    kept := by
      intro id' hid' hlive
      have hne : id' ≠ id := by
        rintro rfl
        exact hlive ((Requests.get?_erase _ _ _).trans (if_pos rfl))
      exact List.mem_filter.mpr ⟨hid', by simpa using hne⟩ }

theorem subsides_readyModule (l : Loader ν) (url : String) (v : ModuleValue) :
    l.Subsides (l.readyModule url v) where
  __ := Subsides.refl l
  outstanding := by
    have hsettle := Registry.length_allWaiters_settle l.registry url
      fun r => { r with state := .ready v, definition := none }
    simp only [outstanding, readyModule, Registry.markReady, List.length_append, List.length_map]
    omega

theorem subsides_abandonModule (l : Loader ν) (url : String) (e : LoadError) :
    l.Subsides (l.abandonModule url e) where
  __ := Subsides.refl l
  outstanding := by
    have hsettle := Registry.length_allWaiters_settle (l.registry.setDefinition url none) url
      fun r => { r with state := .failed e }
    have hdefinition := (l.registry.allWaiters_modify url
      (f := fun r => { r with definition := none }) fun _ => .refl _).length_le
    simp only [Registry.setDefinition] at hsettle
    simp only [outstanding, abandonModule, Registry.markFailed, Registry.setDefinition,
      List.length_append, List.length_map]
    omega

end Loader

/-! ## Programs that leave the loader alone -/

/-- The programs of a request leave the loader alone, whatever they are given. -/
structure Request.Aloof (r : Request ν) : Prop where
  callback : ∀ values, (r.callback values).Aloof fun _ => True
  errback : ∀ handler, r.errback = some handler → ∀ e, (handler e).Aloof fun _ => True

theorem Request.Aloof.congr {r r' : Request ν} (h : r.Aloof) (hcallback : r'.callback = r.callback)
    (herrback : r'.errback = r.errback) : r'.Aloof := by
  refine ⟨?_, ?_⟩
  · rw [hcallback]
    exact h.callback
  · rw [herrback]
    exact h.errback

/-- The programs of all live requests leave the loader alone. -/
def Loader.AllAloof (l : Loader ν) : Prop := ∀ id r, l.requests.get? id = some r → r.Aloof

theorem Loader.Subsides.allAloof {l l' : Loader ν} (h : l.Subsides l') (hl : l.AllAloof) :
    l'.AllAloof := by
  intro id r' hr'
  obtain ⟨r, hr, hcallback, herrback⟩ := h.programs hr'
  exact (hl id r hr).congr hcallback herrback

namespace Loader

variable {l : Loader ν}

/-- Linking changes no program. -/
theorem keptByLinking_allAloof : KeptByLinking (AllAloof (ν := ν)) where
  linked _ _ h := h
  context {l} id ctx h := by
    refine (l.subsides_modify id (f := fun r => { r with context := some ctx }) ?_).allAloof h
    exact fun _ => ⟨rfl, rfl⟩
  stop _ h _ := h
  attach {l id _} i t h _ _ := by
    have hlink := l.subsides_modify id (f := (·.link i t.key)) fun r => by
      rw [Request.link_eq]
      exact ⟨rfl, rfl⟩
    unfold AllAloof
    rw [requests_attach]
    exact hlink.allAloof h

theorem allAloof_new (config : Config) (resources : Target → Option (Fetched (Script ν))) :
    (new config resources).AllAloof := by
  intro id r hr
  cases hr

theorem AllAloof.configure (h : l.AllAloof) (base : String) : (l.configure base).2.AllAloof :=
  keptByLinking_allAloof.configure (fun _ h => h) (fun _ h => h) h base

theorem AllAloof.submit (h : l.AllAloof) {frame : Option Frame} {dependencies : List String}
    {callback : List ModuleValue → Script ν} {errback : Option (LoadError → Script ν)}
    {definitionUrl : Option String} (hcallback : ∀ values, (callback values).Aloof fun _ => True)
    (herrback : ∀ handler, errback = some handler → ∀ e, (handler e).Aloof fun _ => True) :
    (l.submit frame dependencies callback errback definitionUrl).AllAloof := by
  refine keptByLinking_allAloof.submit (fun _ h => h) (fun _ h => h) ?_
  intro id r hr
  obtain ⟨_, rfl⟩ | hr := Requests.get?_insert_eq_some hr
  · exact ⟨hcallback, herrback⟩
  · exact h id r hr

end Loader

namespace Machine

variable {l l₁ : Loader ν} {id : RequestId} {r : Request ν} {e : LoadError}
  {out : Loader ν × List (Task ν)}

/-- What is left to be run comes to its end whatever lies beneath it, nothing of the worklist is
processed before, and the loader has subsided by then. -/
def Calms (l : Loader ν) (out : Loader ν × List (Task ν)) : Prop :=
  ∃ l', l.Subsides l' ∧ ∀ k, Works 0 ⟨out.1, out.2 ++ k⟩ ⟨l', k⟩

theorem calms_nil (h : l.Subsides l₁) : Calms l (l₁, []) := ⟨l₁, h, fun _ => .refl⟩

theorem Calms.after (h : Calms l₁ out) (hl : l.Subsides l₁) : Calms l out := by
  obtain ⟨l', h', hworks⟩ := h
  exact ⟨l', hl.trans h', hworks⟩

/-- A program that leaves the loader alone calms what its end calms. -/
theorem calms_body {s : Script ν} {frame : Option Frame} {ending : Ending ν}
    (hs : s.Aloof fun _ => True) (hl : l.Subsides l₁)
    (hend : ∀ l₂ o, l.Subsides l₂ → Calms l₂ (conclude l₂ frame o ending)) :
    Calms l (l₁, [.body frame s ending]) := by
  obtain ⟨values, notes, o, _, hnotes, hruns⟩ := aloof_works hs l₁ frame ending
  have hl₂ := hl.noted values hnotes.loads
  obtain ⟨l', h', hworks⟩ := hend _ o hl₂
  refine ⟨l', hl₂.trans h', fun k => ?_⟩
  exact (hruns k).trans (.advance rfl (by simp) (hworks k))

/-! ### Failing -/

/-- The error handler of a definition that has been dropped has nothing to fail any more. -/
theorem calms_handle_none {handler : LoadError → Script ν}
    (hs : (handler e).Aloof fun _ => True) (hl : l.Subsides l₁) :
    Calms l (handle l₁ id r e handler none) :=
  calms_body hs (hl.record rfl) fun l₂ _ _ => calms_nil (.refl l₂)

theorem calms_failModule (hl : l.AllAloof) (url : String) (e : LoadError) :
    Calms l (failModule l url e) := by
  unfold failModule Loader.failModule
  cases l.registry.definition? url with
  | none => exact calms_nil (l.subsides_abandonModule url e)
  | some id =>
    dsimp only
    cases hr : l.requests.get? id with
    | none => exact calms_nil (l.subsides_abandonModule url e)
    | some r =>
      have hdropped : l.Subsides (((l.abandonModule url e).withdraw id r).record (.failed id e)) :=
        ((l.subsides_abandonModule url e).trans (Loader.subsides_withdraw _ id r)).record rfl
      dsimp only
      cases hhandler : r.errback with
      | some handler => exact calms_handle_none ((hl id r hr).errback handler hhandler e) hdropped
      | none =>
        dsimp only
        split
        · exact calms_nil hdropped
        · exact calms_nil (hdropped.record rfl)

theorem calms_failDefinition (hl : l.AllAloof) (definition : Option String) (e : LoadError) :
    Calms l (failDefinition l definition e) := by
  cases definition with
  | none => exact calms_nil (.refl l)
  | some url => exact calms_failModule hl url e

/-- The error handler of a request fails the module that the request was to define. -/
theorem calms_handle {handler : LoadError → Script ν} (hl : l.AllAloof)
    (hs : (handler e).Aloof fun _ => True) (h : l.Subsides l₁) (definition : Option String) :
    Calms l (handle l₁ id r e handler definition) :=
  calms_body hs (h.record rfl) fun _ _ h₂ => calms_failDefinition (h₂.allAloof hl) definition e

theorem calms_report (hl : l.AllAloof) (hr : r.Aloof) (h : l.Subsides l₁) (id : RequestId)
    (e : LoadError) : Calms l (report l₁ id r e) := by
  have htold : l.Subsides (l₁.record (.failed id e)) := h.record rfl
  unfold report
  dsimp only
  cases hhandler : r.errback with
  | some handler => exact calms_handle hl (hr.errback handler hhandler e) htold r.definitionUrl
  | none =>
    cases r.definitionUrl with
    | some url => exact (calms_failModule (htold.allAloof hl) url e).after htold
    | none => exact calms_nil (htold.record rfl)

/-! ### Processing -/

/-- What a callback ends with becomes the value of a module, or an error. -/
theorem calms_concludeCallback (hl : l.AllAloof) (hr : r.Aloof) (id : RequestId) (o : Outcome) :
    Calms l (concludeCallback l id r o) := by
  have hreturned : l.Subsides (l.record (.returned id o)) := (Loader.Subsides.refl l).record rfl
  unfold concludeCallback
  dsimp only
  split
  · exact calms_report hl hr hreturned id _
  · split
    · exact calms_nil (hreturned.trans (Loader.subsides_readyModule _ _ _))
    · exact calms_nil hreturned

theorem calms_fire (hl : l.AllAloof) (id : RequestId) : Calms l (fire l id) := by
  unfold fire
  cases hr : l.requests.get? id with
  | none => exact calms_nil (.refl l)
  | some r =>
    have haloof := hl id r hr
    exact calms_body (haloof.callback r.values) ((l.subsides_erase id).record rfl)
      fun _ o h₂ => calms_concludeCallback (h₂.allAloof hl) haloof id o

theorem calms_process (hl : l.AllAloof) (s : Step) : Calms l (process l s) := by
  cases s with
  | fill id i v =>
    show Calms l (fill l id i v)
    unfold fill
    cases l.requests.get? id with
    | none => exact calms_nil (.refl l)
    | some r =>
      have hfill : l.Subsides { l with requests := l.requests.modify id (·.fill i v) } :=
        l.subsides_modify id fun r => by
          rw [Request.fill_eq]
          exact ⟨rfl, rfl⟩
      dsimp only
      split
      · exact (calms_fire (hfill.allAloof hl) id).after hfill
      · exact calms_nil hfill
  | fire id => exact calms_fire hl id
  | fail id e =>
    show Calms l (failRequest l id e)
    unfold failRequest
    cases hr : l.requests.get? id with
    | none => exact calms_nil (.refl l)
    | some r => exact calms_report hl (hl id r hr) (l.subsides_withdraw id r) id e

/-! ### Working off -/

/-- The worklist is worked off to its end. Every step processed takes one away from what is due. -/
theorem draining_works (due : Nat) : ∀ {l : Loader ν}, l.outstanding = due → l.AllAloof →
    ∃ n l', l.Subsides l' ∧ l'.worklist = [] ∧ n + l'.outstanding ≤ due ∧ ∀ k,
      Works n ⟨l, .draining :: k⟩ ⟨{ l' with dispatching := false }, k⟩ := by
  induction due using Nat.strongRecOn with
  | _ due ih =>
    intro l hdue hl
    cases hw : l.worklist with
    | nil =>
      refine ⟨0, l, .refl l, hw, by omega, fun k => .step ?_ ?_⟩
      · rintro ⟨_, _, hne⟩
        exact hne hw
      · rw [step_of_cons rfl, advance_drained l hw]
        exact .refl
    | cons s rest =>
      obtain ⟨hpop, hcount⟩ := l.subsides_pop hw
      obtain ⟨l₁, h₁, hprocess⟩ := calms_process (hpop.allAloof hl) s
      have hbelow := h₁.outstanding
      obtain ⟨n, l', h', hend, hle, hworks⟩ :=
        ih l₁.outstanding (by omega) rfl ((hpop.trans h₁).allAloof hl)
      refine ⟨n + 1, l', (hpop.trans h₁).trans h', hend, by omega, fun k => .process ?_ ?_⟩
      · exact ⟨k, rfl, by rw [hw]; exact List.cons_ne_nil _ _⟩
      · rw [step_of_cons rfl, advance_draining l hw, List.append_assoc, ← Nat.zero_add n]
        exact (hprocess (.draining :: k)).trans (hworks k)

end Machine

/-- A loader that is not dispatching dispatches, whatever its worklist and its records, and the
programs of the live requests leave it alone. Whatever lies beneath, that comes to its end with an
empty worklist, and the steps processed are no more than there were steps of the worklist and
waiters, over all records, at the start. Nothing has been loaded, and requests that are deferred
and live have kept their order. -/
theorem dispatch_ends {l : Loader ν} (hidle : l.dispatching = false) (hl : l.AllAloof) :
    ∃ n l', n ≤ l.worklist.length + l.registry.allWaiters.length ∧
      (∀ k, Machine.Works n ⟨l, .dispatch :: k⟩ ⟨l', k⟩) ∧
      l'.worklist = [] ∧ l'.dispatching = false ∧ l'.fetches = l.fetches ∧
      loads l'.journal = loads l.journal ∧
      l'.bootstrap.deferred.Sublist l.bootstrap.deferred ∧
      ∀ id ∈ l.bootstrap.deferred, l'.requests.get? id ≠ none → id ∈ l'.bootstrap.deferred := by
  obtain ⟨n, l', hsubsides, hend, hle, hworks⟩ :=
    Machine.draining_works _ (l := { l with dispatching := true }) rfl hl
  have hdue : ({ l with dispatching := true } : Loader ν).outstanding =
      l.worklist.length + l.registry.allWaiters.length := rfl
  refine ⟨n, { l' with dispatching := false }, by omega, fun k => ?_, hend, rfl, hsubsides.fetches,
    hsubsides.loads, hsubsides.deferred, fun id hid hlive => hsubsides.kept hid hlive⟩
  exact .advance (Machine.advance_dispatch l hidle) (by simp) (hworks k)

/-- A host asks for `y`, whose definition waits for `x`. -/
def chained : Loader Unit :=
  let l := ((Loader.new {} fun _ => none).configure "a:/").2
  let l := l.submit none ["./y.js"] (fun _ => .note () (.finish .done)) none none
  l.submit none ["./x.js"] (fun _ => .make (.data .null) fun v => .finish (.value v)) none
    (some "a:/y.js")

/-- Now `x` has its value. -/
def chainDue : Loader Unit :=
  (chained.make (.data .null)).2.readyModule "a:/x.js" (chained.make (.data .null)).1

theorem dispatch_ends_chain :
    chainDue.worklist.length = 1 ∧ chainDue.registry.allWaiters.length = 1 ∧
      ∃ n l', n ≤ 2 ∧ Machine.Works n ⟨chainDue, [.dispatch]⟩ ⟨l', []⟩ ∧ l'.worklist = [] ∧
        l'.fetches.inFlight.length = 2 := by
  have hidle : chainDue.dispatching = false := by decide +kernel
  have hchained : chained.AllAloof :=
    (((Loader.allAloof_new _ _).configure "a:/").submit (fun _ => .note (.finish trivial))
      (by simp)).submit (fun _ => .make fun _ _ => .finish trivial) (by simp)
  have hmade : (chained.make (.data .null)).2.AllAloof := hchained
  have haloof : chainDue.AllAloof := (Loader.subsides_readyModule _ _ _).allAloof hmade
  have hsteps : chainDue.worklist.length = 1 := by decide +kernel
  have hwaiters : chainDue.registry.allWaiters.length = 1 := by decide +kernel
  obtain ⟨n, l', hle, hworks, hend, _, hfetches, _⟩ := dispatch_ends hidle haloof
  refine ⟨hsteps, hwaiters, n, l', by omega, hworks [], hend, ?_⟩
  rw [hfetches]
  decide +kernel

end AsyncModule
