import AsyncModule.Proofs.Failing
import AsyncModule.Proofs.Nesting

/-!
# AsyncModule.Proofs.Dropped

What comes of a unit that fails after it has made its definition. If the definition is still waited
for, it is dropped: the module fails, and with it whatever waits for it, and the handler of the
definition is started, once. If the definition has been called back by then, the failure of the unit
comes too late, and changes nothing.

* `drops_of_live`     — what the failure does while the definition is waited for.
* `step_of_settled`   — what it does afterwards.
* `unit_fails_module` — the whole statement, for every moment of every run.
* `failure_too_late`  — a unit that fails, and a module that is ready all the same.
-/

namespace AsyncModule

open Relation

variable {ν : Type}

/-- The module that a unit was fetched as that is about to fail after having made its definition,
and the reason. -/
def Task.failing? : Task ν → Option (Target × String)
  | .body (some (.unit _ _ true true)) (.finish (.error reason)) (.unit t) => some (t, reason)
  | _ => none

def Machine.failing? (m : Machine ν) : Option (Target × String) :=
  m.stack.head?.bind Task.failing?

theorem Loader.worklist_abandonModule {l : Loader ν} {url : String}
    (hurl : l.registry.state? url = some .loading) (e : LoadError) :
    (l.abandonModule url e).worklist = l.worklist ++
      (l.registry.waiters url).map fun w => .fail w.request (.dependency url e) := by
  have hopen : (l.registry.setDefinition url none).IsOpen url :=
    ⟨.loading, by rw [Registry.state?_setDefinition, hurl], rfl⟩
  simp only [abandonModule, Registry.markFailed, Registry.fst_settle_of_isOpen _ hopen,
    Registry.waiters_setDefinition]

namespace Machine

variable {l : Loader ν} {k : List Duty} {id : RequestId} {r : Request ν} {url : String}

/-- The loader after a module has failed and its definition has been dropped. -/
def dropDefinition (l : Loader ν) (id : RequestId) (r : Request ν) (url : String)
    (e : LoadError) : Loader ν :=
  ((l.abandonModule url e).withdraw id r).record (.failed id e)

theorem failModule_of_live (hid : l.registry.definition? url = some id)
    (hr : l.requests.get? id = some r) (hd : r.definitionUrl = some url) (e : LoadError) :
    failModule l url e = match r.errback with
      | some errback => handle (dropDefinition l id r url e) id r e errback none
      | none => (dropDefinition l id r url e, []) := by
  unfold failModule Loader.failModule
  simp only [hid, hr]
  cases r.errback with
  | some errback => rfl
  | none =>
    simp only [hd]
    rfl

theorem state?_abandonModule (hurl : l.registry.state? url = some .loading) (e : LoadError) :
    (l.abandonModule url e).registry.state? url = some (.failed e) := by
  have hopen : (l.registry.setDefinition url none).IsOpen url :=
    ⟨.loading, by rw [Registry.state?_setDefinition, hurl], rfl⟩
  have hsettle := Registry.state?_settle (s := .failed e)
    (f := fun r => { r with state := .failed e }) hopen (fun _ => rfl) url
  exact hsettle.trans (if_pos rfl)

theorem state?_dropDefinition (hurl : l.registry.state? url = some .loading) (e : LoadError) :
    (dropDefinition l id r url e).registry.state? url = some (.failed e) := by
  show (List.foldl _ _ _ : Registry).state? url = _
  rw [Loader.state?_foldl_dropWaiters]
  exact state?_abandonModule hurl e

theorem worklist_dropDefinition (hurl : l.registry.state? url = some .loading) (e : LoadError) :
    (dropDefinition l id r url e).worklist = l.worklist ++
      (l.registry.waiters url).map fun w => .fail w.request (.dependency url e) :=
  Loader.worklist_abandonModule hurl e

/-- A module that is settled does not fail any more. -/
theorem abandonModule_of_settled {s : ModuleState} (hurl : l.registry.state? url = some s)
    (hs : s.isSettled = true) (e : LoadError) :
    l.abandonModule url e = { l with registry := l.registry.setDefinition url none } := by
  have hopen : ¬ (l.registry.setDefinition url none).IsOpen url := by
    rintro ⟨s', hs', ho⟩
    rw [Registry.state?_setDefinition, hurl] at hs'
    cases hs'
    rw [hs] at ho
    cases ho
  simp [Loader.abandonModule, Registry.markFailed, Registry.settle_of_not_isOpen _ hopen]

/-- Unless a request is to define it, a module whose unit has made its definition is settled. -/
theorem settled_of_watch (h : Owned l (.watch url :: k)) (hbacked : Backed l (.watch url :: k))
    (hnone : ∀ id, l.registry.definition? url = some id → l.requests.get? id = none) :
    ∃ s, l.registry.state? url = some s ∧ s.isSettled = true := by
  obtain ⟨hbringing, s, hs, hasked⟩ := h.watched List.mem_cons_self
  refine ⟨s, hs, ?_⟩
  cases s with
  | known => exact absurd rfl hasked
  | ready v => rfl
  | failed e => rfl
  | loading =>
    have hhands := h.hands_of_watch
    rw [hands, hbringing, Nat.zero_add, List.count_eq_zero] at hhands
    cases hbacked url hs with
    | fetch hf ht =>
      rename_i n t
      rw [Fetches.bringing, List.countP_eq_zero] at hbringing
      exact absurd (by simp [ht]) (hbringing _ hf)
    | duty hk => exact absurd ((List.mem_cons.mp hk).resolve_left (by simp)) hhands
    | definition hd hr =>
      rw [hnone _ hd] at hr
      cases hr

variable {m m' : Machine ν} {t : Target} {reason : String}

/-- A unit that fails after it has made its definition fails its module, which it watches. -/
theorem step_of_failing (h : m.Reachable) (hunit : m.failing? = some (t, reason)) :
    dutiesOf m.stack = .watch t.key :: dutiesOf m.stack.tail ∧
    m.step.loader = (failModule m.loader t.key (.execution t.key reason)).1 ∧
    m.step.stack = (failModule m.loader t.key (.execution t.key reason)).2 ++ m.stack.tail := by
  obtain ⟨l, stack⟩ := m
  obtain ⟨task, hhead, htask⟩ := Option.bind_eq_some_iff.mp hunit
  obtain ⟨rest, rfl⟩ := List.head?_eq_some_iff.mp hhead
  unfold Task.failing? at htask
  split at htask
  · cases htask
    exact ⟨rfl, rfl, rfl⟩
  · cases htask

/-- The loader of a step by which a definition is dropped, but for what is noted of its handler. -/
theorem journal_of_live {e : LoadError} (hid : l.registry.definition? url = some id)
    (hr : l.requests.get? id = some r) (hd : r.definitionUrl = some url) :
    (failModule l url e).1.registry = (dropDefinition l id r url e).registry ∧
    (failModule l url e).1.requests = (dropDefinition l id r url e).requests ∧
    (failModule l url e).1.worklist = (dropDefinition l id r url e).worklist ∧
    (failModule l url e).1.journal = (match r.errback with
      | some _ => [.handled id e]
      | none => []) ++ .failed id e :: l.journal := by
  rw [failModule_of_live hid hr hd]
  cases r.errback with
  | some errback => exact ⟨rfl, rfl, rfl, rfl⟩
  | none => exact ⟨rfl, rfl, rfl, rfl⟩

/-- The first failure that is due to a request that waits for the module is on its account. -/
theorem find?_waiters {ws : List Waiter} {w : Waiter} (hw : w ∈ ws) (e : LoadError) :
    (ws.map fun w => Step.fail w.request e).find? (·.fails w.request) =
      some (.fail w.request e) := by
  induction ws with
  | nil => cases hw
  | cons w' ws ih =>
    by_cases heq : w'.request = w.request
    · rw [List.map_cons, List.find?_cons_of_pos (by simp [Step.fails, heq]), heq]
    · rw [List.map_cons, List.find?_cons_of_neg (by simp [Step.fails, heq])]
      rcases List.mem_cons.mp hw with rfl | hw
      · exact absurd rfl heq
      · exact ih hw

/-- Of the failures that are due to a request, that of the module it waits for comes last. -/
theorem find?_append_waiters (work : List Step) {ws : List Waiter} {w : Waiter} (hw : w ∈ ws)
    (e : LoadError) :
    ∃ e', (work ++ ws.map fun w => Step.fail w.request e).find? (·.fails w.request) =
      some (.fail w.request e') ∧ ((∀ e₀, .fail w.request e₀ ∉ work) → e' = e) := by
  rw [List.find?_append]
  cases hfind : work.find? (·.fails w.request) with
  | none => exact ⟨e, find?_waiters hw e, fun _ => rfl⟩
  | some s =>
    have hmem := List.mem_of_find?_eq_some hfind
    have hfails := List.find?_some hfind
    cases s with
    | fail id e' =>
      obtain rfl : id = w.request := by simpa [Step.fails] using hfails
      exact ⟨e', rfl, fun hno => absurd hmem (hno e')⟩
    | _ => cases hfails

/-- What waits for a module is doomed when the definition of the module is dropped. -/
theorem fated_of_waiter (h : m.Reachable) (hunit : m.failing? = some (t, reason))
    (hr : m.loader.requests.get? id = some r) (hd : r.definitionUrl = some t.key) {w : Waiter}
    (hw : w ∈ m.loader.registry.waiters t.key) :
    ∃ e' r', m.loader.requests.get? w.request = some r' ∧
      Loader.Fated w.request e' r'.definitionUrl m.step.loader ∧
      ((∀ e₀, .fail w.request e₀ ∉ m.loader.worklist) →
        e' = .dependency t.key (.execution t.key reason)) := by
  obtain ⟨hid, _, hurl⟩ := h.owned.defined hr hd
  obtain ⟨_, hloader, _⟩ := step_of_failing h hunit
  obtain ⟨hregistry, hrequests, hwork, _⟩ :=
    journal_of_live (e := .execution t.key reason) hid hr hd
  obtain ⟨_, r', s, hr', hs, hm, hv⟩ := h.allLinked.waiter hw
  -- a definition does not wait for its own module
  have hne : w.request ≠ id := by
    intro heq
    rw [heq, hr] at hr'
    cases hr'
    refine h.wellDefining.acyclic t.key (.single (Registry.waitsFor_iff.mpr ?_))
    exact ⟨id, r, hid, hr, Request.mem_pendingModules.mpr ⟨_, s, hs, hv, hm⟩⟩
  have hget : m.step.loader.requests.get? w.request = some r' := by
    rw [hloader, hrequests]
    exact (Requests.get?_erase m.loader.requests id w.request).trans ((if_neg hne).trans hr')
  obtain ⟨e', hfirst, hdue⟩ := find?_append_waiters m.loader.worklist hw
    (.dependency t.key (.execution t.key reason))
  refine ⟨e', r', hr', ⟨?_, ?_, ?_⟩, hdue⟩
  · exact (h.goes (.step m)).accounts.issued
      ((h.goes (.step m)).accounts.live_iff.mp ⟨r', hget⟩).1
  · intro r'' hr''
    rw [hget] at hr''
    cases hr''
    refine ⟨rfl, ⟨w.slot, s, t.key, .execution t.key reason, hs, hm, hv, ?_⟩, ?_⟩
    · rw [hloader, hregistry, state?_dropDefinition hurl]
    · rw [hloader, hwork, worklist_dropDefinition hurl]
      exact hfirst
  · intro hnone
    rw [hget] at hnone
    cases hnone

/-- A unit fails while the definition that it has made of its module is still waited for. -/
structure DropsDefinition (m : Machine ν) (t : Target) (e : LoadError) (id : RequestId)
    (r : Request ν) : Prop where
  gone : m.step.loader.requests.get? id = none
  /-- The handler of the definition is the next to run. -/
  handler : ∀ errback, r.errback = some errback → m.step.stack =
    .body (some (.callback r.context)) (errback e) (.errback none e) :: m.stack.tail
  failing : ∀ w ∈ m.loader.registry.waiters t.key,
    .fail w.request (.dependency t.key e) ∈ m.step.loader.worklist
  /-- From then on the module has failed, and its definition with it, whose handler has been started
  once. What waited for the module is not called back and has failed as soon as the worklist has
  been worked off, on account of the module if no other failure was due to it. -/
  later : ∀ m', ReflTransGen Goes m.step m' →
    m'.loader.registry.state? t.key = some (.failed e) ∧
    id ∉ calls m'.loader.journal ∧ .failed id e ∈ m'.loader.journal ∧
    (r.errback.isSome = true → .handled id e ∈ m'.loader.journal ∧
      (handlings m'.loader.journal).count id = 1) ∧
    ∀ w ∈ m.loader.registry.waiters t.key, w.request ∉ calls m'.loader.journal ∧
      (m'.loader.worklist = [] → ∃ e', .failed w.request e' ∈ m'.loader.journal ∧
        ((∀ e₀, .fail w.request e₀ ∉ m.loader.worklist) →
          (∀ r', m.loader.requests.get? w.request = some r' → r'.definitionUrl = none) →
          e' = .dependency t.key e))

/-- A definition that is still waited for is dropped when its unit fails. -/
theorem drops_of_live (h : m.Reachable) (hunit : m.failing? = some (t, reason))
    (hr : m.loader.requests.get? id = some r) (hd : r.definitionUrl = some t.key) :
    DropsDefinition m t (.execution t.key reason) id r := by
  obtain ⟨hid, _, hurl⟩ := h.owned.defined hr hd
  obtain ⟨_, hloader, hstack⟩ := step_of_failing h hunit
  obtain ⟨hregistry, hrequests, hwork, hjournal⟩ :=
    journal_of_live (e := .execution t.key reason) hid hr hd
  rw [← hloader] at hregistry hrequests hwork hjournal
  have hnext : m.step.Reachable := h.goes (.step m)
  refine ⟨?_, ?_, ?_, ?_⟩
  · rw [hrequests]
    exact (Requests.get?_erase m.loader.requests id id).trans (if_pos rfl)
  · intro errback herrback
    rw [hstack, failModule_of_live hid hr hd, herrback]
    rfl
  · intro w hw
    rw [hwork, worklist_dropDefinition hurl]
    exact List.mem_append_right _ (List.mem_map.mpr ⟨w, hw, rfl⟩)
  · intro m' hrun
    have hlasts := hnext.lasts hrun
    have hacc := (hnext.trans hrun).accounts
    have hfailed : .failed id (.execution t.key reason) :: m.loader.journal <:+
        m'.loader.journal := by
      refine List.IsSuffix.trans ?_ hlasts.journal
      rw [hjournal]
      exact List.suffix_append _ _
    refine ⟨?_, ?_, hfailed.subset List.mem_cons_self, ?_, ?_⟩
    · refine hlasts.settled ?_ rfl
      rw [hregistry, state?_dropDefinition hurl]
    · exact hacc.orderly.not_mem_calls_of_failed hfailed
        (h.accounts.live_iff.mp ⟨r, hr⟩).2.1
    · intro hsome
      obtain ⟨errback, herrback⟩ := Option.isSome_iff_exists.mp hsome
      have hhandled : .handled id (.execution t.key reason) ∈ m'.loader.journal := by
        refine hlasts.journal.subset ?_
        rw [hjournal, herrback]
        exact List.mem_cons_self
      have hmem : id ∈ handlings m'.loader.journal :=
        List.mem_filterMap.mpr ⟨_, hhandled, rfl⟩
      exact ⟨hhandled, List.count_eq_one_of_mem hacc.orderly.nodup_handlings hmem⟩
    · intro w hw
      obtain ⟨e', r', hr', hfated, hdue⟩ := fated_of_waiter h hunit hr hd hw
      have hfated' := hnext.fated hfated hrun
      refine ⟨hfated'.not_mem_calls hacc, ?_⟩
      intro hidle
      obtain ⟨e'', hmem, hsame⟩ := hfated'.failed_of_idle hidle
      refine ⟨e'', hmem, ?_⟩
      intro hno hplain
      rw [hsame (hplain r' hr'), hdue hno]

/-- What a unit that has made its definition changes by failing, if the definition has been settled
by then: nothing but that the module has no definition any more. -/
theorem step_of_settled (h : m.Reachable) (hunit : m.failing? = some (t, reason))
    (hlate : ∀ id r, m.loader.requests.get? id = some r → r.definitionUrl ≠ some t.key) :
    ∃ s, m.loader.registry.state? t.key = some s ∧ s.isSettled = true ∧
      m.step = { loader := { m.loader with
        registry := m.loader.registry.setDefinition t.key none }, stack := m.stack.tail } := by
  obtain ⟨hduties, hloader, hstack⟩ := step_of_failing h hunit
  have hnone : ∀ id, m.loader.registry.definition? t.key = some id →
      m.loader.requests.get? id = none := fun id => h.wellDefining.get?_eq_none hlate
  have howned := h.owned
  have hbacked := h.backed
  rw [hduties] at howned hbacked
  obtain ⟨s, hs, hsettled⟩ := settled_of_watch howned hbacked hnone
  have hfail : failModule m.loader t.key (.execution t.key reason) =
      ({ m.loader with registry := m.loader.registry.setDefinition t.key none }, []) := by
    rw [failModule_of_none hnone, abandonModule_of_settled hs hsettled]
  rw [hfail] at hloader hstack
  refine ⟨s, hs, hsettled, ?_⟩
  cases hnext : m.step with
  | mk l stack =>
    rw [hnext] at hloader hstack
    subst hloader hstack
    rfl

end Machine

/-- At every moment of every run, a unit that is about to fail after it has made its definition: if
a request is still to define the module, the unit's failure drops it, and from then on the module
has failed, with whatever waits for it. If none is, then the module has been settled, and stays as
it is. -/
theorem unit_fails_module {m : Machine ν} {t : Target} {reason : String} (h : m.Reachable)
    (hunit : m.failing? = some (t, reason)) :
    (∀ id r, m.loader.requests.get? id = some r → r.definitionUrl = some t.key →
      m.DropsDefinition t (.execution t.key reason) id r) ∧
    ((∀ id r, m.loader.requests.get? id = some r → r.definitionUrl ≠ some t.key) →
      ∃ s, m.loader.registry.state? t.key = some s ∧ s.isSettled = true ∧
        m.step = { loader := { m.loader with
          registry := m.loader.registry.setDefinition t.key none }, stack := m.stack.tail }) :=
  ⟨fun _ _ hr hd => Machine.drops_of_live h hunit hr hd, Machine.step_of_settled h hunit⟩

/-- The moment at which a unit is about to fail whose definition waits for another module. -/
def failingEarly : Machine Unit :=
  (Machine.start (Loader.new {} droppedResources)
    (.requireFrom "a:/" ["./x.js"] (fun _ => .finish .done) fun _ =>
      .turn fun _ => .finish .done)).run 10

theorem unit_fails_module_dropped :
    ∃ t id r, t.key = "a:/x.js" ∧ r.errback.isSome = true ∧
      failingEarly.DropsDefinition t (.execution "a:/x.js" "failed") id r ∧
      failingEarly.loader.registry.waiters t.key = [⟨⟨0, 1⟩, 0⟩] := by
  have hreach : failingEarly.Reachable := (Machine.reachable_start _ _ _).run 10
  have hfailing : failingEarly.failing?.map (fun p => (p.1.key, p.2)) =
      some ("a:/x.js", "failed") := by decide +kernel
  obtain ⟨⟨t, reason⟩, hunit, heq⟩ := Option.map_eq_some_iff.mp hfailing
  obtain ⟨hkey, rfl⟩ := Prod.mk.inj heq
  have hdefinition : (failingEarly.loader.requests.get? ⟨1, 2⟩).map (fun r =>
      (r.definitionUrl, r.errback.isSome)) = some (some "a:/x.js", true) := by decide +kernel
  obtain ⟨r, hr, heq⟩ := Option.map_eq_some_iff.mp hdefinition
  obtain ⟨hd, hsome⟩ := Prod.mk.inj heq
  obtain ⟨hdrops, _⟩ := unit_fails_module hreach hunit
  have hdropped := hdrops ⟨1, 2⟩ r hr (by rw [hd, hkey])
  rw [hkey] at hdropped
  exact ⟨t, ⟨1, 2⟩, r, hkey, hsome, hdropped, by rw [hkey]; decide +kernel⟩

/-- A unit that fails after it has made a definition that waits for nothing. -/
def lateResources (t : Target) : Option (Fetched (Script Unit)) :=
  if t.key = "a:/x.js" then
    some (.code (.define [] (fun _ => .make (.data .null) fun v => .finish (.value v))
      (some fun _ => .finish .done) (.finish (.error "failed"))))
  else none

/-- The moment at which it is about to fail. -/
def failingLate : Machine Unit :=
  (Machine.start (Loader.new {} lateResources)
    (.requireFrom "a:/" ["./x.js"] (fun _ => .finish .done) fun _ =>
      .turn fun _ => .finish .done)).run 15

/-- The definition has been called back before its unit fails. So the module is ready in the end,
and no handler has been started. -/
theorem failure_too_late :
    failingLate.Reachable ∧
    failingLate.failing?.map (fun p => (p.1.key, p.2)) = some ("a:/x.js", "failed") ∧
    (failingLate.run 10).stack.length = 0 ∧ (failingLate.run 10).loader.worklist = [] ∧
    (failingLate.run 10).loader.status "a:/x.js" = some .ready ∧
    failures (failingLate.run 10).loader.journal = [] ∧
    handlings (failingLate.run 10).loader.journal = [] :=
  ⟨(Machine.reachable_start _ _ _).run 15, by decide +kernel, by decide +kernel, by decide +kernel,
    by decide +kernel, by decide +kernel, by decide +kernel⟩

end AsyncModule
