import AsyncModule.Proofs.Inert
import AsyncModule.Proofs.Waiting

/-!
# AsyncModule.Proofs.Calls

Requests that a host makes, with programs that do not call the loader. One without dependencies is
called back at once; one that is to fail is told so, and its programs come to their end before
anything else happens.

* `Machine.fire_steps`   — what calling back comes to.
* `Machine.report_steps` — what failing comes to.
-/

namespace AsyncModule

variable {ν : Type}

/-- A request that a host makes, by `require` or by `define`, with programs that do not call the
loader. -/
structure Call (ν : Type) where
  defines : Bool
  dependencies : List String
  callback : List ModuleValue → Script ν
  errback : Option (LoadError → Script ν)
  inert_callback : ∀ values, ∃ reason n, (callback values).Inert reason n
  inert_errback : ∀ handler, errback = some handler → ∀ e, ∃ reason n, (handler e).Inert reason n

namespace Call

variable (c : Call ν)

def script (next : Script ν) : Script ν :=
  if c.defines then .define c.dependencies c.callback c.errback next
  else .require c.dependencies c.callback c.errback next

/-- The request as it is made outside of units. -/
def request (ctx : Option Context) : Request ν :=
  .ofCall c.dependencies c.callback c.errback ctx none

/-- The loader once the request has been made outside of units. -/
def submitted (l : Loader ν) : Loader ν := l.submit none c.dependencies c.callback c.errback none

theorem submitted_of_nil (l : Loader ν) (hc : c.dependencies = []) :
    c.submitted l = (l.enter (c.request (l.context? none))).2.enqueue
      (.fire (l.enter (c.request (l.context? none))).1) := by
  have hempty : (c.request (l.context? none)).slots.isEmpty = true := by
    simp [request, Request.ofCall, hc]
  unfold submitted Loader.submit
  exact if_pos hempty

theorem isEmpty_slots_request (hc : c.dependencies ≠ []) (ctx : Option Context) :
    (c.request ctx).slots.isEmpty = false := by
  simpa [request, Request.ofCall] using hc

theorem submitted_of_none (l : Loader ν) (hc : c.dependencies ≠ [])
    (hcontext : l.context? none = none) :
    c.submitted l = { (l.enter (c.request none)).2 with
      bootstrap := l.bootstrap.defer (l.enter (c.request none)).1 } := by
  unfold submitted Loader.submit Loader.begin
  rw [hcontext]
  exact if_neg (Bool.eq_false_iff.mp (c.isEmpty_slots_request hc _))

theorem submitted_of_some (l : Loader ν) (hc : c.dependencies ≠ []) {ctx : Context}
    (hcontext : l.context? none = some ctx) :
    c.submitted l = (l.enter (c.request (some ctx))).2.link
      (l.enter (c.request (some ctx))).1 ctx := by
  unfold submitted Loader.submit Loader.begin
  rw [hcontext]
  exact if_neg (Bool.eq_false_iff.mp (c.isEmpty_slots_request hc _))

/-- How many values the error handler makes. -/
def failingMade (e : LoadError) : Nat :=
  match c.errback with
  | none => 0
  | some handler => (handler e).made

/-- What the request is told when it fails. -/
def failingTold (e : LoadError) : List Upshot :=
  match c.errback with
  | none => [.failed e]
  | some _ => [.handled e, .failed e]

/-- How many values are made when the request is called back without dependencies. -/
def firingMade : Nat :=
  (c.callback []).made + match (c.callback []).reason? with
    | none => 0
    | some reason => c.failingMade (.factory reason)

/-- What the request is told when it is called back without dependencies. -/
def firingTold : List Upshot :=
  (match (c.callback []).reason? with
    | none => []
    | some reason => c.failingTold (.factory reason)) ++ [.called []]

end Call

namespace Machine

variable {l : Loader ν} {k : List (Task ν)} {id : RequestId} {r : Request ν}

/-- The failure of a request that defines nothing is told, and its error handler runs. -/
theorem report_steps (c : Call ν) (e : LoadError) (l : Loader ν) (k : List (Task ν))
    (id : RequestId) (herrback : r.errback = c.errback) (hd : r.definitionUrl = none) :
    ∃ new, TellsOf id.serial (c.failingTold e) new ∧
      Steps ⟨(report l id r e).1, (report l id r e).2 ++ k⟩
        ⟨{ l with values := l.values + c.failingMade e, journal := new ++ l.journal }, k⟩ := by
  have hfailed : TellsOf id.serial [.failed e] [.failed (ν := ν) id e] :=
    .event rfl fun m => by simp only [Event.upshot?, eq_comm (a := m)]; split <;> rfl
  unfold Call.failingTold Call.failingMade
  cases hhandler : c.errback with
  | none =>
    have hreported : TellsOf id.serial [] [Event.report (ν := ν) (.unhandled e)] :=
      .event rfl fun m => (ite_self _).symm
    refine ⟨_, hfailed.append hreported, ?_⟩
    simp only [report, herrback, hhandler, hd]
    exact .refl
  | some handler =>
    have hhandled : TellsOf id.serial [.handled e] [.handled (ν := ν) id e] :=
      .event rfl fun m => by simp only [Event.upshot?, eq_comm (a := m)]; split <;> rfl
    obtain ⟨reason, n, hinert⟩ := c.inert_errback handler hhandler e
    obtain ⟨notes, o, _, hnotes, hsteps⟩ := inert_steps hinert
      ((l.record (.failed id e)).record (.handled id e)) (some (.callback r.context))
      (.errback none e) k
    refine ⟨_, (hfailed.append hhandled).append (.notes hnotes _), ?_⟩
    simp only [report, herrback, hhandler, hd, hinert.made_eq.1, List.append_assoc]
    exact hsteps.trans (finish_steps _ _ o _ k)

theorem concludeCallback_of_none (l : Loader ν) (id : RequestId) (hd : r.definitionUrl = none)
    (o : Outcome) : concludeCallback l id r o =
      match o.reason? with
      | some reason => report (l.record (.returned id o)) id r (.factory reason)
      | none => (l.record (.returned id o), []) := by
  unfold concludeCallback
  rw [hd, o.failure_none]
  cases o <;> rfl

/-- A request without dependencies that defines nothing is called back. -/
theorem fire_steps (c : Call ν) (l : Loader ν) (k : List (Task ν)) (id : RequestId)
    {ctx : Option Context} (hr : l.requests.get? id = some (c.request ctx))
    (hc : c.dependencies = []) :
    ∃ new, TellsOf id.serial c.firingTold new ∧
      Steps ⟨(fire l id).1, (fire l id).2 ++ k⟩
        ⟨{ l with
            requests := l.requests.erase id
            values := l.values + c.firingMade
            journal := new ++ l.journal }, k⟩ := by
  have hcalled : TellsOf id.serial [.called []] [.called (ν := ν) id []] :=
    .event rfl fun m => by simp only [Event.upshot?, eq_comm (a := m)]; split <;> rfl
  have hreturned : ∀ o, TellsOf id.serial [] [.returned (ν := ν) id o] :=
    fun o => .event rfl fun m => (ite_self _).symm
  have hfire : fire l id =
      (Loader.record { l with requests := l.requests.erase id } (.called id []),
        [.body (some (.callback ctx)) (c.callback []) (.callback id (c.request ctx))]) := by
    simp only [fire, hr]
    simp [Call.request, Request.ofCall, Request.values, hc]
  obtain ⟨reason, n, hinert⟩ := c.inert_callback []
  obtain ⟨hmade, hreason⟩ := hinert.made_eq
  obtain ⟨notes, o, ho, hnotes, hsteps⟩ := inert_steps hinert
    (Loader.record { l with requests := l.requests.erase id } (.called id []))
    (some (.callback ctx)) (.callback id (c.request ctx)) k
  have htold := (hcalled.append (.notes hnotes _)).append (hreturned o)
  have hends := hsteps.trans (finish_steps _ _ o _ k)
  simp only [conclude, concludeCallback_of_none _ id (show (c.request ctx).definitionUrl = none
    from rfl), ho] at hends
  rw [hfire]
  unfold Call.firingTold Call.firingMade
  rw [hmade, hreason]
  cases reason with
  | none =>
    refine ⟨_, htold, ?_⟩
    simp only [List.append_assoc]
    exact hends
  | some reason =>
    obtain ⟨new, hnew, hreported⟩ := report_steps c (.factory reason)
      (Loader.record { l with
        requests := l.requests.erase id
        values := l.values + n
        journal := notes ++ (.called id [] :: l.journal) } (.returned id o)) k id
      (r := c.request ctx) rfl rfl
    refine ⟨_, htold.append hnew, ?_⟩
    simp only [List.append_assoc, ← Nat.add_assoc]
    exact hends.trans hreported

/-! ## Making a request -/

theorem advance_dispatch (l : Loader ν) (hidle : l.dispatching = false) :
    advance l .dispatch = ({ l with dispatching := true }, [.draining]) := by
  simp [advance, hidle]

theorem advance_drained (l : Loader ν) (hw : l.worklist = []) :
    advance l .draining = ({ l with dispatching := false }, []) := by simp [advance, hw]

theorem advance_draining (l : Loader ν) {s : Step} {rest : List Step}
    (hw : l.worklist = s :: rest) : advance l .draining =
      ((process { l with worklist := rest } s).1,
        (process { l with worklist := rest } s).2 ++ [.draining]) := by simp only [advance, hw]

theorem dispatch_steps (l : Loader ν) (hidle : l.dispatching = false) (k : List (Task ν)) :
    Steps ⟨l, .dispatch :: k⟩ ⟨{ l with dispatching := true }, .draining :: k⟩ :=
  Steps.advance (advance_dispatch l hidle)

theorem drained_steps (l : Loader ν) (hw : l.worklist = []) (k : List (Task ν)) :
    Steps ⟨l, .draining :: k⟩ ⟨{ l with dispatching := false }, k⟩ :=
  Steps.advance (advance_drained l hw)

theorem draining_steps (l : Loader ν) {s : Step} {rest : List Step} (hw : l.worklist = s :: rest)
    (k : List (Task ν)) :
    Steps ⟨l, .draining :: k⟩ ⟨(process { l with worklist := rest } s).1,
      (process { l with worklist := rest } s).2 ++ .draining :: k⟩ := by
  have hsteps := Steps.advance (k := k) (advance_draining l hw)
  rwa [List.append_assoc] at hsteps

theorem call_steps (c : Call ν) (l : Loader ν) (next : Script ν)
    (hidle : (c.submitted l).dispatching = false) :
    Steps ⟨l, [.body none (c.script next) .plain]⟩
      ⟨{ c.submitted l with dispatching := true }, [.draining, .body none next .plain]⟩ := by
  have hcall : advance l (.body none (c.script next) .plain) =
      (c.submitted l, [.dispatch, .body none next .plain]) := by
    unfold Call.script
    cases c.defines <;> rfl
  exact (Steps.advance hcall).trans (dispatch_steps _ hidle _)

/-- The loader once a request without dependencies has been called back. -/
def fired (c : Call ν) (l : Loader ν) (id : RequestId) (new : List (Event ν)) : Loader ν :=
  { l with
    requests := l.requests.erase id
    worklist := []
    dispatching := false
    values := l.values + c.firingMade
    journal := new ++ l.journal }

theorem get?_fired (c : Call ν) (l : Loader ν) (ctx : Option Context) (new : List (Event ν))
    (i : RequestId) : (fired c (l.enter (c.request ctx)).2 (l.enter (c.request ctx)).1
      new).requests.get? i = if i = (l.enter (c.request ctx)).1 then none else
        l.requests.get? i := by
  refine (Requests.get?_erase _ _ i).trans ?_
  rw [Loader.get?_enter]
  split <;> rfl

theorem enqueued_steps (c : Call ν) (l : Loader ν) {ctx : Option Context}
    (hr : l.requests.get? id = some (c.request ctx)) (hc : c.dependencies = [])
    (hw : l.worklist = []) (k : List (Task ν)) :
    ∃ new, TellsOf id.serial c.firingTold new ∧
      Steps ⟨{ l.enqueue (.fire id) with dispatching := true }, .draining :: k⟩
        ⟨fired c l id new, k⟩ := by
  have hfire : Loader.worklist { l.enqueue (.fire id) with dispatching := true } = [.fire id] := by
    show l.worklist ++ [.fire id] = [.fire id]
    rw [hw, List.nil_append]
  obtain ⟨new, hnew, hsteps⟩ := fire_steps c { l with worklist := [], dispatching := true }
    (.draining :: k) id hr hc
  exact ⟨new, hnew, (draining_steps _ hfire k).trans (hsteps.trans (drained_steps _ rfl k))⟩

theorem fired_steps (c : Call ν) (next : Script ν) (hw : l.worklist = [])
    (hidle : l.dispatching = false) (hc : c.dependencies = []) :
    ∃ new, TellsOf (l.requests.serial + 1) c.firingTold new ∧
      Steps ⟨l, [.body none (c.script next) .plain]⟩
        ⟨fired c (l.enter (c.request (l.context? none))).2
          (l.enter (c.request (l.context? none))).1 new, [.body none next .plain]⟩ := by
  have hsubmitted := c.submitted_of_nil l hc
  have hcall := call_steps c l next (by rw [hsubmitted]; exact hidle)
  rw [hsubmitted] at hcall
  obtain ⟨new, hnew, hsteps⟩ := enqueued_steps c (l.enter (c.request (l.context? none))).2
    (Loader.get?_enter_self l _) hc hw [.body none next .plain]
  exact ⟨new, hnew, hcall.trans hsteps⟩

/-- A request that leaves nothing to be done is made. -/
theorem submitted_steps (c : Call ν) (next : Script ν)
    (hidle : (c.submitted l).dispatching = false) (hw : (c.submitted l).worklist = []) :
    Steps ⟨l, [.body none (c.script next) .plain]⟩ ⟨c.submitted l, [.body none next .plain]⟩ := by
  have hdrained := drained_steps { c.submitted l with dispatching := true } hw
    [.body none next .plain]
  have hsame : { c.submitted l with dispatching := false } = c.submitted l := by rw [← hidle]
  rw [hsame] at hdrained
  exact (call_steps c l next hidle).trans hdrained

/-- The next step of the worklist fails a request that defines nothing. -/
theorem fail_steps (c : Call ν) (l : Loader ν) {e : LoadError} {rest : List Step}
    (hw : l.worklist = .fail id e :: rest) (hr : l.requests.get? id = some r)
    (herrback : r.errback = c.errback) (hd : r.definitionUrl = none) (k : List (Task ν)) :
    ∃ new, TellsOf id.serial (c.failingTold e) new ∧
      Steps ⟨l, .draining :: k⟩
        ⟨{ l.withdraw id r with
            worklist := rest
            values := l.values + c.failingMade e
            journal := new ++ l.journal }, .draining :: k⟩ := by
  obtain ⟨new, hnew, hsteps⟩ := report_steps c e (Loader.withdraw { l with worklist := rest } id r)
    (.draining :: k) id herrback hd
  have hprocess : process { l with worklist := rest } (.fail id e) =
      report (Loader.withdraw { l with worklist := rest } id r) id r e := by
    simp only [process, failRequest, hr]
  have hdraining := draining_steps l hw k
  rw [hprocess] at hdraining
  exact ⟨new, hnew, hdraining.trans hsteps⟩

/-- A request that fails at once is made, and fails. -/
theorem failed_steps (c : Call ν) (next : Script ν) {e : LoadError}
    (hidle : (c.submitted l).dispatching = false) (hw : (c.submitted l).worklist = [.fail id e])
    (hr : (c.submitted l).requests.get? id = some r) (herrback : r.errback = c.errback)
    (hd : r.definitionUrl = none) :
    ∃ new, TellsOf id.serial (c.failingTold e) new ∧
      Steps ⟨l, [.body none (c.script next) .plain]⟩
        ⟨{ (c.submitted l).withdraw id r with
            worklist := []
            dispatching := false
            values := (c.submitted l).values + c.failingMade e
            journal := new ++ (c.submitted l).journal }, [.body none next .plain]⟩ := by
  obtain ⟨new, hnew, hsteps⟩ := fail_steps c { c.submitted l with dispatching := true } hw hr
    herrback hd [.body none next .plain]
  exact ⟨new, hnew, (call_steps c l next hidle).trans (hsteps.trans (drained_steps _ rfl _))⟩

end Machine
end AsyncModule
