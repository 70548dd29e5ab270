import AsyncModule.Machine

/-!
# AsyncModule.Proofs.Tasks

What the operations of the machine put on the stack. A callback or factory is started only by
working off the worklist; an error handler by reporting a failure, or by failing a module whose
definition is dropped with it.

* `tasks_failModule`, `handles_report`, `tasks_process`, `tasks_takeUp` — what each of them starts.
* `completes_of_callback` — a callback put on top of the stack has just been called.
-/

namespace AsyncModule

variable {ν : Type}

namespace Ending

/-- Whether it is a callback, a factory or an error handler that ends so. -/
def isCallback : Ending ν → Bool
  | callback _ _ => true
  | errback _ _ => true
  | _ => false

end Ending

namespace Task

/-- Whether a task is a callback, a factory or an error handler. -/
def isCallback : Task ν → Bool
  | body _ _ ending => ending.isCallback
  | settling _ _ ending => ending.isCallback
  | _ => false

end Task

/-- A step makes a live request due to be called back: it has no dependencies, or its last slot is
filled. -/
inductive Step.Completes (l : Loader ν) (id : RequestId) (r : Request ν) : Step → Prop where
  | fire (hr : l.requests.get? id = some r) : Step.Completes l id r (.fire id)
  | fill {r₀ : Request ν} {i : Nat} {v : ModuleValue} (hr : l.requests.get? id = some r₀)
      (hfill : r = r₀.fill i v) (hfull : r.isSatisfied = true) :
      Step.Completes l id r (.fill id i v)

namespace Machine

variable {l : Loader ν} {tasks : List (Task ν)}

/-- The handler of a definition that is dropped with its module is what failing the module
starts. -/
theorem tasks_failModule (l : Loader ν) (url : String) (e : LoadError) :
    (failModule l url e).2 = [] ∨ ∃ id r errback, l.registry.definition? url = some id ∧
      l.requests.get? id = some r ∧ r.errback = some errback ∧
      failModule l url e =
        handle (((l.abandonModule url e).withdraw id r).record (.failed id e)) id r e errback
          none := by
  unfold failModule Loader.failModule
  cases hd : l.registry.definition? url with
  | none => exact .inl rfl
  | some id =>
    cases hr : l.requests.get? id with
    | none =>
      simp only [hr]
      exact .inl trivial
    | some r =>
      simp only [hr]
      cases herr : r.errback with
      | some errback => exact .inr ⟨id, r, errback, rfl, hr, herr, rfl⟩
      | none =>
        dsimp only
        split
        · exact .inl rfl
        · exact .inl rfl

/-- What is started for a failure: nothing, or a handler of the error. -/
def Handles (e : LoadError) (tasks : List (Task ν)) : Prop :=
  tasks = [] ∨ ∃ ctx script definition,
    tasks = [.body (some (.callback ctx)) script (.errback definition e)]

theorem handles_failModule (l : Loader ν) (url : String) (e : LoadError) :
    Handles e (failModule l url e).2 := by
  rcases tasks_failModule l url e with h | ⟨id, r, errback, _, _, _, h⟩
  · exact .inl h
  · rw [h]
    exact .inr ⟨_, _, _, rfl⟩

theorem handles_report (l : Loader ν) (id : RequestId) (r : Request ν) (e : LoadError) :
    Handles e (report l id r e).2 := by
  unfold report
  dsimp only
  cases r.errback with
  | some errback => exact .inr ⟨_, _, _, rfl⟩
  | none =>
    cases r.definitionUrl with
    | some url => exact handles_failModule _ url e
    | none => exact .inl rfl

/-- What is started by working off a step: the callback of its request, or a handler, or
nothing. -/
theorem tasks_process (l : Loader ν) (s : Step) :
    (∃ id r, Step.Completes l id r s ∧ (process l s).2 =
      [.body (some (.callback r.context)) (r.callback r.values) (.callback id r)] ∧
      (process l s).1.journal = .called id r.values :: l.journal) ∨
    ∃ e, Handles e (process l s).2 := by
  have hnone : ∃ e, Handles (ν := ν) e [] := ⟨default, .inl rfl⟩
  cases s with
  | fire id =>
    simp only [process, fire]
    cases hr : l.requests.get? id with
    | none => exact .inr hnone
    | some r => exact .inl ⟨id, r, .fire hr, rfl, rfl⟩
  | fill id i v =>
    simp only [process, fill]
    cases hr : l.requests.get? id with
    | none => exact .inr hnone
    | some r =>
      dsimp only
      cases hs : (r.fill i v).isSatisfied with
      | false => exact .inr hnone
      | true =>
        simp only [if_true, fire, Requests.get?_modify_self (·.fill i v) hr]
        exact .inl ⟨id, r.fill i v, .fill hr rfl hs, rfl, rfl⟩
  | fail id e =>
    simp only [process, failRequest]
    split
    · exact .inr hnone
    · exact .inr ⟨e, handles_report _ id _ e⟩

/-! ## The ends of programs and of fetches -/

theorem handles_conclude (l : Loader ν) (frame : Option Frame) (o : Outcome)
    (ending : Ending ν) : ∃ e, Handles e (conclude l frame o ending).2 := by
  have hnone : ∃ e, Handles (ν := ν) e [] := ⟨default, .inl rfl⟩
  cases ending with
  | plain => exact hnone
  | unit t =>
    have hfail : ∀ e, ∃ e', Handles e' (failModule l t.key e).2 :=
      fun e => ⟨e, handles_failModule l t.key e⟩
    simp only [conclude, concludeUnit]
    split
    · exact hfail _
    · split
      · exact hnone
      · exact hfail _
  | script t fragment =>
    simp only [conclude, concludeScript]
    split
    · exact ⟨_, handles_failModule l t.key _⟩
    · exact hnone
  | main t => exact hnone
  | callback id r =>
    simp only [conclude, concludeCallback]
    split
    · exact ⟨_, handles_report _ id r _⟩
    · split
      · exact hnone
      · exact hnone
  | errback definition e =>
    cases definition with
    | none => exact hnone
    | some url => exact ⟨e, handles_failModule l url e⟩

/-- What is started on account of a finished fetch: nothing, a unit or script, or what failing
its module starts. -/
theorem tasks_complete (l : Loader ν) (f : Fetch ν) (result : Fetched (Script ν)) :
    (complete l f result).2 = [] ∨
    (∃ frame script ending, (complete l f result).2 = [.body frame script ending] ∧
      ending.isCallback = false) ∨
    ∃ e, complete l f result =
      failModule (l.record (.arrived f.target f.role)) f.target.key e ∧ f.role = .module := by
  unfold complete
  dsimp only
  cases hrole : f.role with
  | module =>
    cases result with
    | failed e => exact .inr (.inr ⟨e, rfl, rfl⟩)
    | code s =>
      simp only [completeModule]
      split
      · exact .inr (.inr ⟨_, rfl, trivial⟩)
      · exact .inr (.inl ⟨_, _, _, rfl, rfl⟩)
    | markup fragment script =>
      cases script with
      | none => exact .inl rfl
      | some s =>
        simp only [completeModule]
        split
        · exact .inr (.inr ⟨_, rfl, trivial⟩)
        · exact .inr (.inl ⟨_, _, _, rfl, rfl⟩)
  | main =>
    cases result with
    | failed e => exact .inl rfl
    | code s =>
      simp only [completeMain]
      split
      · exact .inl rfl
      · exact .inr (.inl ⟨_, _, _, rfl, rfl⟩)
    | markup fragment script => exact .inl rfl

/-- A finished fetch that is taken up leaves the worklist to be worked off behind it. -/
theorem tasks_takeUp (l : Loader ν) :
    (takeUp l).2.2 = [] ∨ ∃ f result fetches, l.fetches.take = (some (f, result), fetches) ∧
      takeUp l = (.completed, (complete { l with fetches } f result).1,
        (complete { l with fetches } f result).2 ++ [.dispatch]) := by
  unfold takeUp
  split
  · exact .inl rfl
  · rename_i f result fetches htake
    exact .inr ⟨f, result, fetches, htake, rfl⟩

/-! ## Starting a callback -/

/-- Taking up a fetch never puts a single program right above the one that takes it up. -/
theorem tasks_takeUp_ne (l : Loader ν) {x : Task ν} (y top : Task ν) (hx : x ≠ .dispatch) :
    (takeUp l).2.2 ++ [top] ≠ [x, y] := by
  rcases tasks_takeUp l with h | ⟨f, result, fetches, _, h⟩
  · simp [h]
  · rw [h]
    cases (complete { l with fetches } f result).2 with
    | nil => simp [hx.symm]
    | cons z rest =>
      intro heq
      have hlength := congrArg List.length heq
      simp at hlength

theorem length_conclude_le (l : Loader ν) (frame : Option Frame) (o : Outcome)
    (ending : Ending ν) : (conclude l frame o ending).2.length ≤ 1 := by
  obtain ⟨e, h | ⟨_, _, _, h⟩⟩ := handles_conclude l frame o ending
  · rw [h]
    exact Nat.zero_le 1
  · rw [h]
    exact Nat.le_refl 1

/-- What a program asks for puts no single program on top of it. -/
theorem tasks_perform_ne (l : Loader ν) (frame frame' : Option Frame) (ending ending' : Ending ν)
    (script script' : Script ν) (y : Task ν) :
    (perform l frame ending script).2 ≠ [.body frame' script' ending', y] := by
  have hchange : ∀ (next : Option LoadError → Script ν) out,
      (afterChange frame next ending out).2 ≠ [.body frame' script' ending', y] := by
    rintro next ⟨_ | (_ | _), l⟩
    · simp [afterChange]
    · simp [afterChange]
    · simp [afterChange]
  cases script with
  | finish o =>
    intro h
    have hlength := length_conclude_le l frame o ending
    rw [show conclude l frame o ending = perform l frame ending (.finish o) from rfl, h] at hlength
    simp at hlength
  | require => simp [perform]
  | define => simp [perform]
  | configure base next =>
    simp only [perform]
    exact hchange next _
  | bootstrap entry main next =>
    simp only [perform]
    exact hchange next _
  | turn next =>
    simp only [perform]
    exact tasks_takeUp_ne l _ _ (by simp)
  | settle => simp [perform]
  | deliver url result next =>
    simp only [perform]
    split
    · simp
    · simp
  | make => simp [perform]
  | look => simp [perform]
  | note => simp [perform]

/-- A callback that is put on top of what was running is that of the request of the next step: it
has just been called, and is given the values of the request. -/
theorem completes_of_callback {m : Machine ν} {frame : Option Frame} {script : Script ν}
    {id : RequestId} {r : Request ν}
    (h : m.step.stack = .body frame script (.callback id r) :: m.stack) :
    (∃ s ∈ m.loader.worklist, Step.Completes m.loader id r s) ∧
      script = r.callback r.values ∧
      m.step.loader.journal = .called id r.values :: m.loader.journal := by
  obtain ⟨l, stack⟩ := m
  cases stack with
  | nil => cases h
  | cons task below =>
    have htasks : (advance l task).2 = [.body frame script (.callback id r), task] :=
      List.append_cancel_right (show _ ++ below = _ ++ below from h)
    show _ ∧ _ ∧ (advance l task).1.journal = _
    cases task with
    | body frame' script' ending =>
      exact absurd htasks (tasks_perform_ne l frame' frame ending _ script' script _)
    | settling frame' next ending =>
      have hne : (takeUp l).2.2 ++ [.settling frame' next ending] ≠
          [.body frame script (.callback id r), .settling frame' next ending] :=
        tasks_takeUp_ne l _ _ (by simp)
      simp only [advance] at htasks
      split at htasks
      · rename_i htake
        rw [htake] at hne
        exact absurd htasks hne
      · simp at htasks
    | dispatch =>
      simp only [advance] at htasks
      split at htasks
      · cases htasks
      · cases htasks
    | draining =>
      cases hw : l.worklist with
      | nil => simp [advance, hw] at htasks
      | cons s rest =>
        simp only [advance, hw] at htasks ⊢
        have hstart : (process { l with worklist := rest } s).2 =
            [.body frame script (.callback id r)] :=
          List.append_cancel_right (show _ ++ [Task.draining] = _ ++ [Task.draining] from htasks)
        rcases tasks_process { l with worklist := rest } s with
          ⟨id', r', hs, heq, hcalled⟩ | ⟨e, hnone | ⟨_, _, _, heq⟩⟩
        · rw [hstart] at heq
          cases heq
          refine ⟨⟨s, List.mem_cons_self, ?_⟩, rfl, hcalled⟩
          cases hs with
          | fire hr => exact .fire hr
          | fill hr hfill hfull => exact .fill hr hfill hfull
        · rw [hstart] at hnone
          cases hnone
        · rw [hstart] at heq
          cases heq

end Machine
end AsyncModule
