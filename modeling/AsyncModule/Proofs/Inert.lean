import AsyncModule.Proofs.Lockstep

/-!
# AsyncModule.Proofs.Inert

Programs that do not call the loader, and requests with such programs. Running one makes values and
takes notes, and changes nothing else.

* `Script.Inert`        — a program that does not call the loader.
* `Machine.Steps`       — one machine becomes another by steps alone.
* `Machine.inert_steps` — what the run of such a program comes to.
* `Upshot`              — what comes of a request.
-/

namespace AsyncModule

variable {ν : Type}

/-- The error of its own that a program ends with. -/
def Outcome.reason? : Outcome → Option String
  | error reason => some reason
  | _ => none

theorem Outcome.failure_none (o : Outcome) : o.failure none = o.reason?.map LoadError.factory := by
  cases o <;> rfl

/-- The program does not call the loader. It makes a certain number of values and takes notes, and
whether it ends with an error does not depend on which values these are. -/
inductive Script.Inert (reason : Option String) : Nat → Script ν → Prop where
  | finish {o : Outcome} (h : o.reason? = reason) : Inert reason 0 (.finish o)
  | make {n : Nat} {payload : Payload} {next : ModuleValue → Script ν}
    (h : ∀ v, v.payload = payload → Inert reason n (next v)) :
    Inert reason (n + 1) (.make payload next)
  | note {n : Nat} {x : ν} {next : Script ν} (h : Inert reason n next) :
    Inert reason n (.note x next)

/-- How many values a program makes that does not call the loader. -/
def Script.made : Script ν → Nat
  | make payload next => (next ⟨0, payload⟩).made + 1
  | note _ next => next.made
  | _ => 0

/-- The error of its own that a program ends with that does not call the loader. -/
def Script.reason? : Script ν → Option String
  | finish o => o.reason?
  | make payload next => (next ⟨0, payload⟩).reason?
  | note _ next => next.reason?
  | _ => none

theorem Script.Inert.made_eq {reason : Option String} {n : Nat} {s : Script ν}
    (h : s.Inert reason n) : s.made = n ∧ s.reason? = reason := by
  induction h with
  | finish h => exact ⟨rfl, h⟩
  | make _ ih => exact ⟨congrArg (· + 1) (ih ⟨0, _⟩ rfl).1, (ih ⟨0, _⟩ rfl).2⟩
  | note _ ih => exact ih

theorem Script.Inert.discreet {reason : Option String} {n : Nat} {s : Script ν}
    (h : s.Inert reason n) (past past' : List (Event ν)) : s.Discreet past past' := by
  induction h with
  | finish _ => exact .finish _
  | make _ ih => exact .make ih
  | note _ ih => exact .note ih

/-! ## What comes of a request -/

/-- What a request is told. -/
inductive Upshot where
  | called (values : List ModuleValue)
  | failed (e : LoadError)
  | handled (e : LoadError)
  deriving Repr

/-- What an event says has come of the request with a number. -/
def Event.upshot? (n : Nat) : Event ν → Option Upshot
  | called id values => if id.serial = n then some (.called values) else none
  | failed id e => if id.serial = n then some (.failed e) else none
  | handled id e => if id.serial = n then some (.handled e) else none
  | _ => none

/-- What has come of the request with a number, newest first. -/
def upshots (n : Nat) (j : List (Event ν)) : List Upshot := j.filterMap (Event.upshot? n)

theorem Event.upshot?_unplaced (n : Nat) (event : Event ν) :
    event.unplaced.upshot? n = event.upshot? n := by cases event <;> rfl

theorem Event.load?_unplaced (event : Event ν) : event.unplaced.load? = event.load? := by
  cases event <;> rfl

theorem filterMap_unplaced {α : Type} {f : Event ν → Option α}
    (hf : ∀ event, f event.unplaced = f event) {new new' : List (Event ν)}
    (h : new'.map Event.unplaced = new.map Event.unplaced) :
    new'.filterMap f = new.filterMap f := by
  have hmap : ∀ j : List (Event ν), j.filterMap f = (j.map Event.unplaced).filterMap f := by
    intro j
    rw [List.filterMap_map]
    exact congrArg (j.filterMap ·) (funext fun event => (hf event).symm)
  rw [hmap new', h, ← hmap new]

/-- Some events tell of one request only, and of no loads. -/
structure TellsOf (n : Nat) (us : List Upshot) (new : List (Event ν)) : Prop where
  loads : loads new = []
  upshots : ∀ m, upshots m new = if m = n then us else []

theorem TellsOf.notes {notes : List (Event ν)} (h : ∀ event ∈ notes, ∃ x, event = .note x)
    (n : Nat) : TellsOf n [] notes where
  loads := by
    refine List.filterMap_eq_nil_iff.mpr fun event hevent => ?_
    obtain ⟨x, rfl⟩ := h event hevent
    rfl
  upshots m := by
    rw [ite_self]
    refine List.filterMap_eq_nil_iff.mpr fun event hevent => ?_
    obtain ⟨x, rfl⟩ := h event hevent
    rfl

theorem TellsOf.event {n : Nat} {us : List Upshot} {event : Event ν} (hload : event.load? = none)
    (h : ∀ m, (event.upshot? m).toList = if m = n then us else []) : TellsOf n us [event] where
  loads := by simp [AsyncModule.loads, hload]
  upshots m := by
    rw [← h, AsyncModule.upshots, List.filterMap_cons]
    cases event.upshot? m <;> rfl

theorem TellsOf.append {n : Nat} {us us' : List Upshot} {new new' : List (Event ν)}
    (h : TellsOf n us new) (h' : TellsOf n us' new') : TellsOf n (us' ++ us) (new' ++ new) where
  loads := by rw [AsyncModule.loads, List.filterMap_append, ← AsyncModule.loads,
    ← AsyncModule.loads, h.loads, h'.loads]; rfl
  upshots m := by
    rw [AsyncModule.upshots, List.filterMap_append, ← AsyncModule.upshots, ← AsyncModule.upshots,
      h.upshots, h'.upshots]
    split <;> rfl

/-! ## Runs without outside calls -/

namespace Machine

/-- One machine becomes another by steps alone. -/
inductive Steps : Machine ν → Machine ν → Prop where
  | refl {m : Machine ν} : Steps m m
  | cons {m m' : Machine ν} (h : Steps m.step m') : Steps m m'

variable {m m' m'' : Machine ν} {l l' : Loader ν} {task : Task ν} {tasks k : List (Task ν)}

theorem Steps.trans (h : Steps m m') (h' : Steps m' m'') : Steps m m'' := by
  induction h with
  | refl => exact h'
  | cons _ ih => exact .cons (ih h')

theorem Steps.reachable (h : Steps m m') (hm : m.Reachable) : m'.Reachable := by
  induction h with
  | refl => exact hm
  | cons _ ih => exact ih (hm.goes (.step _))

theorem Steps.advance (h : advance l task = (l', tasks)) :
    Steps ⟨l, task :: k⟩ ⟨l', tasks ++ k⟩ := by
  refine .cons ?_
  rw [step_of_cons rfl, h]
  exact .refl

theorem finish_steps (l : Loader ν) (frame : Option Frame) (o : Outcome) (ending : Ending ν)
    (k : List (Task ν)) :
    Steps ⟨l, .body frame (.finish o) ending :: k⟩
      ⟨(conclude l frame o ending).1, (conclude l frame o ending).2 ++ k⟩ := Steps.advance rfl

/-- An inert program comes to its end. -/
theorem inert_steps {reason : Option String} {n : Nat} {s : Script ν}
    (h : s.Inert reason n) (l : Loader ν) (frame : Option Frame) (ending : Ending ν)
    (k : List (Task ν)) :
    ∃ notes o, o.reason? = reason ∧ (∀ event ∈ notes, ∃ x, event = .note x) ∧
      Steps ⟨l, .body frame s ending :: k⟩
        ⟨{ l with values := l.values + n, journal := notes ++ l.journal },
          .body frame (.finish o) ending :: k⟩ := by
  induction h generalizing l with
  | @finish o ho => exact ⟨[], o, ho, by simp, .refl⟩
  | @make n payload next _ ih =>
    obtain ⟨notes, o, ho, hnotes, hsteps⟩ :=
      ih ⟨l.values, payload⟩ rfl (l.make payload).2
    refine ⟨notes, o, ho, hnotes, ?_⟩
    have hvalues : l.values + (n + 1) = l.values + 1 + n := by omega
    rw [hvalues]
    exact (Steps.advance rfl).trans hsteps
  | @note n x next _ ih =>
    obtain ⟨notes, o, ho, hnotes, hsteps⟩ := ih (l.record (.note x))
    refine ⟨notes ++ [.note x], o, ho, ?_, ?_⟩
    · exact List.forall_mem_append.mpr ⟨hnotes, List.forall_mem_singleton.mpr ⟨x, rfl⟩⟩
    · rw [List.append_assoc]
      exact (Steps.advance rfl).trans hsteps

end Machine
end AsyncModule
