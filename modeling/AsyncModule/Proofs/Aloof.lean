import AsyncModule.Proofs.Inert
import AsyncModule.Proofs.Programs
import AsyncModule.Proofs.Tame

/-!
# AsyncModule.Proofs.Aloof

Programs that leave the loader alone, and programs as a whole that are run while others wait
beneath them.

* `Script.Aloof`        — a program that does not call the loader, though it may look at it.
* `Machine.Works`       — steps that work off so much of the worklist.
* `Machine.aloof_works` — the program comes to its end, and has made values and taken notes.
* `Machine.Interposes`  — a program is run to its end before what lies beneath it goes on.
* `interposes_body`     — every program on top of the stack is.
-/

namespace AsyncModule

open Relation

variable {ν : Type}

/-- The program does not call the loader, and ends in a certain way whatever it sees. -/
inductive Script.Aloof (ends : Outcome → Prop) : Script ν → Prop where
  | finish {o : Outcome} (h : ends o) : Aloof ends (.finish o)
  | make {payload : Payload} {next : ModuleValue → Script ν}
      (h : ∀ v, v.payload = payload → Aloof ends (next v)) : Aloof ends (.make payload next)
  | look {next : View ν → Script ν} (h : ∀ view, Aloof ends (next view)) : Aloof ends (.look next)
  | note {n : ν} {next : Script ν} (h : Aloof ends next) : Aloof ends (.note n next)

theorem Script.Ends.aloof {ends : Outcome → Prop} {s : Script ν} (h : s.Ends ends) :
    s.Aloof ends := by
  induction h with
  | here h =>
    obtain ⟨o, rfl, ho⟩ := h
    exact .finish ho
  | make _ ih => exact .make ih
  | look _ ih => exact .look ih
  | note _ ih => exact .note ih

theorem Outcome.IsOk.reason?_eq_none {o : Outcome} (h : o.IsOk) : o.reason? = none := by
  cases o with
  | error _ => cases h
  | _ => rfl

/-- Some events are notes that programs have taken. -/
def AreNotes (events : List (Event ν)) : Prop := ∀ event ∈ events, ∃ n, event = .note n

theorem AreNotes.append {events events' : List (Event ν)} (h : AreNotes events)
    (h' : AreNotes events') : AreNotes (events ++ events') := List.forall_mem_append.mpr ⟨h, h'⟩

theorem AreNotes.loads {notes : List (Event ν)} (h : AreNotes notes) :
    AsyncModule.loads notes = [] := by
  refine List.filterMap_eq_nil_iff.mpr fun event hevent => ?_
  obtain ⟨n, rfl⟩ := h event hevent
  rfl

theorem AreNotes.loads_append {notes : List (Event ν)} (h : AreNotes notes) (j : List (Event ν)) :
    AsyncModule.loads (notes ++ j) = AsyncModule.loads j := by
  rw [AsyncModule.loads, List.filterMap_append, ← AsyncModule.loads, h.loads, List.nil_append]
  rfl

namespace Machine

variable {m m' m'' : Machine ν} {l l' : Loader ν} {ending : Ending ν} {rest : List (Task ν)}

/-! ## Working off the worklist -/

/-- The next step of the worklist is about to be processed. -/
def Processes (m : Machine ν) : Prop :=
  ∃ rest, m.stack = .draining :: rest ∧ m.loader.worklist ≠ []

/-- One machine becomes another by steps of its own, and so many steps of the worklist are
processed on the way. -/
inductive Works : Nat → Machine ν → Machine ν → Prop where
  | refl {m : Machine ν} : Works 0 m m
  | step {n : Nat} {m m' : Machine ν} (hnot : ¬ m.Processes) (h : Works n m.step m') : Works n m m'
  | process {n : Nat} {m m' : Machine ν} (hprocesses : m.Processes) (h : Works n m.step m') :
      Works (n + 1) m m'

theorem Works.trans {n n' : Nat} (h : Works n m m') (h' : Works n' m' m'') :
    Works (n + n') m m'' := by
  induction h with
  | refl => rwa [Nat.zero_add]
  | step hnot _ ih => exact .step hnot (ih h')
  | @process n _ _ hprocesses _ ih =>
    rw [Nat.succ_add]
    exact .process hprocesses (ih h')

theorem Works.steps {n : Nat} (h : Works n m m') : Steps m m' := by
  induction h with
  | refl => exact .refl
  | step _ _ ih => exact .cons ih
  | process _ _ ih => exact .cons ih

/-- Whatever a task is but the working off itself, nothing is processed when it is advanced. -/
theorem Works.advance {n : Nat} {task : Task ν} {tasks k : List (Task ν)}
    (h : advance l task = (l', tasks)) (htask : task ≠ .draining)
    (hrest : Works n ⟨l', tasks ++ k⟩ m) : Works n ⟨l, task :: k⟩ m := by
  refine .step ?_ ?_
  · rintro ⟨rest, hstack, _⟩
    exact htask (List.cons.inj hstack).1
  · rwa [step_of_cons rfl, h]

/-- A program that leaves the loader alone comes to its end, and nothing is processed before. -/
theorem aloof_works {ends : Outcome → Prop} {s : Script ν} (h : s.Aloof ends) (l : Loader ν)
    (frame : Option Frame) (ending : Ending ν) :
    ∃ values notes o, ends o ∧ AreNotes notes ∧ ∀ k,
      Works 0 ⟨l, .body frame s ending :: k⟩
        ⟨{ l with values, journal := notes ++ l.journal },
          .body frame (.finish o) ending :: k⟩ := by
  induction h generalizing l with
  | @finish o ho => exact ⟨l.values, [], o, ho, by simp [AreNotes], fun _ => .refl⟩
  | @make payload next _ ih =>
    obtain ⟨values, notes, o, ho, hnotes, hworks⟩ := ih ⟨l.values, payload⟩ rfl (l.make payload).2
    exact ⟨values, notes, o, ho, hnotes, fun k => .advance rfl (by simp) (hworks k)⟩
  | @look next _ ih =>
    obtain ⟨values, notes, o, ho, hnotes, hworks⟩ := ih (l.view frame) l
    exact ⟨values, notes, o, ho, hnotes, fun k => .advance rfl (by simp) (hworks k)⟩
  | @note n next _ ih =>
    obtain ⟨values, notes, o, ho, hnotes, hworks⟩ := ih (l.record (.note n))
    refine ⟨values, notes ++ [.note n], o, ho, ?_, fun k => ?_⟩
    · exact hnotes.append (List.forall_mem_singleton.mpr ⟨n, rfl⟩)
    · rw [List.append_assoc]
      exact .advance rfl (by simp) (hworks k)

theorem aloof_steps {ends : Outcome → Prop} {s : Script ν} (h : s.Aloof ends) (l : Loader ν)
    (frame : Option Frame) (ending : Ending ν) (k : List (Task ν)) :
    ∃ values notes o, ends o ∧ AreNotes notes ∧
      Steps ⟨l, .body frame s ending :: k⟩
        ⟨{ l with values, journal := notes ++ l.journal },
          .body frame (.finish o) ending :: k⟩ := by
  obtain ⟨values, notes, o, ho, hnotes, hworks⟩ := aloof_works h l frame ending
  exact ⟨values, notes, o, ho, hnotes, (hworks k).steps⟩

/-! ## Programs with others beneath them -/

/-- Somewhere above some tasks a program is running, known by what its end means. -/
def RunsAbove (m : Machine ν) (ending : Ending ν) (rest : List (Task ν)) : Prop :=
  ∃ above task frame, m.stack = above ++ task :: rest ∧ task.program? = some (frame, ending)

/-- A program is about to end. -/
def AtEnd (m : Machine ν) (ending : Ending ν) (rest : List (Task ν)) : Prop :=
  ∃ frame o, m.stack = .body frame (.finish o) ending :: rest

theorem RunsAbove.goes (h : m.RunsAbove ending rest) (hend : ¬ m.AtEnd ending rest)
    (hgo : m.Goes m') : m'.RunsAbove ending rest := by
  obtain ⟨above, task, frame, hstack, htask⟩ := h
  cases hgo with
  | step =>
    cases above with
    | nil =>
      -- The program is on top, and does not end.
      have hends : task.ends = false := by
        cases hends : task.ends with
        | false => rfl
        | true =>
          unfold Task.ends at hends
          split at hends
          · cases htask
            exact absurd ⟨_, _, hstack⟩ hend
          · cases hends
      obtain ⟨tasks, task', frame', htasks, htask', _⟩ :=
        continued_advance (l := m.loader) hends htask
      refine ⟨tasks, task', frame', ?_, htask'⟩
      rw [step_of_cons (by rw [hstack]; rfl), htasks, List.append_assoc]
      rfl
    | cons first above =>
      refine ⟨(advance m.loader first).2 ++ above, task, frame, ?_, htask⟩
      rw [step_of_cons (by rw [hstack]; rfl)]
      exact (List.append_assoc ..).symm
  | pass _ => exact ⟨above, task, frame, hstack, htask⟩
  | call _ hs =>
    rw [hs] at hstack
    simp at hstack

/-- A program runs on as long as it has not been at its end. -/
theorem RunsAbove.later (h : m.RunsAbove ending rest) (hrun : ReflTransGen Goes m m') :
    m'.RunsAbove ending rest ∨
      ∃ m₂, ReflTransGen Goes m m₂ ∧ ReflTransGen Goes m₂ m' ∧ m₂.AtEnd ending rest := by
  induction hrun with
  | refl => exact .inl h
  | @tail m₁ m₂ hbefore hgo ih =>
    rcases ih with hruns | ⟨m₀, hbefore, hafter, hend⟩
    · by_cases hend : m₁.AtEnd ending rest
      · exact .inr ⟨m₁, hbefore, .single hgo, hend⟩
      · exact .inl (hruns.goes hend hgo)
    · exact .inr ⟨m₀, hbefore, hafter.tail hgo, hend⟩

/-- From one moment the machine comes to another at which a program is on top of the stack; and
whenever no more is left there than lies beneath it, it has been run to its end in between. -/
structure Interposes (m m₁ : Machine ν) (s : Script ν) (rest : List (Task ν)) : Prop where
  starts : Steps m m₁
  ends : ∃ frame ending, m₁.stack = .body frame s ending :: rest ∧
    ∀ m', ReflTransGen Goes m₁ m' → m'.stack.length ≤ rest.length →
      ∃ m₂, ReflTransGen Goes m₁ m₂ ∧ ReflTransGen Goes m₂ m' ∧ m₂.AtEnd ending rest

theorem interposes_body {s : Script ν} {frame : Option Frame}
    (h : Steps m ⟨l, .body frame s ending :: rest⟩) :
    m.Interposes ⟨l, .body frame s ending :: rest⟩ s rest where
  starts := h
  ends := by
    refine ⟨frame, ending, rfl, ?_⟩
    intro m' hrun hlength
    have habove : RunsAbove ⟨l, .body frame s ending :: rest⟩ ending rest :=
      ⟨[], _, frame, rfl, rfl⟩
    refine (habove.later hrun).resolve_left ?_
    rintro ⟨above, task, frame', hstack, _⟩
    rw [hstack] at hlength
    simp only [List.length_append, List.length_cons] at hlength
    omega

end Machine
end AsyncModule
