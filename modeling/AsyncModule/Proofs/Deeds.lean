import AsyncModule.Proofs.Runs

/-!
# AsyncModule.Proofs.Deeds

What a step does that does not tend to what is under way. It makes a request; it sets up a context,
or fails to; it asks for a main resource, starts its script or has dealt with it. Whoever asks what
becomes of contexts has these cases to go through, and no other.

* `Deed`              — what a task makes of a loader by such a step.
* `Deals`             — what of this is to deal with a main resource.
* `deed_of_not_tends` — a task tends, or it does one of these.
-/

namespace AsyncModule

variable {ν : Type}

/-- The main resource, if there is nothing to run in what has been fetched of it. -/
def Fetched.idle? (t : Target) : Fetched (Script ν) → Option Target
  | .code _ =>
    match Context.ofUrl t.url with
    | .ok _ => none
    | .error _ => some t
  | _ => some t

/-- The main resource whose fetch is taken up next, if there is nothing to run in it. -/
def Loader.idleMain? (l : Loader ν) : Option Target :=
  match l.fetches.take with
  | (some (f, result), _) =>
    match f.role with
    | .main => result.idle? f.target
    | .module => none
  | (none, _) => none

namespace Task

/-- The main resource that a task is about to have dealt with. -/
def finishing? (l : Loader ν) : Task ν → Option Target
  | .body _ (.finish _) (.main t) => some t
  | .body _ (.turn _) _ => l.idleMain?
  | .settling _ _ _ => l.idleMain?
  | _ => none

/-- Whether a task is about to set up a context. -/
def setsUp (l : Loader ν) : Task ν → Bool
  | .body _ (.configure base _) _ => (l.configure base).1.toBool
  | .body _ (.bootstrap entry main _) _ => (l.boot entry main).1.toBool
  | _ => false

end Task

/-- Whether an event tells of no request and no load. -/
def Event.IsNotice : Event ν → Prop
  | .arrived _ _ => True
  | .report _ => True
  | _ => False

open Loader in
/-- One loader has noted more than another, and may have taken up a fetch. -/
structure Notes (l l' : Loader ν) : Prop where
  resolver : l'.resolver = l.resolver
  registry : l'.registry = l.registry
  requests : l'.requests = l.requests
  bootstrap : l'.bootstrap = l.bootstrap
  worklist : l'.worklist = l.worklist
  journal : ∃ events, l'.journal = events ++ l.journal ∧ ∀ e ∈ events, e.IsNotice

theorem Notes.refl (l : Loader ν) : Notes l l :=
  ⟨rfl, rfl, rfl, rfl, rfl, [], rfl, by simp⟩

theorem Notes.record {l l' : Loader ν} (h : Notes l l') {e : Event ν} (he : e.IsNotice) :
    Notes l (l'.record e) := by
  obtain ⟨events, hj, hall⟩ := h.journal
  refine ⟨h.resolver, h.registry, h.requests, h.bootstrap, h.worklist, e :: events, ?_, ?_⟩
  · show e :: l'.journal = _
    rw [hj, List.cons_append]
  · exact List.forall_mem_cons.mpr ⟨he, hall⟩

theorem Notes.fetches {l l' : Loader ν} (h : Notes l l') (fs : Fetches ν) :
    Notes l { l' with fetches := fs } :=
  ⟨h.resolver, h.registry, h.requests, h.bootstrap, h.worklist, h.journal⟩

open Loader in
/-- What a step makes of a loader that does not tend; with whether it sets up a context, and the
main resource that it has dealt with. -/
inductive Deed (l : Loader ν) : Bool → Option Target → Loader ν → Prop where
  | submit {l₁ : Loader ν} {frame : Option Frame} {dependencies : List String}
      {callback : List ModuleValue → Script ν} {errback : Option (LoadError → Script ν)}
      {definitionUrl : Option String} (hl : Notes l l₁) :
      Deed l false none (l₁.submit frame dependencies callback errback definitionUrl)
  /-- A context is not set up, after all. -/
  | refuse {l' : Loader ν} (hl : l' = l ∨ ∃ base, l' = l.setDefaultBase base) :
      Deed l false none l'
  | establish (base : Url) (ctx : Context) :
      Deed l true none ((l.setDefaultBase base).afterEstablishing (l.bootstrap.establish ctx)).2
  /-- A main resource is asked for. -/
  | begin (base : Url) (root : Context) (t : Target) :
      Deed l true none (load { l.setDefaultBase base with
        bootstrap := l.bootstrap.beginEstablishing root } t .main)
  /-- The script of a main resource is started. -/
  | enter {l₁ : Loader ν} (t : Target) (hl : Notes l l₁) :
      Deed l false none (l₁.record (.entered t .main))
  | finish {l₁ : Loader ν} (t : Target) (hl : Notes l l₁) :
      Deed l false (some t) (l₁.finishMain t)

/-- What it makes of a loader to deal with a main resource, with what has been dealt with by then. -/
inductive Deals (l : Loader ν) : Option Target → Loader ν → Prop where
  | enter {l₁ : Loader ν} (t : Target) (hl : Notes l l₁) :
      Deals l none (l₁.record (.entered t .main))
  | finish {l₁ : Loader ν} (t : Target) (hl : Notes l l₁) :
      Deals l (some t) (l₁.finishMain t)

theorem Deals.deed {l l' : Loader ν} {finished : Option Target} (h : Deals l finished l') :
    Deed l false finished l' := by
  cases h with
  | enter t hl => exact .enter t hl
  | finish t hl => exact .finish t hl

namespace Machine

variable {l l₁ : Loader ν} {frame : Option Frame} {ending : Ending ν}

theorem fst_afterChange (next : Option LoadError → Script ν)
    (out : Except LoadError Bool × Loader ν) :
    (afterChange frame next ending out).1 = out.2 := by
  obtain ⟨result, l'⟩ := out
  cases result with
  | error e => rfl
  | ok drained => cases drained <;> rfl

theorem deed_configure (l : Loader ν) (base : String) :
    Deed l (l.configure base).1.toBool none (l.configure base).2 := by
  unfold Loader.configure
  split
  · exact .refuse (.inl rfl)
  · split
    · exact .refuse (.inl rfl)
    · exact .establish _ _

theorem deed_boot (l : Loader ν) (entry : String) (main : Option String) :
    Deed l (l.boot entry main).1.toBool none (l.boot entry main).2 := by
  unfold Loader.boot
  split
  · exact .refuse (.inl rfl)
  · dsimp only
    split
    · exact .establish _ _
    · split
      · exact .refuse (.inr ⟨_, rfl⟩)
      · split
        · exact .refuse (.inr ⟨_, rfl⟩)
        · split
          · exact .refuse (.inr ⟨_, rfl⟩)
          · exact .begin _ _ _

theorem deals_concludeMain (l : Loader ν) (t : Target) (o : Outcome) :
    Deals l (some t) (concludeMain l t o) := by
  cases o with
  | error reason => exact .finish t ((Notes.refl l).record trivial)
  | done => exact .finish t (.refl l)
  | value v => exact .finish t (.refl l)

theorem deals_completeMain (hl : Notes l l₁) (t : Target) (result : Fetched (Script ν)) :
    Deals l (result.idle? t) (completeMain l₁ t result).1 := by
  unfold completeMain
  cases result with
  | failed e => exact .finish t (hl.record trivial)
  | markup fragment script => exact .finish t (hl.record trivial)
  | code s =>
    simp only [Fetched.idle?]
    cases hctx : Context.ofUrl t.url with
    | error e => exact .finish t (hl.record trivial)
    | ok ctx => exact .enter t hl

theorem deals_takeUp (hmain : l.takesMain = true) :
    Deals l l.idleMain? (takeUp l).2.1 := by
  unfold Loader.takesMain at hmain
  unfold Loader.idleMain? takeUp
  split at hmain
  · rename_i f result fs htake
    have hrole : f.role = .main := by simpa using hmain
    have hnotes : Notes l (Loader.record { l with fetches := fs } (.arrived f.target .main)) :=
      ((Notes.refl l).fetches fs).record trivial
    simp only [htake, complete, hrole]
    exact deals_completeMain hnotes f.target result
  · cases hmain

theorem fst_settling (l : Loader ν) (frame : Option Frame) (next : Bool → Script ν)
    (ending : Ending ν) : (advance l (.settling frame next ending)).1 = (takeUp l).2.1 := by
  simp only [advance]
  split
  · rename_i htake
    rw [htake]
  · rename_i htake
    rw [htake]

/-- A task tends to what is under way, or it does one of these. -/
theorem deed_of_not_tends {task : Task ν} (h : task.tends l = false) :
    Deed l (task.setsUp l) (task.finishing? l) (advance l task).1 := by
  cases task with
  | body frame script ending =>
    cases script with
    | finish o =>
      cases ending with
      | main t => exact (deals_concludeMain l t o).deed
      | _ => cases h
    | require dependencies callback errback next => exact .submit (.refl l)
    | define dependencies factory errback next =>
      simp only [advance, perform]
      unfold Loader.bindDefinition
      split
      · exact .submit (.refl l)
      · exact .submit ((Notes.refl l).record trivial)
      · exact .submit (.refl l)
    | configure base next =>
      simp only [advance, perform, fst_afterChange]
      exact deed_configure l base
    | bootstrap entry main next =>
      simp only [advance, perform, fst_afterChange]
      exact deed_boot l entry main
    | turn next => exact (deals_takeUp (by simpa [Task.tends] using h)).deed
    | _ => cases h
  | settling frame next ending =>
    rw [fst_settling]
    exact (deals_takeUp (by simpa [Task.tends] using h)).deed
  | dispatch => cases h
  | draining => cases h

/-- Whoever tends sets up no context and deals with no main resource. -/
theorem of_tends {task : Task ν} (h : task.tends l = true) :
    task.setsUp l = false ∧ task.finishing? l = none := by
  have hidle : l.takesMain = false → l.idleMain? = none := by
    intro hmain
    unfold Loader.takesMain at hmain
    unfold Loader.idleMain?
    cases htake : l.fetches.take with
    | mk found fs =>
      rw [htake] at hmain
      cases found with
      | none => rfl
      | some p =>
        obtain ⟨f, result⟩ := p
        have hmain : (f.role == .main) = false := hmain
        cases hrole : f.role with
        | module => simp only [hrole]
        | main =>
          rw [hrole] at hmain
          cases hmain
  cases task with
  | body frame script ending =>
    cases script with
    | finish o =>
      cases ending with
      | main t => cases h
      | _ => exact ⟨rfl, rfl⟩
    | turn next => exact ⟨rfl, hidle (by simpa [Task.tends] using h)⟩
    | configure => cases h
    | bootstrap => cases h
    | _ => exact ⟨rfl, rfl⟩
  | settling frame next ending => exact ⟨rfl, hidle (by simpa [Task.tends] using h)⟩
  | dispatch => exact ⟨rfl, rfl⟩
  | draining => exact ⟨rfl, rfl⟩

end Machine
end AsyncModule
