import AsyncModule.Proofs.Resolved
import AsyncModule.Proofs.Runs

/-!
# AsyncModule.Proofs.SetUp

Calls that set up a context, and what is left when they fail. The stages of such a call fail in
their order: what cannot be read is noticed before anything is changed, and nothing can fail once
a main resource has been found. In between, finding it takes the entry point as the default base.

* `failed_set_up`                — a failing call changes nothing, or it leaves the directory of an
  entry point as the default base.
* `failed_bootstrap_moves_base`  — the latter does happen.
-/

namespace AsyncModule

variable {ν : Type}

/-- A call that sets up a context. -/
inductive SetUp (ν : Type) where
  | configure (base : String)
  | requireFrom (base : String) (dependencies : List String)
      (callback : List ModuleValue → Script ν)
  | bootstrap (entry : String) (main : Option String)

namespace SetUp

def script : SetUp ν → (Option LoadError → Script ν) → Script ν
  | configure base, next => .configure base next
  | requireFrom base dependencies callback, next => .requireFrom base dependencies callback next
  | bootstrap entry main, next => .bootstrap entry main next

/-- What a call answers, and the loader after it has set up a context or failed to. -/
def answer (l : Loader ν) : SetUp ν → Except LoadError Bool × Loader ν
  | configure base => l.configure base
  | requireFrom base _ _ => l.configure base
  | bootstrap entry main => l.boot entry main

def error? (l : Loader ν) (call : SetUp ν) : Option LoadError :=
  match (call.answer l).1 with
  | .error e => some e
  | .ok _ => none

theorem answer_of_error {l : Loader ν} {call : SetUp ν} {e : LoadError}
    (h : call.error? l = some e) : ∃ l', call.answer l = (.error e, l') := by
  unfold error? at h
  split at h
  · rename_i hfst
    cases h
    exact ⟨(call.answer l).2, Prod.ext hfst rfl⟩
  · cases h

end SetUp

namespace Loader

variable {l l' : Loader ν} {e : LoadError}

theorem configure_eq_error {base : String} (h : l.configure base = (.error e, l')) : l' = l := by
  unfold configure at h
  split at h
  · cases h
    rfl
  · split at h
    · cases h
      rfl
    · cases h

/-- Finding the main resource is the last stage that can fail: what is found has a root, so it
names a directory, and that has a context. -/
theorem boot_eq_error {entry : String} {main : Option String}
    (h : l.boot entry main = (.error e, l')) :
    (Context.parse entry = .error e ∧ l' = l) ∨
      ∃ specifier ctx, main = some specifier ∧ Context.parse entry = .ok ctx ∧
        l' = l.setDefaultBase ctx.base ∧ l'.resolver.resolve specifier ctx = .error e := by
  unfold boot at h
  split at h
  · rename_i hparse
    cases h
    exact .inl ⟨hparse, rfl⟩
  · rename_i ctx hparse
    dsimp only at h
    split at h
    · cases h
    · rename_i specifier
      split at h
      · rename_i hresolve
        cases h
        exact .inr ⟨specifier, ctx, rfl, hparse, rfl, hresolve⟩
      · rename_i t hresolve
        have hrooted := Resolver.rooted_of_resolve hresolve
        split at h
        · rename_i hdirectory
          rw [Url.directory_eq, hrooted] at hdirectory
          cases hdirectory
        · rename_i directory hdirectory
          obtain ⟨root, hroot⟩ := Context.exists_ofUrl (Url.rooted_of_directory hdirectory).2
          rw [hroot] at h
          cases h

end Loader

/-- What a call leaves when it fails. -/
theorem SetUp.answer_eq_error {l l' : Loader ν} {call : SetUp ν} {e : LoadError}
    (h : call.answer l = (.error e, l')) :
    (l' = l ∧ ∀ entry main, call = .bootstrap entry (some main) →
      Context.parse entry = .error e) ∨
    ∃ entry main ctx, call = .bootstrap entry (some main) ∧ Context.parse entry = .ok ctx ∧
      (l.setDefaultBase ctx.base).resolver.resolve main ctx = .error e ∧
      l' = l.setDefaultBase ctx.base := by
  cases call with
  | configure base =>
    have h : l.configure base = (.error e, l') := h
    exact .inl ⟨Loader.configure_eq_error h, fun _ _ hcall => by cases hcall⟩
  | requireFrom base dependencies callback =>
    have h : l.configure base = (.error e, l') := h
    exact .inl ⟨Loader.configure_eq_error h, fun _ _ hcall => by cases hcall⟩
  | bootstrap entry main =>
    have h : l.boot entry main = (.error e, l') := h
    rcases Loader.boot_eq_error h with ⟨hparse, rfl⟩ | ⟨specifier, ctx, rfl, hparse, rfl, hresolve⟩
    · exact .inl ⟨rfl, fun _ _ hcall => by cases hcall; exact hparse⟩
    · exact .inr ⟨entry, specifier, ctx, rfl, hparse, hresolve, rfl⟩

namespace Machine

theorem step_setUp {m : Machine ν} {frame : Option Frame} {ending : Ending ν}
    {rest : List (Task ν)} {call : SetUp ν} {next : Option LoadError → Script ν} {e : LoadError}
    {l : Loader ν} (htop : m.stack = .body frame (call.script next) ending :: rest)
    (hcall : call.answer m.loader = (.error e, l)) :
    m.step = ⟨l, .body frame (next (some e)) ending :: rest⟩ := by
  rw [step_of_cons htop]
  cases call with
  | configure base =>
    have hcall : m.loader.configure base = (.error e, l) := hcall
    simp [SetUp.script, advance, perform, hcall, afterChange]
  | requireFrom base dependencies callback =>
    have hcall : m.loader.configure base = (.error e, l) := hcall
    simp [SetUp.script, Script.requireFrom, advance, perform, hcall, afterChange]
  | bootstrap entry main =>
    have hcall : m.loader.boot entry main = (.error e, l) := hcall
    simp [SetUp.script, advance, perform, hcall, afterChange]

end Machine

/-- Whatever the state of a loader: when a call that sets up a context fails, the caller goes on
with the error, no other program runs, and the loader is as it was. The one exception is a call
with a main resource that cannot be found from an entry point that can be read: the directory of
the entry point is left as the default base, and nothing else is changed. -/
theorem failed_set_up {m : Machine ν} {frame : Option Frame} {ending : Ending ν}
    {rest : List (Task ν)} {call : SetUp ν} {next : Option LoadError → Script ν} {e : LoadError}
    (htop : m.stack = .body frame (call.script next) ending :: rest)
    (hcall : call.error? m.loader = some e) :
    (m.step = ⟨m.loader, .body frame (next (some e)) ending :: rest⟩ ∧
      ∀ entry main, call = .bootstrap entry (some main) → Context.parse entry = .error e) ∨
    ∃ entry main ctx, call = .bootstrap entry (some main) ∧ Context.parse entry = .ok ctx ∧
      (m.loader.setDefaultBase ctx.base).resolver.resolve main ctx = .error e ∧
      m.step = ⟨m.loader.setDefaultBase ctx.base, .body frame (next (some e)) ending :: rest⟩ := by
  obtain ⟨l, hanswer⟩ := SetUp.answer_of_error hcall
  have hstep := Machine.step_setUp htop hanswer
  rcases SetUp.answer_eq_error hanswer with
    ⟨rfl, hparse⟩ | ⟨entry, main, ctx, hboot, hparse, hresolve, rfl⟩
  · exact .inl ⟨hstep, hparse⟩
  · exact .inr ⟨entry, main, ctx, hboot, hparse, hresolve, hstep⟩

/-- A loader that is given an entry point, and no name for the main resource. -/
def misguided : Machine Unit :=
  Machine.start (Loader.new {} fun _ => none)
    ((SetUp.bootstrap "a:/y/" (some "")).script fun _ => .finish .done)

theorem failed_set_up_misguided :
    ∃ ctx, Context.parse "a:/y/" = .ok ctx ∧
      misguided.step.loader = misguided.loader.setDefaultBase ctx.base := by
  have hfails : (SetUp.bootstrap "a:/y/" (some "")).error? misguided.loader =
      some (.unresolved "" "empty specifier") := by decide +kernel
  rcases failed_set_up rfl hfails with ⟨_, hparse⟩ | ⟨entry, main, ctx, hcall, hparse, _, hstep⟩
  · have hreads : (Context.parse "a:/y/").toBool = true := by decide +kernel
    rw [hparse _ _ rfl] at hreads
    cases hreads
  · cases hcall
    exact ⟨ctx, hparse, by rw [hstep]⟩

/-- What fails has changed the default base, and so what bare specifiers name. -/
theorem failed_bootstrap_moves_base :
    misguided.Reachable ∧
    (SetUp.bootstrap "a:/y/" (some "")).error? misguided.loader =
      some (.unresolved "" "empty specifier") ∧
    (misguided.loader.view none).baseUrl = none ∧
    (misguided.step.loader.view none).baseUrl.map Url.toString = some "a:/y/" :=
  ⟨Machine.reachable_start _ _ _, by decide +kernel, by decide +kernel, by decide +kernel⟩

end AsyncModule
