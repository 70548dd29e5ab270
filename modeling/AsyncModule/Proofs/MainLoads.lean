import AsyncModule.Proofs.Foretold
import AsyncModule.Proofs.SetUp

/-!
# AsyncModule.Proofs.MainLoads

What main resources add to the loads. A module is loaded when its record is made and never again,
but a main resource has no record: it is loaded whenever it is asked for, whether or not it has been
loaded before, and a module of the same URL is loaded besides. So the loads of a URL are told by its
record and by how often it was asked for as a main resource.

* `Machine.Asked`       — a machine that can be reached, with the main resources asked for.
* `mainTargets_step`    — what one step adds to them.
* `loads_counted`       — the whole statement.
* `main_loaded_twice`   — so a URL may be loaded twice.
-/

namespace AsyncModule

variable {ν : Type}

/-- The main resources among what has been loaded, newest first. -/
def mainTargets (ps : List (Target × LoadRole)) : List Target :=
  ps.filterMap fun p => if p.2 = .main then some p.1 else none

/-- How often a URL has been loaded, as a module or as a main resource. -/
def timesLoaded (j : List (Event ν)) (url : String) : Nat := (loads j).countP (·.1.key = url)

theorem mainTargets_module (t : Target) (ps : List (Target × LoadRole)) :
    mainTargets ((t, .module) :: ps) = mainTargets ps := rfl

theorem countP_loads (ps : List (Target × LoadRole)) (url : String) :
    ps.countP (·.1.key = url) =
      (modulesOf ps).count url + ((mainTargets ps).map Target.key).count url := by
  induction ps with
  | nil => rfl
  | cons p ps ih =>
    obtain ⟨t, role⟩ := p
    rw [List.countP_cons, ih]
    cases role with
    | module =>
      have hmodules : modulesOf ((t, .module) :: ps) = t.key :: modulesOf ps := rfl
      rw [hmodules, mainTargets_module, List.count_cons]
      simp only [beq_iff_eq, decide_eq_true_eq]
      omega
    | main =>
      have hmodules : modulesOf ((t, .main) :: ps) = modulesOf ps := rfl
      have hmains : mainTargets ((t, .main) :: ps) = t :: mainTargets ps := rfl
      rw [hmodules, hmains, List.map_cons, List.count_cons]
      simp only [beq_iff_eq, decide_eq_true_eq]
      omega

/-! ## Asking for a main resource -/

namespace Loader

variable {l l' : Loader ν}

/-- The main resource that a specifier names to whoever starts from an entry point. -/
def mainOf (l : Loader ν) (entry main : String) : Except LoadError Target := do
  let ctx ← Context.parse entry
  (l.setDefaultBase ctx.base).resolver.resolve main ctx

/-- Starting with a main resource succeeds if there is one of that name, and asks for it. -/
theorem boot_main (l : Loader ν) (entry main : String) :
    ∃ l', l.boot entry (some main) = ((l.mainOf entry main).map fun _ => false, l') ∧
      loads l'.journal = (l.mainOf entry main).toOption.toList.map (·, .main) ++ loads l.journal := by
  unfold mainOf boot
  cases hctx : Context.parse entry with
  | error e => exact ⟨l, rfl, rfl⟩
  | ok ctx =>
    dsimp only [bind, Except.bind]
    cases hresolve : (l.setDefaultBase ctx.base).resolver.resolve main ctx with
    | error e => exact ⟨_, rfl, rfl⟩
    | ok t =>
      dsimp only
      -- What has been found has a root, so nothing can go wrong any more.
      have hrooted := Resolver.rooted_of_resolve hresolve
      cases hdirectory : t.url.directory with
      | error e =>
        rw [Url.directory_eq, hrooted] at hdirectory
        cases hdirectory
      | ok directory =>
        obtain ⟨root, hroot⟩ := Context.exists_ofUrl (Url.rooted_of_directory hdirectory).2
        simp only [hroot]
        exact ⟨_, rfl, rfl⟩

theorem mainTargets_afterEstablishing (l : Loader ν) (change : Bool × Bootstrap) :
    mainTargets (loads (l.afterEstablishing change).2.journal) = mainTargets (loads l.journal) :=
  (keptByLinking_loads mainTargets_module _).afterEstablishing (fun _ h => h) rfl change

theorem mainTargets_finishMain (l : Loader ν) (t : Target) :
    mainTargets (loads (l.finishMain t).journal) = mainTargets (loads l.journal) :=
  (keptByLinking_loads mainTargets_module _).finishMain (fun _ h => h) rfl t

theorem mainTargets_boot_none (l : Loader ν) (entry : String) :
    mainTargets (loads (l.boot entry none).2.journal) = mainTargets (loads l.journal) := by
  unfold boot
  cases Context.parse entry with
  | error e => rfl
  | ok ctx => exact mainTargets_afterEstablishing (l.setDefaultBase ctx.base) _

theorem mainTargets_configure (l : Loader ν) (base : String) :
    mainTargets (loads (l.configure base).2.journal) = mainTargets (loads l.journal) := by
  cases hout : l.configure base with
  | mk result l' =>
    cases result with
    | error e => rw [configure_eq_error hout]
    | ok drained =>
      obtain ⟨url, ctx, _, _, rfl⟩ := configure_eq_ok hout
      exact mainTargets_afterEstablishing (l.setDefaultBase url) _

/-- A step that sets up no context asks for no main resource. -/
theorem mainTargets_of_deed {finished : Option Target} (h : Deed l false finished l') :
    mainTargets (loads l'.journal) = mainTargets (loads l.journal) := by
  cases h with
  | @submit l₁ _ _ _ _ _ hl =>
    rw [← loads_of_notes hl]
    exact (keptByLinking_loads mainTargets_module _).submit (fun _ h => h) (fun _ h => h) rfl
  | refuse hl => rcases hl with rfl | ⟨base, rfl⟩ <;> rfl
  | @enter l₁ t hl =>
    show mainTargets (loads l₁.journal) = _
    rw [loads_of_notes hl]
  | finish t hl => rw [mainTargets_finishMain, loads_of_notes hl]

end Loader

/-- The main resource that a task is about to ask for. -/
def Task.asksFor? (l : Loader ν) : Task ν → Option Target
  | .body _ (.bootstrap entry (some main) _) _ => (l.mainOf entry main).toOption
  | _ => none

namespace Machine

variable {m : Machine ν} {mains : List Target}

/-- The main resource that the next step asks for. -/
def asksFor? (m : Machine ν) : Option Target := m.stack.head?.bind (Task.asksFor? m.loader)

theorem mainTargets_advance {l : Loader ν} {task : Task ν} (ht : task.tends l = false) :
    mainTargets (loads (advance l task).1.journal) =
      (task.asksFor? l).toList ++ mainTargets (loads l.journal) := by
  have hdeed := deed_of_not_tends ht
  cases task with
  | body frame script ending =>
    cases script with
    | configure base next =>
      simp only [advance, perform, fst_afterChange]
      exact Loader.mainTargets_configure l base
    | bootstrap entry main next =>
      simp only [advance, perform, fst_afterChange]
      cases main with
      | none => exact Loader.mainTargets_boot_none l entry
      | some main =>
        obtain ⟨l', hboot, hloads⟩ := Loader.boot_main l entry main
        rw [hboot, hloads]
        simp only [Task.asksFor?]
        cases (l.mainOf entry main).toOption <;> rfl
    | _ => exact Loader.mainTargets_of_deed hdeed
  | _ => exact Loader.mainTargets_of_deed hdeed

theorem mainTargets_step (h : m.Reachable) :
    mainTargets (loads m.step.loader.journal) =
      m.asksFor?.toList ++ mainTargets (loads m.loader.journal) := by
  cases hstack : m.stack with
  | nil =>
    unfold asksFor? step
    rw [hstack]
    rfl
  | cons task rest =>
    have hasks : m.asksFor? = task.asksFor? m.loader := by simp [asksFor?, hstack]
    cases ht : task.tends m.loader with
    | false =>
      rw [step_of_cons hstack, hasks]
      exact mainTargets_advance ht
    | true =>
      have hnone : task.asksFor? m.loader = none := by
        unfold Task.asksFor?
        split
        · cases ht
        · rfl
      rw [loads_of_tends h hstack ht, hasks, hnone]
      rfl

/-- A machine that can be reached, with the main resources asked for on the way, newest first. -/
inductive Asked : List Target → Machine ν → Prop where
  | start (config : Config) (resources : Target → Option (Fetched (Script ν))) (script : Script ν) :
      Asked [] (start (Loader.new config resources) script)
  | configured {config : Config} {resources : Target → Option (Fetched (Script ν))} {l : Loader ν}
      (hl : Loader.ofConfig config resources = .ok l) (hmain : config.main = none)
      (script : Script ν) : Asked [] (Machine.start l script)
  | booted {config : Config} {resources : Target → Option (Fetched (Script ν))} {l : Loader ν}
      {base main : String} {entry : Url} {t : Target}
      (hl : Loader.ofConfig config resources = .ok l) (hbase : config.baseUrl = some base)
      (hmain : config.main = some main) (hentry : Url.asDirectory base = .ok entry)
      (ht : (Loader.new config resources).mainOf entry.toString main = .ok t)
      (script : Script ν) : Asked [t] (Machine.start l script)
  | step {mains : List Target} {m : Machine ν} (h : Asked mains m) :
      Asked (m.asksFor?.toList ++ mains) m.step
  | pass {mains : List Target} {m : Machine ν} (h : Asked mains m) {fetches : Fetches ν}
      (hagree : m.loader.fetches.Agree fetches) :
      Asked mains { m with loader := { m.loader with fetches } }
  | call {mains : List Target} {m : Machine ν} (h : Asked mains m) (script : Script ν)
      (hs : m.stack = []) : Asked mains { m with stack := [.body none script .plain] }

theorem Asked.reachable (h : m.Asked mains) : m.Reachable := by
  induction h with
  | start config resources script => exact reachable_start config resources script
  | configured hl _ script => exact ⟨_, ⟨_, _, _, script, .inr hl, rfl⟩, .refl⟩
  | booted hl _ _ _ _ script => exact ⟨_, ⟨_, _, _, script, .inr hl, rfl⟩, .refl⟩
  | step _ ih => exact ih.goes (.step _)
  | pass _ hagree ih => exact ih.goes (.pass _ hagree)
  | call _ script hs ih => exact ih.goes (.call script hs)

theorem Asked.mainTargets_eq (h : m.Asked mains) :
    mainTargets (loads m.loader.journal) = mains := by
  induction h with
  | start config resources script => rfl
  | @configured config resources l hl hmain script =>
    show mainTargets (loads l.journal) = []
    rcases Loader.ofConfig_eq_ok hl with
      ⟨_, _, rfl⟩ | ⟨base, drained, _, _, hconfigure⟩ | ⟨_, _, _, _, _, hmain', _⟩
    · rfl
    · have hsame := Loader.mainTargets_configure (Loader.new config resources) base
      rwa [hconfigure] at hsame
    · rw [hmain] at hmain'
      cases hmain'
  | @booted config resources l base main entry t hl hbase hmain hentry ht script =>
    show mainTargets (loads l.journal) = [t]
    rcases Loader.ofConfig_eq_ok hl with
      ⟨_, hnone, _⟩ | ⟨_, _, _, hnone, _⟩ | ⟨base', main', entry', _, hbase', hmain', hentry', hboot⟩
    · rw [hmain] at hnone
      cases hnone
    · rw [hmain] at hnone
      cases hnone
    · cases hbase.symm.trans hbase'
      cases hmain.symm.trans hmain'
      cases hentry.symm.trans hentry'
      obtain ⟨l', hboot', hloads⟩ :=
        Loader.boot_main (Loader.new config resources) entry.toString main
      rw [(Prod.mk.inj (hboot.symm.trans hboot')).2, hloads, ht]
      rfl
  | step h ih => rw [mainTargets_step h.reachable, ih]
  | pass _ _ ih => exact ih
  | call _ _ _ ih => exact ih

theorem Reachable.asked (h : m.Reachable) : ∃ mains, m.Asked mains := by
  obtain ⟨m₀, ⟨config, resources, l, script, hl, rfl⟩, hrun⟩ := h
  induction hrun with
  | refl =>
    rcases hl with rfl | hl
    · exact ⟨_, .start config resources script⟩
    · rcases Loader.ofConfig_eq_ok hl with ⟨_, hmain, _⟩ | ⟨_, _, _, hmain, _⟩ |
        ⟨base, main, entry, drained, hbase, hmain, hentry, hboot⟩
      · exact ⟨_, .configured hl hmain script⟩
      · exact ⟨_, .configured hl hmain script⟩
      · obtain ⟨l', hboot', _⟩ :=
          Loader.boot_main (Loader.new config resources) entry.toString main
        cases ht : (Loader.new config resources).mainOf entry.toString main with
        | ok t => exact ⟨_, .booted hl hbase hmain hentry ht script⟩
        | error e =>
          rw [hboot, ht] at hboot'
          cases hboot'
  | tail _ hgo ih =>
    obtain ⟨mains, ih⟩ := ih
    cases hgo with
    | step => exact ⟨_, ih.step⟩
    | pass hagree => exact ⟨_, ih.pass hagree⟩
    | call script hs => exact ⟨_, ih.call script hs⟩

end Machine

/-- Whatever has a record has been loaded as a module, and nothing else has. -/
theorem Loader.Loaded.status_eq_none_iff {l : Loader ν} (h : l.Loaded) (url : String) :
    l.status url = none ↔ url ∉ modulesOf (loads l.journal) := by
  rw [← List.mem_reverse, ← h.urls, ← Registry.state?_ne_none_iff, not_not, Loader.status,
    Option.map_eq_none_iff]

/-- At every moment of every run: the main resources that have been loaded are those asked for, one
load for each call; and a URL has been loaded once if there is a record of it, and once more for
each time that it was asked for as a main resource. So no URL is loaded twice just as long as no
main resource is asked for twice, or is a module as well. -/
theorem loads_counted {m : Machine ν} {mains : List Target} (h : m.Asked mains)
    (frame : Option Frame) :
    mainTargets (loads m.loader.journal) = mains ∧
    (∀ url, timesLoaded m.loader.journal url =
      (if (m.loader.view frame).status url = none then 0 else 1) +
        (mains.map Target.key).count url) ∧
    ((∀ url, timesLoaded m.loader.journal url ≤ 1) ↔
      (mains.map Target.key).Nodup ∧
        ∀ t ∈ mains, (m.loader.view frame).status t.key = none) := by
  have hloaded := h.reachable.loaded
  have hcount : ∀ url, timesLoaded m.loader.journal url =
      (if (m.loader.view frame).status url = none then 0 else 1) +
        (mains.map Target.key).count url := by
    intro url
    have hstatus : (m.loader.view frame).status url = none ↔ _ := hloaded.status_eq_none_iff url
    rw [timesLoaded, countP_loads, h.mainTargets_eq, hloaded.once.count]
    simp only [hstatus, ite_not]
  refine ⟨h.mainTargets_eq, hcount, ?_⟩
  constructor
  · intro honce
    refine ⟨List.nodup_iff_count_le_one.mpr fun url => ?_, fun t ht => ?_⟩
    · have hle := honce url
      rw [hcount] at hle
      omega
    · by_contra hrecord
      have hle := honce t.key
      rw [hcount, if_neg hrecord] at hle
      have hpos : 0 < (mains.map Target.key).count t.key :=
        List.count_pos_iff.mpr (List.mem_map_of_mem ht)
      omega
  · rintro ⟨hnodup, hrecords⟩ url
    rw [hcount]
    have hle := List.nodup_iff_count_le_one.mp hnodup url
    by_cases hmem : url ∈ mains.map Target.key
    · obtain ⟨t, ht, rfl⟩ := List.mem_map.mp hmem
      rw [if_pos (hrecords t ht)]
      omega
    · rw [List.count_eq_zero_of_not_mem hmem]
      split <;> omega

/-- A loader that is started with a main resource which goes on to require itself. -/
def selfRequiring : Machine Unit :=
  (Machine.start
    (Loader.new {} fun _ => some (.code (.require ["./m.js"] (fun _ => .finish .done)
      (some fun _ => .finish .done) (.finish .done))))
    (.bootstrap "a:/" (some "./m.js") fun _ => .turn fun _ => .finish .done)).run 40

theorem loads_counted_self :
    timesLoaded selfRequiring.loader.journal "a:/m.js" = 2 ∧
    (selfRequiring.loader.view none).status "a:/m.js" = some .loading := by
  have hreach : selfRequiring.Reachable := (Machine.reachable_start _ _ _).run 40
  obtain ⟨mains, hasked⟩ := hreach.asked
  obtain ⟨hmains, hcount, _⟩ := loads_counted hasked none
  have hnamed : (mains.map Target.key) = ["a:/m.js"] := by
    rw [← hmains]
    decide +kernel
  have hstatus : (selfRequiring.loader.view none).status "a:/m.js" = some .loading := by
    decide +kernel
  refine ⟨?_, hstatus⟩
  rw [hcount, hnamed, hstatus]
  rfl

/-- A loader that is started twice with the same main resource. -/
def startedTwice : Machine Unit :=
  (Machine.start (Loader.new {} fun _ => none)
    (.bootstrap "a:/" (some "m.js") fun _ => .bootstrap "a:/" (some "m.js") fun _ =>
      .finish .done)).run 2

theorem main_loaded_twice :
    startedTwice.Reachable ∧ timesLoaded startedTwice.loader.journal "a:/m.js" = 2 ∧
      (startedTwice.loader.view none).inFlight = 2 :=
  ⟨(Machine.reachable_start _ _ _).run 2, by decide +kernel, by decide +kernel⟩

end AsyncModule
