import AsyncModule.Proofs.Ownership
import AsyncModule.Proofs.Rest
import AsyncModule.Proofs.Tasks

/-!
# AsyncModule.Proofs.Nesting

How callbacks nest. As long as no program that the loader runs takes up finished fetches itself, a
callback runs directly on the task that works off the worklist, and what it asks for waits until
it has returned. There is one exception: the handler of a definition that is dropped because its
unit has failed runs outside of the worklist, so what it asks for is worked off inside of it.

* `Layered`             — what may lie beneath what on the stack.
* `layered_step`        — steps keep it.
* `callbacks_nest_once` — a callback has another one above it only if it is such a handler.
-/

namespace AsyncModule

open Relation

variable {ν : Type}

/-! ## Runs in which only calls from outside take up fetches -/

/-- Whether a program takes up finished fetches next. -/
def Script.takesUp : Script ν → Bool
  | .turn _ => true
  | .settle _ => true
  | _ => false

def Ending.isPlain : Ending ν → Bool
  | .plain => true
  | _ => false

/-- Whether a task leaves it to calls from outside to take up finished fetches. -/
def Task.isCalm : Task ν → Bool
  | .body _ script ending => !script.takesUp || ending.isPlain
  | _ => true

namespace Machine

def isCalm (m : Machine ν) : Bool := m.stack.head?.all Task.isCalm

def GoesCalmly (m m' : Machine ν) : Prop := m.isCalm = true ∧ m.Goes m'

/-- A machine can be reached without any unit, callback or handler taking up fetches. -/
def CalmlyReachable (m : Machine ν) : Prop := ∃ m₀, IsStart m₀ ∧ ReflTransGen GoesCalmly m₀ m

theorem CalmlyReachable.reachable {m : Machine ν} (h : m.CalmlyReachable) : m.Reachable := by
  obtain ⟨m₀, hstart, hrun⟩ := h
  exact ⟨m₀, hstart, ReflTransGen.mono (fun _ _ hgo => hgo.2) _ _ hrun⟩

theorem calmlyReachable_start (config : Config)
    (resources : Target → Option (Fetched (Script ν))) (script : Script ν) :
    (start (Loader.new config resources) script).CalmlyReachable :=
  ⟨_, ⟨config, resources, _, script, .inl rfl, rfl⟩, .refl⟩

/-- Whether the next steps are calm, as far as they go. -/
def runsCalmly : Nat → Machine ν → Bool
  | 0, _ => true
  | fuel + 1, m => m.isCalm && runsCalmly fuel m.step

theorem CalmlyReachable.run {m : Machine ν} (h : m.CalmlyReachable) {fuel : Nat}
    (hcalm : runsCalmly fuel m = true) : (run fuel m).CalmlyReachable := by
  induction fuel generalizing m with
  | zero => exact h
  | succ fuel ih =>
    simp only [runsCalmly, Bool.and_eq_true] at hcalm
    obtain ⟨m₀, hstart, hrun⟩ := h
    simp only [Machine.run]
    split
    · exact ⟨m₀, hstart, hrun⟩
    · exact ih ⟨m₀, hstart, hrun.tail ⟨hcalm.1, .step m⟩⟩ hcalm.2

end Machine

/-! ## What lies beneath what -/

/-- No callback is running, and the worklist is not being worked off. -/
def Quiet (stack : List (Task ν)) : Prop :=
  ∀ task ∈ stack, task.isCallback = false ∧ task ≠ .draining

/-- What a program that ends so may lie on. -/
inductive Ending.LiesOn (below : List (Task ν)) : Ending ν → Prop where
  /-- A program that is no callback. -/
  | program {ending : Ending ν} (hc : ending.isCallback = false) (h : Quiet below) :
      LiesOn below ending
  /-- A callback that working off the worklist has started. -/
  | called {ending : Ending ν} {rest : List (Task ν)} (hc : ending.isCallback = true)
      (h : below = .draining :: rest) : LiesOn below ending
  /-- The handler of a definition that was dropped because its unit has failed. -/
  | dropped {url reason : String} (h : Quiet below) :
      LiesOn below (.errback none (.execution url reason))

theorem Ending.LiesOn.of_isPlain {below : List (Task ν)} {ending : Ending ν}
    (h : ending.LiesOn below) (hplain : ending.isPlain = true) :
    ending.isCallback = false ∧ Quiet below := by
  cases h with
  | program hc hq => exact ⟨hc, hq⟩
  | called hc _ =>
    cases ending with
    | plain => cases hc
    | _ => cases hplain
  | dropped _ => cases hplain

def Task.LiesOn (below : List (Task ν)) : Task ν → Prop
  | .body _ _ ending => ending.LiesOn below
  | .settling _ _ ending => ending.isCallback = false ∧ Quiet below
  | .dispatch => True
  | .draining => .draining ∉ below

def Layered : List (Task ν) → Prop
  | [] => True
  | task :: below => task.LiesOn below ∧ Layered below

namespace Machine

variable {l : Loader ν} {k : List Duty} {below : List (Task ν)}

theorem failModule_of_none {url : String} (h : ∀ id, l.registry.definition? url = some id →
    l.requests.get? id = none) (e : LoadError) :
    failModule l url e = (l.abandonModule url e, []) := by
  unfold failModule Loader.failModule
  cases hid : l.registry.definition? url with
  | none => rfl
  | some id => simp only [h id hid]

/-- Whoever has a module in hand drops no definition by failing it. -/
theorem failModule_of_settling {url : String} (h : Owned l (.settle url :: k))
    (hdefining : l.WellDefining) (e : LoadError) :
    failModule l url e = (l.abandonModule url e, []) :=
  failModule_of_none (fun _ => hdefining.get?_eq_none fun _ _ hr => h.settling.2.2 hr) e

theorem layered_conclude {frame : Option Frame} {ending : Ending ν}
    (howned : Owned l (ending.duties frame ++ k)) (hdefining : l.WellDefining)
    (hlies : ending.LiesOn below) (h : Layered below) (o : Outcome) :
    Layered ((conclude l frame o ending).2 ++ below) := by
  have hnone : ∀ {tasks : List (Task ν)}, tasks = [] → Layered (tasks ++ below) := by
    rintro _ rfl
    exact h
  cases hlies with
  | program hc hq =>
    cases ending with
    | plain => exact h
    | unit t =>
      have hfail : Machine.hasDefined frame = false → ∀ e,
          Layered ((failModule l t.key e).2 ++ below) := by
        intro hd e
        have howned : Owned l (.settle t.key :: k) := by simpa [Ending.duties, hd] using howned
        exact hnone (congrArg Prod.snd (failModule_of_settling howned hdefining e))
      have hdone : Layered ((if Machine.hasDefined frame then (l, [])
          else failModule l t.key (.nonConforming t.key)).2 ++ below) := by
        split
        · exact h
        · rename_i hd
          exact hfail (by simpa using hd) _
      cases o with
      | error reason =>
        rcases tasks_failModule l t.key (.execution t.key reason) with
          heq | ⟨_, _, _, _, _, _, heq⟩
        · exact hnone heq
        · simp only [conclude, concludeUnit, heq]
          exact ⟨.dropped hq, h⟩
      | done => exact hdone
      | value v => exact hdone
    | script t fragment =>
      cases o with
      | error reason => exact hnone (congrArg Prod.snd (failModule_of_settling howned hdefining _))
      | done => exact h
      | value v => exact h
    | main t => exact h
    | callback id r => cases hc
    | errback definition e => cases hc
  | called _ hdraining =>
    obtain ⟨e, heq | ⟨_, _, _, heq⟩⟩ := handles_conclude l frame o ending
    · exact hnone heq
    · rw [heq]
      exact ⟨.called rfl hdraining, h⟩
  | dropped hq => exact h

/-- Only calls from outside take up fetches, and nothing is running then. -/
theorem layered_takeUp (howned : Owned l k) (hdefining : l.WellDefining)
    (hnumbered : l.fetches.Numbered) (top : Task ν) (htop : top.LiesOn below)
    (hcalm : top.isCallback = false ∧ top ≠ .draining) (hq : Quiet below) (h : Layered below) :
    Layered ((takeUp l).2.2 ++ top :: below) := by
  have hquiet : Quiet (.dispatch :: top :: below) := by
    intro task htask
    rcases List.mem_cons.mp htask with rfl | htask
    · exact ⟨rfl, by simp⟩
    · rcases List.mem_cons.mp htask with rfl | htask
      · exact hcalm
      · exact hq task htask
  rcases tasks_takeUp l with heq | ⟨f, result, fetches, htake, heq⟩
  · rw [heq]
    exact ⟨htop, h⟩
  · rw [heq]
    show Layered (((complete { l with fetches } f result).2 ++ [.dispatch]) ++ top :: below)
    rw [List.append_assoc]
    rcases tasks_complete { l with fetches } f result with
      hnone | ⟨_, _, _, hone, hc⟩ | ⟨e, hfail, hrole⟩
    · rw [hnone]
      exact ⟨trivial, htop, h⟩
    · rw [hone]
      exact ⟨.program hc hquiet, trivial, htop, h⟩
    · have harrived := howned.arrive hnumbered htake
      rw [hrole] at harrived
      rw [hfail, hrole, failModule_of_settling harrived hdefining]
      exact ⟨trivial, htop, h⟩

theorem layered_perform {frame : Option Frame} {ending : Ending ν} {script : Script ν}
    (howned : Owned l (ending.duties frame ++ k)) (hdefining : l.WellDefining)
    (hnumbered : l.fetches.Numbered) (hcalm : (Task.body frame script ending).isCalm = true)
    (hlies : ending.LiesOn below) (h : Layered below) :
    Layered ((perform l frame ending script).2 ++ below) := by
  have hbody : ∀ frame' (next : Script ν), Layered (.body frame' next ending :: below) :=
    fun _ _ => ⟨hlies, h⟩
  have hchange : ∀ (next : Option LoadError → Script ν) out,
      Layered ((afterChange frame next ending out).2 ++ below) := by
    rintro next ⟨_ | (_ | _), l⟩
    · exact hbody frame _
    · exact hbody frame _
    · exact ⟨trivial, hbody frame _⟩
  cases script with
  | finish o => exact layered_conclude howned hdefining hlies h o
  | require => exact ⟨trivial, hbody frame _⟩
  | define => exact ⟨trivial, hbody _ _⟩
  | configure base next =>
    simp only [perform]
    exact hchange next _
  | bootstrap entry main next =>
    simp only [perform]
    exact hchange next _
  | turn next =>
    obtain ⟨hc, hq⟩ := hlies.of_isPlain (by simpa [Task.isCalm, Script.takesUp] using hcalm)
    have htop := layered_takeUp howned hdefining hnumbered
      (.body frame (next (takeUp l).1) ending) hlies ⟨hc, by simp⟩ hq h
    simp only [perform]
    simpa using htop
  | settle next =>
    exact ⟨hlies.of_isPlain (by simpa [Task.isCalm, Script.takesUp] using hcalm), h⟩
  | deliver url result next =>
    simp only [perform]
    split
    · exact hbody frame _
    · exact hbody frame _
  | make => exact hbody frame _
  | look => exact hbody frame _
  | note => exact hbody frame _

theorem layered_advance {task : Task ν} (howned : Owned l (task.duties ++ k))
    (hdefining : l.WellDefining) (hnumbered : l.fetches.Numbered)
    (hdrain : l.dispatching = false → .draining ∉ below) (hcalm : task.isCalm = true)
    (hlies : task.LiesOn below) (h : Layered below) : Layered ((advance l task).2 ++ below) := by
  cases task with
  | body frame script ending =>
    exact layered_perform howned hdefining hnumbered hcalm hlies h
  | settling frame next ending =>
    have htop := layered_takeUp howned hdefining hnumbered (.settling frame next ending) hlies
      ⟨hlies.1, by simp⟩ hlies.2 h
    simp only [advance]
    split
    · rename_i htake
      rw [htake] at htop
      simpa using htop
    · exact ⟨.program hlies.1 hlies.2, h⟩
  | dispatch =>
    simp only [advance]
    split
    · exact h
    · rename_i hd
      exact ⟨hdrain (by simpa using hd), h⟩
  | draining =>
    simp only [advance]
    split
    · exact h
    · rename_i s rest hw
      have hbeneath : Layered (.draining :: below) := ⟨hlies, h⟩
      have happend : ∀ tasks : List (Task ν), (tasks ++ [.draining]) ++ below =
          tasks ++ .draining :: below := by simp
      dsimp only
      rw [happend]
      rcases tasks_process { l with worklist := rest } s with
        ⟨_, _, _, heq, _⟩ | ⟨e, heq | ⟨_, _, _, heq⟩⟩
      · rw [heq]
        exact ⟨.called rfl rfl, hbeneath⟩
      · rw [heq]
        exact hbeneath
      · rw [heq]
        exact ⟨.called rfl rfl, hbeneath⟩

theorem draining_not_mem {stack : List (Task ν)} (h : (dutiesOf stack).count .drain = 0) :
    .draining ∉ stack := by
  intro hmem
  have hduty : Duty.drain ∈ dutiesOf stack :=
    List.mem_flatMap.mpr ⟨.draining, hmem, List.mem_singleton.mpr rfl⟩
  rw [List.count_eq_zero] at h
  exact h hduty

/-- Calm steps keep the layers of the stack. -/
theorem layered_step {m : Machine ν} (h : m.Reachable) (hcalm : m.isCalm = true)
    (hl : Layered m.stack) : Layered m.step.stack := by
  have howned := h.owned
  have hdefining := h.wellDefining
  have hnumbered := h.mains.numbered
  have hdrains := h.attended.drains
  obtain ⟨l, stack⟩ := m
  cases stack with
  | nil => exact hl
  | cons task below =>
    refine layered_advance (l := l) (k := dutiesOf below) howned hdefining hnumbered ?_
      (by simpa [isCalm] using hcalm) hl.1 hl.2
    intro hd
    have hnone : (dutiesOf (task :: below)).count .drain = 0 := by simpa [hd] using hdrains
    exact fun hmem => draining_not_mem hnone (List.mem_cons_of_mem _ hmem)

theorem CalmlyReachable.layered {m : Machine ν} (h : m.CalmlyReachable) : Layered m.stack := by
  obtain ⟨m₀, hstart, hrun⟩ := h
  have hreach : ∀ {m}, ReflTransGen GoesCalmly m₀ m → m.Reachable := by
    intro m hrun
    exact CalmlyReachable.reachable ⟨m₀, hstart, hrun⟩
  induction hrun with
  | refl =>
    obtain ⟨_, _, l, script, _, rfl⟩ := hstart
    exact ⟨.program rfl (fun _ h => by cases h), trivial⟩
  | tail hrun hgo ih =>
    obtain ⟨hcalm, hgo⟩ := hgo
    cases hgo with
    | step => exact layered_step (hreach hrun) hcalm ih
    | pass _ => exact ih
    | call script _ => exact ⟨.program rfl (fun _ h => by cases h), trivial⟩

end Machine

/-! ## How deep callbacks nest -/

/-- Whether a task is the handler of a definition that was dropped because its unit has failed. -/
def Task.IsDropped (task : Task ν) : Prop :=
  ∃ frame script url reason, task = .body frame script (.errback none (.execution url reason))

theorem Task.LiesOn.of_isCallback {below : List (Task ν)} {task : Task ν} (h : task.LiesOn below)
    (hc : task.isCallback = true) :
    (∃ rest, below = .draining :: rest) ∨ task.IsDropped ∧ Quiet below := by
  cases task with
  | body frame script ending =>
    have h : ending.LiesOn below := h
    cases h with
    | program hno _ =>
      have hc : ending.isCallback = true := hc
      rw [hno] at hc
      cases hc
    | called _ hdraining => exact .inl ⟨_, hdraining⟩
    | dropped hq => exact .inr ⟨⟨_, _, _, _, rfl⟩, hq⟩
  | settling frame next ending =>
    have hc : ending.isCallback = true := hc
    rw [h.1] at hc
    cases hc
  | dispatch => cases hc
  | draining => cases hc

/-- Above a callback that working off the worklist has started nothing runs. -/
theorem dispatch_of_above {above rest : List (Task ν)} {c : Task ν} (hc : c.isCallback = true)
    (h : Layered (above ++ c :: .draining :: rest)) : ∀ task ∈ above, task = .dispatch := by
  have hnot : ∀ above', ¬ Quiet (above' ++ c :: .draining :: rest) := by
    intro above' hq
    rw [(hq c (by simp)).1] at hc
    cases hc
  induction above with
  | nil => simp
  | cons task above ih =>
    obtain ⟨hlies, h⟩ := h
    have habove := ih h
    refine List.forall_mem_cons.mpr ⟨?_, habove⟩
    cases task with
    | body frame script ending =>
      have hlies : ending.LiesOn (above ++ c :: .draining :: rest) := hlies
      cases hlies with
      | program _ hq => exact absurd hq (hnot above)
      | called _ hdraining =>
        cases above with
        | nil =>
          cases hdraining
          cases hc
        | cons x above =>
          cases hdraining
          exact absurd (habove .draining List.mem_cons_self) (by simp)
      | dropped hq => exact absurd hq (hnot above)
    | settling frame next ending => exact absurd hlies.2 (hnot above)
    | dispatch => rfl
    | draining => exact absurd (by simp) hlies

theorem Quiet.countP {stack : List (Task ν)} (h : Quiet stack) :
    stack.countP Task.isCallback = 0 := by
  rw [List.countP_eq_zero]
  intro task htask
  simp [(h task htask).1]

/-- A second callback lies on the working off of the worklist that a first one has started. -/
theorem countP_of_layered {stack : List (Task ν)} (h : Layered stack) :
    stack.countP Task.isCallback ≤ 2 ∧
      (.draining ∉ stack.tail → stack.countP Task.isCallback ≤ 1) := by
  induction stack with
  | nil => simp
  | cons task below ih =>
    obtain ⟨hlies, h⟩ := h
    obtain ⟨htwo, hone⟩ := ih h
    have hquiet : Quiet below → (task :: below).countP Task.isCallback ≤ 1 := by
      intro hq
      rw [List.countP_cons, hq.countP]
      split <;> omega
    have hsame : task.isCallback = false →
        (task :: below).countP Task.isCallback = below.countP Task.isCallback := by
      intro hc
      rw [List.countP_cons_of_neg (by simp [hc])]
    cases task with
    | body frame script ending =>
      have hlies : ending.LiesOn below := hlies
      cases hlies with
      | program _ hq => exact ⟨(hquiet hq).trans (by omega), fun _ => hquiet hq⟩
      | called hc hdraining =>
        subst hdraining
        have hbelow := hone h.1
        rw [List.countP_cons]
        refine ⟨by split <;> omega, fun hnot => absurd (by simp) hnot⟩
      | dropped hq => exact ⟨(hquiet hq).trans (by omega), fun _ => hquiet hq⟩
    | settling frame next ending =>
      exact ⟨(hquiet hlies.2).trans (by omega), fun _ => hquiet hlies.2⟩
    | dispatch =>
      rw [hsame rfl]
      exact ⟨htwo, fun hnot => hone fun hmem => hnot (List.mem_of_mem_tail hmem)⟩
    | draining =>
      rw [hsame rfl]
      exact ⟨htwo, fun hnot => hone fun hmem => hnot (List.mem_of_mem_tail hmem)⟩

/-- If no program that the loader runs takes up fetches, then a callback that runs has been started
by working off the worklist, which will not go on before it has returned, and nothing runs above
it; or it is the handler of a definition that was dropped because its unit has failed, and no other
callback runs beneath it. So no more than two callbacks ever run at once. -/
theorem callbacks_nest_once {m : Machine ν} (h : m.CalmlyReachable) :
    (∀ above c below, m.stack = above ++ c :: below → c.isCallback = true →
      (∃ rest, below = .draining :: rest) ∧ m.loader.dispatching = true ∧
          (∀ task ∈ above, task = .dispatch) ∨
        c.IsDropped ∧ ∀ task ∈ below, task.isCallback = false) ∧
    m.stack.countP Task.isCallback ≤ 2 := by
  have hl := h.layered
  refine ⟨?_, (countP_of_layered hl).1⟩
  intro above c below hstack hc
  rw [hstack] at hl
  have hlies : c.LiesOn below := by
    clear hstack
    induction above with
    | nil => exact hl.1
    | cons task above ih => exact ih hl.2
  rcases hlies.of_isCallback hc with ⟨rest, rfl⟩ | ⟨hdropped, hq⟩
  · refine .inl ⟨⟨rest, rfl⟩, ?_, dispatch_of_above hc hl⟩
    have hdrains := h.reachable.attended.drains
    by_contra hd
    rw [if_neg hd, hstack] at hdrains
    exact Machine.draining_not_mem hdrains (by simp)
  · exact .inr ⟨hdropped, fun task htask => (hq task htask).1⟩

/-- A unit that fails after it has made a definition whose handler makes a request. -/
def droppedResources (t : Target) : Option (Fetched (Script Unit)) :=
  if t.key = "a:/x.js" then
    some (.code (.define ["./y.js"] (fun _ => .finish .done)
      (some fun _ => .require [] (fun _ => .finish .done) none (.finish .done))
      (.finish (.error "failed"))))
  else none

/-- The moment at which the callback of that request runs. -/
def nesting : Machine Unit :=
  (Machine.start (Loader.new {} droppedResources)
    (.requireFrom "a:/" ["./x.js"] (fun _ => .finish .done) fun _ =>
      .turn fun _ => .finish .done)).run 15

theorem callbacks_nest_once_dropped :
    ∃ callback task handler rest, nesting.stack = callback :: task :: handler :: rest ∧
      callback.isCallback = true ∧ handler.IsDropped := by
  have hkinds : nesting.stack.map Task.isCallback = [true, false, true, false, false] := by
    decide +kernel
  obtain ⟨callback, _, hstack, hcallback, htail⟩ := List.map_eq_cons_iff.mp hkinds
  obtain ⟨task, _, rfl, _, htail⟩ := List.map_eq_cons_iff.mp htail
  obtain ⟨handler, rest, rfl, hhandler, _⟩ := List.map_eq_cons_iff.mp htail
  have hcalm : nesting.CalmlyReachable :=
    (Machine.calmlyReachable_start _ _ _).run (by decide +kernel)
  obtain ⟨hnested, _⟩ := callbacks_nest_once hcalm
  refine ⟨callback, task, handler, rest, hstack, hcallback, ?_⟩
  rcases hnested [callback, task] handler rest hstack hhandler with ⟨_, _, hidle⟩ | ⟨hdropped, _⟩
  · rw [hidle callback List.mem_cons_self] at hcallback
    cases hcallback
  · exact hdropped

/-- So callbacks do nest. -/
theorem callbacks_nest :
    nesting.CalmlyReachable ∧ nesting.stack.countP Task.isCallback = 2 :=
  ⟨(Machine.calmlyReachable_start _ _ _).run (by decide +kernel), by decide +kernel⟩

end AsyncModule
