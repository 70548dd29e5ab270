import AsyncModule.Proofs.Failing
import AsyncModule.Proofs.Programs
import AsyncModule.Proofs.Tally

/-!
# AsyncModule.Proofs.Lexical

Contexts follow the text of programs. What a unit or script asks for, and what is asked for on
behalf of that by callbacks and error handlers to any depth, is resolved in the context of where the
unit was fetched, whatever contexts are set up and whatever else runs in between.

* `Machine.Stems`    — what stems from a unit or script: programs and requests.
* `Loader.Carries`   — a live request carries a context, and is not deferred.
* `program?_goes`    — a program that does not end goes on in its context.
* `lexical_contexts` — the whole statement.
-/

namespace AsyncModule

open Relation

variable {ν : Type}

/-! ## What stems from a unit -/

/-- What may stem from a unit or script: a program that is running, known by its height on the
stack, or a request. -/
inductive Offspring where
  | program (height : Nat)
  | request (id : RequestId)

namespace Machine

/-- The program at a height on the stack, the bottom being at height zero: its frame, and what its
end means. -/
def program? (m : Machine ν) (height : Nat) : Option (Option Frame × Ending ν) :=
  m.stack.reverse[height]?.bind Task.program?

/-- Whether the program at a height ends by the next step. -/
def ends (m : Machine ν) (height : Nat) : Bool :=
  m.stack.length == height + 1 && m.stack.head?.any Task.ends

/-- Whether the topmost program makes a request next. -/
def submits (m : Machine ν) : Bool := m.stack.head?.any Task.submits

/-- The height of the topmost task. -/
def top (m : Machine ν) : Nat := m.stack.length - 1

/-- What stems from a unit or script that was fetched for a target: its body, the requests made by
programs that stem from it, and the callbacks and error handlers of these requests. -/
inductive Stems (t : Target) : Machine ν → Offspring → Prop where
  | enter {m : Machine ν} {role : LoadRole} {older : List (Event ν)} (h : m.Reachable)
      (hj : m.step.loader.journal = .entered t role :: older)
      (hnew : m.loader.journal.length ≤ older.length) : Stems t m.step (.program m.step.top)
  | submit {m : Machine ν} {id : RequestId} (h : Stems t m (.program m.top))
      (hsubmits : m.submits = true)
      (hj : submissions m.step.loader.journal = id :: submissions m.loader.journal) :
      Stems t m.step (.request id)
  | call {m : Machine ν} {id : RequestId} {values : List ModuleValue} {older : List (Event ν)}
      (h : Stems t m (.request id)) (hj : m.step.loader.journal = .called id values :: older)
      (hnew : m.loader.journal.length ≤ older.length) : Stems t m.step (.program m.step.top)
  | handle {m : Machine ν} {id : RequestId} {e : LoadError} {older : List (Event ν)}
      (h : Stems t m (.request id)) (hj : m.step.loader.journal = .handled id e :: older)
      (hnew : m.loader.journal.length ≤ older.length) : Stems t m.step (.program m.step.top)
  /-- A program is the same until it ends. -/
  | goOn {m m' : Machine ν} {height : Nat} (h : Stems t m (.program height))
      (hends : m.ends height = false) (hgo : m.Goes m') : Stems t m' (.program height)
  | last {m m' : Machine ν} {id : RequestId} (h : Stems t m (.request id)) (hgo : m.Goes m') :
      Stems t m' (.request id)

variable {m m' : Machine ν} {t : Target} {x : Offspring}

theorem Stems.run {id : RequestId} (h : m.Stems t (.request id)) (fuel : Nat) :
    (Machine.run fuel m).Stems t (.request id) := by
  induction fuel generalizing m with
  | zero => exact h
  | succ fuel ih =>
    rw [Machine.run]
    split
    · exact h
    · exact ih (h.last (.step m))

theorem Stems.reachable (h : Stems t m x) : m.Reachable := by
  induction h with
  | enter h _ _ => exact h.goes (.step _)
  | submit _ _ _ ih => exact ih.goes (.step _)
  | call _ _ _ ih => exact ih.goes (.step _)
  | handle _ _ _ ih => exact ih.goes (.step _)
  | goOn _ _ hgo ih => exact ih.goes hgo
  | last _ hgo ih => exact ih.goes hgo

/-! ## Programs on the stack -/

theorem program?_top {task : Task ν} {rest : List (Task ν)} (h : m.stack = task :: rest) :
    m.program? m.top = task.program? := by
  simp [program?, top, h]

/-- A program that does not end goes on at its height, with the same end and in the same context. -/
theorem program?_goes {height : Nat} {frame : Option Frame} {ending : Ending ν}
    (h : m.program? height = some (frame, ending)) (hends : m.ends height = false)
    (hgo : m.Goes m') : ∃ frame', m'.program? height = some (frame', ending) ∧
      frame'.bind Frame.context? = frame.bind Frame.context? := by
  cases hgo with
  | step =>
    obtain ⟨l, stack⟩ := m
    cases stack with
    | nil => cases h
    | cons task rest =>
      have hstep : (step ⟨l, task :: rest⟩).stack.reverse =
          rest.reverse ++ (advance l task).2.reverse := by
        rw [step_of_cons rfl, List.reverse_append]
      simp only [program?, List.reverse_cons] at h
      rw [program?, hstep]
      by_cases hlt : height < rest.length
      · -- The program lies beneath.
        rw [List.getElem?_append_left (by simpa using hlt)] at h ⊢
        exact ⟨frame, h, rfl⟩
      · by_cases htop : height = rest.length
        · subst htop
          rw [List.getElem?_append_right (by simp), List.length_reverse, Nat.sub_self] at h
          have htask : task.program? = some (frame, ending) := h
          have hends : task.ends = false := by simpa [ends] using hends
          obtain ⟨tasks, task', frame', heq, htask', hctx⟩ := continued_advance hends htask
          refine ⟨frame', ?_, hctx⟩
          rw [heq, List.getElem?_append_right (by simp), List.length_reverse, Nat.sub_self,
            List.reverse_append]
          exact htask'
        · rw [List.getElem?_eq_none (by simp; omega)] at h
          cases h
  | pass _ => exact ⟨frame, h, rfl⟩
  | call _ hs =>
    rw [program?, hs] at h
    cases h

end Machine

/-! ## Requests and their contexts -/

namespace Loader

variable {l : Loader ν} {id : RequestId} {ctx : Context} {r : Request ν}

/-- A request has been made and is not deferred; as long as it is live it carries a context. -/
structure Carries (id : RequestId) (ctx : Context) (l : Loader ν) : Prop where
  issued : l.requests.Issued id
  undeferred : id ∉ l.bootstrap.deferred
  context : ∀ {r}, l.requests.get? id = some r → r.context = some ctx

theorem Carries.erase (h : l.Carries id ctx) (id' : RequestId) :
    Carries id ctx { l with requests := l.requests.erase id' } where
  issued := by
    unfold Requests.Issued
    rw [Requests.serial_erase]
    exact h.issued
  undeferred := h.undeferred
  context hr := by
    rw [Requests.get?_erase] at hr
    split at hr
    · cases hr
    · exact h.context hr

theorem Carries.withdraw (h : l.Carries id ctx) (id' : RequestId) (r : Request ν) :
    Carries id ctx (l.withdraw id' r) :=
  ⟨(h.erase id').issued, fun hmem => h.undeferred (List.mem_of_mem_filter hmem),
    (h.erase id').context⟩

theorem Carries.fill (h : l.Carries id ctx) (id' : RequestId) (i : Nat) (v : ModuleValue) :
    Carries id ctx { l with requests := l.requests.modify id' (·.fill i v) } where
  issued := by
    unfold Requests.Issued
    rw [Requests.serial_modify]
    exact h.issued
  undeferred := h.undeferred
  context hr := by
    rcases Requests.get?_modify_eq_some hr with ⟨rfl, r, hlive, rfl⟩ | ⟨_, hlive⟩
    · have hctx := h.context hlive
      rw [Request.fill_eq]
      exact hctx
    · exact h.context hlive

theorem Carries.submit (h : l.Carries id ctx) (frame : Option Frame) (dependencies : List String)
    (callback : List ModuleValue → Script ν) (errback : Option (LoadError → Script ν))
    (definitionUrl : Option String) :
    (l.submit frame dependencies callback errback definitionUrl).Carries id ctx where
  issued := Nat.le_trans h.issued (grows_submit l frame dependencies callback errback _).serial
  undeferred := by
    rcases bootstrap_submit l frame dependencies callback errback definitionUrl with hb | ⟨_, hb⟩
    · rw [hb]
      exact h.undeferred
    · rw [hb]
      have hne := Requests.ne_insert_of_issued
        (.ofCall dependencies callback errback (l.context? frame) definitionUrl) h.issued
      exact fun hmem => (List.mem_append.mp hmem).elim h.undeferred
        fun hnew => hne (List.mem_singleton.mp hnew)
  context hr := by
    rw [get?_submit_of_issued h.issued] at hr
    exact h.context hr

theorem Carries.afterEstablishing (h : l.Carries id ctx) {change : Bool × Bootstrap}
    (hdeferred : change.2.deferred = l.bootstrap.deferred) :
    (l.afterEstablishing change).2.Carries id ctx where
  issued := Nat.le_trans h.issued (grows_afterEstablishing l change).serial
  undeferred := by
    rcases bootstrap_afterEstablishing l change with hb | ⟨_, hb⟩
    · rw [hb, hdeferred]
      exact h.undeferred
    · rw [hb]
      exact List.not_mem_nil
  context hr := by
    rw [get?_afterEstablishing_of_not_mem (hdeferred ▸ h.undeferred)] at hr
    exact h.context hr

theorem Carries.finishMain (h : l.Carries id ctx) (t : Target) :
    (l.finishMain t).Carries id ctx := by
  unfold Loader.finishMain
  dsimp only
  split
  · exact h.afterEstablishing (Bootstrap.deferred_finishEstablishing _ _)
  · exact h

/-- A request that has been linked carries the context it was linked in. -/
theorem context_link (h : (l.link id ctx).requests.get? id = some r) : r.context = some ctx := by
  unfold link at h
  split at h
  · rename_i hnone
    rw [hnone] at h
    cases h
  · rename_i r₀ hr₀
    have hattach : ∀ {l : Loader ν} {i : Nat} {t : Target},
        (∀ r, l.requests.get? id = some r → r.context = some ctx) →
        ∀ r, (l.attach id i t).requests.get? id = some r → r.context = some ctx := by
      intro l i t hall r hr
      rw [requests_attach] at hr
      rcases Requests.get?_modify_eq_some hr with ⟨_, r', hr', rfl⟩ | ⟨hne, _⟩
      · rw [Request.link_eq]
        exact hall r' hr'
      · exact absurd rfl hne
    have hstart : ∀ r, (record { l with requests := l.requests.modify id fun r =>
        { r with context := some ctx } } (.linked id l.resolver ctx)).requests.get? id = some r →
        r.context = some ctx := by
      intro r hr
      rcases Requests.get?_modify_eq_some hr with ⟨_, _, _, rfl⟩ | ⟨hne, _⟩
      · rfl
      · exact absurd rfl hne
    rcases linkSlots_cases (Q := fun _ l => ∀ r, l.requests.get? id = some r →
      r.context = some ctx) (fun hall _ _ => hattach hall) _ hstart with
      hdone | ⟨_, _, _, l', e, hdone, _, heq⟩
    · exact hdone r h
    · rw [heq] at h
      exact hdone r h

theorem keptByLinking_mem (e : Event ν) : KeptByLinking fun l : Loader ν => e ∈ l.journal where
  linked _ _ h := List.mem_cons_of_mem _ h
  context _ _ h := h
  stop _ h _ := h
  attach {l id _} i t h _ _ := by
    rcases attach_cases l id i t with ⟨_, hj⟩ | ⟨_, hj⟩
    · rwa [hj]
    · rw [hj]
      exact List.mem_cons_of_mem _ h

theorem linked_link (hr : l.requests.get? id = some r) (ctx : Context) :
    .linked id l.resolver ctx ∈ (l.link id ctx).journal := by
  unfold link
  rw [hr]
  dsimp only
  exact (keptByLinking_mem _).linkSlots _ List.mem_cons_self
    (Requests.get?_modify_self (fun r => { r with context := some ctx }) hr) rfl

/-- A request that has a context when it is set going is linked at once, and carries the context. -/
theorem carries_begin (hget : l.requests.get? id = some r)
    (hundeferred : id ∉ l.bootstrap.deferred) (hctx : r.context = some ctx) :
    (l.begin id r).Carries id ctx ∧ (∀ e ∈ l.journal, e ∈ (l.begin id r).journal) ∧
      (r.slots ≠ [] → .linked id l.resolver ctx ∈ (l.begin id r).journal) := by
  have hissued := Requests.issued_of_get? hget
  unfold begin
  split
  · rename_i hnone
    refine ⟨⟨hissued, hundeferred, ?_⟩, fun _ he => he, fun hne => absurd ?_ hne⟩
    · intro r' hr'
      rw [enqueue, hget] at hr'
      cases hr'
      exact hctx
    · exact List.isEmpty_iff.mp hnone
  · rw [hctx]
    refine ⟨⟨?_, by rwa [bootstrap_link], context_link⟩, ?_, fun _ => linked_link hget ctx⟩
    · have hgrows := (keptByLinking_grows l).link ⟨List.prefix_rfl, Nat.le_refl _⟩ id ctx
      exact Nat.le_trans hissued hgrows.serial
    · exact fun e he => (keptByLinking_mem e).link he id ctx

theorem carries_submit {frame : Option Frame} (hlinked : l.AllLinked)
    (hctx : l.context? frame = some ctx) (dependencies : List String)
    (callback : List ModuleValue → Script ν) (errback : Option (LoadError → Script ν))
    (definitionUrl : Option String)
    (hj : submissions (l.submit frame dependencies callback errback definitionUrl).journal =
      id :: submissions l.journal) :
    (l.submit frame dependencies callback errback definitionUrl).Carries id ctx ∧
      .submitted id dependencies definitionUrl ∈
        (l.submit frame dependencies callback errback definitionUrl).journal ∧
      (dependencies ≠ [] → .linked id l.resolver ctx ∈
        (l.submit frame dependencies callback errback definitionUrl).journal) := by
  rw [submissions_submit] at hj
  obtain ⟨rfl, _⟩ := List.cons.inj hj
  have hget := get?_enter_self l
    (.ofCall dependencies callback errback (l.context? frame) definitionUrl)
  have hundeferred : (l.enter (.ofCall dependencies callback errback (l.context? frame)
      definitionUrl)).1 ∉ (l.enter (.ofCall dependencies callback errback (l.context? frame)
      definitionUrl)).2.bootstrap.deferred := by
    intro hmem
    obtain ⟨_, hold, _⟩ := hlinked.deferred hmem
    exact not_issued_enter l _ (Requests.issued_of_get? hold)
  obtain ⟨hcarries, hlasts, hlinked⟩ := carries_begin hget hundeferred hctx
  refine ⟨hcarries, hlasts _ ?_, fun hne => hlinked (by simpa [Request.ofCall] using hne)⟩
  have hdependencies : (Request.ofCall dependencies callback errback (l.context? frame)
      definitionUrl).dependencies = dependencies := by
    simp [Request.dependencies, Request.ofCall, Slot.ofSpecifier, Function.comp_def]
  exact List.mem_cons.mpr (.inl (by rw [hdependencies]; rfl))

end Loader

open Loader in
theorem maintained_carries (id : RequestId) (ctx : Context) :
    Maintained fun (l : Loader ν) _ => l.Carries id ctx where
  aside h _ := ⟨h.issued, h.undeferred, h.context⟩
  make _ h := ⟨h.issued, h.undeferred, h.context⟩
  fetches h _ := ⟨h.issued, h.undeferred, h.context⟩
  arrive h _ := ⟨h.issued, h.undeferred, h.context⟩
  enter _ h _ := ⟨h.issued, h.undeferred, h.context⟩
  require _ _ _ _ h := h.submit _ _ _ _ _
  define _ _ _ _ _ h := h.submit _ _ _ _ _
  unwatch h := h
  setDefaultBase _ h := ⟨h.issued, h.undeferred, h.context⟩
  establish _ h := h.afterEstablishing (Bootstrap.deferred_establish _ _)
  beginMain _ _ h _ := ⟨h.issued, h.undeferred, h.context⟩
  finishMain t h := h.finishMain t
  ready _ h := ⟨h.issued, h.undeferred, h.context⟩
  abandon _ h _ _ := ⟨h.issued, h.undeferred, h.context⟩
  abandonDefinition {l k d url id' r} e h _ _ _ := by
    have habandon : (l.abandonModule url e).Carries id ctx := ⟨h.issued, h.undeferred, h.context⟩
    have hwithdraw := habandon.withdraw id' r
    exact ⟨hwithdraw.issued, hwithdraw.undeferred, hwithdraw.context⟩
  finish h _ := ⟨h.issued, h.undeferred, h.context⟩
  fault h _ := ⟨h.issued, h.undeferred, h.context⟩
  handle h _ := ⟨h.issued, h.undeferred, h.context⟩
  dispatch h _ := ⟨h.issued, h.undeferred, h.context⟩
  redispatch h _ := h
  drained h _ := ⟨h.issued, h.undeferred, h.context⟩
  dead h _ _ := ⟨h.issued, h.undeferred, h.context⟩
  fill {l k id' i v rest r} h _ _ _ := by
    have hfill := h.fill id' i v
    exact ⟨hfill.issued, hfill.undeferred, hfill.context⟩
  fillFire {l k id' i v rest r} h _ _ _ := by
    have herase := (h.fill id' i v).erase id'
    exact ⟨herase.issued, herase.undeferred, herase.context⟩
  fire {l k id' rest r} h _ _ := by
    have herase := h.erase id'
    exact ⟨herase.issued, herase.undeferred, herase.context⟩
  fail {l k id' e rest r} h _ _ := by
    have hwithdraw := h.withdraw id' r
    exact ⟨hwithdraw.issued, hwithdraw.undeferred, hwithdraw.context⟩

namespace Machine

variable {m m' : Machine ν} {t : Target} {id : RequestId} {ctx : Context}

/-- A request carries a context wherever it is: as long as it is live, and while it is called
back. -/
structure Bears (m : Machine ν) (id : RequestId) (ctx : Context) : Prop where
  live : m.loader.Carries id ctx
  running : ∀ {task frame r}, task ∈ m.stack → task.program? = some (frame, .callback id r) →
    r.context = some ctx

theorem Bears.goes (h : m.Bears id ctx) (hreach : m.Reachable) (hgo : m.Goes m') :
    m'.Bears id ctx where
  live := ((maintained_carries id ctx).goes h.live hreach.fits hgo).1
  running := by
    intro task frame r hmem htask
    cases hgo with
    | step =>
      obtain ⟨l, stack⟩ := m
      cases stack with
      | nil => exact h.running hmem htask
      | cons top rest =>
        rcases List.mem_append.mp hmem with hmem | hmem
        · rcases callback_advance hmem htask with ⟨r₀, hr₀, hctx⟩ | ⟨frame', htop⟩
          · rw [hctx]
            exact h.live.context hr₀
          · exact h.running List.mem_cons_self htop
        · exact h.running (List.mem_cons_of_mem _ hmem) htask
    | pass _ => exact h.running hmem htask
    | call script _ =>
      rw [List.mem_singleton.mp hmem] at htask
      cases htask

/-- What stems from a unit runs, or is carried, in a context. -/
def InContext (m : Machine ν) (ctx : Context) : Offspring → Prop
  | .program height => ∃ frame ending, m.program? height = some (frame, ending) ∧
      frame.bind Frame.context? = some ctx
  | .request id => m.Bears id ctx ∧ ∃ dependencies definition,
      .submitted id dependencies definition ∈ m.loader.journal ∧
      (dependencies ≠ [] → ∃ resolver, .linked id resolver ctx ∈ m.loader.journal)

/-- A program that has just been started runs on top of the stack. -/
theorem started_top {event : Event ν} {older : List (Event ν)}
    (hj : m.step.loader.journal = event :: older) (hstarts : event.starts = true)
    (hnew : m.loader.journal.length ≤ older.length) :
    ∃ task new, task ∈ m.stack ∧ Starts m.loader task event new ∧
      m.step.program? m.step.top = new.program? := by
  obtain ⟨l, stack⟩ := m
  cases stack with
  | nil =>
    have hlength := congrArg List.length (show l.journal = event :: older from hj)
    rw [List.length_cons] at hlength
    have hnew : l.journal.length ≤ older.length := hnew
    omega
  | cons task rest =>
    obtain ⟨new, tasks, htasks, hprogram⟩ := started_advance hj hstarts hnew
    have hstack : (step ⟨l, task :: rest⟩).stack = new :: (tasks ++ rest) := by
      rw [step_of_cons rfl, htasks, List.cons_append]
    exact ⟨task, new, List.mem_cons_self, hprogram, program?_top hstack⟩

/-- Whoever is called back has been asked for before. -/
theorem submitted_of_callback (h : m.Reachable) {task : Task ν} {frame : Option Frame}
    {r : Request ν} (hmem : task ∈ m.stack)
    (htask : task.program? = some (frame, .callback id r)) :
    id ∈ submissions m.loader.journal := by
  have hduty : .conclude id r.definitionUrl ∈ dutiesOf m.stack := by
    refine List.mem_flatMap.mpr ⟨task, hmem, ?_⟩
    cases task with
    | body => cases htask; exact List.mem_cons_self
    | settling => cases htask; exact List.mem_cons_self
    | dispatch => cases htask
    | draining => cases htask
  obtain ⟨_, _, dependencies, hmade⟩ := h.accounts.running hduty
  exact List.mem_filterMap.mpr ⟨_, hmade, rfl⟩

/-- A program that makes a request has made at most a note before. -/
theorem submit_advance {l : Loader ν} {task : Task ν} {frame : Option Frame} {ending : Ending ν}
    (htask : task.program? = some (frame, ending)) (hsubmits : task.submits = true) :
    ∃ l₁ dependencies callback errback definition, Notes l l₁ ∧
      (advance l task).1 = l₁.submit frame dependencies callback errback definition := by
  cases task with
  | body frame script ending =>
    cases htask
    cases script with
    | require dependencies callback errback next => exact ⟨_, _, _, _, _, .refl l, rfl⟩
    | define dependencies factory errback next =>
      simp only [advance, perform]
      unfold Loader.bindDefinition
      split
      · exact ⟨_, _, _, _, _, .refl l, rfl⟩
      · rename_i url ctx
        have hreport : Event.IsNotice (.report (.extraDefinition url) : Event ν) := trivial
        exact ⟨_, _, _, _, _, (Notes.refl l).record hreport, rfl⟩
      · exact ⟨_, _, _, _, _, .refl l, rfl⟩
    | _ => cases hsubmits
  | _ => cases hsubmits

theorem submissions_of_notes {l l' : Loader ν} (h : Notes l l') :
    submissions l'.journal = submissions l.journal := by
  obtain ⟨events, hj, hall⟩ := h.journal
  have hnone : submissions events = [] := by
    refine List.filterMap_eq_nil_iff.mpr fun e he => ?_
    have hnotice := hall e he
    cases e <;> first | rfl | cases hnotice
  rw [hj, submissions, List.filterMap_append, ← submissions, hnone, List.nil_append, submissions]

/-- A request is in the context of the program that makes it. -/
theorem inContext_submit (h : m.Reachable) (hctx : m.InContext ctx (.program m.top))
    (hsubmits : m.submits = true)
    (hj : submissions m.step.loader.journal = id :: submissions m.loader.journal) :
    m.step.InContext ctx (.request id) := by
  have hnew : id ∉ submissions m.loader.journal := by
    have hnodup := (h.goes (.step m)).accounts.orderly.nodup_submissions
    rw [hj] at hnodup
    exact (List.nodup_cons.mp hnodup).1
  obtain ⟨frame, ending, hprogram, hframe⟩ := hctx
  cases hstack : m.stack with
  | nil =>
    rw [submits, hstack] at hsubmits
    cases hsubmits
  | cons task rest =>
    rw [program?_top hstack] at hprogram
    have hsubmits : task.submits = true := by simpa [submits, hstack] using hsubmits
    obtain ⟨l₁, dependencies, callback, errback, definition, hnotes, heq⟩ :=
      submit_advance (l := m.loader) hprogram hsubmits
    have hctx : l₁.context? frame = some ctx := by
      unfold Loader.context?
      rw [hframe]
    have hlinked : l₁.AllLinked := by
      unfold Loader.AllLinked Loader.Linked
      rw [hnotes.registry, hnotes.requests, hnotes.worklist, hnotes.bootstrap]
      exact h.allLinked
    rw [step_of_cons hstack] at hj ⊢
    simp only [heq] at hj ⊢
    rw [← submissions_of_notes hnotes] at hj
    obtain ⟨hcarries, hmade, hlinked⟩ :=
      Loader.carries_submit hlinked hctx dependencies callback errback definition hj
    refine ⟨⟨hcarries, ?_⟩, dependencies, definition, hmade, fun hne => ⟨_, hlinked hne⟩⟩
    -- Nobody is called back who has not been asked for.
    intro task' frame' r hmem htask'
    refine absurd ?_ hnew
    rcases List.mem_append.mp hmem with hmem | hmem
    · rcases callback_advance hmem htask' with ⟨r₀, hr₀, _⟩ | ⟨_, hrunning⟩
      · exact (h.accounts.live_iff.mp ⟨r₀, hr₀⟩).1
      · exact submitted_of_callback h (hstack ▸ List.mem_cons_self) hrunning
    · exact submitted_of_callback h (hstack ▸ List.mem_cons_of_mem _ hmem) htask'

/-- Whatever stems from a unit is in the context of where the unit was fetched. -/
theorem Stems.inContext {x : Offspring} (h : Stems t m x) :
    ∃ ctx, Context.ofUrl t.url = .ok ctx ∧ m.InContext ctx x := by
  induction h with
  | enter h hj hnew =>
    obtain ⟨task, new, _, hstarts, htop⟩ := started_top hj rfl hnew
    cases hstarts with
    | enter _ _ _ hctx => exact ⟨_, hctx, _, _, htop, rfl⟩
  | submit h hsubmits hj ih =>
    obtain ⟨ctx, hofUrl, hctx⟩ := ih
    exact ⟨ctx, hofUrl, inContext_submit h.reachable hctx hsubmits hj⟩
  | call h hj hnew ih =>
    obtain ⟨ctx, hofUrl, hbears, _⟩ := ih
    obtain ⟨task, new, _, hstarts, htop⟩ := started_top hj rfl hnew
    cases hstarts with
    | call hlive hr =>
      exact ⟨ctx, hofUrl, _, _, htop, (context_of_filled hr).trans (hbears.live.context hlive)⟩
  | handle h hj hnew ih =>
    obtain ⟨ctx, hofUrl, hbears, _⟩ := ih
    obtain ⟨task, new, hmem, hstarts, htop⟩ := started_top hj rfl hnew
    cases hstarts with
    | handle hr _ _ =>
      refine ⟨ctx, hofUrl, _, _, htop, ?_⟩
      rcases hr with hlive | ⟨frame, hrunning⟩
      · exact hbears.live.context hlive
      · exact hbears.running hmem hrunning
  | goOn h hends hgo ih =>
    obtain ⟨ctx, hofUrl, frame, ending, hprogram, hctx⟩ := ih
    obtain ⟨frame', hprogram', hsame⟩ := program?_goes hprogram hends hgo
    exact ⟨ctx, hofUrl, frame', ending, hprogram', hsame.trans hctx⟩
  | last h hgo ih =>
    obtain ⟨ctx, hofUrl, hbears, dependencies, definition, hmade, hlinked⟩ := ih
    have hlasts := (h.reachable.lasts (.single hgo)).journal
    refine ⟨ctx, hofUrl, hbears.goes h.reachable hgo, dependencies, definition,
      hlasts.mem hmade, fun hne => ?_⟩
    obtain ⟨resolver, hmem⟩ := hlinked hne
    exact ⟨resolver, hlasts.mem hmem⟩

/-- What can happen to a machine while the program at a height is running. -/
def GoesOver (height : Nat) (m m' : Machine ν) : Prop := m.ends height = false ∧ m.Goes m'

/-- As long as a program is running it does so in one context. -/
theorem program?_run {height : Nat} {frame : Option Frame} {ending : Ending ν}
    (h : m.program? height = some (frame, ending)) (hrun : ReflTransGen (GoesOver height) m m') :
    ∃ frame', m'.program? height = some (frame', ending) ∧
      frame'.bind Frame.context? = frame.bind Frame.context? := by
  induction hrun with
  | refl => exact ⟨frame, h, rfl⟩
  | tail _ hgo ih =>
    obtain ⟨frame', hprogram, hsame⟩ := ih
    obtain ⟨frame'', hprogram', hsame'⟩ := program?_goes hprogram hgo.1 hgo.2
    exact ⟨frame'', hprogram', hsame'.trans hsame⟩

end Machine

open Machine in
/-- At every moment of every run. A program that stems from what was fetched at a URL, be it the
unit or script itself or a callback, factory or error handler of a request that does, runs with the
directory of the URL as its local URL. A request that does is not deferred, and is linked in the
context of the URL and in no other, if it names dependencies at all. And whatever happens until a
program ends, what it asks the loader for included, it keeps its local URL. -/
theorem lexical_contexts (m : Machine ν) :
    (∀ t height, m.Stems t (.program height) → ∃ ctx frame ending,
      Context.ofUrl t.url = .ok ctx ∧ t.url.directory = .ok ctx.base ∧
      m.program? height = some (frame, ending) ∧
      (m.loader.view frame).localUrl = some ctx.base) ∧
    (∀ t id, m.Stems t (.request id) → ∃ ctx dependencies definition,
      Context.ofUrl t.url = .ok ctx ∧ id ∉ m.loader.bootstrap.deferred ∧
      .submitted id dependencies definition ∈ m.loader.journal ∧
      (dependencies ≠ [] → (∃ resolver, .linked id resolver ctx ∈ m.loader.journal) ∧
        ∀ resolver ctx', .linked id resolver ctx' ∈ m.loader.journal → ctx' = ctx)) ∧
    ∀ height frame ending m', m.program? height = some (frame, ending) →
      ReflTransGen (GoesOver height) m m' → ∃ frame', m'.program? height = some (frame', ending) ∧
        (m'.loader.view frame').localUrl = (m.loader.view frame).localUrl := by
  refine ⟨?_, ?_, ?_⟩
  · intro t height h
    obtain ⟨ctx, hofUrl, frame, ending, hprogram, hctx⟩ := h.inContext
    refine ⟨ctx, frame, ending, hofUrl, Context.directory_of_ofUrl hofUrl, hprogram, ?_⟩
    show (frame.bind Frame.context?).map (·.base) = _
    rw [hctx]
    rfl
  · intro t id h
    obtain ⟨ctx, hofUrl, hbears, dependencies, definition, hmade, hlinked⟩ := h.inContext
    refine ⟨ctx, dependencies, definition, hofUrl, hbears.live.undeferred, hmade, fun hne => ?_⟩
    obtain ⟨resolver, hmem⟩ := hlinked hne
    exact ⟨⟨resolver, hmem⟩, fun _ _ hmem' => (h.reachable.traced.linked_unique hmem hmem').2⟩
  · intro height frame ending m' hprogram hrun
    obtain ⟨frame', hprogram', hsame⟩ := program?_run hprogram hrun
    refine ⟨frame', hprogram', ?_⟩
    show (frame'.bind Frame.context?).map (·.base) = (frame.bind Frame.context?).map (·.base)
    rw [hsame]

/-- A unit that asks for what fails, and for nothing else. -/
def askingResources (t : Target) : Option (Fetched (Script Unit)) :=
  if t.key = "a:/d/a.js" then
    some (.code (.require ["./b.js"] (fun _ => .finish .done)
      (some fun _ => .note () (.finish .done)) (.finish .done)))
  else some (.code (.finish (.error "")))

/-- While the request of a unit is on its way, another context is set up. -/
def straying : Machine Unit :=
  Machine.run 6 (Machine.start (Loader.new {} askingResources)
    (.configure "a:/" fun _ =>
      .require ["./d/a.js"] (fun _ => .finish .done) none
        (.turn fun _ =>
          .configure "a:/e/" fun _ =>
            .turn fun _ => .finish .done)))

/-- The moment at which the request of the unit is about to have failed. -/
def strayed : Machine Unit := Machine.run 12 straying.step.step

open Machine in
theorem lexical_contexts_strayed :
    (strayed.step.loader.view none).baseUrl.map Url.toString = some "a:/e/" ∧
    ∃ (t : Target) (ctx : Context) (resolver : Resolver), t.key = "a:/d/a.js" ∧
      Context.ofUrl t.url = .ok ctx ∧ .linked ⟨1, 2⟩ resolver ctx ∈ strayed.loader.journal ∧
      ∃ frame ending, strayed.step.program? 2 = some (frame, ending) ∧
        (strayed.step.loader.view frame).localUrl = some ctx.base ∧
        ∃ frame', strayed.step.step.program? 2 = some (frame', ending) ∧
          (strayed.step.step.loader.view frame').localUrl = some ctx.base := by
  have hreach : straying.Reachable := (reachable_start _ _ _).run 6
  obtain ⟨t, older, hentered, hkey⟩ : ∃ (t : Target) (older : List (Event Unit)),
      straying.step.loader.journal = .entered t .module :: older ∧ t.key = "a:/d/a.js" := by
    have hhead : (straying.step.loader.journal.head?.bind Event.entered?).map
        (fun p => (p.1.key, p.2)) = some ("a:/d/a.js", .module) := by decide +kernel
    obtain ⟨p, hfound, hkey⟩ := Option.map_eq_some_iff.mp hhead
    obtain ⟨event, hevent, hfound⟩ := Option.bind_eq_some_iff.mp hfound
    obtain ⟨older, hjournal⟩ := List.head?_eq_some_iff.mp hevent
    cases event with
    | entered t role =>
      cases hfound
      obtain ⟨hkey, rfl⟩ := Prod.mk.inj hkey
      exact ⟨t, older, hjournal, hkey⟩
    | _ => cases hfound
  have hlength : straying.loader.journal.length + 1 ≤ straying.step.loader.journal.length := by
    decide +kernel
  rw [hentered, List.length_cons] at hlength
  have hunit : straying.step.Stems t (.program straying.step.top) :=
    .enter hreach hentered (by omega)
  have hrequest : strayed.Stems t (.request ⟨1, 2⟩) :=
    (Stems.submit hunit (by decide +kernel) (by decide +kernel)).run 12
  obtain ⟨e, older', hhandled⟩ : ∃ (e : LoadError) (older' : List (Event Unit)),
      strayed.step.loader.journal = .handled ⟨1, 2⟩ e :: older' := by
    have hhead : strayed.step.loader.journal.head?.bind Event.handled? = some ⟨1, 2⟩ := by
      decide +kernel
    obtain ⟨event, hevent, hfound⟩ := Option.bind_eq_some_iff.mp hhead
    obtain ⟨older, hjournal⟩ := List.head?_eq_some_iff.mp hevent
    cases event with
    | handled id e =>
      cases hfound
      exact ⟨e, older, hjournal⟩
    | _ => cases hfound
  have hlength' : strayed.loader.journal.length + 1 ≤ strayed.step.loader.journal.length := by
    decide +kernel
  rw [hhandled, List.length_cons] at hlength'
  have hhandler : strayed.step.Stems t (.program 2) :=
    Stems.handle hrequest hhandled (by omega)
  have hnames : (strayed.loader.journal.all
      (·.submittedWith? != some (⟨1, 2⟩, []))) = true := by decide +kernel
  obtain ⟨_, hrequests, _⟩ := lexical_contexts strayed
  obtain ⟨hprograms, _, hkept⟩ := lexical_contexts strayed.step
  obtain ⟨ctx, dependencies, definition, hofUrl, _, hmade, hlinked⟩ := hrequests t _ hrequest
  obtain ⟨ctx', frame, ending, hofUrl', _, hprogram, hlocal⟩ := hprograms t 2 hhandler
  rw [hofUrl] at hofUrl'
  cases hofUrl'
  obtain ⟨⟨resolver, hmem⟩, _⟩ := hlinked (by
    rintro rfl
    exact bne_iff_ne.mp (List.all_eq_true.mp hnames _ hmade) rfl)
  obtain ⟨frame', hprogram', hsame⟩ := hkept 2 frame ending _ hprogram
    (.single ⟨by decide +kernel, .step _⟩)
  exact ⟨by decide +kernel, t, ctx, resolver, hkey, hofUrl, hmem, frame, ending, hprogram,
    hlocal, frame', hprogram', hsame.trans hlocal⟩

end AsyncModule
