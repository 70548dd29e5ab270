import AsyncModule.Proofs.Attach
import AsyncModule.Proofs.Runs

/-!
# AsyncModule.Proofs.Attendance

The worklist is never left behind. As long as there is a step in it some task on the stack will
work it off, and there is such a task beneath every program but those that call from outside.

* `maintained_attended` — everything the machine does keeps the worklist attended to.
-/

namespace AsyncModule

variable {ν : Type}

namespace Duty

/-- Whether the worklist will be seen to. -/
def IsWork : Duty → Prop
  | dispatch => True
  | drain => True
  | _ => False

end Duty

/-- Beneath every duty of a program somebody sees to the worklist. -/
def Grounded : List Duty → Prop
  | [] => True
  | d :: k => (d.IsWork ∨ ∃ d' ∈ k, d'.IsWork) ∧ Grounded k

structure Attended (l : Loader ν) (k : List Duty) : Prop where
  grounded : Grounded k
  drains : k.count .drain = if l.dispatching then 1 else 0
  work : l.worklist ≠ [] → ∃ d ∈ k, d.IsWork

namespace Attended

variable {l l' : Loader ν} {k : List Duty} {d : Duty}

/-- Beneath a program somebody sees to the worklist, whatever the program does to it. -/
theorem beneath (h : Attended l (d :: k)) (hd : ¬ d.IsWork)
    (hf : l'.dispatching = l.dispatching) : Attended l' k := by
  obtain ⟨hwork, hground⟩ := h.grounded
  refine ⟨hground, ?_, fun _ => hwork.resolve_left hd⟩
  have hne : d ≠ .drain := by
    rintro rfl
    exact hd trivial
  rw [hf, ← h.drains, List.count_cons_of_ne hne]

theorem sameWork (h : Attended l k) (hf : l'.dispatching = l.dispatching)
    (hw : l'.worklist = l.worklist) : Attended l' k :=
  ⟨h.grounded, by rw [hf, h.drains], by rw [hw]; exact h.work⟩

theorem dispatched (h : Attended l k) (hf : l'.dispatching = l.dispatching) :
    Attended l' (.dispatch :: k) where
  grounded := ⟨.inl trivial, h.grounded⟩
  drains := by rw [hf, ← h.drains, List.count_cons_of_ne (by simp)]
  work _ := ⟨.dispatch, List.mem_cons_self, trivial⟩

theorem taken {d' : Duty} (h : Attended l k) (hk : ∃ d ∈ k, d.IsWork) (hd' : d' ≠ .drain) :
    Attended l (d' :: k) where
  grounded := ⟨.inr hk, h.grounded⟩
  drains := by rw [← h.drains, List.count_cons_of_ne hd']
  work _ := by
    obtain ⟨d, hmem, hd⟩ := hk
    exact ⟨d, List.mem_cons_of_mem _ hmem, hd⟩

theorem takenOver {definition : Option String} (h : Attended l k) (hk : ∃ d ∈ k, d.IsWork) :
    Attended l (Duty.ofDefinition definition ++ k) := by
  cases definition with
  | none => exact h
  | some url => exact h.taken hk (by simp)

theorem draining (h : Attended l (.drain :: k)) (hf : l'.dispatching = l.dispatching) :
    Attended l' (.drain :: k) :=
  ⟨h.grounded, by rw [hf, h.drains], fun _ => ⟨.drain, List.mem_cons_self, trivial⟩⟩

theorem above (h : Attended l (.drain :: k)) (hf : l'.dispatching = l.dispatching)
    (definition : Option String) : Attended l' (Duty.ofDefinition definition ++ .drain :: k) :=
  (h.draining hf).takenOver ⟨.drain, List.mem_cons_self, trivial⟩

theorem called (h : Attended l (.drain :: k)) (hf : l'.dispatching = l.dispatching)
    (id : RequestId) (definition : Option String) :
    Attended l' (.conclude id definition :: Duty.ofDefinition definition ++ .drain :: k) :=
  (h.above hf definition).taken ⟨.drain, by simp, trivial⟩ (by simp)

end Attended

namespace Loader

theorem keptByLinking_dispatching (b : Bool) :
    KeptByLinking fun l : Loader ν => l.dispatching = b where
  linked _ _ h := h
  context _ _ h := h
  stop _ h _ := h
  attach i t h _ _ := by
    rw [← h]
    unfold Loader.attach
    dsimp only
    split <;> rfl

variable (l : Loader ν)

@[simp] theorem dispatching_submit (frame : Option Frame) (dependencies : List String)
    (callback : List ModuleValue → Script ν) (errback : Option (LoadError → Script ν))
    (definitionUrl : Option String) :
    (l.submit frame dependencies callback errback definitionUrl).dispatching = l.dispatching :=
  (keptByLinking_dispatching l.dispatching).begin rfl (fun _ => rfl) fun _ _ => rfl

@[simp] theorem dispatching_afterEstablishing (change : Bool × Bootstrap) :
    (l.afterEstablishing change).2.dispatching = l.dispatching := by
  unfold afterEstablishing
  dsimp only
  split
  · exact (keptByLinking_dispatching l.dispatching).drainDeferred (fun _ => rfl) rfl
  · rfl

@[simp] theorem dispatching_finishMain (t : Target) :
    (l.finishMain t).dispatching = l.dispatching := by
  unfold finishMain
  dsimp only
  split
  · exact dispatching_afterEstablishing l _
  · rfl

end Loader

theorem maintained_attended : Maintained fun (l : Loader ν) k => Attended l k where
  aside h _ := h.sameWork rfl rfl
  make _ h := h.sameWork rfl rfl
  fetches h _ := h.sameWork rfl rfl
  arrive {l k f _ _} h _ := by
    refine Attended.taken (h.dispatched rfl) ⟨.dispatch, List.mem_cons_self, trivial⟩ ?_
    cases f.role <;> simp [Duty.ofRole]
  enter _ h _ := h.sameWork rfl rfl
  require frame dependencies callback errback h := h.dispatched (by simp)
  define ctx defined dependencies factory errback h := by
    have hwork := h.grounded.1.resolve_left not_false
    exact Attended.dispatched ((h.beneath not_false rfl).taken hwork (by simp)) (by simp)
  unwatch h := h.beneath not_false rfl
  setDefaultBase _ h := h.sameWork rfl rfl
  establish {l k} ctx h := by
    split
    · exact h.dispatched (by simp)
    · rename_i hb
      refine h.sameWork (by simp) ?_
      have hfalse : (l.bootstrap.establish ctx).1 = false := by
        simpa [Loader.afterEstablishing] using hb
      simp [Loader.afterEstablishing, hfalse]
  beginMain _ _ h _ := h.sameWork rfl rfl
  finishMain t h := h.beneath not_false (by simp)
  ready v h := h.beneath not_false rfl
  abandon e h hm _ := by
    rcases hm with rfl | rfl
    · exact h.beneath not_false rfl
    · exact h.beneath not_false rfl
  abandonDefinition e h hm _ _ := by
    rcases hm with rfl | rfl
    · exact h.beneath not_false rfl
    · exact h.beneath not_false rfl
  finish h _ := h.beneath not_false rfl
  fault h _ := h.beneath not_false rfl
  handle h _ := h.sameWork rfl rfl
  dispatch {l k} h hd := by
    have hcount := h.drains
    rw [hd, List.count_cons_of_ne (by simp)] at hcount
    refine ⟨⟨.inl trivial, h.grounded.2⟩, ?_, fun _ => ⟨.drain, List.mem_cons_self, trivial⟩⟩
    rw [List.count_cons_self, hcount]
    rfl
  redispatch {l k} h hd := by
    have hcount := h.drains
    rw [hd, List.count_cons_of_ne (by simp)] at hcount
    refine ⟨h.grounded.2, by rw [hcount, hd], fun _ => ⟨.drain, ?_, trivial⟩⟩
    exact List.count_pos_iff.mp (by rw [hcount]; decide)
  drained {l k} h hw := by
    have hcount := h.drains
    rw [List.count_cons_self] at hcount
    refine ⟨h.grounded.2, ?_, fun hne => absurd hw hne⟩
    show k.count .drain = 0
    split at hcount <;> omega
  dead h _ _ := h.draining rfl
  fill h _ _ _ := h.draining rfl
  fillFire h _ _ _ := h.called (by rfl) _ _
  fire h _ _ := h.called (by rfl) _ _
  fail h _ _ := h.above (by rfl) _

end AsyncModule
