import AsyncModule.Proofs.Accounts

/-!
# AsyncModule.Proofs.Once

Every request is settled at most once, and on one side.

* `maintained_gone` — a request that has been settled never lives again, even when another one is
  kept at its place.
* `settled_once`    — the whole statement, for every moment of every run.
-/

namespace AsyncModule

open Relation

variable {ν : Type}

namespace Requests

/-- The request has been made and is not live any more. -/
def Gone (rs : Requests ν) (id : RequestId) : Prop := rs.Issued id ∧ rs.get? id = none

variable {rs : Requests ν} {id : RequestId}

theorem Gone.modify (h : rs.Gone id) (id' : RequestId) (f : Request ν → Request ν) :
    (rs.modify id' f).Gone id := by
  refine ⟨by rw [Issued, serial_modify]; exact h.1, ?_⟩
  rw [get?_modify, h.2]
  split <;> rfl

theorem Gone.erase (h : rs.Gone id) (id' : RequestId) : (rs.erase id').Gone id := by
  refine ⟨by rw [Issued, serial_erase]; exact h.1, ?_⟩
  rw [get?_erase, h.2]
  split <;> rfl

theorem Gone.insert (h : rs.Gone id) (r : Request ν) : (rs.insert r).2.Gone id := by
  refine ⟨Nat.le_succ_of_le h.1, ?_⟩
  rw [get?_insert, if_neg (ne_insert_of_issued r h.1)]
  exact h.2

end Requests

namespace Loader

variable {l : Loader ν} {id : RequestId}

/-- The request has been made and is not live any more. -/
def Gone (l : Loader ν) (id : RequestId) : Prop := l.requests.Gone id

theorem keptByLinking_gone (id : RequestId) : KeptByLinking fun l : Loader ν => l.Gone id where
  linked _ _ h := h
  context id' _ h := Requests.Gone.modify h id' _
  stop _ h _ := h
  attach {l id' _} i t h _ _ := by
    unfold Gone
    rw [requests_attach]
    exact Requests.Gone.modify h id' _

theorem Gone.submit (h : l.Gone id) (frame : Option Frame) (dependencies : List String)
    (callback : List ModuleValue → Script ν) (errback : Option (LoadError → Script ν))
    (definitionUrl : Option String) :
    (l.submit frame dependencies callback errback definitionUrl).Gone id := by
  have henter : (l.enter (.ofCall dependencies callback errback (l.context? frame)
      definitionUrl)).2.Gone id := Requests.Gone.insert h _
  exact (keptByLinking_gone id).submit (fun _ h => h) (fun _ h => h) henter

theorem Gone.afterEstablishing (h : l.Gone id) (change : Bool × Bootstrap) :
    (l.afterEstablishing change).2.Gone id :=
  (keptByLinking_gone id).afterEstablishing (fun _ h => h) h change

theorem Gone.finishMain (h : l.Gone id) (t : Target) : (l.finishMain t).Gone id :=
  (keptByLinking_gone id).finishMain (fun _ h => h) h t

end Loader

open Loader in
theorem maintained_gone (id : RequestId) : Maintained fun (l : Loader ν) _ => l.Gone id where
  aside h _ := h
  make _ h := h
  fetches h _ := h
  arrive h _ := h
  enter _ h _ := h
  require frame dependencies callback errback h :=
    Gone.submit h frame dependencies callback errback none
  define _ _ dependencies factory errback h := Gone.submit h _ dependencies factory errback _
  unwatch h := h
  setDefaultBase _ h := h
  establish _ h := Gone.afterEstablishing h _
  beginMain _ _ h _ := h
  finishMain t h := Gone.finishMain h t
  ready _ h := h
  abandon _ h _ _ := h
  abandonDefinition _ h _ _ _ := Requests.Gone.erase h _
  finish h _ := h
  fault h _ := h
  handle h _ := h
  dispatch h _ := h
  redispatch h _ := h
  drained h _ := h
  dead h _ _ := h
  fill h _ _ _ := Requests.Gone.modify h _ _
  fillFire h _ _ _ := (Requests.Gone.modify h _ _).erase _
  fire h _ _ := Requests.Gone.erase h _
  fail h _ _ := Requests.Gone.erase h _

variable {m : Machine ν}

theorem Machine.Reachable.accounts (h : m.Reachable) :
    Accounts m.loader.requests m.loader.journal (dutiesOf m.stack) :=
  maintained_accounted.reachable (fun _ _ => Accounts.init) h

theorem process_of_get?_eq_none {l : Loader ν} {s : Step} (h : l.requests.get? s.request = none) :
    Machine.process l s = (l, []) := by
  cases s with
  | fill id i v => simp only [Machine.process, Machine.fill, show l.requests.get? id = none from h]
  | fire id => simp only [Machine.process, Machine.fire, show l.requests.get? id = none from h]
  | fail id e =>
    simp only [Machine.process, Machine.failRequest, show l.requests.get? id = none from h]

/-- The live requests are those submitted but neither called back nor reported. -/
theorem Accounts.size_add {rs : Requests ν} {j : List (Event ν)} {k : List Duty}
    (h : Accounts rs j k) :
    rs.size + (submissions j).countP (fun id => id ∈ calls j ∨ id ∈ failures j) =
      (submissions j).length := by
  have hperm : (rs.live.map (·.1)).Perm
      ((submissions j).filter fun id => ¬ decide (id ∈ calls j ∨ id ∈ failures j) = true) := by
    rw [List.perm_ext_iff_of_nodup (Requests.nodup_live rs) (h.orderly.nodup_submissions.filter _)]
    intro id
    rw [List.mem_filter, decide_eq_true_iff, decide_eq_true_iff, not_or, ← h.live_iff,
      List.mem_map]
    constructor
    · rintro ⟨⟨id', r⟩, hmem, rfl⟩
      exact ⟨r, Requests.mem_live.mp hmem⟩
    · rintro ⟨r, hr⟩
      exact ⟨(id, r), Requests.mem_live.mpr hr, rfl⟩
  have hsize : rs.size = (rs.live.map (·.1)).length := by rw [Requests.size, List.length_map]
  rw [hsize, hperm.length_eq, ← List.countP_eq_length_filter, Nat.add_comm]
  exact (List.length_eq_countP_add_countP _).symm

/-- In every run, at every moment: no request is made, called back or handled twice; a handler
that has been started is that of a request that was not called back before and is not from then
on, or it has been given the failure of the callback; once a request is gone, nothing that is still
queued for it does anything, then or later; and what is pending is what has been submitted less
what has been called back or reported. -/
theorem settled_once (h : m.Reachable) :
    ((submissions m.loader.journal).Nodup ∧ (calls m.loader.journal).Nodup ∧
      (handlings m.loader.journal).Nodup) ∧
    (∀ newer older id e, m.loader.journal = newer ++ .handled id e :: older →
      id ∉ calls newer ∧
      (id ∉ calls older ∨ ∃ o dependencies definition, .returned id o ∈ older ∧
        .submitted id dependencies definition ∈ older ∧ o.failure definition = some e)) ∧
    (∀ id ∈ submissions m.loader.journal, m.loader.requests.get? id = none →
      ∀ m', ReflTransGen Machine.Goes m m' → ∀ s : Step, s.request = id →
        Machine.process m'.loader s = (m'.loader, [])) ∧
    (m.loader.view none).pendingRequests +
      (submissions m.loader.journal).countP (fun id =>
        id ∈ calls m.loader.journal ∨ id ∈ failures m.loader.journal) =
      (submissions m.loader.journal).length := by
  have ha := h.accounts
  refine ⟨⟨ha.orderly.nodup_submissions, ha.orderly.nodup_calls, ha.orderly.nodup_handlings⟩,
    ?_, ?_, ha.size_add⟩
  · intro newer older id e hj
    have ho := ha.orderly
    rw [hj] at ho
    exact ho.error_of_handled
  · rintro id hid hgone m' hrun s rfl
    have hgone' := (maintained_gone s.request).later h ⟨ha.issued hid, hgone⟩ hrun
    exact process_of_get?_eq_none hgone'.2

/-- A request of one module that cannot be fetched, after its error handler has run. -/
def oneHandled : Machine Unit :=
  (Machine.start (Loader.new {} fun t => some (.failed (.fetch t.key "gone")))
    (.configure "a:/" fun _ => .require ["./x.js"] (fun _ => .finish .done)
      (some fun _ => .finish .done) (.turn fun _ => .finish .done))).run 20

theorem settled_once_handled :
    handlings oneHandled.loader.journal = [⟨0, 1⟩] ∧ calls oneHandled.loader.journal = [] ∧
      (oneHandled.loader.view none).pendingRequests + 1 = 1 := by
  have hreach : oneHandled.Reachable := (Machine.reachable_start _ _ _).run 20
  have hpending := (settled_once hreach).2.2.2
  have hcount : (submissions oneHandled.loader.journal).countP (fun id =>
      id ∈ calls oneHandled.loader.journal ∨ id ∈ failures oneHandled.loader.journal) = 1 := by
    decide +kernel
  have hlength : (submissions oneHandled.loader.journal).length = 1 := by decide +kernel
  rw [hcount, hlength] at hpending
  exact ⟨by decide +kernel, by decide +kernel, hpending⟩

end AsyncModule
