import AsyncModule.Proofs.Aloof
import AsyncModule.Proofs.Calls
import AsyncModule.Proofs.Dropped
import AsyncModule.Proofs.Once

/-!
# AsyncModule.Proofs.Striking

What failing one request does to a loader: the request is taken out of everything, its failure is
told, and the module that it was to define fails with it.

* `AllLinked.get?_withdraw` — what taking a request out makes of the records.
* `Loader.get?_abandonModule` — what the failure of a module makes of the records.
* `Machine.strike_steps`    — a step of the worklist fails a request whose error handler leaves the
  loader alone.
-/

namespace AsyncModule

variable {ν : Type}

/-- The record of a module that has failed. -/
def Record.fell (rec : Record) (e : LoadError) : Record :=
  { rec with state := .failed e, waiters := [], definition := none }

/-- The record once nothing waits for its module on behalf of some requests. -/
def Record.without (rec : Record) (gone : List RequestId) : Record :=
  { rec with waiters := rec.waiters.filter (·.request ∉ gone) }

theorem Record.without_nil (rec : Record) : rec.without [] = rec := by simp [without]

theorem Record.without_cons (rec : Record) (id : RequestId) (gone : List RequestId) :
    rec.without (id :: gone) = { rec.without gone with
      waiters := (rec.without gone).waiters.filter (·.request != id) } := by
  simp only [without, List.filter_filter]
  refine congrArg (fun ws => { rec with waiters := ws }) (List.filter_congr fun w _ => ?_)
  by_cases hid : w.request = id <;> simp [hid]

/-- What has been noted, but for the notes that programs take. -/
def deeds (j : List (Event ν)) : List (Event ν) :=
  j.filter fun
    | .note _ => false
    | _ => true

/-- What is told of a request that fails, the newest first: the failure, and the start of its error
handler; without one it is reported, unless a module fails with it. -/
def Request.telling (r : Request ν) (id : RequestId) (e : LoadError) : List (Event ν) :=
  match r.errback, r.definitionUrl with
  | some _, _ => [.handled id e, .failed id e]
  | none, some _ => [.failed id e]
  | none, none => [.report (.unhandled e), .failed id e]

@[simp] theorem deeds_append (newer older : List (Event ν)) :
    deeds (newer ++ older) = deeds newer ++ deeds older := List.filter_append ..

theorem AreNotes.deeds {notes : List (Event ν)} (h : AreNotes notes) : deeds notes = [] := by
  refine List.filter_eq_nil_iff.mpr fun event hevent => ?_
  obtain ⟨n, rfl⟩ := h event hevent
  exact Bool.false_ne_true

/-- One request fewer is live once one has been taken out. -/
theorem Requests.size_erase {rs : Requests ν} {id : RequestId} {r : Request ν}
    (hr : rs.get? id = some r) : (rs.erase id).size + 1 = rs.size := by
  have hmem : id ∈ rs.live.map (·.1) := List.mem_map.mpr ⟨(id, r), mem_live.mpr hr, rfl⟩
  have hperm : ((rs.erase id).live.map (·.1)).Perm ((rs.live.map (·.1)).erase id) := by
    rw [List.perm_ext_iff_of_nodup (nodup_live _) ((nodup_live rs).erase id)]
    intro id'
    rw [(nodup_live rs).mem_erase_iff]
    simp only [List.mem_map, Prod.exists, mem_live, exists_and_right, exists_eq_right, get?_erase]
    by_cases hid : id' = id <;> simp [hid]
  have hlength := hperm.length_eq
  rw [List.length_erase_of_mem hmem, List.length_map, List.length_map] at hlength
  have hpos : 0 < rs.live.length := List.length_pos_of_mem (mem_live.mpr hr)
  simp only [size]
  omega

theorem loads_deeds (j : List (Event ν)) : loads (deeds j) = loads j := by
  rw [loads, deeds, List.filterMap_filter]
  refine List.filterMap_congr fun event _ => ?_
  cases event <;> rfl

theorem Request.loads_telling (r : Request ν) (id : RequestId) (e : LoadError) :
    loads (r.telling id e) = [] := by
  unfold telling
  split <;> rfl

namespace Loader

variable {l : Loader ν} {id : RequestId} {r : Request ν} {url : String}

theorem get?_foldl_dropWaiters (urls : List String) (g : Registry) (id : RequestId) (u : String) :
    (urls.foldl (fun g url => g.dropWaiters url id) g).get? u = (g.get? u).map fun rec =>
      if u ∈ urls then { rec with waiters := rec.waiters.filter (·.request != id) } else rec := by
  induction urls generalizing g with
  | nil => simp
  | cons url rest ih =>
    rw [List.foldl_cons, ih, Registry.dropWaiters, Registry.get?_modify]
    cases g.get? u with
    | none => simp
    | some rec =>
      by_cases hu : u = url
      · by_cases hmem : u ∈ rest
        · simp [hu, hu ▸ hmem, List.filter_filter]
        · simp [hu, hu ▸ hmem]
      · simp [hu]

/-- Taking a request out takes its entries out of all waiters, and changes nothing else of any
record. -/
theorem AllLinked.get?_withdraw (h : l.AllLinked) (hr : l.requests.get? id = some r) (u : String) :
    (l.withdraw id r).registry.get? u = (l.registry.get? u).map fun rec =>
      { rec with waiters := rec.waiters.filter (·.request != id) } := by
  have hwaiters := Linked.waiters_withdraw h hr u
  simp only [withdraw] at hwaiters ⊢
  rw [get?_foldl_dropWaiters]
  cases hrec : l.registry.get? u with
  | none => rfl
  | some rec =>
    simp only [Registry.waiters, get?_foldl_dropWaiters, hrec, Option.map_some] at hwaiters ⊢
    split
    · rfl
    · rename_i hu
      simp only [if_neg hu] at hwaiters
      rw [← hwaiters]

theorem get?_abandonModule (hurl : l.registry.state? url = some .loading) (e : LoadError)
    (u : String) : (l.abandonModule url e).registry.get? u =
      if u = url then (l.registry.get? u).map (·.fell e) else l.registry.get? u := by
  obtain ⟨rec, hrec, hstate⟩ := Option.map_eq_some_iff.mp hurl
  simp only [abandonModule, Registry.markFailed, Registry.setDefinition, Registry.get?_settle,
    Registry.get?_modify]
  by_cases hu : u = url
  · simp [hu, hrec, hstate, ModuleState.isSettled, Record.fell]
  · simp [hu]

/-- The loader once a request has failed, and with it the module that it was to define. -/
def strike (l : Loader ν) (id : RequestId) (r : Request ν) (e : LoadError) : Loader ν :=
  match r.definitionUrl with
  | some url => (l.withdraw id r).abandonModule url e
  | none => l.withdraw id r

theorem requests_strike (l : Loader ν) (id : RequestId) (r : Request ν) (e : LoadError) :
    (l.strike id r e).requests = l.requests.erase id := by
  unfold strike
  split <;> rfl

theorem settings_strike (l : Loader ν) (id : RequestId) (r : Request ν) (e : LoadError) :
    (l.strike id r e).resolver = l.resolver ∧
      (l.strike id r e).bootstrap = l.bootstrap.forget id ∧
      (l.strike id r e).resources = l.resources ∧ (l.strike id r e).fetches = l.fetches := by
  unfold strike
  split <;> exact ⟨rfl, rfl, rfl, rfl⟩

/-- The records once a request has failed. -/
theorem AllLinked.get?_strike (h : l.AllLinked) (hr : l.requests.get? id = some r)
    (hloading : ∀ url, r.definitionUrl = some url → l.registry.state? url = some .loading)
    (work : List Step) (e : LoadError) (u : String) :
    (strike { l with worklist := work } id r e).registry.get? u =
      if r.definitionUrl = some u then (l.registry.get? u).map (·.fell e)
      else (l.registry.get? u).map fun rec =>
        { rec with waiters := rec.waiters.filter (·.request != id) } := by
  unfold strike
  cases hd : r.definitionUrl with
  | none => exact h.get?_withdraw hr u
  | some url =>
    have hstate : (withdraw { l with worklist := work } id r).registry.state? url =
        some .loading :=
      (state?_foldl_dropWaiters r.modules l.registry id url).trans (hloading url hd)
    have hrecord : (withdraw { l with worklist := work } id r).registry.get? u = _ :=
      h.get?_withdraw hr u
    simp only [get?_abandonModule hstate, hrecord, Option.some.injEq, eq_comm (a := u)]
    split
    · rw [Option.map_map]
      rfl
    · rfl

/-- What is to be done once a request has failed. -/
theorem AllLinked.worklist_strike (h : l.AllLinked) (hr : l.requests.get? id = some r)
    (hloading : ∀ url, r.definitionUrl = some url → l.registry.state? url = some .loading)
    (work : List Step) (e : LoadError) :
    (strike { l with worklist := work } id r e).worklist = work ++ match r.definitionUrl with
      | some url => ((l.registry.waiters url).filter (·.request != id)).map fun w =>
          .fail w.request (.dependency url e)
      | none => [] := by
  unfold strike
  cases hd : r.definitionUrl with
  | none => exact (List.append_nil _).symm
  | some url =>
    have hstate : (withdraw { l with worklist := work } id r).registry.state? url =
        some .loading :=
      (state?_foldl_dropWaiters r.modules l.registry id url).trans (hloading url hd)
    have hwaiters : (withdraw { l with worklist := work } id r).registry.waiters url = _ :=
      Linked.waiters_withdraw h hr url
    rw [worklist_abandonModule hstate, hwaiters]
    rfl

end Loader

namespace Machine

variable {l : Loader ν} {k : List (Task ν)} {id : RequestId} {r : Request ν}

/-- The next step of the worklist is processed. -/
theorem process_steps {l' : Loader ν} {tasks : List (Task ν)} {s : Step} {rest : List Step}
    (hw : l.worklist = s :: rest) (hprocess : process { l with worklist := rest } s = (l', tasks)) :
    Steps ⟨l, .draining :: k⟩ ⟨l', tasks ++ .draining :: k⟩ := by
  have hstep := draining_steps l hw k
  rwa [hprocess] at hstep

/-- A step for a request that is gone comes to nothing. -/
theorem stale_step {s : Step} {rest : List Step} (hw : l.worklist = s :: rest)
    (hgone : l.requests.get? s.request = none) :
    Steps ⟨l, .draining :: k⟩ ⟨{ l with worklist := rest }, .draining :: k⟩ :=
  process_steps hw (process_of_get?_eq_none hgone)

/-- Steps for requests that are gone come to nothing. -/
theorem stale_steps (work : List Step) :
    ∀ {l : Loader ν}, l.worklist = work → (∀ s ∈ work, l.requests.get? s.request = none) →
      Steps ⟨l, .draining :: k⟩ ⟨{ l with worklist := [] }, .draining :: k⟩ := by
  induction work with
  | nil =>
    intro l hw _
    rw [← hw]
    exact .refl
  | cons s rest ih =>
    intro l hw hgone
    exact (stale_step hw (hgone s List.mem_cons_self)).trans
      (ih rfl fun s' hs' => hgone s' (List.mem_cons_of_mem _ hs'))

/-- Once a request has been taken out, the module that it was to define fails, and drops no other
definition. -/
theorem failDefinition_withdraw (l : Loader ν)
    (hdefined : ∀ url, r.definitionUrl = some url → l.registry.definition? url = some id)
    (e : LoadError) (values : Nat) (journal : List (Event ν)) :
    failDefinition { l.withdraw id r with values, journal } r.definitionUrl e =
      ({ l.strike id r e with values, journal }, []) := by
  unfold Loader.strike
  cases hd : r.definitionUrl with
  | none => rfl
  | some url =>
    refine failModule_of_none (fun id' hid' => ?_) e
    have hid : (l.withdraw id r).registry.definition? url = some id :=
      (Loader.definition?_foldl_dropWaiters r.modules l.registry id url).trans (hdefined url hd)
    cases hid.symm.trans hid'
    exact (Requests.get?_erase l.requests id id).trans (if_pos rfl)

/-- The failure of a request that has been taken out is told, and the module that it was to define
fails. -/
theorem report_withdraw_steps (l : Loader ν) (k : List (Task ν)) {e : LoadError}
    (hdefined : ∀ url, r.definitionUrl = some url → l.registry.definition? url = some id)
    (haloof : ∀ handler, r.errback = some handler → (handler e).Aloof fun _ => True) :
    ∃ values new, deeds new = r.telling id e ∧
      Steps ⟨(report (l.withdraw id r) id r e).1, (report (l.withdraw id r) id r e).2 ++ k⟩
        ⟨{ l.strike id r e with values, journal := new ++ l.journal }, k⟩ := by
  cases hhandler : r.errback with
  | some handler =>
    obtain ⟨values, notes, o, _, hnotes, hruns⟩ := aloof_steps (haloof handler hhandler)
      (((l.withdraw id r).record (.failed id e)).record (.handled id e))
      (some (.callback r.context)) (.errback r.definitionUrl e) k
    refine ⟨values, notes ++ [.handled id e, .failed id e], ?_, ?_⟩
    · rw [deeds_append, hnotes.deeds, Request.telling, hhandler]
      rfl
    · simp only [report, hhandler, handle]
      rw [List.append_assoc]
      exact hruns.trans (Steps.advance
        (show advance _ (.body (some (.callback r.context)) (.finish o)
            (.errback r.definitionUrl e)) = _ from failDefinition_withdraw l hdefined e values _))
  | none =>
    have hfail := failDefinition_withdraw l hdefined e l.values (.failed id e :: l.journal)
    cases hd : r.definitionUrl with
    | some url =>
      refine ⟨l.values, [.failed id e], ?_, ?_⟩
      · rw [Request.telling, hhandler, hd]
        rfl
      · have hreport : report (l.withdraw id r) id r e =
            failDefinition ((l.withdraw id r).record (.failed id e)) r.definitionUrl e := by
          simp only [report, hhandler, hd, failDefinition]
        rw [hreport.trans hfail]
        exact .refl
    | none =>
      refine ⟨l.values, [.report (.unhandled e), .failed id e], ?_, ?_⟩
      · rw [Request.telling, hhandler, hd]
        rfl
      · simp only [report, hhandler, hd, Loader.strike]
        exact .refl

/-- The next step of the worklist fails a request. -/
theorem strike_steps {e : LoadError} {rest : List Step} (hw : l.worklist = .fail id e :: rest)
    (hr : l.requests.get? id = some r)
    (hdefined : ∀ url, r.definitionUrl = some url → l.registry.definition? url = some id)
    (haloof : ∀ handler, r.errback = some handler → (handler e).Aloof fun _ => True) :
    ∃ values new, deeds new = r.telling id e ∧
      Steps ⟨l, .draining :: k⟩
        ⟨{ Loader.strike { l with worklist := rest } id r e with
            values, journal := new ++ l.journal }, .draining :: k⟩ := by
  have hprocess : process { l with worklist := rest } (.fail id e) =
      report (Loader.withdraw { l with worklist := rest } id r) id r e := by
    simp only [process, failRequest, hr]
  obtain ⟨values, new, hnew, hsteps⟩ := report_withdraw_steps { l with worklist := rest }
    (.draining :: k) hdefined haloof
  have hstep := draining_steps l hw k
  rw [hprocess] at hstep
  exact ⟨values, new, hnew, hstep.trans hsteps⟩

end Machine
end AsyncModule
