import AsyncModule.Proofs.Attach
import AsyncModule.Proofs.Linked
import AsyncModule.Proofs.Runs

/-!
# AsyncModule.Proofs.Accounts

The journal accounts for every request. It is called back at most once and its failure reported at
most once; both happen only when the callback itself has failed, and the error reported is then
the callback's. The live requests are those that are still to be settled.

* `Orderly`              — how the events that concern one request follow one another.
* `maintained_accounted`  — everything the machine does keeps the accounts.
-/

namespace AsyncModule

variable {ν : Type}

namespace Event

def submitted? : Event ν → Option RequestId
  | submitted id _ _ => some id
  | _ => none

def called? : Event ν → Option RequestId
  | called id _ => some id
  | _ => none

def failed? : Event ν → Option RequestId
  | failed id _ => some id
  | _ => none

def handled? : Event ν → Option RequestId
  | handled id _ => some id
  | _ => none

/-- Whether an event concerns no request that is being settled. -/
def IsNeutral : Event ν → Prop
  | submitted _ _ _ => False
  | called _ _ => False
  | returned _ _ => False
  | failed _ _ => False
  | handled _ _ => False
  | _ => True

theorem IsAside.isNeutral {e : Event ν} (h : e.IsAside) : e.IsNeutral := by
  cases e with
  | report r => trivial
  | note n => trivial
  | _ => cases h

end Event

def submissions (j : List (Event ν)) : List RequestId := j.filterMap Event.submitted?

/-- The requests whose callbacks have been started. -/
def calls (j : List (Event ν)) : List RequestId := j.filterMap Event.called?

def failures (j : List (Event ν)) : List RequestId := j.filterMap Event.failed?

/-- The requests whose error handlers have been started. -/
def handlings (j : List (Event ν)) : List RequestId := j.filterMap Event.handled?

theorem mem_calls {j : List (Event ν)} {id : RequestId} :
    id ∈ calls j ↔ ∃ values, .called id values ∈ j := by
  rw [calls, List.mem_filterMap]
  constructor
  · rintro ⟨e, he, hid⟩
    cases e with
    | called id' values =>
      cases hid
      exact ⟨values, he⟩
    | _ => cases hid
  · rintro ⟨values, h⟩
    exact ⟨_, h, rfl⟩

@[simp] theorem failures_append (newer older : List (Event ν)) :
    failures (newer ++ older) = failures newer ++ failures older := List.filterMap_append

/-- Whether an event may come after what has happened before. -/
def Event.Follows (older : List (Event ν)) : Event ν → Prop
  | .submitted id _ _ => id ∉ submissions older
  | .called id _ => id ∈ submissions older ∧ id ∉ calls older ∧ id ∉ failures older
  | .returned id _ => id ∈ calls older ∧ id ∉ failures older
  | .failed id e => id ∈ submissions older ∧ id ∉ failures older ∧
      (id ∉ calls older ∨ ∃ o rest dependencies definition,
        older = .returned id o :: rest ∧ .submitted id dependencies definition ∈ rest ∧
          o.failure definition = some e)
  | .handled id e => ∃ rest, older = .failed id e :: rest
  | _ => True

def Orderly : List (Event ν) → Prop
  | [] => True
  | e :: older => e.Follows older ∧ Orderly older

namespace Orderly

variable {j newer older : List (Event ν)} {e : Event ν}

theorem ofAppend (h : Orderly (newer ++ older)) : Orderly older := by
  induction newer with
  | nil => exact h
  | cons e newer ih => exact ih h.2

/-- What is noted of a request after it has been submitted concerns a request that has been. -/
theorem nodup_submissions (h : Orderly j) : (submissions j).Nodup := by
  induction j with
  | nil => exact .nil
  | cons e older ih =>
    obtain ⟨hf, h⟩ := h
    cases e with
    | submitted id dependencies definition => exact List.nodup_cons.mpr ⟨hf, ih h⟩
    | _ => exact ih h

theorem nodup_calls (h : Orderly j) : (calls j).Nodup := by
  induction j with
  | nil => exact .nil
  | cons e older ih =>
    obtain ⟨hf, h⟩ := h
    cases e with
    | called id values => exact List.nodup_cons.mpr ⟨hf.2.1, ih h⟩
    | _ => exact ih h

theorem calls_subset (h : Orderly j) : calls j ⊆ submissions j := by
  induction j with
  | nil => exact List.Subset.refl _
  | cons e older ih =>
    obtain ⟨hf, h⟩ := h
    cases e with
    | called id values => exact List.cons_subset.mpr ⟨hf.1, ih h⟩
    | submitted id dependencies definition =>
      exact List.Subset.trans (ih h) (List.subset_cons_self id (submissions older))
    | _ => exact ih h

theorem failures_subset (h : Orderly j) : failures j ⊆ submissions j := by
  induction j with
  | nil => exact List.Subset.refl _
  | cons e older ih =>
    obtain ⟨hf, h⟩ := h
    cases e with
    | failed id e => exact List.cons_subset.mpr ⟨hf.1, ih h⟩
    | submitted id dependencies definition =>
      exact List.Subset.trans (ih h) (List.subset_cons_self id (submissions older))
    | _ => exact ih h

theorem handlings_subset (h : Orderly j) : handlings j ⊆ failures j := by
  induction j with
  | nil => exact List.Subset.refl _
  | cons e older ih =>
    obtain ⟨hf, h⟩ := h
    cases e with
    | handled id e =>
      obtain ⟨rest, rfl⟩ := hf
      exact List.cons_subset.mpr ⟨List.mem_cons_self, ih h⟩
    | failed id e => exact List.Subset.trans (ih h) (List.subset_cons_self id (failures older))
    | _ => exact ih h

theorem nodup_handlings (h : Orderly j) : (handlings j).Nodup := by
  induction j with
  | nil => exact .nil
  | cons e older ih =>
    obtain ⟨hf, h⟩ := h
    cases e with
    | handled id e =>
      obtain ⟨rest, rfl⟩ := hf
      exact List.nodup_cons.mpr ⟨fun hmem => h.1.2.1 (h.2.handlings_subset hmem), ih h⟩
    | _ => exact ih h

theorem not_mem_calls (h : Orderly (newer ++ older)) {id : RequestId} (hid : id ∈ failures older) :
    id ∉ calls newer := by
  induction newer with
  | nil => simp [calls]
  | cons e newer ih =>
    obtain ⟨hf, h⟩ := h
    cases e with
    | called id' values =>
      intro hmem
      rcases List.mem_cons.mp hmem with rfl | hmem
      · exact hf.2.2 (by rw [List.append_eq, failures_append]; exact List.mem_append_right _ hid)
      · exact ih h hmem
    | _ => exact ih h

/-- A handler gets the error of its request: one that is reported before any callback, or the
failure of the callback itself. -/
theorem error_of_handled {id : RequestId} {e : LoadError}
    (h : Orderly (newer ++ .handled id e :: older)) :
    id ∉ calls newer ∧
    (id ∉ calls older ∨ ∃ o dependencies definition, .returned id o ∈ older ∧
      .submitted id dependencies definition ∈ older ∧ o.failure definition = some e) := by
  have hhere := h.ofAppend
  obtain ⟨⟨rest, rfl⟩, hfailed, _⟩ := hhere
  refine ⟨h.not_mem_calls List.mem_cons_self, ?_⟩
  rcases hfailed.2.2 with hnot | ⟨o, rest', dependencies, definition, rfl, hsub, ho⟩
  · exact .inl hnot
  · refine .inr ⟨o, dependencies, definition, by simp, ?_, ho⟩
    exact List.mem_cons_of_mem _ (List.mem_cons_of_mem _ hsub)

end Orderly

def Duty.concluded? : Duty → Option RequestId
  | conclude id _ => some id
  | _ => none

/-- The journal, the live requests and the running callbacks agree. -/
structure Accounts (rs : Requests ν) (j : List (Event ν)) (k : List Duty) : Prop where
  orderly : Orderly j
  issued : ∀ {id}, id ∈ submissions j → rs.Issued id
  live_iff : ∀ {id}, (∃ r, rs.get? id = some r) ↔
    id ∈ submissions j ∧ id ∉ calls j ∧ id ∉ failures j
  made : ∀ {id r}, rs.get? id = some r →
    ∃ dependencies, .submitted id dependencies r.definitionUrl ∈ j
  running : ∀ {id definition}, .conclude id definition ∈ k → id ∈ calls j ∧ id ∉ failures j ∧
    ∃ dependencies, .submitted id dependencies definition ∈ j
  running_nodup : (k.filterMap Duty.concluded?).Nodup

namespace Accounts

variable {rs rs' : Requests ν} {j : List (Event ν)} {k k' : List Duty} {e : Event ν}
  {id : RequestId} {r : Request ν}

theorem init : Accounts (.empty : Requests ν) [] [] where
  orderly := trivial
  issued h := by cases h
  live_iff := by
    intro id
    constructor
    · rintro ⟨r, hr⟩
      cases hr
    · rintro ⟨h, _⟩
      cases h
  made h := by cases h
  running h := by cases h
  running_nodup := .nil

theorem neutral (h : Accounts rs j k) (he : e.IsNeutral) : Accounts rs (e :: j) k := by
  have hsub : submissions (e :: j) = submissions j := by
    cases e <;> first | rfl | cases he
  have hcalls : calls (e :: j) = calls j := by
    cases e <;> first | rfl | cases he
  have hfail : failures (e :: j) = failures j := by
    cases e <;> first | rfl | cases he
  refine ⟨⟨?_, h.orderly⟩, ?_, ?_, ?_, ?_, h.running_nodup⟩
  · cases e <;> trivial
  · intro id
    rw [hsub]
    exact h.issued
  · intro id
    rw [hsub, hcalls, hfail]
    exact h.live_iff
  · intro id r hr
    obtain ⟨dependencies, hmem⟩ := h.made hr
    exact ⟨dependencies, List.mem_cons_of_mem _ hmem⟩
  · intro id definition hk
    rw [hcalls, hfail]
    obtain ⟨hc, hf, dependencies, hmem⟩ := h.running hk
    exact ⟨hc, hf, dependencies, List.mem_cons_of_mem _ hmem⟩

/-- Requests may change, as long as they are for the same module. -/
theorem modify (h : Accounts rs j k) (id : RequestId) {f : Request ν → Request ν}
    (hd : ∀ r, (f r).definitionUrl = r.definitionUrl) : Accounts (rs.modify id f) j k where
  orderly := h.orderly
  issued := by
    intro id' hid'
    rw [Requests.Issued, Requests.serial_modify]
    exact h.issued hid'
  live_iff := by
    intro id'
    rw [← h.live_iff, Requests.get?_modify]
    split
    · simp
    · rfl
  made := by
    intro id' r' hr'
    rcases Requests.get?_modify_eq_some hr' with ⟨rfl, r, hr, rfl⟩ | ⟨_, hr⟩
    · rw [hd]
      exact h.made hr
    · exact h.made hr
  running := h.running
  running_nodup := h.running_nodup

theorem duties (h : Accounts rs j k)
    (hk : (k'.filterMap Duty.concluded?).Sublist (k.filterMap Duty.concluded?))
    (hmem : ∀ id definition, .conclude id definition ∈ k' → .conclude id definition ∈ k) :
    Accounts rs j k' :=
  { h with
    running := fun hin => h.running (hmem _ _ hin)
    running_nodup := h.running_nodup.sublist hk }

theorem insert (h : Accounts rs j k) (r : Request ν) :
    Accounts (rs.insert r).2 (.submitted (rs.insert r).1 r.dependencies r.definitionUrl :: j) k := by
  have hnew : (rs.insert r).1 ∉ submissions j :=
    fun hmem => Requests.not_issued_insert rs r (h.issued hmem)
  refine ⟨⟨hnew, h.orderly⟩, ?_, ?_, ?_, ?_, h.running_nodup⟩
  · intro id hid
    rcases List.mem_cons.mp hid with rfl | hid
    · exact Requests.issued_of_get? (Requests.get?_insert_self rs r)
    · exact Nat.le_succ_of_le (h.issued hid)
  · intro id
    rw [Requests.get?_insert]
    by_cases hid : id = (rs.insert r).1
    · rw [if_pos hid, hid]
      refine ⟨fun _ => ⟨List.mem_cons_self, ?_, ?_⟩, fun _ => ⟨r, rfl⟩⟩
      · exact fun hmem => hnew (h.orderly.calls_subset hmem)
      · exact fun hmem => hnew (h.orderly.failures_subset hmem)
    · rw [if_neg hid, h.live_iff]
      constructor
      · rintro ⟨hs, hrest⟩
        exact ⟨List.mem_cons_of_mem _ hs, hrest⟩
      · rintro ⟨hs, hrest⟩
        exact ⟨(List.mem_cons.mp hs).resolve_left hid, hrest⟩
  · intro id r' hr'
    rcases Requests.get?_insert_eq_some hr' with ⟨rfl, rfl⟩ | hold
    · exact ⟨_, List.mem_cons_self⟩
    · obtain ⟨dependencies, hmem⟩ := h.made hold
      exact ⟨dependencies, List.mem_cons_of_mem _ hmem⟩
  · intro id definition hk
    obtain ⟨hc, hf, dependencies, hmem⟩ := h.running hk
    exact ⟨hc, hf, dependencies, List.mem_cons_of_mem _ hmem⟩

theorem call (h : Accounts rs j k) (hr : rs.get? id = some r) (values : List ModuleValue)
    (hrs : ∀ id', rs'.get? id' = if id' = id then none else rs.get? id')
    (hserial : rs'.serial = rs.serial) :
    Accounts rs' (.called id values :: j) (.conclude id r.definitionUrl :: k) := by
  obtain ⟨hsub, hcalls, hfail⟩ := h.live_iff.mp ⟨r, hr⟩
  refine ⟨⟨⟨hsub, hcalls, hfail⟩, h.orderly⟩, ?_, ?_, ?_, ?_, ?_⟩
  · intro id' hid'
    rw [Requests.Issued, hserial]
    exact h.issued hid'
  · intro id'
    rw [hrs]
    by_cases hid : id' = id
    · rw [if_pos hid, hid]
      constructor
      · rintro ⟨r', hr'⟩
        cases hr'
      · rintro ⟨_, hnot, _⟩
        exact absurd List.mem_cons_self hnot
    · rw [if_neg hid, h.live_iff]
      constructor
      · rintro ⟨hs, hc, hf⟩
        refine ⟨hs, ?_, hf⟩
        intro hmem
        exact hc ((List.mem_cons.mp hmem).resolve_left hid)
      · rintro ⟨hs, hc, hf⟩
        exact ⟨hs, fun hmem => hc (List.mem_cons_of_mem _ hmem), hf⟩
  · intro id' r' hr'
    rw [hrs] at hr'
    split at hr'
    · cases hr'
    · obtain ⟨dependencies, hmem⟩ := h.made hr'
      exact ⟨dependencies, List.mem_cons_of_mem _ hmem⟩
  · intro id' definition hk
    rcases List.mem_cons.mp hk with heq | hk
    · cases heq
      obtain ⟨dependencies, hmem⟩ := h.made hr
      exact ⟨List.mem_cons_self, hfail, dependencies, List.mem_cons_of_mem _ hmem⟩
    · obtain ⟨hc, hf, dependencies, hmem⟩ := h.running hk
      exact ⟨List.mem_cons_of_mem _ hc, hf, dependencies, List.mem_cons_of_mem _ hmem⟩
  · refine List.nodup_cons.mpr ⟨?_, h.running_nodup⟩
    intro hmem
    obtain ⟨d, hd, heq⟩ := List.mem_filterMap.mp hmem
    cases d with
    | conclude id' definition =>
      cases heq
      exact hcalls (h.running hd).1
    | _ => cases heq

theorem fail (h : Accounts rs j k) (hr : rs.get? id = some r) (e : LoadError)
    (hrs : ∀ id', rs'.get? id' = if id' = id then none else rs.get? id')
    (hserial : rs'.serial = rs.serial) : Accounts rs' (.failed id e :: j) k := by
  obtain ⟨hsub, hcalls, hfail⟩ := h.live_iff.mp ⟨r, hr⟩
  refine ⟨⟨⟨hsub, hfail, .inl hcalls⟩, h.orderly⟩, ?_, ?_, ?_, ?_, h.running_nodup⟩
  · intro id' hid'
    rw [Requests.Issued, hserial]
    exact h.issued hid'
  · intro id'
    rw [hrs]
    by_cases hid : id' = id
    · rw [if_pos hid, hid]
      constructor
      · rintro ⟨r', hr'⟩
        cases hr'
      · rintro ⟨_, _, hnot⟩
        exact absurd List.mem_cons_self hnot
    · rw [if_neg hid, h.live_iff]
      constructor
      · rintro ⟨hs, hc, hf⟩
        refine ⟨hs, hc, ?_⟩
        intro hmem
        exact hf ((List.mem_cons.mp hmem).resolve_left hid)
      · rintro ⟨hs, hc, hf⟩
        exact ⟨hs, hc, fun hmem => hf (List.mem_cons_of_mem _ hmem)⟩
  · intro id' r' hr'
    rw [hrs] at hr'
    split at hr'
    · cases hr'
    · obtain ⟨dependencies, hmem⟩ := h.made hr'
      exact ⟨dependencies, List.mem_cons_of_mem _ hmem⟩
  · intro id' definition hk
    obtain ⟨hc, hf, dependencies, hmem⟩ := h.running hk
    refine ⟨hc, ?_, dependencies, List.mem_cons_of_mem _ hmem⟩
    intro hmem'
    rcases List.mem_cons.mp hmem' with rfl | hmem'
    · exact hcalls hc
    · exact hf hmem'

theorem returned {definition : Option String} (h : Accounts rs j (.conclude id definition :: k))
    (o : Outcome) : Accounts rs (.returned id o :: j) k where
  orderly := by
    obtain ⟨hc, hf, _⟩ := h.running List.mem_cons_self
    exact ⟨⟨hc, hf⟩, h.orderly⟩
  issued := h.issued
  live_iff := h.live_iff
  made hr := by
    obtain ⟨dependencies, hmem⟩ := h.made hr
    exact ⟨dependencies, List.mem_cons_of_mem _ hmem⟩
  running hk := by
    obtain ⟨hc, hf, dependencies, hmem⟩ := h.running (List.mem_cons_of_mem _ hk)
    exact ⟨hc, hf, dependencies, List.mem_cons_of_mem _ hmem⟩
  running_nodup := (List.nodup_cons.mp h.running_nodup).2

theorem fault {definition : Option String} (h : Accounts rs j (.conclude id definition :: k))
    {o : Outcome} {e : LoadError} (ho : o.failure definition = some e) :
    Accounts rs (.failed id e :: .returned id o :: j) k := by
  obtain ⟨hc, hf, dependencies, hmem⟩ := h.running List.mem_cons_self
  have hnot := (List.nodup_cons.mp h.running_nodup).1
  have h1 := h.returned o
  refine ⟨⟨⟨h.orderly.calls_subset hc, hf, .inr ⟨o, j, dependencies, definition, rfl, hmem, ho⟩⟩,
    h1.orderly⟩, h1.issued, ?_, ?_, ?_, h1.running_nodup⟩
  · intro id'
    rw [h.live_iff]
    constructor
    · rintro ⟨hs, hc', hf'⟩
      refine ⟨hs, hc', ?_⟩
      intro hmem'
      rcases List.mem_cons.mp hmem' with rfl | hmem'
      · exact hc' hc
      · exact hf' hmem'
    · rintro ⟨hs, hc', hf'⟩
      exact ⟨hs, hc', fun hmem' => hf' (List.mem_cons_of_mem _ hmem')⟩
  · intro id' r' hr'
    obtain ⟨dependencies, hmem⟩ := h1.made hr'
    exact ⟨dependencies, List.mem_cons_of_mem _ hmem⟩
  · intro id' definition' hk
    obtain ⟨hc', hf', dependencies', hmem'⟩ := h1.running hk
    refine ⟨hc', ?_, dependencies', List.mem_cons_of_mem _ hmem'⟩
    intro hin
    rcases List.mem_cons.mp hin with rfl | hin
    · exact hnot (List.mem_filterMap.mpr ⟨_, hk, rfl⟩)
    · exact hf' hin

theorem handled (h : Accounts rs j k) {e : LoadError} {older : List (Event ν)}
    (hj : j = .failed id e :: older) : Accounts rs (.handled id e :: j) k where
  orderly := ⟨⟨older, hj⟩, h.orderly⟩
  issued := h.issued
  live_iff := h.live_iff
  made hr := by
    obtain ⟨dependencies, hmem⟩ := h.made hr
    exact ⟨dependencies, List.mem_cons_of_mem _ hmem⟩
  running hk := by
    obtain ⟨hc, hf, dependencies, hmem⟩ := h.running hk
    exact ⟨hc, hf, dependencies, List.mem_cons_of_mem _ hmem⟩
  running_nodup := h.running_nodup

end Accounts

namespace Loader

def Accounted (l : Loader ν) (k : List Duty) : Prop := Accounts l.requests l.journal k

variable {l : Loader ν} {k : List Duty}

theorem keptByLinking_accounted (k : List Duty) :
    KeptByLinking fun l : Loader ν => l.Accounted k where
  linked _ _ h := Accounts.neutral h trivial
  context id _ h := Accounts.modify h id fun _ => rfl
  stop _ h _ := h
  attach {l id r} i t h _ _ := by
    have hlink : Accounts (l.requests.modify id (·.link i t.key)) l.journal k :=
      Accounts.modify h id fun r => Request.definitionUrl_link r i t.key
    unfold Loader.attach
    dsimp only
    split
    · exact hlink.neutral trivial
    · exact hlink
    · exact hlink
    · exact hlink

theorem Accounted.submit (h : l.Accounted k) (frame : Option Frame) (dependencies : List String)
    (callback : List ModuleValue → Script ν) (errback : Option (LoadError → Script ν))
    (definitionUrl : Option String) :
    (l.submit frame dependencies callback errback definitionUrl).Accounted k := by
  have henter : (l.enter (.ofCall dependencies callback errback (l.context? frame)
      definitionUrl)).2.Accounted k := Accounts.insert h _
  exact (keptByLinking_accounted k).submit (fun _ h => h) (fun _ h => h) henter

theorem keptByLinking_submissions (made : List RequestId) :
    KeptByLinking fun l : Loader ν => submissions l.journal = made where
  linked _ _ h := h
  context _ _ h := h
  stop _ h _ := h
  attach {l id _} i t h _ _ := by
    rcases attach_cases l id i t with ⟨_, hj⟩ | ⟨_, hj⟩
    · rwa [hj]
    · rw [hj]
      exact h

theorem submissions_submit (l : Loader ν) (frame : Option Frame) (dependencies : List String)
    (callback : List ModuleValue → Script ν) (errback : Option (LoadError → Script ν))
    (definitionUrl : Option String) :
    submissions (l.submit frame dependencies callback errback definitionUrl).journal =
      (l.enter (.ofCall dependencies callback errback (l.context? frame) definitionUrl)).1 ::
        submissions l.journal :=
  (keptByLinking_submissions _).submit (fun _ h => h) (fun _ h => h) rfl

theorem Accounted.afterEstablishing (h : l.Accounted k) (change : Bool × Bootstrap) :
    (l.afterEstablishing change).2.Accounted k :=
  (keptByLinking_accounted k).afterEstablishing (fun _ h => h) h change

theorem Accounted.finishMain (h : l.Accounted k) (t : Target) : (l.finishMain t).Accounted k :=
  (keptByLinking_accounted k).finishMain (fun _ h => h) h t

end Loader

/-- Duties that are no callback's do not matter for the accounts. -/
theorem Accounts.drop {rs : Requests ν} {j : List (Event ν)} {k : List Duty} {d : Duty}
    (h : Accounts rs j (d :: k)) : Accounts rs j k :=
  h.duties (List.Sublist.filterMap _ (List.sublist_cons_self d k))
    fun _ _ hk => List.mem_cons_of_mem _ hk

theorem Accounts.add {rs : Requests ν} {j : List (Event ν)} {k : List Duty} {d : Duty}
    (h : Accounts rs j k) (hd : d.concluded? = none) : Accounts rs j (d :: k) := by
  refine h.duties ?_ ?_
  · rw [List.filterMap_cons_none hd]
  · intro id definition hk
    rcases List.mem_cons.mp hk with rfl | hk
    · cases hd
    · exact hk

theorem Accounts.addDefinition {rs : Requests ν} {j : List (Event ν)} {k : List Duty}
    (h : Accounts rs j k) (definition : Option String) :
    Accounts rs j (Duty.ofDefinition definition ++ k) := by
  cases definition with
  | none => exact h
  | some url => exact h.add rfl

open Loader in
theorem maintained_accounted : Maintained fun (l : Loader ν) k => l.Accounted k where
  aside h ha := Accounts.neutral h ha.isNeutral
  make _ h := h
  fetches h _ := h
  arrive {l k f _ _} h _ := by
    refine Accounts.add ?_ (by cases f.role <;> rfl)
    exact Accounts.neutral (Accounts.add h rfl) trivial
  enter _ h _ := Accounts.neutral h trivial
  require frame dependencies callback errback h :=
    Accounts.add (Accounted.submit h frame dependencies callback errback none) rfl
  define _ _ dependencies factory errback h :=
    Accounts.add (Accounts.add
      (Accounted.submit (Accounts.drop h) _ dependencies factory errback _) rfl) rfl
  unwatch h := Accounts.drop h
  setDefaultBase _ h := h
  establish {l k} ctx h := by
    have h1 := Accounted.afterEstablishing h (l.bootstrap.establish ctx)
    split
    · exact Accounts.add h1 rfl
    · exact h1
  beginMain _ _ h _ := Accounts.neutral h trivial
  finishMain t h := Accounted.finishMain (Accounts.drop h) t
  ready _ h := Accounts.drop h
  abandon _ h _ _ := Accounts.drop h
  abandonDefinition {l k d url id r} e h _ _ hr :=
    Accounts.fail (Accounts.drop h) hr e (Requests.get?_erase l.requests id)
      (Requests.serial_erase l.requests id)
  finish h _ := Accounts.returned h _
  fault h ho := Accounts.fault h ho
  handle h hj := Accounts.handled h hj
  dispatch h _ := Accounts.add (Accounts.drop h) rfl
  redispatch h _ := Accounts.drop h
  drained h _ := Accounts.drop h
  dead h _ _ := h
  fill {l k id i v rest r} h _ _ _ :=
    Accounts.modify h id fun r => Request.definitionUrl_fill r i v
  fillFire {l k id i v rest r} h _ hr _ :=
    Accounts.call (Accounts.addDefinition h _) hr _
      (fun id' => Requests.get?_erase_modify l.requests id id' _) (by simp [record])
  fire {l k id rest r} h _ hr :=
    Accounts.call (Accounts.addDefinition h _) hr _ (Requests.get?_erase l.requests id)
      (Requests.serial_erase l.requests id)
  fail {l k id e rest r} h _ hr :=
    Accounts.addDefinition (Accounts.fail h hr e (Requests.get?_erase l.requests id)
      (Requests.serial_erase l.requests id)) _

end AsyncModule
