import AsyncModule.Proofs.Accounts
import AsyncModule.Proofs.Setting

/-!
# AsyncModule.Proofs.Told

What the journal tells of the requests from outside in a run by a table.

* `Told`      — callbacks get the values of good modules, and failures have a reason.
* `Told.call` — the callback of a request is started.
* `Told.fail` — the failure of a request is reported, and handled if it was made from outside.
-/

namespace AsyncModule

variable {ν : Type}

/-- What the journal tells of the requests from outside is so: the callback of a request was
started with the values of good modules, and its failure reported, and handled, for a dependency
that names none. -/
structure Told (σ : Setting) (rs : Requests ν) (j : List (Event ν)) : Prop where
  issued : ∀ {id dependencies definition},
    .submitted id dependencies definition ∈ j → rs.Issued id
  unique : ∀ {id dependencies dependencies' definition definition'},
    .submitted id dependencies definition ∈ j → .submitted id dependencies' definition' ∈ j →
      dependencies = dependencies' ∧ definition = definition'
  made : ∀ {id q}, rs.get? id = some q → .submitted id q.dependencies q.definitionUrl ∈ j
  concerned : ∀ {id}, id ∈ calls j ∨ id ∈ failures j → rs.Issued id
  called : ∀ {id values dependencies}, .called id values ∈ j → .submitted id dependencies none ∈ j →
    σ.Supplied σ.context dependencies (values.map (·.payload))
  failed : ∀ {id dependencies}, id ∈ failures j → .submitted id dependencies none ∈ j →
    σ.Denied σ.context dependencies ∧ id ∈ handlings j

namespace Told

variable {σ : Setting} {rs rs' : Requests ν} {j : List (Event ν)} {e : Event ν}

theorem init : Told σ (.empty : Requests ν) [] where
  issued h := by cases h
  unique h := by cases h
  made h := by cases h
  concerned h := by
    rcases h with h | h
    · cases h
    · cases h
  called h := by cases h
  failed h := by cases h

theorem requests (h : Told σ rs j) (hserial : rs'.serial = rs.serial)
    (hlive : ∀ id q', rs'.get? id = some q' → ∃ q, rs.get? id = some q ∧
      q'.dependencies = q.dependencies ∧ q'.definitionUrl = q.definitionUrl) : Told σ rs' j where
  issued hmem := by
    rw [Requests.Issued, hserial]
    exact h.issued hmem
  unique := h.unique
  made := by
    intro id q' hq'
    obtain ⟨q, hq, hdependencies, hdefinition⟩ := hlive id q' hq'
    rw [hdependencies, hdefinition]
    exact h.made hq
  concerned hmem := by
    rw [Requests.Issued, hserial]
    exact h.concerned hmem
  called := h.called
  failed := h.failed

theorem link (h : Told σ rs j) (id : RequestId) (i : Nat) (url : String) :
    Told σ (rs.modify id (·.link i url)) j := by
  refine h.requests (Requests.serial_modify _ _ _) ?_
  intro id' q' hq'
  rcases Requests.get?_modify_eq_some hq' with ⟨rfl, q, hq, rfl⟩ | ⟨_, hq⟩
  · exact ⟨q, hq, Request.dependencies_link _ _ _, Request.definitionUrl_link _ _ _⟩
  · exact ⟨q', hq, rfl, rfl⟩

/-- Whatever happens that settles no request and makes none. -/
theorem aside (h : Told σ rs j) (hsub : e.submitted? = none) (hcalls : e.called? = none)
    (hfailures : e.failed? = none) : Told σ rs (e :: j) := by
  have hold : ∀ {id dependencies definition},
      (.submitted id dependencies definition : Event ν) ∈ e :: j →
        .submitted id dependencies definition ∈ j := by
    intro id dependencies definition hmem
    rcases List.mem_cons.mp hmem with rfl | hmem
    · cases hsub
    · exact hmem
  have hcalls' : calls (e :: j) = calls j := List.filterMap_cons_none hcalls
  have hfailures' : failures (e :: j) = failures j := List.filterMap_cons_none hfailures
  refine ⟨fun hmem => h.issued (hold hmem), fun hmem hmem' => h.unique (hold hmem) (hold hmem'),
    fun hq => List.mem_cons_of_mem _ (h.made hq), ?_, ?_, ?_⟩
  · rw [hcalls', hfailures']
    exact h.concerned
  · intro id values dependencies hmem hsubmitted
    rcases List.mem_cons.mp hmem with rfl | hmem
    · cases hcalls
    · exact h.called hmem (hold hsubmitted)
  · intro id dependencies hmem hsubmitted
    rw [hfailures'] at hmem
    obtain ⟨hdenied, hhandled⟩ := h.failed hmem (hold hsubmitted)
    refine ⟨hdenied, ?_⟩
    obtain ⟨e', he', hid⟩ := List.mem_filterMap.mp hhandled
    exact List.mem_filterMap.mpr ⟨e', List.mem_cons_of_mem _ he', hid⟩

theorem insert (h : Told σ rs j) (q : Request ν) :
    Told σ (rs.insert q).2 (.submitted (rs.insert q).1 q.dependencies q.definitionUrl :: j) := by
  have hnew : ¬ rs.Issued (rs.insert q).1 := Requests.not_issued_insert rs q
  have hissued : ∀ {id}, rs.Issued id → (rs.insert q).2.Issued id := Nat.le_succ_of_le
  have hself : (rs.insert q).2.Issued (rs.insert q).1 :=
    Requests.issued_of_get? (Requests.get?_insert_self rs q)
  refine ⟨?_, ?_, ?_, ?_, ?_, ?_⟩
  · intro id dependencies definition hmem
    rcases List.mem_cons.mp hmem with heq | hmem
    · cases heq
      exact hself
    · exact hissued (h.issued hmem)
  · intro id dependencies dependencies' definition definition' hmem hmem'
    rcases List.mem_cons.mp hmem with heq | hmem
    · cases heq
      rcases List.mem_cons.mp hmem' with heq | hmem'
      · cases heq
        exact ⟨rfl, rfl⟩
      · exact absurd (h.issued hmem') hnew
    · rcases List.mem_cons.mp hmem' with heq | hmem'
      · cases heq
        exact absurd (h.issued hmem) hnew
      · exact h.unique hmem hmem'
  · intro id q' hq'
    rcases Requests.get?_insert_eq_some hq' with ⟨rfl, rfl⟩ | hold
    · exact List.mem_cons_self
    · exact List.mem_cons_of_mem _ (h.made hold)
  · intro id hmem
    exact hissued (h.concerned hmem)
  · intro id values dependencies hmem hsubmitted
    rcases List.mem_cons.mp hmem with heq | hmem
    · cases heq
    · rcases List.mem_cons.mp hsubmitted with heq | hsubmitted
      · obtain ⟨rfl, _, _⟩ := Event.submitted.inj heq
        exact absurd (h.concerned (.inl (mem_calls.mpr ⟨values, hmem⟩))) hnew
      · exact h.called hmem hsubmitted
  · intro id dependencies hmem hsubmitted
    rcases List.mem_cons.mp hsubmitted with heq | hsubmitted
    · obtain ⟨rfl, _, _⟩ := Event.submitted.inj heq
      exact absurd (h.concerned (.inr hmem)) hnew
    · exact h.failed hmem hsubmitted

theorem call (h : Told σ rs j) {id : RequestId} {dependencies : List String}
    {definition : Option String} {values : List ModuleValue}
    (hsubmitted : .submitted id dependencies definition ∈ j)
    (hvalues : definition = none →
      σ.Supplied σ.context dependencies (values.map (·.payload))) :
    Told σ rs (.called id values :: j) := by
  have hold : ∀ {id' dependencies definition},
      (.submitted id' dependencies definition : Event ν) ∈ .called id values :: j →
        .submitted id' dependencies definition ∈ j :=
    fun hmem => (List.mem_cons.mp hmem).resolve_left (by simp)
  refine ⟨fun hmem => h.issued (hold hmem), fun hmem hmem' => h.unique (hold hmem) (hold hmem'),
    fun hq => List.mem_cons_of_mem _ (h.made hq), ?_, ?_, ?_⟩
  · intro id' hmem
    rcases hmem with hmem | hmem
    · rcases List.mem_cons.mp hmem with rfl | hmem
      · exact h.issued hsubmitted
      · exact h.concerned (.inl hmem)
    · exact h.concerned (.inr hmem)
  · intro id' values' dependencies' hmem hsubmitted'
    rcases List.mem_cons.mp hmem with heq | hmem
    · cases heq
      obtain ⟨rfl, rfl⟩ := h.unique hsubmitted (hold hsubmitted')
      exact hvalues rfl
    · exact h.called hmem (hold hsubmitted')
  · intro id' dependencies' hmem hsubmitted'
    exact h.failed hmem (hold hsubmitted')

theorem fail (h : Told σ rs j) {id : RequestId} {dependencies : List String}
    {definition : Option String} {e : LoadError} {newer : List (Event ν)}
    (hnewer : newer = [] ∨ newer = [.handled id e])
    (hsubmitted : .submitted id dependencies definition ∈ j)
    (houtside : definition = none → σ.Denied σ.context dependencies ∧ newer ≠ []) :
    Told σ rs (newer ++ .failed id e :: j) := by
  have hold : ∀ {e' : Event ν}, e' ∈ newer ++ .failed id e :: j → e'.failed? = none →
      e'.handled? = none → e' ∈ j := by
    intro e' hmem hf hh
    rcases List.mem_append.mp hmem with hmem | hmem
    · rcases hnewer with rfl | rfl
      · cases hmem
      · rw [List.mem_singleton.mp hmem] at hh
        cases hh
    · rcases List.mem_cons.mp hmem with rfl | hmem
      · cases hf
      · exact hmem
  have hnew : ∀ {e' : Event ν}, e' ∈ j → e' ∈ newer ++ .failed id e :: j :=
    fun hmem => List.mem_append_right _ (List.mem_cons_of_mem _ hmem)
  refine ⟨fun hmem => h.issued (hold hmem rfl rfl),
    fun hmem hmem' => h.unique (hold hmem rfl rfl) (hold hmem' rfl rfl),
    fun hq => hnew (h.made hq), ?_, ?_, ?_⟩
  · intro id' hmem
    rcases hmem with hmem | hmem
    · obtain ⟨values, hmem⟩ := mem_calls.mp hmem
      exact h.concerned (.inl (mem_calls.mpr ⟨values, hold hmem rfl rfl⟩))
    · rw [failures_append, List.mem_append] at hmem
      rcases hmem with hmem | hmem
      · rcases hnewer with rfl | rfl
        · cases hmem
        · cases hmem
      · rcases List.mem_cons.mp hmem with rfl | hmem
        · exact h.issued hsubmitted
        · exact h.concerned (.inr hmem)
  · intro id' values dependencies' hmem hsubmitted'
    exact h.called (hold hmem rfl rfl) (hold hsubmitted' rfl rfl)
  · intro id' dependencies' hmem hsubmitted'
    have hold' := hold hsubmitted' rfl rfl
    rw [handlings, List.filterMap_append, List.mem_append]
    rw [failures_append, List.mem_append] at hmem
    rcases hmem with hmem | hmem
    · rcases hnewer with rfl | rfl
      · cases hmem
      · cases hmem
    · rcases List.mem_cons.mp hmem with rfl | hmem
      · obtain ⟨rfl, rfl⟩ := h.unique hsubmitted hold'
        obtain ⟨hdenied, hne⟩ := houtside rfl
        refine ⟨hdenied, .inl ?_⟩
        rw [hnewer.resolve_left hne]
        exact List.mem_cons_self
      · obtain ⟨hdenied, hhandled⟩ := h.failed hmem hold'
        exact ⟨hdenied, .inr hhandled⟩

end Told

end AsyncModule
