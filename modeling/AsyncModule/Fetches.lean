import AsyncModule.Request

/-!
# AsyncModule.Fetches

The fetches in flight. A queue says in which order they are looked at: a fetch joins it when it
starts, leaves it when it is looked at, and joins it again when its result arrives after that.
-/

namespace AsyncModule

structure Fetch (ν : Type) where
  id : Nat
  target : Target
  role : LoadRole
  result : Option (Fetched (Script ν))

def Fetch.errand {ν : Type} (f : Fetch ν) : Nat × Target × LoadRole := (f.id, f.target, f.role)

/-- The fetches in flight, oldest first, and the queue of those to look at. -/
structure Fetches (ν : Type) where
  inFlight : List (Fetch ν)
  queue : List Nat
  count : Nat

namespace Fetches

variable {ν : Type}

def empty : Fetches ν := ⟨[], [], 0⟩

def start (fs : Fetches ν) (target : Target) (role : LoadRole)
    (result : Option (Fetched (Script ν))) : Fetches ν :=
  ⟨fs.inFlight ++ [⟨fs.count, target, role, result⟩], fs.queue ++ [fs.count], fs.count + 1⟩

/-- The first fetch in a queue that has its result, and the queue behind it. -/
def firstFinished (inFlight : List (Fetch ν)) :
    List Nat → Option (Fetch ν × Fetched (Script ν)) × List Nat
  | [] => (none, [])
  | id :: queue =>
    match inFlight.find? (·.id == id) with
    | some f =>
      match f.result with
      | some r => (some (f, r), queue)
      | none => firstFinished inFlight queue
    | none => firstFinished inFlight queue

def take (fs : Fetches ν) : Option (Fetch ν × Fetched (Script ν)) × Fetches ν :=
  match firstFinished fs.inFlight fs.queue with
  | (none, queue) => (none, { fs with queue })
  | (some (f, r), queue) =>
    (some (f, r), { fs with inFlight := fs.inFlight.filter (·.id != f.id), queue })

def finish (fs : Fetches ν) (id : Nat) (result : Fetched (Script ν)) : Fetches ν :=
  { fs with
    inFlight := fs.inFlight.map fun f => if f.id == id then { f with result := some result } else f
    queue := if fs.queue.contains id then fs.queue else fs.queue ++ [id] }

/-- Give the oldest open fetch of a URL its result; `none` when there is no such fetch. -/
def deliver (fs : Fetches ν) (url : String) (result : Target → Fetched (Script ν)) :
    Option (Fetches ν) :=
  (fs.inFlight.find? fun f => f.target.key == url && f.result.isNone).map fun f =>
    fs.finish f.id (result f.target)

/-- What the fetches in flight are for; their results may come at any time. -/
def errands (fs : Fetches ν) : List (Nat × Target × LoadRole) := fs.inFlight.map Fetch.errand

/-- Whether two sets of fetches differ at most in what has come of them and in the order in which
they are looked at. -/
def Agree (fs fs' : Fetches ν) : Prop := fs'.errands = fs.errands ∧ fs'.count = fs.count

theorem firstFinished_eq_some {inFlight : List (Fetch ν)} {queue queue' : List Nat}
    {f : Fetch ν} {r : Fetched (Script ν)}
    (h : firstFinished inFlight queue = (some (f, r), queue')) :
    f ∈ inFlight ∧ f.result = some r := by
  induction queue with
  | nil => cases h
  | cons id rest ih =>
    simp only [firstFinished] at h
    split at h
    · rename_i f' hf'
      split at h
      · rename_i r' hr'
        simp only [Prod.mk.injEq, Option.some.injEq] at h
        obtain ⟨⟨rfl, rfl⟩, _⟩ := h
        exact ⟨List.mem_of_find?_eq_some hf', hr'⟩
      · exact ih h
    · exact ih h

theorem agree_of_take {fs fs' : Fetches ν} (h : fs.take = (none, fs')) : fs.Agree fs' := by
  unfold take at h
  split at h
  · cases h
    exact ⟨rfl, rfl⟩
  · cases h

theorem take_eq_some {fs fs' : Fetches ν} {f : Fetch ν} {r : Fetched (Script ν)}
    (h : fs.take = (some (f, r), fs')) :
    f ∈ fs.inFlight ∧ f.result = some r ∧ fs'.count = fs.count ∧
      fs'.inFlight = fs.inFlight.filter (·.id != f.id) := by
  unfold take at h
  split at h
  · cases h
  · rename_i hff
    cases h
    obtain ⟨hmem, hres⟩ := firstFinished_eq_some hff
    exact ⟨hmem, hres, rfl, rfl⟩

theorem inFlight_of_take {fs fs' : Fetches ν}
    {found : Option (Fetch ν × Fetched (Script ν))} (h : fs.take = (found, fs')) :
    fs'.inFlight ⊆ fs.inFlight := by
  unfold take at h
  split at h
  · cases h
    exact List.Subset.refl _
  · cases h
    exact List.filter_sublist.subset

theorem agree_finish (fs : Fetches ν) (id : Nat) (result : Fetched (Script ν)) :
    fs.Agree (fs.finish id result) := by
  refine ⟨?_, rfl⟩
  simp only [errands, finish, List.map_map]
  refine List.map_congr_left fun f _ => ?_
  simp only [Function.comp]
  split <;> rfl

theorem deliver_eq_some {fs fs' : Fetches ν} {url : String}
    {result : Target → Fetched (Script ν)} (h : fs.deliver url result = some fs') :
    ∃ f ∈ fs.inFlight, f.target.key = url ∧ f.result = none ∧
      fs' = fs.finish f.id (result f.target) := by
  obtain ⟨f, hf, rfl⟩ := Option.map_eq_some_iff.mp h
  have hp := List.find?_some hf
  simp only [Bool.and_eq_true, beq_iff_eq, Option.isNone_iff_eq_none] at hp
  exact ⟨f, List.mem_of_find?_eq_some hf, hp.1, hp.2, rfl⟩

theorem errands_of_deliver {fs fs' : Fetches ν} {url : String}
    {result : Target → Fetched (Script ν)} (h : fs.deliver url result = some fs') :
    fs'.errands = fs.errands := by
  obtain ⟨f, _, _, _, rfl⟩ := deliver_eq_some h
  exact (agree_finish fs f.id _).1

@[simp] theorem errands_start (fs : Fetches ν) (t : Target) (role : LoadRole)
    (result : Option (Fetched (Script ν))) :
    (fs.start t role result).errands = fs.errands ++ [(fs.count, t, role)] := by
  simp [errands, start, Fetch.errand]

/-- Fetches are numbered as they start, and no number is used twice. -/
structure Numbered (fs : Fetches ν) : Prop where
  nodup : (fs.errands.map (·.1)).Nodup
  lt_count : ∀ e ∈ fs.errands, e.1 < fs.count

theorem numbered_empty : Numbered (empty : Fetches ν) := ⟨.nil, by simp [errands, empty]⟩

theorem Numbered.start {fs : Fetches ν} (h : fs.Numbered) (t : Target) (role : LoadRole)
    (result : Option (Fetched (Script ν))) : (fs.start t role result).Numbered where
  nodup := by
    rw [errands_start, List.map_append, List.nodup_append]
    refine ⟨h.nodup, by simp, ?_⟩
    rintro id hid _ hnew rfl
    obtain ⟨e, he, rfl⟩ := List.mem_map.mp hid
    rw [List.map_singleton, List.mem_singleton] at hnew
    exact absurd (h.lt_count e he) (by omega)
  lt_count := by
    intro e he
    rw [errands_start, List.mem_append, List.mem_singleton] at he
    rcases he with he | rfl
    · exact Nat.lt_succ_of_lt (h.lt_count e he)
    · exact Nat.lt_succ_self _

theorem Numbered.agree {fs fs' : Fetches ν} (h : fs.Numbered) (hagree : fs.Agree fs') :
    fs'.Numbered := by
  obtain ⟨herrands, hcount⟩ := hagree
  exact ⟨by rw [herrands]; exact h.nodup, by rw [herrands, hcount]; exact h.lt_count⟩

theorem Numbered.errands_of_take {fs fs' : Fetches ν} (h : fs.Numbered) {f : Fetch ν}
    {r : Fetched (Script ν)} (htake : fs.take = (some (f, r), fs')) :
    ∃ before after, fs.errands = before ++ f.errand :: after ∧
      fs'.errands = before ++ after := by
  obtain ⟨hmem, _, _, hrest⟩ := take_eq_some htake
  obtain ⟨before, after, heq⟩ := List.append_of_mem hmem
  have hnd := h.nodup
  simp only [errands, heq, List.map_append, List.map_cons, List.map_map, List.nodup_append,
    List.nodup_cons, List.mem_cons, List.mem_map, Function.comp] at hnd
  obtain ⟨_, ⟨hafter, _⟩, hbefore⟩ := hnd
  refine ⟨before.map Fetch.errand, after.map Fetch.errand, by simp [errands, heq], ?_⟩
  have hkeep : fs'.inFlight = before ++ after := by
    rw [hrest, heq, List.filter_append, List.filter_cons_of_neg (by simp)]
    congr 1
    · rw [List.filter_eq_self]
      intro f' hf'
      simpa [Fetch.errand] using hbefore f'.id ⟨f', hf', rfl⟩ f.id (.inl rfl)
    · rw [List.filter_eq_self]
      intro f' hf'
      simp only [bne_iff_ne, ne_eq]
      intro hid
      exact hafter ⟨f', hf', hid⟩
  simp [errands, hkeep]

theorem Numbered.take {fs fs' : Fetches ν} (h : fs.Numbered) {f : Fetch ν}
    {r : Fetched (Script ν)} (htake : fs.take = (some (f, r), fs')) : fs'.Numbered := by
  obtain ⟨before, after, heq, heq'⟩ := h.errands_of_take htake
  have hsub : fs'.errands.Sublist fs.errands := by
    rw [heq, heq']
    exact List.Sublist.append_left (List.sublist_cons_self _ _) before
  refine ⟨h.nodup.sublist (hsub.map _), ?_⟩
  intro e he
  rw [(take_eq_some htake).2.2.1]
  exact h.lt_count e (hsub.subset he)

end Fetches

end AsyncModule
