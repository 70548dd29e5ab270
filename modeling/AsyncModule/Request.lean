import AsyncModule.Script

/-!
# AsyncModule.Request

Requests: calls of `require` or `define` that are followed until all their dependencies are
there.

* `mem_pendingModules`      — the modules still waited for are those that empty slots are linked to.
* `Counted.isSatisfied_iff` — with the count of filled slots right, a request is satisfied exactly
  when no slot is empty.
-/

namespace AsyncModule

structure Slot where
  specifier : String
  /-- The canonical URL of the module it turned out to be. -/
  module : Option String
  value : Option ModuleValue
  deriving Repr

namespace Slot

def ofSpecifier (specifier : String) : Slot := ⟨specifier, none, none⟩

def isFilled (s : Slot) : Bool := s.value.isSome

end Slot

structure Request (ν : Type) where
  slots : List Slot
  /-- How many slots have been filled. -/
  resolved : Nat
  callback : List ModuleValue → Script ν
  errback : Option (LoadError → Script ν)
  context : Option Context
  /-- The module whose value the callback produces. -/
  definitionUrl : Option String

namespace Request

variable {ν : Type}

/-- A request as it is made: every slot is empty, and linked to nothing. -/
def ofCall (dependencies : List String) (callback : List ModuleValue → Script ν)
    (errback : Option (LoadError → Script ν)) (context : Option Context)
    (definitionUrl : Option String) : Request ν :=
  { slots := dependencies.map Slot.ofSpecifier
    resolved := 0
    callback, errback, context, definitionUrl }

def dependencies (r : Request ν) : List String := r.slots.map (·.specifier)

def slot? (r : Request ν) (i : Nat) : Option Slot := r.slots[i]?

def isSatisfied (r : Request ν) : Bool := r.resolved == r.slots.length

def fill (r : Request ν) (slot : Nat) (v : ModuleValue) : Request ν :=
  match r.slots[slot]? with
  | some s =>
    if s.isFilled then r
    else { r with slots := r.slots.set slot { s with value := some v }, resolved := r.resolved + 1 }
  | none => r

def values (r : Request ν) : List ModuleValue := r.slots.filterMap (·.value)

def modules (r : Request ν) : List String := r.slots.filterMap (·.module)

def pendingModules (r : Request ν) : List String :=
  (r.slots.filter (!·.isFilled)).filterMap (·.module)

def link (r : Request ν) (slot : Nat) (url : String) : Request ν :=
  match r.slots[slot]? with
  | some s => { r with slots := r.slots.set slot { s with module := some url } }
  | none => r

theorem mem_modules {r : Request ν} {url : String} :
    url ∈ r.modules ↔ ∃ i s, r.slot? i = some s ∧ s.module = some url := by
  rw [modules, List.mem_filterMap]
  constructor
  · rintro ⟨s, hs, hm⟩
    obtain ⟨i, hi⟩ := List.mem_iff_getElem?.mp hs
    exact ⟨i, s, hi, hm⟩
  · rintro ⟨i, s, hs, hm⟩
    exact ⟨s, List.mem_of_getElem? hs, hm⟩

theorem mem_pendingModules {r : Request ν} {url : String} :
    url ∈ r.pendingModules ↔
      ∃ i s, r.slot? i = some s ∧ s.value = none ∧ s.module = some url := by
  simp only [pendingModules, List.mem_filterMap, List.mem_filter]
  constructor
  · rintro ⟨s, ⟨hs, hv⟩, hm⟩
    obtain ⟨i, hi⟩ := List.mem_iff_getElem?.mp hs
    exact ⟨i, s, hi, by simpa [Slot.isFilled] using hv, hm⟩
  · rintro ⟨i, s, hs, hv, hm⟩
    exact ⟨s, ⟨List.mem_of_getElem? hs, by simp [Slot.isFilled, hv]⟩, hm⟩

theorem mem_slots {r : Request ν} {s : Slot} : s ∈ r.slots ↔ ∃ i, r.slot? i = some s :=
  List.mem_iff_getElem?

theorem slot?_fill (r : Request ν) (i j : Nat) (v : ModuleValue) :
    (r.fill i v).slot? j =
      (r.slot? j).map fun s => if j = i ∧ s.value = none then { s with value := some v } else s := by
  unfold fill slot?
  cases hi : r.slots[i]? with
  | none =>
    by_cases hji : j = i
    · rw [hji, hi]; rfl
    · simp [hji]
  | some s =>
    obtain ⟨hlt, hget⟩ := List.getElem?_eq_some_iff.mp hi
    by_cases hf : s.isFilled = true
    · by_cases hji : j = i
      · subst hji
        have hv : s.value ≠ none := by intro h; simp [Slot.isFilled, h] at hf
        simp [hf, hi, hv]
      · simp [hf, hji]
    · have hv : s.value = none := by simpa [Slot.isFilled] using hf
      by_cases hji : j = i
      · subst hji
        simp [hf, hlt, hget, hv]
      · simp [hf, hji, List.getElem?_set_ne (fun h => hji h.symm)]

theorem slot?_link (r : Request ν) (i j : Nat) (url : String) :
    (r.link i url).slot? j =
      (r.slot? j).map fun s => if j = i then { s with module := some url } else s := by
  unfold link slot?
  cases hi : r.slots[i]? with
  | none =>
    by_cases hji : j = i
    · rw [hji, hi]; rfl
    · simp [hji]
  | some s =>
    obtain ⟨hlt, hget⟩ := List.getElem?_eq_some_iff.mp hi
    by_cases hji : j = i
    · subst hji; simp [hlt, hget]
    · simp [hji, List.getElem?_set_ne (fun h => hji h.symm)]

@[simp] theorem length_fill (r : Request ν) (i : Nat) (v : ModuleValue) :
    (r.fill i v).slots.length = r.slots.length := by
  unfold fill
  split
  · split <;> simp
  · rfl

@[simp] theorem length_link (r : Request ν) (i : Nat) (url : String) :
    (r.link i url).slots.length = r.slots.length := by
  unfold link
  split <;> simp

@[simp] theorem definitionUrl_fill (r : Request ν) (i : Nat) (v : ModuleValue) :
    (r.fill i v).definitionUrl = r.definitionUrl := by
  unfold fill
  split
  · split <;> rfl
  · rfl

@[simp] theorem definitionUrl_link (r : Request ν) (i : Nat) (url : String) :
    (r.link i url).definitionUrl = r.definitionUrl := by
  unfold link
  split <;> rfl

theorem link_eq (q : Request ν) (i : Nat) (url : String) :
    q.link i url = { q with slots := (q.link i url).slots } := by
  unfold link
  split <;> rfl

theorem fill_eq (q : Request ν) (i : Nat) (v : ModuleValue) :
    q.fill i v = { q with slots := (q.fill i v).slots, resolved := (q.fill i v).resolved } := by
  unfold fill
  split
  · split <;> rfl
  · rfl

theorem dependencies_eq_of_slot? {q q' : Request ν}
    (h : ∀ i, (q'.slot? i).map Slot.specifier = (q.slot? i).map Slot.specifier) :
    q'.dependencies = q.dependencies := by
  refine List.ext_getElem? fun i => ?_
  rw [dependencies, dependencies, List.getElem?_map, List.getElem?_map]
  exact h i

@[simp] theorem dependencies_link (q : Request ν) (i : Nat) (url : String) :
    (q.link i url).dependencies = q.dependencies := by
  refine dependencies_eq_of_slot? fun j => ?_
  rw [slot?_link, Option.map_map]
  cases q.slot? j with
  | none => rfl
  | some s =>
    simp only [Option.map_some, Function.comp_apply]
    split <;> rfl

@[simp] theorem dependencies_fill (q : Request ν) (i : Nat) (v : ModuleValue) :
    (q.fill i v).dependencies = q.dependencies := by
  refine dependencies_eq_of_slot? fun j => ?_
  rw [slot?_fill, Option.map_map]
  cases q.slot? j with
  | none => rfl
  | some s =>
    simp only [Option.map_some, Function.comp_apply]
    split <;> rfl

def Counted (r : Request ν) : Prop := r.resolved = r.slots.countP (·.isFilled)

theorem Counted.fill {r : Request ν} (h : r.Counted) (i : Nat) (v : ModuleValue) :
    (r.fill i v).Counted := by
  unfold Request.fill
  split
  · rename_i s hi
    obtain ⟨hlt, hget⟩ := List.getElem?_eq_some_iff.mp hi
    split
    · exact h
    · rename_i hf
      simp only [Counted] at h ⊢
      rw [List.countP_set hlt, hget, if_neg hf, h]
      simp [Slot.isFilled]
  · exact h

theorem Counted.link {r : Request ν} (h : r.Counted) (i : Nat) (url : String) :
    (r.link i url).Counted := by
  unfold Request.link
  split
  · rename_i s hi
    obtain ⟨hlt, hget⟩ := List.getElem?_eq_some_iff.mp hi
    simp only [Counted] at h ⊢
    rw [List.countP_set hlt, hget, h]
    by_cases hf : s.isFilled = true
    · have hpos : 0 < r.slots.countP (·.isFilled) :=
        List.countP_pos_iff.mpr ⟨s, hget ▸ List.getElem_mem hlt, hf⟩
      rw [if_pos hf, if_pos (by simpa [Slot.isFilled] using hf)]
      omega
    · rw [if_neg hf, if_neg (by simpa [Slot.isFilled] using hf)]
      omega
  · exact h

theorem Counted.isSatisfied_iff {r : Request ν} (h : r.Counted) :
    r.isSatisfied = true ↔ ∀ i s, r.slot? i = some s → s.value ≠ none := by
  simp only [isSatisfied, beq_iff_eq]
  rw [h, List.countP_eq_length]
  constructor
  · intro hall i s hs hv
    have := hall s (List.mem_of_getElem? hs)
    simp [Slot.isFilled, hv] at this
  · intro hall s hs
    obtain ⟨i, hi⟩ := List.mem_iff_getElem?.mp hs
    cases hv : s.value with
    | none => exact absurd hv (hall i s hi)
    | some v => simp [Slot.isFilled, hv]

end Request

end AsyncModule
