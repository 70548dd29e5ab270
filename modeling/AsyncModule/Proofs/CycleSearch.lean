import AsyncModule.Registry
import Mathlib.Data.List.Chain
import Mathlib.Data.List.Nodup
import Mathlib.Data.List.Perm.Subperm
import Mathlib.Logic.Relation

/-!
# AsyncModule.Proofs.CycleSearch

The search for cycles decides reachability among the definitions that wait for one another, for
every registry and every store of requests.

* `findCycle_eq_none_iff`  — no cycle is found exactly when the definer cannot be reached from the
  dependency.
* `isCycle_of_findCycle`   — a chain that is found runs from the definer over the dependency back to
  the definer along modules that wait for the next, and meets no other module twice.

The search keeps a `Frontier`: what has been seen has been followed or stands at the head of a
path on the stack. Every step takes one path off and adds one for each module newly seen, so a
bound on the modules that can be seen bounds the steps.
-/

namespace AsyncModule
namespace Registry

open Relation

variable {ν : Type} {g : Registry} {rs : Requests ν}

/-- The definition of `x` is under way and waits for `y`. -/
def WaitsFor (g : Registry) (rs : Requests ν) (x y : String) : Prop := y ∈ g.awaited rs x

theorem waitsFor_iff {x y : String} :
    g.WaitsFor rs x y ↔
      ∃ id r, g.definition? x = some id ∧ rs.get? id = some r ∧ y ∈ r.pendingModules := by
  unfold WaitsFor awaited
  constructor
  · intro h
    split at h
    · cases h
    · rename_i id hd
      split at h
      · cases h
      · rename_i r hr
        exact ⟨id, r, hd, hr, h⟩
  · rintro ⟨id, r, hid, hr, h⟩
    simp only [hid, hr]
    exact h

/-! ## How many modules can be waited for -/

def linkedModules (rs : Requests ν) : List String := rs.live.flatMap fun p => p.2.modules

theorem mem_linkedModules {x y : String} (h : g.WaitsFor rs x y) : y ∈ linkedModules rs := by
  obtain ⟨id, r, _, hr, hy⟩ := waitsFor_iff.mp h
  obtain ⟨i, s, hs, _, hm⟩ := Request.mem_pendingModules.mp hy
  rw [linkedModules, List.mem_flatMap]
  exact ⟨(id, r), Requests.mem_live.mpr hr, Request.mem_modules.mpr ⟨i, s, hs, hm⟩⟩

theorem length_linkedModules (rs : Requests ν) :
    (linkedModules rs).length + 2 ≤ searchBound rs := by
  unfold linkedModules searchBound
  induction rs.live with
  | nil => simp
  | cons p rest ih =>
    have hle : p.2.modules.length ≤ p.2.slots.length := List.length_filterMap_le _ _
    rw [List.flatMap_cons, List.length_append, List.foldr_cons]
    omega

/-! ## One step of the search -/

theorem explore_eq (path nexts seen : List String) (stack : List (List String)) :
    ∃ new : List String,
      explore path nexts (seen, stack) = (new ++ seen, new.map (· :: path) ++ stack) ∧
      new.Nodup ∧ (∀ x ∈ new, x ∈ nexts ∧ x ∉ seen) ∧ ∀ x ∈ nexts, x ∈ new ∨ x ∈ seen := by
  induction nexts generalizing seen stack with
  | nil => exact ⟨[], rfl, .nil, by simp, by simp⟩
  | cons next rest ih =>
    simp only [explore]
    by_cases hn : next ∈ seen
    · obtain ⟨new, heq, hnd, hnew, hall⟩ := ih seen stack
      refine ⟨new, ?_, hnd, ?_, ?_⟩
      · simp only [List.contains_eq_mem, hn, decide_true, if_true]
        exact heq
      · intro x hx
        exact ⟨List.mem_cons_of_mem _ (hnew x hx).1, (hnew x hx).2⟩
      · intro x hx
        rcases List.mem_cons.mp hx with rfl | hx
        · exact .inr hn
        · exact hall x hx
    · obtain ⟨new, heq, hnd, hnew, hall⟩ := ih (next :: seen) ((next :: path) :: stack)
      refine ⟨new ++ [next], ?_, ?_, ?_, ?_⟩
      · simp only [List.contains_eq_mem, hn, decide_false, Bool.false_eq_true, if_false]
        rw [heq]
        simp
      · rw [List.nodup_append]
        refine ⟨hnd, by simp, ?_⟩
        intro x hx y hy hxy
        rw [List.mem_singleton.mp hy] at hxy
        exact (hnew x hx).2 (hxy ▸ List.mem_cons_self)
      · intro x hx
        rcases List.mem_append.mp hx with hx | hx
        · exact ⟨List.mem_cons_of_mem _ (hnew x hx).1,
            fun h => (hnew x hx).2 (List.mem_cons_of_mem _ h)⟩
        · rw [List.mem_singleton.mp hx]
          exact ⟨List.mem_cons_self, hn⟩
      · intro x hx
        rcases List.mem_cons.mp hx with rfl | hx
        · exact .inl (by simp)
        · rcases hall x hx with h | h
          · exact .inl (List.mem_append_left _ h)
          · rcases List.mem_cons.mp h with rfl | h
            · exact .inl (by simp)
            · exact .inr h

/-- A path that the search follows, innermost module first: it leads from the dependency along
modules that wait for the next, and has not met the goal before its end. -/
structure IsTrail (g : Registry) (rs : Requests ν) (goal dependency : String)
    (path : List String) : Prop where
  chain : path.IsChain fun y x => g.WaitsFor rs x y
  last : path.getLast? = some dependency
  nodup : path.Nodup
  goal : goal ∉ path.tail

/-- The state of a search: what has been seen, each module once, and the paths to be followed. -/
structure Frontier (g : Registry) (rs : Requests ν) (goal dependency : String)
    (seen : List String) (stack : List (List String)) : Prop where
  nodup : seen.Nodup
  start : dependency ∈ seen
  within : seen ⊆ dependency :: linkedModules rs
  trail : ∀ p ∈ stack, p ≠ [] ∧ IsTrail g rs goal dependency p ∧ p ⊆ seen
  /-- What has been seen is at the head of a path or has been followed. -/
  followed : ∀ x ∈ seen, (∃ p ∈ stack, p.head? = some x) ∨
    (x ≠ goal ∧ ∀ y, g.WaitsFor rs x y → y ∈ seen)

theorem Frontier.init (g : Registry) (rs : Requests ν) (goal dependency : String) :
    Frontier g rs goal dependency [dependency] [[dependency]] where
  nodup := by simp
  start := by simp
  within := by simp
  trail := by
    intro p hp
    rw [List.mem_singleton.mp hp]
    exact ⟨by simp, ⟨by simp, rfl, by simp, by simp⟩, List.Subset.refl _⟩
  followed := by
    intro x hx
    rw [List.mem_singleton.mp hx]
    exact .inl ⟨[dependency], by simp, rfl⟩

theorem Frontier.follow {goal dependency current : String} {front seen new : List String}
    {stack : List (List String)}
    (h : Frontier g rs goal dependency seen ((current :: front) :: stack))
    (hc : current ≠ goal) (hnd : new.Nodup)
    (hnew : ∀ x ∈ new, g.WaitsFor rs current x ∧ x ∉ seen)
    (hall : ∀ x, g.WaitsFor rs current x → x ∈ new ∨ x ∈ seen) :
    Frontier g rs goal dependency (new ++ seen)
      (new.map (· :: current :: front) ++ stack) := by
  obtain ⟨_, htrail, hsub⟩ := h.trail _ List.mem_cons_self
  refine ⟨?_, List.mem_append_right _ h.start, ?_, ?_, ?_⟩
  · rw [List.nodup_append]
    refine ⟨hnd, h.nodup, ?_⟩
    rintro x hx y hy rfl
    exact (hnew x hx).2 hy
  · intro x hx
    rcases List.mem_append.mp hx with hx | hx
    · exact List.mem_cons_of_mem _ (mem_linkedModules (hnew x hx).1)
    · exact h.within hx
  · intro p hp
    rcases List.mem_append.mp hp with hp | hp
    · obtain ⟨x, hx, rfl⟩ := List.mem_map.mp hp
      refine ⟨by simp, ⟨?_, ?_, ?_, ?_⟩, ?_⟩
      · rw [List.isChain_cons_cons]
        exact ⟨(hnew x hx).1, htrail.chain⟩
      · rw [List.getLast?_cons_cons]
        exact htrail.last
      · rw [List.nodup_cons]
        exact ⟨fun hmem => (hnew x hx).2 (hsub hmem), htrail.nodup⟩
      · simp only [List.tail_cons, List.mem_cons, not_or]
        exact ⟨fun e => hc e.symm, htrail.goal⟩
      · intro y hy
        rcases List.mem_cons.mp hy with rfl | hy
        · exact List.mem_append_left _ hx
        · exact List.mem_append_right _ (hsub hy)
    · obtain ⟨hne, ht, hs⟩ := h.trail p (List.mem_cons_of_mem _ hp)
      exact ⟨hne, ht, fun y hy => List.mem_append_right _ (hs hy)⟩
  · intro x hx
    rcases List.mem_append.mp hx with hx | hx
    · exact .inl ⟨x :: current :: front, by simp [hx], rfl⟩
    · rcases h.followed x hx with ⟨p, hp, hhead⟩ | ⟨hne, hnext⟩
      · rcases List.mem_cons.mp hp with rfl | hp
        · simp only [List.head?_cons, Option.some.injEq] at hhead
          subst hhead
          exact .inr ⟨hc, fun y hy => List.mem_append.mpr (hall y hy)⟩
        · exact .inl ⟨p, List.mem_append_right _ hp, hhead⟩
      · exact .inr ⟨hne, fun y hy => List.mem_append_right _ (hnext y hy)⟩

/-- With nothing left to follow, all that can be reached has been seen. -/
theorem Frontier.not_reachable {goal dependency : String} {seen : List String}
    (h : Frontier g rs goal dependency seen []) :
    ¬ ReflTransGen (g.WaitsFor rs) dependency goal := by
  have hclosed : ∀ x ∈ seen, x ≠ goal ∧ ∀ y, g.WaitsFor rs x y → y ∈ seen := by
    intro x hx
    rcases h.followed x hx with ⟨p, hp, _⟩ | hx
    · cases hp
    · exact hx
  have hseen : ∀ x, ReflTransGen (g.WaitsFor rs) dependency x → x ∈ seen := by
    intro x hx
    induction hx with
    | refl => exact h.start
    | tail _ hstep ih => exact (hclosed _ ih).2 _ hstep
  intro hreach
  exact (hclosed goal (hseen goal hreach)).1 rfl

theorem Frontier.length_le {goal dependency : String} {seen : List String}
    {stack : List (List String)} (h : Frontier g rs goal dependency seen stack) :
    seen.length ≤ (linkedModules rs).length + 1 := by
  have := (h.nodup.subperm h.within).length_le
  simpa using this

/-! ## The whole search -/

theorem search_succ {goal dependency current : String} {front seen : List String}
    {stack : List (List String)} (fuel : Nat)
    (h : Frontier g rs goal dependency seen ((current :: front) :: stack))
    (hc : current ≠ goal) :
    ∃ new, search g rs goal (fuel + 1) seen ((current :: front) :: stack) =
        search g rs goal fuel (new ++ seen) (new.map (· :: current :: front) ++ stack) ∧
      Frontier g rs goal dependency (new ++ seen)
        (new.map (· :: current :: front) ++ stack) := by
  obtain ⟨new, heq, hnd, hnew, hall⟩ :=
    explore_eq (current :: front) (g.awaited rs current) seen stack
  refine ⟨new, ?_, h.follow hc hnd hnew hall⟩
  simp only [search, beq_iff_eq, hc, if_false, heq]

theorem search_eq_some {goal dependency : String} {path : List String} (fuel : Nat) :
    ∀ {seen : List String} {stack : List (List String)},
      Frontier g rs goal dependency seen stack →
      search g rs goal fuel seen stack = some path →
      IsTrail g rs goal dependency path ∧ path.head? = some goal := by
  induction fuel with
  | zero => intro seen stack _ hs; simp [search] at hs
  | succ fuel ih =>
    intro seen stack h hs
    cases stack with
    | nil => simp [search] at hs
    | cons p stack =>
      obtain ⟨hne, htrail, _⟩ := h.trail p List.mem_cons_self
      cases p with
      | nil => exact absurd rfl hne
      | cons current front =>
        by_cases hc : current = goal
        · subst hc
          simp only [search, beq_self_eq_true, if_true, Option.some.injEq] at hs
          subst hs
          exact ⟨htrail, rfl⟩
        · obtain ⟨new, heq, hf⟩ := search_succ fuel h hc
          rw [heq] at hs
          exact ih hf hs

/-- Paths on the stack and modules not yet seen bound the steps that are left. -/
theorem search_eq_none {goal dependency : String} (fuel : Nat) :
    ∀ {seen : List String} {stack : List (List String)},
      Frontier g rs goal dependency seen stack →
      (linkedModules rs).length + 1 - seen.length + stack.length < fuel →
      search g rs goal fuel seen stack = none →
      ¬ ReflTransGen (g.WaitsFor rs) dependency goal := by
  induction fuel with
  | zero => intro seen stack _ hf; omega
  | succ fuel ih =>
    intro seen stack h hf hs
    cases stack with
    | nil => exact h.not_reachable
    | cons p stack =>
      obtain ⟨hne, _, _⟩ := h.trail p List.mem_cons_self
      cases p with
      | nil => exact absurd rfl hne
      | cons current front =>
        by_cases hc : current = goal
        · simp [search, hc] at hs
        · obtain ⟨new, heq, hf'⟩ := search_succ fuel h hc
          rw [heq] at hs
          have hle := hf'.length_le
          simp only [List.length_append] at hle
          refine ih hf' ?_ hs
          simp only [List.length_append, List.length_map, List.length_cons] at hf ⊢
          omega

/-- A chain of modules from a definer over a dependency back to the definer, each of which waits
for the next; the first link is the one that would close it. -/
structure IsCycle (g : Registry) (rs : Requests ν) (definer dependency : String)
    (chain : List String) : Prop where
  path : ∃ path : List String, chain = definer :: path ∧ path.head? = some dependency ∧
    path.getLast? = some definer ∧ path.IsChain (g.WaitsFor rs) ∧ path.Nodup

theorem isCycle_of_findCycle {definer dependency : String} {chain : List String}
    (h : g.findCycle rs definer dependency = some chain) :
    IsCycle g rs definer dependency chain := by
  obtain ⟨path, hs, rfl⟩ := Option.map_eq_some_iff.mp h
  obtain ⟨htrail, hhead⟩ := search_eq_some _ (Frontier.init g rs definer dependency) hs
  refine ⟨path.reverse, rfl, ?_, ?_, ?_, ?_⟩
  · rw [List.head?_reverse]; exact htrail.last
  · rw [List.getLast?_reverse]; exact hhead
  · rw [List.isChain_reverse]; exact htrail.chain
  · rw [List.nodup_reverse]; exact htrail.nodup

theorem IsCycle.reachable {definer dependency : String} {chain : List String}
    (h : IsCycle g rs definer dependency chain) :
    ReflTransGen (g.WaitsFor rs) dependency definer := by
  obtain ⟨path, _, hhead, hlast, hchain, _⟩ := h.path
  cases path with
  | nil => cases hhead
  | cons x rest =>
    simp only [List.head?_cons, Option.some.injEq] at hhead
    subst hhead
    exact List.relationReflTransGen_of_exists_isChain_cons rest hchain
      (by rw [List.getLast?_eq_some_getLast (by simp)] at hlast; simpa using hlast)

theorem findCycle_eq_none_iff {definer dependency : String} :
    g.findCycle rs definer dependency = none ↔
      ¬ ReflTransGen (g.WaitsFor rs) dependency definer := by
  constructor
  · intro h
    rw [findCycle, Option.map_eq_none_iff] at h
    have hbound := length_linkedModules rs
    exact search_eq_none _ (Frontier.init g rs definer dependency)
      (by simp only [List.length_singleton]; omega) h
  · intro h
    cases hc : g.findCycle rs definer dependency with
    | none => rfl
    | some chain => exact absurd (isCycle_of_findCycle hc).reachable h

end Registry
end AsyncModule
