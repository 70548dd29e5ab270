import AsyncModule.Proofs.CycleSearch
import Mathlib.Data.List.Forall2

/-!
# AsyncModule.Proofs.Trails

The search for cycles as a loop with no bound on its turns, which notes who came upon each module
and climbs back along these notes once the goal is found.

* `Climbs.unique`, `Searches.unique` — the way back and the loop have one outcome at most.
* `searches_search`                  — the loop ends, with what the search over whole paths finds.
* `findCycle_spec`                   — the loop ends; it finds nothing exactly when the definer is
  out of reach, and otherwise a chain along definitions that are held up.

A note is made only for a module not seen before, so the ways back of the modules on the stack stay
as they are: they are the paths of the other search (`Tracks`).
-/

namespace AsyncModule
namespace Registry

open Relation

variable {ν : Type} {g : Registry} {rs : Requests ν}

/-! ## The loop -/

/-- The way back from a module to where nobody came upon it, by the notes of who found whom. -/
inductive Climbs (finders : List (String × String)) : String → List String → Prop where
  | start {x : String} : finders.lookup x = none → Climbs finders x [x]
  | up {x finder : String} {way : List String} :
      finders.lookup x = some finder → Climbs finders finder way → Climbs finders x (x :: way)

/-- Where a search stands. -/
structure Hunt where
  seen : List String
  /-- Who came upon each module. -/
  finders : List (String × String)
  /-- The modules still to be taken up. -/
  stack : List String

namespace Hunt

def start (dependency : String) : Hunt := ⟨[dependency], [], [dependency]⟩

/-- Come from `current` upon those of the modules that have not been seen. -/
def find (current : String) : List String → Hunt → Hunt
  | [], h => h
  | next :: rest, h =>
    if h.seen.contains next then find current rest h
    else find current rest
      ⟨next :: h.seen, (next, current) :: h.finders, next :: h.stack⟩

end Hunt

/-- The loop, from where it stands to its end: nothing is left to take up, or the goal is taken up
and the way back from it is climbed. -/
inductive Searches (g : Registry) (rs : Requests ν) (goal : String) :
    Hunt → Option (List String) → Prop where
  | exhausted {seen : List String} {finders : List (String × String)} :
      Searches g rs goal ⟨seen, finders, []⟩ none
  | found {seen stack way : List String} {finders : List (String × String)} :
      Climbs finders goal way → Searches g rs goal ⟨seen, finders, goal :: stack⟩ (some way)
  | follow {current : String} {seen stack : List String} {finders : List (String × String)}
      {result : Option (List String)} :
      current ≠ goal →
      Searches g rs goal (Hunt.find current (g.awaited rs current) ⟨seen, finders, stack⟩) result →
      Searches g rs goal ⟨seen, finders, current :: stack⟩ result

theorem Climbs.unique {finders : List (String × String)} {x : String} {way way' : List String}
    (h : Climbs finders x way) (h' : Climbs finders x way') : way = way' := by
  induction h generalizing way' with
  | start hx =>
    cases h' with
    | start _ => rfl
    | up hx' _ => rw [hx] at hx'; cases hx'
  | up hx _ ih =>
    cases h' with
    | start hx' => rw [hx] at hx'; cases hx'
    | up hx' h' =>
      rw [hx] at hx'
      cases hx'
      rw [ih h']

theorem Searches.unique {goal : String} {h : Hunt} {result result' : Option (List String)}
    (hs : Searches g rs goal h result) (hs' : Searches g rs goal h result') :
    result = result' := by
  induction hs with
  | exhausted => cases hs'; rfl
  | found hc =>
    cases hs' with
    | found hc' => rw [hc.unique hc']
    | follow hne _ => exact absurd rfl hne
  | follow hne _ ih =>
    cases hs' with
    | found _ => exact absurd rfl hne
    | follow _ hs' => exact ih hs'

/-! ## The ways back are the paths -/

/-- A note about a module off the way changes nothing on it. -/
theorem Climbs.note {finders : List (String × String)} {x y finder : String} {way : List String}
    (h : Climbs finders x way) (hy : y ∉ way) : Climbs ((y, finder) :: finders) x way := by
  induction h with
  | start hx =>
    have hne : _ ≠ y := fun he => hy (he ▸ List.mem_cons_self)
    exact .start (by rw [List.lookup_cons, beq_eq_false_iff_ne.mpr hne]; exact hx)
  | up hx _ ih =>
    have hne : _ ≠ y := fun he => hy (he ▸ List.mem_cons_self)
    exact .up (by rw [List.lookup_cons, beq_eq_false_iff_ne.mpr hne]; exact hx)
      (ih fun hmem => hy (List.mem_cons_of_mem _ hmem))

/-- `path` is the way back from `x`, and all of it has been seen. -/
structure IsWay (seen : List String) (finders : List (String × String)) (path : List String)
    (x : String) : Prop where
  climbs : Climbs finders x path
  head : path.head? = some x
  within : path ⊆ seen

/-- The paths of the one search are the ways back of the modules on the stack of the other. -/
def Tracks (paths : List (List String)) (h : Hunt) : Prop :=
  List.Forall₂ (IsWay h.seen h.finders) paths h.stack

theorem IsWay.note {seen path : List String} {finders : List (String × String)}
    {x next current : String} (hw : IsWay seen finders path x) (hn : next ∉ seen) :
    IsWay (next :: seen) ((next, current) :: finders) path x where
  climbs := hw.climbs.note fun hmem => hn (hw.within hmem)
  head := hw.head
  within := fun _ hy => List.mem_cons_of_mem _ (hw.within hy)

theorem IsWay.cons {seen path : List String} {finders : List (String × String)}
    {next current : String} (hw : IsWay seen finders path current) (hn : next ∉ seen) :
    IsWay (next :: seen) ((next, current) :: finders) (next :: path) next where
  climbs := .up (by simp) (hw.note hn).climbs
  head := rfl
  within := List.cons_subset_cons next hw.within

theorem Tracks.find {path : List String} {current : String} (nexts : List String) :
    ∀ {h : Hunt} {paths : List (List String)}, Tracks paths h → IsWay h.seen h.finders path current →
      (h.find current nexts).seen = (explore path nexts (h.seen, paths)).1 ∧
      Tracks (explore path nexts (h.seen, paths)).2 (h.find current nexts) := by
  induction nexts with
  | nil => intro h paths ht _; exact ⟨rfl, ht⟩
  | cons next rest ih =>
    intro h paths ht hw
    by_cases hn : next ∈ h.seen
    · simp only [Hunt.find, explore, List.contains_eq_mem, hn, decide_true, if_true]
      exact ih ht hw
    · simp only [Hunt.find, explore, List.contains_eq_mem, hn, decide_false, Bool.false_eq_true,
        if_false]
      refine ih ?_ (hw.note hn)
      exact .cons (hw.cons hn) (ht.imp fun _ _ hp => hp.note hn)

/-- With turns enough, the loop ends with what the search over paths finds. -/
theorem searches_search {goal dependency : String} (fuel : Nat) :
    ∀ {h : Hunt} {paths : List (List String)},
      Frontier g rs goal dependency h.seen paths → Tracks paths h →
      (linkedModules rs).length + 1 - h.seen.length + paths.length < fuel →
      Searches g rs goal h (search g rs goal fuel h.seen paths) := by
  induction fuel with
  | zero => intro h paths _ _ hfuel; omega
  | succ fuel ih =>
    rintro ⟨seen, finders, stack⟩ paths hf ht hfuel
    unfold Tracks at ht
    cases ht with
    | nil => exact .exhausted
    | @cons path current paths stack hw ht =>
      obtain ⟨front, rfl⟩ : ∃ front, path = current :: front :=
        List.head?_eq_some_iff.mp hw.head
      by_cases hc : current = goal
      · subst hc
        simp only [search, beq_self_eq_true, if_true]
        exact .found hw.climbs
      · obtain ⟨new, heq, hnd, hnew, hall⟩ :=
          explore_eq (current :: front) (g.awaited rs current) seen paths
        have hf' := hf.follow hc hnd hnew hall
        obtain ⟨hseen, htracks⟩ :=
          Tracks.find (h := ⟨seen, finders, stack⟩) (g.awaited rs current) ht hw
        simp only [heq] at hseen htracks
        have hle := hf'.length_le
        simp only [search, beq_iff_eq, hc, if_false, heq]
        refine .follow hc ?_
        rw [← hseen] at hf' hle ⊢
        refine ih hf' htracks ?_
        rw [hseen] at hle ⊢
        simp only [List.length_append, List.length_map, List.length_cons] at hfuel hle ⊢
        omega

/-- From any two modules the loop has one outcome: the one that the search for cycles reports. -/
theorem searches_iff (g : Registry) (rs : Requests ν) (goal dependency : String)
    (result : Option (List String)) :
    Searches g rs goal (.start dependency) result ↔
      result = search g rs goal (searchBound rs) [dependency] [[dependency]] := by
  have htracks : Tracks [[dependency]] (.start dependency) :=
    .cons ⟨.start rfl, rfl, List.Subset.refl _⟩ .nil
  have hbound := length_linkedModules rs
  have hends := searches_search (searchBound rs) (h := .start dependency)
    (Frontier.init g rs goal dependency) htracks
    (by simp only [Hunt.start, List.length_singleton]; omega)
  constructor
  · intro h
    exact h.unique hends
  · rintro rfl
    exact hends

/-! ## What it finds -/

/-- The definition that the record of `x` names is live, and an empty slot of it is linked
to `y`. -/
def IsHeldUp (g : Registry) (rs : Requests ν) (x y : String) : Prop :=
  ∃ id r i s, g.definition? x = some id ∧ rs.get? id = some r ∧
    r.slot? i = some s ∧ s.value = none ∧ s.module = some y

theorem isHeldUp_eq : IsHeldUp g rs = g.WaitsFor rs := by
  funext x y
  refine propext ⟨?_, ?_⟩
  · rintro ⟨id, r, i, s, hid, hr, hs⟩
    exact waitsFor_iff.mpr ⟨id, r, hid, hr, Request.mem_pendingModules.mpr ⟨i, s, hs⟩⟩
  · intro h
    obtain ⟨id, r, hid, hr, hy⟩ := waitsFor_iff.mp h
    obtain ⟨i, s, hs⟩ := Request.mem_pendingModules.mp hy
    exact ⟨id, r, i, s, hid, hr, hs⟩

/-- Of any registry and any requests: the search ends with one outcome, which is nothing exactly
when the definer cannot be reached from the dependency; a chain that it finds runs from the definer
over the dependency back to the definer, each module but the first held up by the next, and none
of them twice but the definer at both ends. -/
theorem findCycle_spec (g : Registry) (rs : Requests ν) (definer dependency : String) :
    (∃ result, (∀ found, Searches g rs definer (.start dependency) found ↔ found = result) ∧
      g.findCycle rs definer dependency = result.map fun way => definer :: way.reverse) ∧
    (g.findCycle rs definer dependency = none ↔
      ¬ ReflTransGen (IsHeldUp g rs) dependency definer) ∧
    ∀ chain, g.findCycle rs definer dependency = some chain →
      ∃ path : List String, chain = definer :: path ∧ path.head? = some dependency ∧
        path.getLast? = some definer ∧ path.IsChain (IsHeldUp g rs) ∧ path.Nodup := by
  rw [isHeldUp_eq]
  refine ⟨⟨_, searches_iff g rs definer dependency, rfl⟩, findCycle_eq_none_iff, ?_⟩
  intro chain h
  exact (isCycle_of_findCycle h).path

/-- `b` and `c` hold one another up, `c` also waits for `d` twice, and `d` for `a`; the definition
that `a` names is no longer there. -/
def knot : Registry × Requests Unit :=
  let request (modules : List String) : Request Unit :=
    { Request.ofCall modules (fun _ => .finish .done) none none none with
      slots := modules.map fun url => ⟨url, some url, none⟩ }
  let record (url : String) (id : RequestId) : String × Record :=
    (url, ⟨⟨⟨url, "", "", none, none, .rooted [], none, none⟩, url, .code⟩, .loading, [], some id⟩)
  let b := Requests.empty.insert (request ["c"])
  let c := b.2.insert (request ["d", "b", "d"])
  let d := c.2.insert (request ["a"])
  (⟨[record "a" ⟨0, 7⟩, record "b" b.1, record "c" c.1, record "d" d.1]⟩, d.2)

theorem findCycle_spec_knot :
    knot.1.findCycle knot.2 "b" "d" = none ∧
    ¬ ReflTransGen (IsHeldUp knot.1 knot.2) "d" "b" ∧
    ∃ path : List String, ["a", "b", "c", "d", "a"] = "a" :: path ∧ path.head? = some "b" ∧
      path.getLast? = some "a" ∧ path.IsChain (IsHeldUp knot.1 knot.2) ∧ path.Nodup := by
  have hnone : knot.1.findCycle knot.2 "b" "d" = none := by decide +kernel
  have hsome : knot.1.findCycle knot.2 "a" "b" = some ["a", "b", "c", "d", "a"] := by
    decide +kernel
  obtain ⟨_, hiff, _⟩ := findCycle_spec knot.1 knot.2 "b" "d"
  obtain ⟨_, _, hchain⟩ := findCycle_spec knot.1 knot.2 "a" "b"
  exact ⟨hnone, hiff.mp hnone, hchain _ hsome⟩

end Registry
end AsyncModule
