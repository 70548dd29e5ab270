import AsyncModule.Proofs.Resolved
import AsyncModule.Value
import Mathlib.Data.List.Forall2
import Mathlib.Logic.Relation

/-!
# AsyncModule.Proofs.Table

Tables of modules, and which of their modules are good. A table says of every canonical URL what
becomes of it: it cannot be fetched, it is markup, it is a unit that fails or defines nothing, or
it is a unit that defines its value from those of its dependencies. Good is what has a value: the
least set that holds all markup, and every definition whose dependencies are good and whose
factory makes a value of theirs.

* `Good.unique`       — a module has one value at most.
* `Good.alike`        — being good depends on nothing but the written form of a URL.
* `doomed_of_cycle`   — modules that need one another in a circle are not good.
-/

namespace AsyncModule

open Relation

/-- What becomes of a module that is asked for. -/
inductive Fate where
  /-- It cannot be fetched. -/
  | missing
  /-- It is a fragment of markup without a script. -/
  | markup (fragment : Fragment)
  /-- It is a unit that fails. -/
  | broken
  /-- It is a unit that defines nothing. -/
  | silent
  /-- It is a unit that defines its value from those of its dependencies. -/
  | defining (dependencies : List String)
      (factory : List Payload → Except String (Option Payload))

/-- What becomes of every module, by canonical URL. -/
abbrev Table := String → Fate

/-- What has a value, and which one. -/
inductive Good (τ : Table) (r : Resolver) : Url → Payload → Prop where
  | markup {u : Url} {fragment : Fragment} (h : τ u.toString = .markup fragment) :
    Good τ r u (.fragment fragment)
  /-- Every dependency names a good module, and the factory makes a value of theirs. -/
  | defining {u : Url} {ctx : Context} {dependencies : List String}
    {factory : List Payload → Except String (Option Payload)} {p : Payload}
    {children : List (Target × Payload)}
    (h : τ u.toString = .defining dependencies factory) (hctx : Context.ofUrl u = .ok ctx)
    (hresolve : dependencies.map (r.resolve · ctx) = children.map fun c => .ok c.1)
    (hgood : ∀ c ∈ children, Good τ r c.1.url c.2)
    (hvalue : factory (children.map (·.2)) = .ok (some p)) : Good τ r u p

def Doomed (τ : Table) (r : Resolver) (u : Url) : Prop := ∀ p, ¬ Good τ r u p

/-- A dependency names a good module, which has the given value. -/
def Supplies (τ : Table) (r : Resolver) (ctx : Context) (specifier : String) (p : Payload) :
    Prop :=
  ∃ t, r.resolve specifier ctx = .ok t ∧ Good τ r t.url p

/-- Each dependency names a good module, and these have the given values. -/
def Supplied (τ : Table) (r : Resolver) (ctx : Context) (dependencies : List String)
    (values : List Payload) : Prop :=
  List.Forall₂ (Supplies τ r ctx) dependencies values

variable {τ : Table} {r : Resolver} {ctx ctx' : Context} {u v : Url} {p p' : Payload}
  {dependencies : List String} {factory : List Payload → Except String (Option Payload)}

theorem forall₂_children {children : List (Target × Payload)} {P : Target × Payload → Prop}
    (hresolve : dependencies.map (r.resolve · ctx) = children.map fun c => .ok c.1)
    (hall : ∀ c ∈ children, P c) :
    List.Forall₂ (fun s c => r.resolve s ctx = .ok c.1 ∧ P c) dependencies children := by
  induction children generalizing dependencies with
  | nil =>
    rw [List.map_nil, List.map_eq_nil_iff] at hresolve
    rw [hresolve]
    exact .nil
  | cons c children ih =>
    cases dependencies with
    | nil => cases hresolve
    | cons s dependencies =>
      rw [List.map_cons, List.map_cons, List.cons.injEq] at hresolve
      exact .cons ⟨hresolve.1, hall c List.mem_cons_self⟩
        (ih hresolve.2 fun c' hc' => hall c' (List.mem_cons_of_mem _ hc'))

theorem supplied_iff {values : List Payload} :
    Supplied τ r ctx dependencies values ↔
      ∃ children : List (Target × Payload),
        dependencies.map (r.resolve · ctx) = (children.map fun c => .ok c.1) ∧
        (∀ c ∈ children, Good τ r c.1.url c.2) ∧ children.map (·.2) = values := by
  constructor
  · intro h
    induction h with
    | nil => exact ⟨[], rfl, by simp, rfl⟩
    | cons hfirst _ ih =>
      obtain ⟨t, ht, hgood⟩ := hfirst
      obtain ⟨children, hresolve, hall, rfl⟩ := ih
      refine ⟨(t, _) :: children, ?_, ?_, rfl⟩
      · rw [List.map_cons, List.map_cons, ht, hresolve]
      · intro c hc
        rcases List.mem_cons.mp hc with rfl | hc
        · exact hgood
        · exact hall c hc
  · rintro ⟨children, hresolve, hall, rfl⟩
    refine List.forall₂_map_right_iff.mpr ((forall₂_children hresolve hall).imp ?_)
    exact fun s c h => ⟨c.1, h.1, h.2⟩

theorem good_iff_of_defining (h : τ u.toString = .defining dependencies factory) :
    Good τ r u p ↔ ∃ ctx values, Context.ofUrl u = .ok ctx ∧
      Supplied τ r ctx dependencies values ∧ factory values = .ok (some p) := by
  constructor
  · intro hgood
    cases hgood with
    | markup h' =>
      rw [h] at h'
      cases h'
    | defining h' hctx hresolve hall hvalue =>
      rw [h] at h'
      cases h'
      exact ⟨_, _, hctx, supplied_iff.mpr ⟨_, hresolve, hall, rfl⟩, hvalue⟩
  · rintro ⟨ctx, values, hctx, hsupplied, hvalue⟩
    obtain ⟨children, hresolve, hall, rfl⟩ := supplied_iff.mp hsupplied
    exact .defining h hctx hresolve hall hvalue

theorem good_iff_of_markup {fragment : Fragment} (h : τ u.toString = .markup fragment) :
    Good τ r u p ↔ p = .fragment fragment := by
  constructor
  · intro hgood
    cases hgood with
    | markup h' =>
      rw [h] at h'
      cases h'
      rfl
    | defining h' =>
      rw [h] at h'
      cases h'
  · rintro rfl
    exact .markup h

theorem doomed_of_fate (hm : ∀ fragment, τ u.toString ≠ .markup fragment)
    (hd : ∀ dependencies factory, τ u.toString ≠ .defining dependencies factory) :
    Doomed τ r u := by
  intro p hgood
  cases hgood with
  | markup h => exact hm _ h
  | defining h => exact hd _ _ h

theorem eq_of_forall₂ {α β : Type} {R S : α → β → Prop}
    (heq : ∀ x y z, R x y → S x z → y = z) {xs : List α} {ys zs : List β}
    (h : List.Forall₂ R xs ys) (h' : List.Forall₂ S xs zs) : ys = zs := by
  induction h generalizing zs with
  | nil => exact (List.forall₂_nil_left_iff.mp h').symm
  | cons hfirst _ ih =>
    cases h' with
    | cons hfirst' hrest' => rw [heq _ _ _ hfirst hfirst', ih hrest']

theorem Good.unique (h : Good τ r u p) (h' : Good τ r u p') : p = p' := by
  induction h generalizing p' with
  | markup h =>
    rw [good_iff_of_markup h] at h'
    exact h'.symm
  | @defining u ctx dependencies factory p children h hctx hresolve _ hvalue ih =>
    obtain ⟨ctx', values, hctx', hsupplied, hvalue'⟩ := (good_iff_of_defining h).mp h'
    rw [hctx] at hctx'
    cases hctx'
    have hchildren : List.Forall₂
        (fun s q => ∃ t, r.resolve s ctx = .ok t ∧ ∀ q', Good τ r t.url q' → q = q')
        dependencies (children.map (·.2)) := by
      refine List.forall₂_map_right_iff.mpr ((forall₂_children hresolve ih).imp ?_)
      exact fun s c h => ⟨c.1, h.1, fun q hq => h.2 hq⟩
    have hsame : values = children.map (·.2) := by
      refine eq_of_forall₂ ?_ hsupplied hchildren
      rintro s q q' ⟨t, ht, hq⟩ ⟨t', ht', hq'⟩
      rw [ht] at ht'
      cases ht'
      exact (hq' q hq).symm
    rw [hsame, hvalue] at hvalue'
    cases hvalue'
    rfl

theorem Supplied.unique {values values' : List Payload}
    (h : Supplied τ r ctx dependencies values) (h' : Supplied τ r ctx dependencies values') :
    values = values' := by
  refine eq_of_forall₂ ?_ h h'
  rintro s p p' ⟨t, ht, hp⟩ ⟨t', ht', hp'⟩
  rw [ht] at ht'
  cases ht'
  exact hp.unique hp'

/-! ## The written form -/

theorem Good.alike (hr : r.WellFormed) (h : Good τ r u p) :
    ∀ {v : Url}, Url.Alike u v → Good τ r v p := by
  induction h with
  | markup h =>
    intro v halike
    rw [halike.toString_eq] at h
    exact .markup h
  | @defining u ctx dependencies factory p children h hctx hresolve _ hvalue ih =>
    intro v halike
    rw [halike.toString_eq] at h
    obtain ⟨ctx', hctx', hcontext⟩ := (Context.sameResult_ofUrl halike).exists_of_ok hctx
    refine (good_iff_of_defining h).mpr ⟨ctx', _, hctx', ?_, hvalue⟩
    refine List.forall₂_map_right_iff.mpr ((forall₂_children hresolve ih).imp ?_)
    rintro s c ⟨hs, hgood⟩
    obtain ⟨t, ht, htarget⟩ := (Resolver.sameResult_resolve hr hcontext s).exists_of_ok hs
    exact ⟨t, ht, hgood htarget.url⟩

theorem good_congr (hr : r.WellFormed) (hu : u.Canonical) (hv : v.Canonical)
    (h : u.toString = v.toString) : Good τ r u p ↔ Good τ r v p := by
  have halike := Url.alike_of_toString_eq hu hv h
  exact ⟨fun hgood => hgood.alike hr halike, fun hgood => hgood.alike hr halike.symm⟩

theorem doomed_congr (hr : r.WellFormed) (hu : u.Canonical) (hv : v.Canonical)
    (h : u.toString = v.toString) : Doomed τ r u ↔ Doomed τ r v :=
  forall_congr' fun _ => not_congr (good_congr hr hu hv h)

/-! ## Needing -/

/-- The module written `x` is a definition, and the module written `y` a dependency of it. -/
def Needs (τ : Table) (r : Resolver) (x y : String) : Prop :=
  ∃ u dependencies factory ctx s t, u.Canonical ∧ u.toString = x ∧
    τ x = .defining dependencies factory ∧ Context.ofUrl u = .ok ctx ∧ s ∈ dependencies ∧
    r.resolve s ctx = .ok t ∧ t.key = y

/-- There is no end to what is needed along a circle, but there is to what makes a module good. -/
theorem Good.acc (hr : r.WellFormed) (h : Good τ r u p) :
    u.Canonical → Acc (fun y x => Needs τ r x y) u.toString := by
  induction h with
  | markup h =>
    intro _
    refine .intro _ ?_
    rintro y ⟨_, _, _, _, _, _, _, _, hdefining, _⟩
    rw [h] at hdefining
    cases hdefining
  | @defining u ctx dependencies factory p children h hctx hresolve _ _ ih =>
    intro hu
    refine .intro _ ?_
    rintro y ⟨v, _, _, ctx', s, t', hv, hsame, hdefining, hctx', hs, ht', rfl⟩
    rw [h] at hdefining
    cases hdefining
    have halike := Url.alike_of_toString_eq hv hu hsame
    obtain ⟨ctx'', hctx'', hcontext⟩ := (Context.sameResult_ofUrl halike).exists_of_ok hctx'
    rw [hctx] at hctx''
    cases hctx''
    obtain ⟨t, ht, htarget⟩ := (Resolver.sameResult_resolve hr hcontext s).exists_of_ok ht'
    have hmem : r.resolve s ctx ∈ dependencies.map (r.resolve · ctx) := List.mem_map_of_mem hs
    rw [hresolve, ht, List.mem_map] at hmem
    obtain ⟨c, hc, heq⟩ := hmem
    cases heq
    have hcanonical := Resolver.canonical_of_resolve hr
      (Context.wellFormed_ofUrl hu.toWellFormed hctx) ht
    have hacc := ih c hc hcanonical
    rw [htarget.key_eq]
    exact hacc

theorem not_rel_self_of_acc {α : Type} {R : α → α → Prop} {x : α} (h : Acc R x) : ¬ R x x := by
  induction h with
  | intro x _ ih => exact fun hx => ih x hx hx

theorem doomed_of_cycle (hr : r.WellFormed) (hu : u.Canonical)
    (h : TransGen (Needs τ r) u.toString u.toString) : Doomed τ r u := by
  intro p hgood
  refine not_rel_self_of_acc (hgood.acc hr hu).transGen ?_
  exact transGen_swap.mpr h

end AsyncModule
