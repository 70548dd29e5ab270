import AsyncModule.Proofs.Tame

/-!
# AsyncModule.Proofs.Setting

A table, and where specifiers are resolved: which modules are good, which are doomed, and what the
requests of a run by the table are for.

* `IsDefinition.goodAt_iff` — a definition has the value that its factory makes of its dependencies'.
* `Purpose.ends`            — with the values of its dependencies a callback ends as it should.
* `Request.Apt`             — requests are what they are for, and linked to what they name.
-/

namespace AsyncModule

variable {ν : Type}

/-- A table, and where the specifiers of its modules and of requests from outside are resolved. -/
structure Setting where
  table : Table
  resolver : Resolver
  /-- The context of requests from outside. -/
  context : Context
  resolver_wellFormed : resolver.WellFormed
  context_wellFormed : context.WellFormed

namespace Setting

variable (σ : Setting)

/-- The module with a canonical URL has a value. -/
def GoodAt (url : String) (p : Payload) : Prop :=
  ∃ u : Url, u.Canonical ∧ u.toString = url ∧ Good σ.table σ.resolver u p

/-- The module with a canonical URL has no value. -/
def DoomedAt (url : String) : Prop :=
  ∃ u : Url, u.Canonical ∧ u.toString = url ∧ Doomed σ.table σ.resolver u

def Supplies (ctx : Context) (specifier : String) (p : Payload) : Prop :=
  AsyncModule.Supplies σ.table σ.resolver ctx specifier p

def Supplied (ctx : Context) (dependencies : List String) (values : List Payload) : Prop :=
  AsyncModule.Supplied σ.table σ.resolver ctx dependencies values

def Denied (ctx : Context) (dependencies : List String) : Prop :=
  ∃ s ∈ dependencies, ∀ p, ¬ σ.Supplies ctx s p

def IsDefinition (url : String) (ctx : Context) (dependencies : List String)
    (factory : List Payload → Except String (Option Payload)) : Prop :=
  ∃ u : Url, u.Canonical ∧ u.toString = url ∧ Context.ofUrl u = .ok ctx ∧
    σ.table url = .defining dependencies factory

/-- What a record holds of a module is so. -/
def Admits (url : String) : ModuleState → Prop
  | .ready v => σ.GoodAt url v.payload
  | .failed _ => σ.DoomedAt url
  | _ => ∃ u : Url, u.Canonical ∧ u.toString = url

/-- A callback ends as it should: a module that it defines is good if it gives a value, and doomed
if it does not. -/
def Right : Option String → Outcome → Prop
  | none, o => o.IsOk
  | some url, .value v => σ.GoodAt url v.payload
  | some url, _ => σ.DoomedAt url

variable {σ} {url s : String} {ctx : Context} {dependencies : List String} {t : Target}
  {factory : List Payload → Except String (Option Payload)} {p : Payload} {values : List Payload}

theorem supplies_of_goodAt (hctx : ctx.WellFormed) (ht : σ.resolver.resolve s ctx = .ok t)
    (h : σ.GoodAt t.key p) : σ.Supplies ctx s p := by
  obtain ⟨u, hu, hkey, hgood⟩ := h
  have hcanonical := Resolver.canonical_of_resolve σ.resolver_wellFormed hctx ht
  exact ⟨t, ht, (good_congr σ.resolver_wellFormed hu hcanonical hkey).mp hgood⟩

theorem not_supplies_of_doomedAt (hctx : ctx.WellFormed)
    (ht : σ.resolver.resolve s ctx = .ok t) (h : σ.DoomedAt t.key) : ¬ σ.Supplies ctx s p := by
  obtain ⟨u, hu, hkey, hdoomed⟩ := h
  have hcanonical := Resolver.canonical_of_resolve σ.resolver_wellFormed hctx ht
  rintro ⟨t', ht', hgood⟩
  rw [ht] at ht'
  cases ht'
  exact (doomed_congr σ.resolver_wellFormed hu hcanonical hkey).mp hdoomed p hgood

theorem not_supplied_of_denied (h : σ.Denied ctx dependencies) :
    ¬ σ.Supplied ctx dependencies values := by
  obtain ⟨s, hs, hnone⟩ := h
  intro hsupplied
  unfold Supplied AsyncModule.Supplied at hsupplied
  induction hsupplied with
  | nil => cases hs
  | cons hfirst _ ih =>
    rcases List.mem_cons.mp hs with rfl | hs
    · exact hnone _ hfirst
    · exact ih hs

namespace IsDefinition

theorem wellFormed (h : σ.IsDefinition url ctx dependencies factory) : ctx.WellFormed := by
  obtain ⟨u, hu, _, hctx, _⟩ := h
  exact Context.wellFormed_ofUrl hu.toWellFormed hctx

theorem goodAt_iff (h : σ.IsDefinition url ctx dependencies factory)
    (hvalues : σ.Supplied ctx dependencies values) :
    σ.GoodAt url p ↔ factory values = .ok (some p) := by
  obtain ⟨u, hu, hkey, hctx, htable⟩ := h
  rw [← hkey] at htable
  constructor
  · rintro ⟨u', hu', hkey', hgood⟩
    have hgood := (good_congr σ.resolver_wellFormed hu' hu (by rw [hkey, hkey'])).mp hgood
    obtain ⟨ctx', values', hctx', hvalues', hvalue⟩ := (good_iff_of_defining htable).mp hgood
    rw [hctx] at hctx'
    cases hctx'
    rw [hvalues.unique hvalues']
    exact hvalue
  · intro hvalue
    exact ⟨u, hu, hkey, (good_iff_of_defining htable).mpr ⟨ctx, values, hctx, hvalues, hvalue⟩⟩

theorem doomedAt_of (h : σ.IsDefinition url ctx dependencies factory)
    (hnone : ∀ p, ¬ σ.GoodAt url p) : σ.DoomedAt url := by
  obtain ⟨u, hu, hkey, _, _⟩ := h
  exact ⟨u, hu, hkey, fun p hgood => hnone p ⟨u, hu, hkey, hgood⟩⟩

theorem doomedAt_of_denied (h : σ.IsDefinition url ctx dependencies factory)
    (hdenied : σ.Denied ctx dependencies) : σ.DoomedAt url := by
  obtain ⟨u, hu, hkey, hctx, htable⟩ := h
  refine ⟨u, hu, hkey, ?_⟩
  intro p hgood
  rw [← hkey] at htable
  obtain ⟨ctx', values, hctx', hvalues, _⟩ := (good_iff_of_defining htable).mp hgood
  rw [hctx] at hctx'
  cases hctx'
  exact not_supplied_of_denied hdenied hvalues

theorem right (h : σ.IsDefinition url ctx dependencies factory)
    (hvalues : σ.Supplied ctx dependencies values) {o : Outcome}
    (ho : o.Gives (factory values)) : σ.Right (some url) o := by
  have hdoomed : (∀ p, factory values ≠ .ok (some p)) → σ.DoomedAt url := by
    intro hnone
    exact h.doomedAt_of fun p hgood => hnone p ((h.goodAt_iff hvalues).mp hgood)
  cases o with
  | value v => exact (h.goodAt_iff hvalues).mpr ho
  | done =>
    have ho : factory values = .ok none := ho
    exact hdoomed (by simp [ho])
  | error reason =>
    have ho : factory values = .error reason := ho
    exact hdoomed (by simp [ho])

theorem needs (h : σ.IsDefinition url ctx dependencies factory) (hs : s ∈ dependencies)
    (ht : σ.resolver.resolve s ctx = .ok t) : Needs σ.table σ.resolver url t.key := by
  obtain ⟨u, hu, hkey, hctx, htable⟩ := h
  exact ⟨u, dependencies, factory, ctx, s, t, hu, hkey, htable, hctx, hs, ht, rfl⟩

end IsDefinition

end Setting

/-! ## Requests -/

namespace Setting

/-- What a request is for: it was made from outside, or to define a module as the table says. -/
def Purpose (σ : Setting) (ctx : Context) (dependencies : List String)
    (callback : List ModuleValue → Script ν) (errback : Option (LoadError → Script ν)) :
    Option String → Prop
  | none => ctx = σ.context ∧ errback ≠ none ∧
      ∀ values, (callback values).Ends Outcome.IsOk
  | some url => ∃ factory, σ.IsDefinition url ctx dependencies factory ∧
      ∀ values, (callback values).Ends (Outcome.Gives (factory (values.map (·.payload))))

variable {σ : Setting} {ctx : Context} {dependencies : List String}
  {callback : List ModuleValue → Script ν} {errback : Option (LoadError → Script ν)}
  {definition : Option String}

theorem Purpose.wellFormed (h : σ.Purpose ctx dependencies callback errback definition) :
    ctx.WellFormed := by
  cases definition with
  | none =>
    rw [h.1]
    exact σ.context_wellFormed
  | some url =>
    obtain ⟨factory, hdefinition, _⟩ := h
    exact hdefinition.wellFormed

theorem Purpose.doomedAt (h : σ.Purpose ctx dependencies callback errback definition)
    (hdenied : σ.Denied ctx dependencies) : ∀ url ∈ definition, σ.DoomedAt url := by
  rintro url rfl
  obtain ⟨factory, hdefinition, _⟩ := h
  exact hdefinition.doomedAt_of_denied hdenied

end Setting

theorem Script.Ends.mono {P Q : Outcome → Prop} {s : Script ν} (h : s.Ends P)
    (hPQ : ∀ o, P o → Q o) : s.Ends Q :=
  Quietly.mono h fun _ ⟨o, ho, hP⟩ => ⟨o, ho, hPQ o hP⟩

theorem Setting.Purpose.ends {σ : Setting} {ctx : Context} {dependencies : List String}
    {callback : List ModuleValue → Script ν} {errback : Option (LoadError → Script ν)}
    {definition : Option String}
    (h : σ.Purpose ctx dependencies callback errback definition) {values : List ModuleValue}
    (hvalues : σ.Supplied ctx dependencies (values.map (·.payload))) :
    (callback values).Ends (σ.Right definition) := by
  cases definition with
  | none => exact h.2.2 values
  | some url =>
    obtain ⟨factory, hdefinition, hends⟩ := h
    exact (hends values).mono fun o ho => hdefinition.right hvalues ho

namespace Request

/-- The request is what it was made for, and its slots are linked to what their specifiers
name. -/
structure Apt (σ : Setting) (ctx : Context) (q : Request ν) : Prop where
  context : q.context = some ctx
  purpose : σ.Purpose ctx q.dependencies q.callback q.errback q.definitionUrl
  handler : ∀ handler ∈ q.errback, ∀ e, (handler e).Ends fun _ => True
  linked : ∀ i s url, q.slot? i = some s → s.module = some url →
    ∃ t, σ.resolver.resolve s.specifier ctx = .ok t ∧ t.key = url

namespace Apt

variable {σ : Setting} {ctx : Context} {q : Request ν}

theorem wellFormed (h : q.Apt σ ctx) : ctx.WellFormed := h.purpose.wellFormed

/-- A request from outside has their context, and a handler. -/
theorem outside (h : q.Apt σ ctx) (hnone : q.definitionUrl = none) :
    ctx = σ.context ∧ q.errback ≠ none := by
  have hpurpose := h.purpose
  rw [hnone] at hpurpose
  exact ⟨hpurpose.1, hpurpose.2.1⟩

/-- Slots may change, as long as they are linked to what their specifiers name. -/
theorem slots (h : q.Apt σ ctx) {q' : Request ν}
    (hq : q' = { q with slots := q'.slots, resolved := q'.resolved })
    (hdependencies : q'.dependencies = q.dependencies)
    (hlinked : ∀ i s url, q'.slot? i = some s → s.module = some url →
      ∃ t, σ.resolver.resolve s.specifier ctx = .ok t ∧ t.key = url) : q'.Apt σ ctx where
  context := by
    rw [hq]
    exact h.context
  purpose := by
    rw [hdependencies, hq]
    exact h.purpose
  handler := by
    rw [hq]
    exact h.handler
  linked := hlinked

theorem link (h : q.Apt σ ctx) {i : Nat} {s : Slot} {t : Target} (hs : q.slot? i = some s)
    (ht : σ.resolver.resolve s.specifier ctx = .ok t) : (q.link i t.key).Apt σ ctx := by
  refine h.slots ?_ (dependencies_link q i t.key) ?_
  · rw [link_eq]
  · intro j s' url hs' hm
    rw [slot?_link] at hs'
    obtain ⟨s'', hs'', rfl⟩ := Option.map_eq_some_iff.mp hs'
    by_cases hj : j = i
    · subst hj
      rw [hs] at hs''
      cases hs''
      rw [if_pos rfl] at hm ⊢
      cases hm
      exact ⟨t, ht, rfl⟩
    · rw [if_neg hj] at hm ⊢
      exact h.linked j s'' url hs'' hm

theorem fill (h : q.Apt σ ctx) (i : Nat) (v : ModuleValue) : (q.fill i v).Apt σ ctx := by
  refine h.slots (fill_eq q i v) (dependencies_fill q i v) ?_
  intro j s' url hs' hm
  rw [slot?_fill] at hs'
  obtain ⟨s, hs, rfl⟩ := Option.map_eq_some_iff.mp hs'
  have hsame : ∀ c : Prop, [Decidable c] →
      (if c then { s with value := some v } else s).module = s.module ∧
        (if c then { s with value := some v } else s).specifier = s.specifier := by
    intro c _
    split <;> exact ⟨rfl, rfl⟩
  rw [(hsame _).1] at hm
  rw [(hsame _).2]
  exact h.linked j s url hs hm

end Apt

def Hopeless (σ : Setting) (q : Request ν) : Prop :=
  ∀ ctx, q.context = some ctx → σ.Denied ctx q.dependencies

end Request

theorem Request.Hopeless.link {σ : Setting} {q : Request ν} (h : q.Hopeless σ) (i : Nat)
    (url : String) : (q.link i url).Hopeless σ := by
  intro ctx hctx
  rw [Request.link_eq] at hctx
  rw [Request.dependencies_link]
  exact h ctx hctx

theorem Request.Hopeless.fill {σ : Setting} {q : Request ν} (h : q.Hopeless σ) (i : Nat)
    (v : ModuleValue) : (q.fill i v).Hopeless σ := by
  intro ctx hctx
  rw [Request.fill_eq] at hctx
  rw [Request.dependencies_fill]
  exact h ctx hctx

end AsyncModule
