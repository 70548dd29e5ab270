import AsyncModule.Proofs.Once
import AsyncModule.Proofs.Tasks
import AsyncModule.Proofs.Tracing

/-!
# AsyncModule.Proofs.Supply

Callbacks get what they have asked for. In every run, a callback or factory that is started is
given one value for each of its dependencies, in their order, and each of them is the value of the
module that the dependency named when the request was linked.

* `maintained_traced`   — everything the machine does keeps the journal true.
* `called_with_values`  — the whole statement, for every moment of every run.
-/

namespace AsyncModule

variable {ν : Type}

theorem Request.forall₂_values {P : String → ModuleValue → Prop} {r : Request ν}
    (h : ∀ i s, r.slot? i = some s → ∃ v, s.value = some v ∧ P s.specifier v) :
    List.Forall₂ P r.dependencies r.values := by
  have hslots : ∀ slots : List Slot, (∀ s ∈ slots, ∃ v, s.value = some v ∧ P s.specifier v) →
      List.Forall₂ P (slots.map (·.specifier)) (slots.filterMap (·.value)) := by
    intro slots hall
    induction slots with
    | nil => exact .nil
    | cons s slots ih =>
      obtain ⟨v, hv, hP⟩ := hall s List.mem_cons_self
      rw [List.filterMap_cons_some hv]
      exact .cons hP (ih fun s' hs' => hall s' (List.mem_cons_of_mem _ hs'))
  refine hslots r.slots fun s hs => ?_
  obtain ⟨i, hi⟩ := Request.mem_slots.mp hs
  exact h i s hi

namespace Loader

variable {l : Loader ν} {id : RequestId} {r : Request ν}

/-- A request that is due to be called back has all its values, each that of its module. -/
theorem AllLinked.ready_of_completes (h : l.AllLinked) {s : Step} (hs : s ∈ l.worklist)
    (hc : s.Completes l id r) {i : Nat} {slot : Slot} (hslot : r.slot? i = some slot) :
    ∃ url v, slot.module = some url ∧ slot.value = some v ∧
      l.registry.state? url = some (.ready v) := by
  cases hc with
  | fire hr =>
    rw [Request.slot?, h.fire_due hs hr] at hslot
    cases hslot
  | fill hr hfill hfull =>
    subst hfill
    exact h.ready_of_fill hr hs hfull hslot

theorem sameLinks_of_completes {s : Step} (hc : s.Completes l id r) :
    ∃ r₀, l.requests.get? id = some r₀ ∧ r₀.SameLinks r := by
  cases hc with
  | fire hr => exact ⟨r, hr, .refl r⟩
  | fill hr hfill _ => exact ⟨_, hr, hfill ▸ Request.sameLinks_fill _ _ _⟩

theorem Traced.provides (h : l.Traced) (hlinked : l.AllLinked) {s : Step}
    (hs : s ∈ l.worklist) (hc : s.Completes l id r) :
    List.Forall₂ (Provides l id) r.dependencies r.values := by
  obtain ⟨r₀, hr₀, hsame⟩ := sameLinks_of_completes hc
  refine Request.forall₂_values fun i slot hslot => ?_
  obtain ⟨url, v, hm, hv, hready⟩ := hlinked.ready_of_completes hs hc hslot
  obtain ⟨slot₀, hslot₀, hspecifier, hmodule⟩ := hsame.links hslot
  refine ⟨v, hv, url, ?_, hready⟩
  rw [hspecifier]
  exact h.named hr₀ hslot₀ (hmodule ▸ hm)

end Loader

open Loader in
theorem maintained_traced : Maintained fun (l : Loader ν) _ => l.AllLinked ∧ l.Traced where
  aside {l k e} h ha := by
    refine ⟨h.1, h.2.record ?_ ?_⟩
    · cases e <;> first | rfl | cases ha
    · cases e <;> first | rfl | cases ha
  make _ h := ⟨h.1, h.2.same rfl rfl rfl rfl⟩
  fetches h ha := ⟨h.1, h.2.same rfl rfl rfl rfl⟩
  arrive {l k f result fs} h _ := by
    have harrived := h.2.record (e := .arrived f.target f.role) rfl rfl
    exact ⟨h.1, harrived.same rfl rfl rfl rfl⟩
  enter _ h _ := ⟨h.1, h.2.record rfl rfl⟩
  require frame dependencies callback errback h :=
    ⟨maintained_linked.require (k := []) frame dependencies callback errback h.1,
      h.2.submit h.1 frame dependencies callback errback none⟩
  define {l k url} ctx defined dependencies factory errback h :=
    ⟨maintained_linked.define (k := []) ctx defined dependencies factory errback h.1,
      h.2.submit h.1 _ dependencies factory errback _⟩
  unwatch h := h
  setDefaultBase base h := ⟨h.1, h.2.same rfl rfl rfl rfl⟩
  establish ctx h := ⟨maintained_linked.establish (k := []) ctx h.1,
    h.2.afterEstablishing h.1.deferred_nodup (Bootstrap.deferred_establish _ ctx)⟩
  beginMain root t h _ := by
    have hload := h.2.record (e := .load t .main) rfl rfl
    exact ⟨h.1, hload.congr (.of_state? List.suffix_rfl fun _ => rfl) rfl rfl
      (List.Subset.refl _)⟩
  finishMain t h := ⟨maintained_linked.finishMain (k := []) t h.1,
    h.2.finishMain h.1.deferred_nodup t⟩
  ready v h := ⟨maintained_linked.ready (k := []) v h.1,
    h.2.congr (.readyModule _ _ v) rfl rfl (List.Subset.refl _)⟩
  abandon e h hm hd := ⟨maintained_linked.abandon (k := []) e h.1 hm hd,
    h.2.congr (.abandonModule _ _ e) rfl rfl (List.Subset.refl _)⟩
  abandonDefinition {l k d url id r} e h hm hd hr := by
    have habandon : (l.abandonModule url e).Traced :=
      h.2.congr (.abandonModule l url e) rfl rfl (List.Subset.refl _)
    exact ⟨maintained_linked.abandonDefinition (k := []) e h.1 hm hd hr,
      (habandon.withdraw id r).record rfl rfl⟩
  finish h _ := ⟨h.1, h.2.record rfl rfl⟩
  fault h _ := ⟨h.1, (h.2.record rfl rfl).record rfl rfl⟩
  handle h _ := ⟨h.1, h.2.record rfl rfl⟩
  dispatch h _ := ⟨h.1, h.2.same rfl rfl rfl rfl⟩
  redispatch h _ := h
  drained h _ := ⟨h.1, h.2.same rfl rfl rfl rfl⟩
  dead h hw hr := ⟨maintained_linked.dead (k := []) h.1 hw hr,
    h.2.same rfl rfl rfl rfl⟩
  fill {l k id i v rest r} h hw hr hs := by
    have hfill := h.2.modify id fun r => Request.sameLinks_fill r i v
    exact ⟨maintained_linked.fill (k := []) h.1 hw hr hs,
      hfill.same rfl rfl rfl rfl⟩
  fillFire {l k id i v rest r} h hw hr hs := by
    have hs' : Step.fill id i v ∈ l.worklist := by simp [hw]
    have hvalues := h.2.provides h.1 hs' (.fill hr rfl hs)
    have hfill := h.2.modify id fun r => Request.sameLinks_fill r i v
    have hcall := hfill.call (Requests.get?_modify_self (·.fill i v) hr) hvalues
    exact ⟨maintained_linked.fillFire (k := []) h.1 hw hr hs,
      hcall.same rfl rfl rfl rfl⟩
  fire {l k id rest r} h hw hr := by
    have hs : Step.fire id ∈ l.worklist := by simp [hw]
    have hcall := h.2.call hr (h.2.provides h.1 hs (.fire hr))
    exact ⟨maintained_linked.fire (k := []) h.1 hw hr,
      hcall.same rfl rfl rfl rfl⟩
  fail {l k id e rest r} h hw hr := by
    have hrest : Traced { l with worklist := rest } := h.2.same rfl rfl rfl rfl
    exact ⟨maintained_linked.fail (k := []) h.1 hw hr, (hrest.withdraw id r).record rfl rfl⟩

variable {m : Machine ν}

theorem Machine.Reachable.traced (h : m.Reachable) : m.loader.Traced :=
  (maintained_traced.reachable
    (fun config resources => ⟨Linkage.init, Loader.Traced.init config resources⟩) h).2

theorem Loader.status_of_ready {l : Loader ν} {url : String} {v : ModuleValue}
    (h : l.registry.state? url = some (.ready v)) :
    l.status url = some .ready ∧ l.value url = some v := by
  simp [Loader.status, Loader.value, h, ModuleState.status, ModuleState.value?]

theorem Loader.Traced.linked_unique {l : Loader ν} (h : l.Traced) {id : RequestId}
    {resolver resolver' : Resolver} {ctx ctx' : Context}
    (hmem : .linked id resolver ctx ∈ l.journal) (hmem' : .linked id resolver' ctx' ∈ l.journal) :
    resolver' = resolver ∧ ctx' = ctx := by
  have heq := eq_of_nodup_filterMap h.once hmem' hmem rfl rfl
  cases heq
  exact ⟨rfl, rfl⟩

/-- In every run, at every moment: the count of a live request is that of its filled slots;
a callback or factory that is started is given the values that the journal says it is called with,
all modules that its request is linked to being ready; and a request that has been called back was
given one value for each dependency that it was made with, in their order: that of the module which
the dependency named when the request was linked, once and in one context, and this module is ready
from then on. -/
theorem called_with_values (h : m.Reachable) :
    (∀ id r, m.loader.requests.get? id = some r →
      r.resolved = r.slots.countP (·.isFilled)) ∧
    (∀ frame script id r, m.step.stack = .body frame script (.callback id r) :: m.stack →
      ∃ values, script = r.callback values ∧
        m.step.loader.journal = .called id values :: m.loader.journal ∧
        .submitted id r.dependencies r.definitionUrl ∈ m.loader.journal ∧
        ∀ url ∈ r.modules, m.step.loader.status url = some .ready) ∧
    ∀ id values, .called id values ∈ m.loader.journal →
      ∃ dependencies definition, .submitted id dependencies definition ∈ m.loader.journal ∧
        (∀ dependencies' definition', .submitted id dependencies' definition' ∈ m.loader.journal →
          dependencies' = dependencies ∧ definition' = definition) ∧
        values.length = dependencies.length ∧
        ∀ (i : Nat) specifier, dependencies[i]? = some specifier →
          ∃ resolver ctx t v, .linked id resolver ctx ∈ m.loader.journal ∧
            (∀ resolver' ctx', .linked id resolver' ctx' ∈ m.loader.journal →
              resolver' = resolver ∧ ctx' = ctx) ∧
            resolver.resolve specifier ctx = .ok t ∧ values[i]? = some v ∧
            m.loader.status t.key = some .ready ∧ m.loader.value t.key = some v := by
  have hlinked := h.allLinked
  have htraced := h.traced
  refine ⟨fun id r hr => hlinked.counted hr, ?_, ?_⟩
  · intro frame script id r hstart
    obtain ⟨⟨s, hs, hc⟩, hscript, hjournal⟩ := Machine.completes_of_callback hstart
    obtain ⟨r₀, hr₀, hsame⟩ := Loader.sameLinks_of_completes hc
    refine ⟨r.values, hscript, hjournal, ?_, ?_⟩
    · rw [hsame.dependencies, hsame.definitionUrl]
      exact htraced.made hr₀
    · intro url hurl
      obtain ⟨i, slot, hslot, hm⟩ := Request.mem_modules.mp hurl
      obtain ⟨url', v, hm', _, hready⟩ := hlinked.ready_of_completes hs hc hslot
      rw [hm] at hm'
      cases hm'
      have hlasts := h.lasts (.single (.step m))
      exact (Loader.status_of_ready (hlasts.ready hready)).1
  · intro id values hmem
    obtain ⟨dependencies, definition, hsubmitted, hvalues⟩ := htraced.called hmem
    refine ⟨dependencies, definition, hsubmitted, ?_, hvalues.length_eq.symm, ?_⟩
    · intro dependencies' definition' hsubmitted'
      have heq := eq_of_nodup_filterMap h.accounts.orderly.nodup_submissions hsubmitted'
        hsubmitted rfl rfl
      cases heq
      exact ⟨rfl, rfl⟩
    · intro i specifier hi
      obtain ⟨hlt, rfl⟩ := List.getElem?_eq_some_iff.mp hi
      have hlt' : i < values.length := hvalues.length_eq ▸ hlt
      obtain ⟨url, ⟨resolver, ctx, t, hlink, ht, rfl⟩, hready⟩ := hvalues.get hlt hlt'
      obtain ⟨hstatus, hvalue⟩ := Loader.status_of_ready hready
      exact ⟨resolver, ctx, t, values[i], hlink, fun _ _ => htraced.linked_unique hlink, ht,
        List.getElem?_eq_getElem hlt', hstatus, hvalue⟩

def Event.submittedWith? : Event ν → Option (RequestId × List String)
  | submitted id dependencies _ => some (id, dependencies)
  | _ => none

/-- A module that defines itself by a value that it makes. -/
def valueResources (_ : Target) : Option (Fetched (Script Unit)) :=
  some (.code (.define [] (fun _ => .make (.data .null) fun v => .finish (.value v)) none
    (.finish .done)))

/-- A request of one module by two names, after it has been called back. -/
def calledTwice : Machine Unit :=
  (Machine.start (Loader.new {} valueResources)
    (.requireFrom "a:/" ["./x.js", "./y/../x"] (fun _ => .finish .done) fun _ =>
      .settle fun _ => .finish .done)).run 60

theorem called_with_values_twice :
    (calledTwice.loader.view none).moduleCount = 1 ∧
      ∃ values, .called ⟨0, 1⟩ values ∈ calledTwice.loader.journal ∧ values.length = 2 ∧
        ∀ i < 2, ∃ t v, values[i]? = some v ∧ calledTwice.loader.status t = some .ready ∧
          calledTwice.loader.value t = some v := by
  have hreach : calledTwice.Reachable := (Machine.reachable_start _ _ _).run 60
  obtain ⟨_, _, hall⟩ := called_with_values hreach
  obtain ⟨values, hcalled⟩ : ∃ values, .called ⟨0, 1⟩ values ∈ calledTwice.loader.journal :=
    mem_calls.mp (by decide +kernel)
  obtain ⟨dependencies, definition, hsubmitted, hunique, hlength, hvalues⟩ :=
    hall ⟨0, 1⟩ values hcalled
  have hmade : ∃ definition, .submitted ⟨0, 1⟩ ["./x.js", "./y/../x"] definition ∈
      calledTwice.loader.journal := by
    have hmem : (⟨0, 1⟩, ["./x.js", "./y/../x"]) ∈
        calledTwice.loader.journal.filterMap Event.submittedWith? := by decide +kernel
    obtain ⟨e, he, heq⟩ := List.mem_filterMap.mp hmem
    cases e with
    | submitted id dependencies definition =>
      cases heq
      exact ⟨definition, he⟩
    | _ => cases heq
  obtain ⟨definition', hmade⟩ := hmade
  obtain ⟨rfl, _⟩ := hunique _ _ hmade
  refine ⟨by decide +kernel, values, hcalled, hlength, ?_⟩
  intro i hi
  obtain ⟨_, _, t, v, _, _, _, hv, hstatus, hvalue⟩ :=
    hvalues i _ (List.getElem?_eq_getElem (l := ["./x.js", "./y/../x"]) hi)
  exact ⟨t.key, v, hv, hstatus, hvalue⟩

end AsyncModule
