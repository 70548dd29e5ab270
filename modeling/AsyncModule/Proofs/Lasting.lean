import AsyncModule.Proofs.Linked
import AsyncModule.Proofs.Runs

/-!
# AsyncModule.Proofs.Lasting

Nothing is undone. What has happened stays in the journal, and a module that has been settled stays
as it is, whatever the machine does and in every run.

* `maintained_lasts` — everything the machine does leaves the past alone.
-/

namespace AsyncModule

open Relation

variable {ν : Type}

theorem Registry.state?_settle_of_settled {g : Registry} {url u : String} {f : Record → Record}
    {st s : ModuleState} (hf : ∀ r, (f r).state = st) (hu : g.state? u = some s)
    (hs : s.isSettled = true) : (g.settle url f).2.state? u = some s := by
  by_cases ho : g.IsOpen url
  · rw [state?_settle ho hf, if_neg, hu]
    rintro rfl
    obtain ⟨s', hs', hopen⟩ := ho
    rw [hu] at hs'
    cases hs'
    rw [hs] at hopen
    cases hopen
  · rw [settle_of_not_isOpen f ho, hu]

namespace Loader

/-- One loader comes after another: it has the journal of the other and more, and its settled
modules. -/
structure Lasts (l l' : Loader ν) : Prop where
  journal : l.journal <:+ l'.journal
  settled : ∀ {url s}, l.registry.state? url = some s → s.isSettled = true →
    l'.registry.state? url = some s

namespace Lasts

variable {l l' l'' : Loader ν}

theorem of_state? (hj : l.journal <:+ l'.journal)
    (hstate : ∀ u, l'.registry.state? u = l.registry.state? u) : l.Lasts l' :=
  ⟨hj, fun hu _ => by rw [hstate, hu]⟩

theorem refl (l : Loader ν) : l.Lasts l := of_state? List.suffix_rfl fun _ => rfl

theorem trans (h : l.Lasts l') (h' : l'.Lasts l'') : l.Lasts l'' :=
  ⟨h.journal.trans h'.journal, fun hu hs => h'.settled (h.settled hu hs) hs⟩

theorem ready (h : l.Lasts l') {url : String} {v : ModuleValue}
    (hu : l.registry.state? url = some (.ready v)) :
    l'.registry.state? url = some (.ready v) := h.settled hu rfl

theorem record (h : l.Lasts l') (e : Event ν) : l.Lasts (l'.record e) :=
  ⟨h.journal.trans (List.suffix_cons e _), h.settled⟩

theorem attach (l : Loader ν) (id : RequestId) (i : Nat) (t : Target) :
    l.Lasts (l.attach id i t) where
  journal := by
    rcases attach_cases l id i t with ⟨_, hj⟩ | ⟨_, hj⟩
    · exact hj ▸ List.suffix_rfl
    · rw [hj]
      exact List.suffix_cons _ _
  settled := by
    intro u s hu hs
    rcases l.registry.open_or_settled t.key with ho | ⟨v, hv⟩ | ⟨e, he⟩
    · rw [(attach_open id i ho).2.1, if_neg, hu]
      rintro rfl
      rw [ho s hu] at hs
      cases hs
    · rw [(attach_ready id i hv).1, hu]
    · rw [(attach_failed id i he).1, hu]

theorem keptByLinking (l : Loader ν) : KeptByLinking fun l' : Loader ν => l.Lasts l' where
  linked _ _ h := h.record _
  context _ _ h := h.trans (of_state? List.suffix_rfl fun _ => rfl)
  stop _ h _ := h.trans (of_state? List.suffix_rfl fun _ => rfl)
  attach i t h _ _ := h.trans (attach _ _ i t)

theorem enter (l : Loader ν) (r : Request ν) : l.Lasts (l.enter r).2 := by
  refine of_state? (List.suffix_cons _ _) fun u => ?_
  unfold Loader.enter Loader.record
  dsimp only
  split
  · exact Registry.state?_setDefinition _ _ _ _
  · rfl

theorem submit (l : Loader ν) (frame : Option Frame) (dependencies : List String)
    (callback : List ModuleValue → Script ν) (errback : Option (LoadError → Script ν))
    (definitionUrl : Option String) :
    l.Lasts (l.submit frame dependencies callback errback definitionUrl) := by
  have henter := enter l (.ofCall dependencies callback errback (l.context? frame) definitionUrl)
  exact (keptByLinking l).submit (fun _ h => h.trans (of_state? List.suffix_rfl fun _ => rfl))
    (fun _ h => h.trans (of_state? List.suffix_rfl fun _ => rfl)) henter

theorem afterEstablishing (l : Loader ν) (change : Bool × Bootstrap) :
    l.Lasts (l.afterEstablishing change).2 :=
  (keptByLinking l).afterEstablishing
    (fun _ h => h.trans (of_state? List.suffix_rfl fun _ => rfl)) (refl l) change

theorem finishMain (l : Loader ν) (t : Target) : l.Lasts (l.finishMain t) :=
  (keptByLinking l).finishMain (fun _ h => h.trans (of_state? List.suffix_rfl fun _ => rfl))
    (refl l) t

theorem readyModule (l : Loader ν) (url : String) (v : ModuleValue) :
    l.Lasts (l.readyModule url v) :=
  ⟨List.suffix_rfl, fun hu hs => Registry.state?_settle_of_settled (fun _ => rfl) hu hs⟩

theorem abandonModule (l : Loader ν) (url : String) (e : LoadError) :
    l.Lasts (l.abandonModule url e) := by
  refine ⟨List.suffix_rfl, fun hu hs => ?_⟩
  refine Registry.state?_settle_of_settled (f := fun r => { r with state := .failed e })
    (fun _ => rfl) ?_ hs
  rwa [Registry.state?_setDefinition]

theorem withdraw (l : Loader ν) (id : RequestId) (r : Request ν) : l.Lasts (l.withdraw id r) :=
  of_state? List.suffix_rfl (state?_foldl_dropWaiters r.modules l.registry id)

end Lasts
end Loader

open Loader in
theorem maintained_lasts (l₀ : Loader ν) : Maintained fun l _ => l₀.Lasts l where
  aside h _ := h.record _
  make _ h := h.trans (.of_state? List.suffix_rfl fun _ => rfl)
  fetches h _ := h.trans (.of_state? List.suffix_rfl fun _ => rfl)
  arrive h _ := h.trans (.of_state? (List.suffix_cons _ _) fun _ => rfl)
  enter _ h _ := h.record _
  require frame dependencies callback errback h :=
    h.trans (.submit _ frame dependencies callback errback none)
  define _ _ dependencies factory errback h :=
    h.trans (.submit _ _ dependencies factory errback _)
  unwatch h := h
  setDefaultBase _ h := h.trans (.of_state? List.suffix_rfl fun _ => rfl)
  establish _ h := h.trans (.afterEstablishing _ _)
  beginMain _ _ h _ := h.trans (.of_state? (List.suffix_cons _ _) fun _ => rfl)
  finishMain t h := h.trans (.finishMain _ t)
  ready v h := h.trans (.readyModule _ _ v)
  abandon e h _ _ := h.trans (.abandonModule _ _ e)
  abandonDefinition e h _ _ _ :=
    ((h.trans (.abandonModule _ _ e)).trans (.withdraw _ _ _)).record _
  finish h _ := h.record _
  fault h _ := (h.record _).record _
  handle h _ := h.record _
  dispatch h _ := h.trans (.of_state? List.suffix_rfl fun _ => rfl)
  redispatch h _ := h
  drained h _ := h.trans (.of_state? List.suffix_rfl fun _ => rfl)
  dead h _ _ := h.trans (.of_state? List.suffix_rfl fun _ => rfl)
  fill h _ _ _ := h.trans (.of_state? List.suffix_rfl fun _ => rfl)
  fillFire h _ _ _ := h.trans (.of_state? (List.suffix_cons _ _) fun _ => rfl)
  fire h _ _ := h.trans (.of_state? (List.suffix_cons _ _) fun _ => rfl)
  fail {l k id e rest r} h _ _ := by
    have hrest : l₀.Lasts { l with worklist := rest } :=
      h.trans (.of_state? List.suffix_rfl fun _ => rfl)
    exact (hrest.trans (.withdraw _ id r)).record _

theorem Machine.Reachable.lasts {m m' : Machine ν} (h : m.Reachable)
    (hrun : ReflTransGen Machine.Goes m m') : m.loader.Lasts m'.loader :=
  (maintained_lasts m.loader).later h (.refl _) hrun

end AsyncModule
