import AsyncModule.Proofs.Calls
import AsyncModule.Proofs.Inquiry

/-!
# AsyncModule.Proofs.Answering

How the command that loads specifiers comes to its end, step by step. Requests are made one after
the other, what has been fetched is taken up in whatever order it comes, and whenever a step is to
be done for a request it is done with in three steps. So the command ends before the steps that it
may take have been taken.

* `Machine.Takes`  — one machine becomes another in a number of steps.
* `Costs`          — how many these are, against what has been answered and fetched meanwhile.
* `Opened.ask`, `Opened.settle`, `Awaiting.ask`, `Awaiting.settle` — what each stage costs.
* `Begun.runIn`    — the command comes to its end.
-/

namespace AsyncModule

variable {ν : Type}

namespace Machine

/-- One machine becomes another in a number of steps, while fetches finish in an order. -/
def Takes (o : Order ν) (n : Nat) (m m' : Machine ν) : Prop := o.step^[n] m = m'

section Takes

variable {o : Order ν} {m m' m'' : Machine ν} {a b n : Nat} {l l' : Loader ν} {task : Task ν}
  {tasks k : List (Task ν)}

theorem Takes.trans (h : Takes o a m m') (h' : Takes o b m' m'') : Takes o (a + b) m m'' := by
  rw [Takes, Nat.add_comm, Function.iterate_add_apply, show o.step^[a] m = m' from h]
  exact h'

/-- The order does not matter where no fetch is looked for. -/
theorem Takes.advance (h : Machine.advance l task = (l', tasks))
    (htask : looksForFetch task = false) : Takes o 1 ⟨l, task :: k⟩ ⟨l', tasks ++ k⟩ := by
  show o.step ⟨l, task :: k⟩ = _
  rw [Order.step, if_neg (by simp [htask]), step_of_cons rfl, h]

theorem Takes.arrange (h : Machine.advance (o.arrange ⟨l, task :: k⟩).loader task = (l', tasks))
    (htask : looksForFetch task = true) : Takes o 1 ⟨l, task :: k⟩ ⟨l', tasks ++ k⟩ := by
  show o.step ⟨l, task :: k⟩ = _
  rw [Order.step, if_pos (by simp [htask]), step_of_cons rfl, h]

theorem Takes.reachable (h : Takes o n m m') (hm : m.Reachable) : m'.Reachable := by
  subst h
  induction n with
  | zero => exact hm
  | succ n ih =>
    rw [Function.iterate_succ_apply']
    exact ih.stepIn o

/-- Before a fetch is looked for the loader is the same but for the order in which that is done. -/
theorem arranged (o : Order ν) (hreach : Reachable ⟨l, task :: k⟩)
    (htask : looksForFetch task = true) : ∃ l₀, l₀ = (o.arrange ⟨l, task :: k⟩).loader ∧
      Reachable ⟨l₀, task :: k⟩ ∧ l₀.fetches.inFlight = l.fetches.inFlight ∧
      l₀.journal = l.journal ∧ l₀.requests = l.requests ∧
      ∀ {l' tasks}, Machine.advance l₀ task = (l', tasks) →
        Takes o 1 ⟨l, task :: k⟩ ⟨l', tasks ++ k⟩ :=
  ⟨_, rfl, hreach.arrange o, rfl, rfl, rfl, fun h => .arrange h htask⟩

theorem step_of_nil (h : m.stack = []) : o.step m = m := by
  rw [Order.step, h, if_neg (by simp), step, h]

theorem runIn_eq_iterate (fuel : Nat) (m : Machine ν) : runIn o fuel m = o.step^[fuel] m := by
  induction fuel generalizing m with
  | zero => rfl
  | succ fuel ih =>
    rw [runIn, Function.iterate_succ_apply]
    split
    · rename_i hdone
      have hstep := step_of_nil (o := o) (List.isEmpty_iff.mp hdone)
      rw [hstep, Function.iterate_fixed hstep]
    · exact ih (o.step m)

/-- A machine that has come to its end stays there. -/
theorem Takes.runIn (h : Takes o n m m') (hend : m'.stack = []) {fuel : Nat} (hfuel : n ≤ fuel) :
    Machine.runIn o fuel m = m' := by
  obtain ⟨more, rfl⟩ := Nat.exists_eq_add_of_le hfuel
  rw [runIn_eq_iterate, Nat.add_comm, Function.iterate_add_apply, show o.step^[n] m = m' from h,
    Function.iterate_fixed (step_of_nil hend)]

end Takes

end Machine

namespace Command.Inquiry

open Machine

variable {q : Inquiry} {l l' : Loader Answer} {id : RequestId} {r : Request Answer}
  {waiting : List RequestId} {k : List (Task Answer)} {o : Order Answer}

/-! ## What a step of the worklist is about -/

theorem Asks.slots (h : q.Asks id r) :
    ∃ slot, q.specifier? id = some slot.specifier ∧ r.slots = [slot] := by
  obtain ⟨s, hs, hdependencies⟩ := h.dependencies
  obtain ⟨slot, hslots, rfl⟩ := List.map_eq_singleton_iff.mp hdependencies
  exact ⟨slot, hs, hslots⟩

/-- A request that is to fail fails for what its specifier names, or because it names nothing. -/
theorem Fares.comes_of_fail (h : q.Fares waiting l) (hblaming : l.Blaming) (htraced : l.Traced)
    {e : LoadError} (hdue : .fail id e ∈ l.worklist) (hr : l.requests.get? id = some r) :
    ∃ s, q.specifier? id = some s ∧ q.Comes l.registry s (.error e) := by
  obtain ⟨_, hasks⟩ := h.made.asks hr
  obtain ⟨slot, hs, hslots⟩ := hasks.slots
  refine ⟨slot.specifier, hs, ?_⟩
  cases hblaming.due hdue with
  | blamed hfailed hlinked =>
    obtain ⟨i, slot', hslot', hmodule⟩ := Request.mem_modules.mp (hlinked r hr)
    have heq : slot' = slot := by
      have hmem := List.mem_of_getElem? hslot'
      rwa [hslots, List.mem_singleton] at hmem
    subst heq
    obtain ⟨resolver, ctx, t, hmem, ht, rfl⟩ := htraced.named hr hslot' hmodule
    obtain ⟨rfl, rfl⟩ := h.ordered.linked hmem
    exact .inr ⟨t, _, ht, hfailed, rfl⟩
  | stopped hstopped =>
    have hunique : ∀ {dependencies definition}, .submitted id dependencies definition ∈ l.journal →
        dependencies = [slot.specifier] ∧ definition = none := by
      intro dependencies definition hmem
      have heq := eq_of_nodup_filterMap h.made.nodup_submissions hmem (htraced.made hr) rfl rfl
      cases heq
      exact ⟨by simp [Request.dependencies, hslots], hasks.definitionUrl⟩
    cases hstopped with
    | unresolved hmade hlinked hmem he =>
      obtain ⟨rfl, rfl⟩ := h.ordered.linked hlinked
      rw [(hunique hmade).1, List.mem_singleton] at hmem
      subst hmem
      exact .inl he
    | circle hmade => cases (hunique hmade).2

/-- A request that is to be filled has then got all that it asks for, and this is what its specifier
names. -/
theorem Fares.comes_of_fill (h : q.Fares waiting l) (hlinked : l.AllLinked) (htraced : l.Traced)
    {i : Nat} {v : ModuleValue} (hdue : .fill id i v ∈ l.worklist)
    (hr : l.requests.get? id = some r) :
    (r.fill i v).isSatisfied = true ∧ (r.fill i v).values = [v] ∧
      ∃ s, q.specifier? id = some s ∧ q.Comes l.registry s (.ok v) := by
  obtain ⟨_, hasks⟩ := h.made.asks hr
  obtain ⟨slot, hs, hslots⟩ := hasks.slots
  have hone : ∀ {j slot'}, r.slot? j = some slot' → j = 0 ∧ slot' = slot := by
    intro j slot' hslot'
    rw [Request.slot?, hslots] at hslot'
    cases j with
    | zero => exact ⟨rfl, (Option.some.inj hslot').symm⟩
    | succ j => cases hslot'
  obtain ⟨slot', url, hslot', hmodule, hready⟩ := hlinked.fill_due hdue hr
  obtain ⟨rfl, rfl⟩ := hone hslot'
  obtain ⟨j, slot'', hslot'', hempty⟩ := hlinked.waits hr (by simp [hslots])
  obtain ⟨_, rfl⟩ := hone hslot''
  obtain ⟨resolver, ctx, t, hmem, ht, rfl⟩ := htraced.named hr hslot' hmodule
  obtain ⟨rfl, rfl⟩ := h.ordered.linked hmem
  have hcounted : r.resolved = 0 := by
    have hcount := hlinked.counted hr
    simpa [Request.Counted, hslots, Slot.isFilled, hempty] using hcount
  refine ⟨?_, ?_, slot''.specifier, hs, t, ht, hready⟩
  · simp [Request.fill, hslots, Slot.isFilled, hempty, Request.isSatisfied, hcounted]
  · simp [Request.fill, hslots, Slot.isFilled, hempty, Request.values]

/-! ## Answering a request -/

theorem forget_eq (b : Bootstrap) (id : RequestId) (hd : b.deferred = []) : b.forget id = b := by
  cases b
  cases hd
  rfl

/-- A request fails, and its error handler takes a note. -/
theorem takes_fail {e : LoadError} {work : List Step} (hasks : q.Asks id r)
    (hr : l.requests.get? id = some r) (hw : l.worklist = .fail id e :: work)
    (hd : l.bootstrap.deferred = []) (k : List (Task Answer)) :
    ∃ l', Takes o 3 ⟨l, .draining :: k⟩ ⟨l', .draining :: k⟩ ∧ Answered l id (.error e) l' ∧
      l'.worklist = work := by
  have hprocess : process { l with worklist := work } (.fail id e) =
      (Loader.record (Loader.record (Loader.withdraw { l with worklist := work } id r)
        (.failed id e)) (.handled id e),
        [.body (some (.callback r.context)) (apologizing (id.serial - 1) e)
          (.errback none e)]) := by
    simp only [process, failRequest, hr, report, hasks.errback, hasks.definitionUrl, handle]
  have hdraining := advance_draining l hw
  rw [hprocess] at hdraining
  refine ⟨_, ((Takes.advance hdraining rfl).trans (.advance rfl rfl)).trans (.advance rfl rfl), ?_, rfl⟩
  exact {
    resolver := rfl
    resources := rfl
    fetches := rfl
    bootstrap := forget_eq l.bootstrap id hd
    states := Loader.state?_foldl_dropWaiters r.modules l.registry id
    serial := Requests.serial_erase l.requests id
    requests := Requests.get?_erase l.requests id
    submissions := rfl
    linkings := rfl
    linked := fun hmem => by simpa [Loader.record, Loader.withdraw] using hmem
    loads := rfl
    notes := rfl }

/-- A request is filled, and its callback takes a note. -/
theorem takes_fill {i : Nat} {v : ModuleValue} {work : List Step} (hasks : q.Asks id r)
    (hr : l.requests.get? id = some r) (hw : l.worklist = .fill id i v :: work)
    (hsatisfied : (r.fill i v).isSatisfied = true) (hvalues : (r.fill i v).values = [v])
    (k : List (Task Answer)) :
    ∃ l', Takes o 3 ⟨l, .draining :: k⟩ ⟨l', .draining :: k⟩ ∧ Answered l id (.ok v) l' ∧
      l'.worklist = work := by
  have hfilled := Requests.get?_modify_self (·.fill i v) hr
  have hcallback : (r.fill i v).callback = answering (id.serial - 1) := by
    rw [Request.fill_eq]
    exact hasks.callback
  have hprocess : process { l with worklist := work } (.fill id i v) =
      (Loader.record { l with
          worklist := work
          requests := (l.requests.modify id (·.fill i v)).erase id } (.called id [v]),
        [.body (some (.callback (r.fill i v).context)) (answering (id.serial - 1) [v])
          (.callback id (r.fill i v))]) := by
    simp only [process, fill, hr, hsatisfied, if_true, fire, hfilled, hvalues, hcallback]
  have hdraining := advance_draining l hw
  rw [hprocess] at hdraining
  have hdefinition : (r.fill i v).definitionUrl = none := by
    rw [Request.definitionUrl_fill, hasks.definitionUrl]
  have hconclude : ∀ l₁ : Loader Answer, Machine.advance l₁
      (.body (some (.callback (r.fill i v).context)) (.finish .done)
        (.callback id (r.fill i v))) = (l₁.record (.returned id .done), []) := by
    intro l₁
    simp only [Machine.advance, Machine.perform, conclude, concludeCallback, hdefinition]
    rfl
  refine ⟨_, ((Takes.advance hdraining rfl).trans (.advance rfl rfl)).trans
    (.advance (hconclude _) rfl), ?_, rfl⟩
  exact {
    resolver := rfl
    resources := rfl
    fetches := rfl
    bootstrap := rfl
    states := fun _ => rfl
    serial := (Requests.serial_erase _ id).trans (Requests.serial_modify _ id _)
    requests := fun id' => Requests.get?_erase_modify l.requests id id' _
    submissions := rfl
    linkings := rfl
    linked := fun hmem => by simpa [Loader.record] using hmem
    loads := rfl
    notes := rfl }

/-- The next step of the worklist is done, for a live request. -/
theorem takes_next (hreach : Reachable ⟨l, .draining :: k⟩) (h : q.Fares waiting l)
    (hd : l.bootstrap.deferred = []) {s : Step} {work : List Step} (hw : l.worklist = s :: work)
    (hlive : (l.requests.get? s.request).isSome) :
    ∃ l' result, Takes o 3 ⟨l, .draining :: k⟩ ⟨l', .draining :: k⟩ ∧
      Answered l s.request result l' ∧ q.Fares waiting l' ∧ l'.worklist = work := by
  obtain ⟨r, hr⟩ := Option.isSome_iff_exists.mp hlive
  have hlinked : l.AllLinked := hreach.allLinked
  have htraced : l.Traced := hreach.traced
  have hdue : s ∈ l.worklist := hw ▸ List.mem_cons_self
  cases s with
  | fill id i v =>
    obtain ⟨_, hasks⟩ := h.made.asks hr
    obtain ⟨hsatisfied, hvalues, specifier, hs, hcomes⟩ :=
      h.comes_of_fill hlinked htraced hdue hr
    obtain ⟨l', htakes, hanswered, hwork⟩ := takes_fill hasks hr hw hsatisfied hvalues k
    exact ⟨l', .ok v, htakes, hanswered, h.answer hanswered hr hs hcomes, hwork⟩
  | fire id =>
    obtain ⟨slot, _, hslots⟩ := (h.made.asks hr).2.slots
    rw [hlinked.fire_due hdue hr] at hslots
    cases hslots
  | fail id e =>
    obtain ⟨_, hasks⟩ := h.made.asks hr
    obtain ⟨specifier, hs, hcomes⟩ := h.comes_of_fail hreach.blaming htraced hdue hr
    obtain ⟨l', htakes, hanswered, hwork⟩ := takes_fail hasks hr hw hd k
    exact ⟨l', .error e, htakes, hanswered, h.answer hanswered hr hs hcomes, hwork⟩

/-! ## What steps cost -/

/-- One machine becomes another by steps that are paid for: three by each answer that is noted, and
three by each fetch that is no more in flight, up to some that are not. -/
def Costs (o : Order Answer) (c : Nat) (m m' : Machine Answer) : Prop :=
  ∃ n, Takes o n m m' ∧
    n + 3 * (notes m.loader.journal).length + 3 * m'.loader.fetches.inFlight.length ≤
      3 * (notes m'.loader.journal).length + 3 * m.loader.fetches.inFlight.length + c

theorem Costs.trans {m m' m'' : Machine Answer} {c c' : Nat} (h : Costs o c m m')
    (h' : Costs o c' m' m'') : Costs o (c + c') m m'' := by
  obtain ⟨n, htakes, hle⟩ := h
  obtain ⟨n', htakes', hle'⟩ := h'
  exact ⟨n + n', htakes.trans htakes', by omega⟩

theorem Costs.reachable {m m' : Machine Answer} {c : Nat} (h : Costs o c m m') (hm : m.Reachable) :
    m'.Reachable := by
  obtain ⟨n, htakes, _⟩ := h
  exact htakes.reachable hm

/-- A step that notes no answer and starts no more than some fetches. -/
theorem costs_step {m m' : Machine Answer} {c : Nat} (h : Takes o 1 m m')
    (hnotes : notes m'.loader.journal = notes m.loader.journal)
    (hflight : 3 * m'.loader.fetches.inFlight.length + 1 ≤
      3 * m.loader.fetches.inFlight.length + c) : Costs o c m m' := by
  refine ⟨1, h, ?_⟩
  rw [hnotes]
  omega

theorem costs_advance {task : Task Answer} {tasks : List (Task Answer)} {c : Nat}
    (h : Machine.advance l task = (l', tasks)) (htask : looksForFetch task = false)
    (hnotes : notes l'.journal = notes l.journal)
    (hflight : 3 * l'.fetches.inFlight.length + 1 ≤ 3 * l.fetches.inFlight.length + c) :
    Costs o c ⟨l, task :: k⟩ ⟨l', tasks ++ k⟩ :=
  costs_step (.advance h htask) hnotes hflight

/-- Everything that was to be done for requests has been, and nothing else. -/
structure Drained (l l' : Loader Answer) : Prop where
  worklist : l'.worklist = []
  idle : l'.dispatching = false
  fetches : l'.fetches = l.fetches
  bootstrap : l'.bootstrap = l.bootstrap
  serial : l'.requests.serial = l.requests.serial

/-- The worklist is worked off, if it holds one step at most for each request, and a live one. -/
theorem draining_costs (waiting : List RequestId) (k : List (Task Answer)) (work : List Step) :
    ∀ {l : Loader Answer}, Reachable ⟨l, .draining :: k⟩ → q.Fares waiting l →
      l.bootstrap.deferred = [] → l.worklist = work → (work.map Step.request).Nodup →
      (∀ s ∈ work, (l.requests.get? s.request).isSome) →
      ∃ l', Costs o 1 ⟨l, .draining :: k⟩ ⟨l', k⟩ ∧ q.Fares waiting l' ∧ Drained l l' := by
  induction work with
  | nil =>
    intro l _ h _ hw _ _
    refine ⟨{ l with dispatching := false },
      costs_advance (advance_drained l hw) rfl rfl (Nat.le_refl _),
      ⟨h.resolver, h.resources, h.made, h.ordered, h.stocked⟩, ⟨hw, rfl, rfl, rfl, rfl⟩⟩
  | cons s work ih =>
    intro l hreach h hd hw hnodup hlive
    obtain ⟨hnot, hnodup⟩ := List.nodup_cons.mp hnodup
    obtain ⟨l₁, result, htakes, hanswered, h₁, hw₁⟩ :=
      takes_next hreach h hd hw (hlive s List.mem_cons_self)
    have hd₁ : l₁.bootstrap.deferred = [] := by rw [hanswered.bootstrap, hd]
    obtain ⟨l', hcosts, h', hdrained⟩ := ih (htakes.reachable hreach) h₁ hd₁ hw₁ hnodup (by
      intro s' hs'
      have hne : s'.request ≠ s.request := by
        intro heq
        rw [← heq] at hnot
        exact hnot (List.mem_map_of_mem hs')
      rw [hanswered.requests, if_neg hne]
      exact hlive s' (List.mem_cons_of_mem _ hs'))
    refine ⟨l', Costs.trans (c := 0) ⟨3, htakes, ?_⟩ hcosts, h', hdrained.worklist, hdrained.idle,
      hdrained.fetches.trans hanswered.fetches, hdrained.bootstrap.trans hanswered.bootstrap,
      hdrained.serial.trans hanswered.serial⟩
    dsimp only
    rw [hanswered.notes, hanswered.fetches, List.length_cons]
    omega

theorem dispatch_costs (hreach : Reachable ⟨l, .dispatch :: k⟩) (h : q.Fares waiting l)
    (hidle : l.dispatching = false) (hd : l.bootstrap.deferred = [])
    (hnodup : (l.worklist.map Step.request).Nodup)
    (hlive : ∀ s ∈ l.worklist, (l.requests.get? s.request).isSome) :
    ∃ l', Costs o 2 ⟨l, .dispatch :: k⟩ ⟨l', k⟩ ∧ q.Fares waiting l' ∧ Drained l l' := by
  have hdispatch : Costs o 1 ⟨l, .dispatch :: k⟩ ⟨{ l with dispatching := true }, .draining :: k⟩ :=
    costs_advance (advance_dispatch l hidle) rfl rfl (Nat.le_refl _)
  have h₁ : q.Fares waiting { l with dispatching := true } :=
    ⟨h.resolver, h.resources, h.made, h.ordered, h.stocked⟩
  obtain ⟨l', hcosts, h', hdrained⟩ :=
    draining_costs waiting k l.worklist (hdispatch.reachable hreach) h₁ hd rfl hnodup hlive
  exact ⟨l', hdispatch.trans hcosts, h', hdrained.1, hdrained.2, hdrained.3, hdrained.4, hdrained.5⟩

/-! ## Asking for specifiers -/

/-- The command has a context, and nothing is to be done for requests. -/
structure Opened (q : Inquiry) (l : Loader Answer) : Prop where
  fares : q.Fares [] l
  context : l.bootstrap.context? = some q.ctx
  deferred : l.bootstrap.deferred = []
  mains : l.bootstrap.inFlight = 0
  worklist : l.worklist = []
  idle : l.dispatching = false

theorem Drained.opened {l₁ : Loader Answer} (h : Drained l₁ l') (hfares : q.Fares [] l')
    (hcontext : l₁.bootstrap.context? = some q.ctx) (hdeferred : l₁.bootstrap.deferred = [])
    (hmains : l₁.bootstrap.inFlight = 0) : Opened q l' where
  fares := hfares
  context := by rw [h.bootstrap, hcontext]
  deferred := by rw [h.bootstrap, hdeferred]
  mains := by rw [h.bootstrap, hmains]
  worklist := h.worklist
  idle := h.idle

theorem nodup_of_sublist {work : List Step} {ids : List RequestId}
    (hsub : (work.map Step.request).Sublist ids) (hnodup : ids.Nodup)
    (hlive : ∀ id ∈ ids, (l.requests.get? id).isSome) :
    (work.map Step.request).Nodup ∧ ∀ s ∈ work, (l.requests.get? s.request).isSome :=
  ⟨hnodup.sublist hsub, fun _ hs => hlive _ (hsub.subset (List.mem_map_of_mem hs))⟩

/-- The next specifier is asked for, and fails at once if it names nothing. -/
theorem Opened.ask (h : Opened q l) {s : String} {rest : List String}
    (hreach : Reachable ⟨l, [.body none (askFrom l.requests.serial (s :: rest)) .plain]⟩)
    (hs : q.specifiers[l.requests.serial]? = some s) :
    ∃ l', Costs o 6 ⟨l, [.body none (askFrom l.requests.serial (s :: rest)) .plain]⟩
        ⟨l', [.body none (askFrom (l.requests.serial + 1) rest) .plain]⟩ ∧
      Opened q l' ∧ l'.requests.serial = l.requests.serial + 1 := by
  have hfares := h.fares.enter hs (some q.ctx)
  have hlive := Loader.get?_enter_self l (Fares.request l.requests.serial s (some q.ctx))
  have hloaded := hreach.loaded.enterRequest (Fares.request l.requests.serial s (some q.ctx))
  generalize hl₀ : (l.enter (Fares.request l.requests.serial s (some q.ctx))).2 = l₀
    at hfares hlive hloaded
  generalize hid : (l.enter (Fares.request l.requests.serial s (some q.ctx))).1 = id
    at hfares hlive
  have hadvance : Machine.advance l
      (.body none (askFrom l.requests.serial (s :: rest)) .plain) =
        (l₀.link id q.ctx,
          [.dispatch, .body none (askFrom (l.requests.serial + 1) rest) .plain]) := by
    rw [askFrom_cons, ← hl₀, ← hid]
    simp only [Machine.advance, Machine.perform, Loader.submit, Loader.context?, h.context]
    rfl
  have hlevel := Loader.Level.link l₀ id q.ctx
  have hboot : (l₀.link id q.ctx).bootstrap = l.bootstrap := by
    rw [hlevel.bootstrap, ← hl₀]
    rfl
  have hwork : l₀.worklist = [] := by
    rw [← hl₀]
    exact h.worklist
  have hjoins := hfares.joins_link hlive
  obtain ⟨new, hnew, hsub⟩ := hjoins.worklist
  rw [hwork, List.nil_append] at hnew
  obtain ⟨hnodup, hsteps⟩ := nodup_of_sublist (l := l₀.link id q.ctx) hsub
    (List.nodup_singleton id) (by
      intro id' hid'
      rw [Fares.live_of_level hlevel, List.mem_singleton.mp hid', hlive]
      rfl)
  have hcosts := costs_advance (o := o) (k := []) (c := 4) hadvance rfl
    (hjoins.notes.trans (by rw [← hl₀]; rfl)) (by
      have hflight := hjoins.inFlight
      have hsame : l₀.fetches = l.fetches := by rw [← hl₀]; rfl
      rw [hsame, List.length_singleton] at hflight
      omega)
  obtain ⟨l', hdrain, h', hdrained⟩ := dispatch_costs (hcosts.reachable hreach)
    (hfares.link hloaded hlive) (by rw [hlevel.dispatching, ← hl₀]; exact h.idle)
    (by rw [hboot, h.deferred]) (by rw [hnew]; exact hnodup) (by rw [hnew]; exact hsteps)
  refine ⟨l', hcosts.trans hdrain, ?_, ?_⟩
  · exact hdrained.opened h' (by rw [hboot, h.context]) (by rw [hboot, h.deferred])
      (by rw [hboot, h.mains])
  · rw [hdrained.serial, hlevel.serial, ← hl₀]
    rfl

/-- The command waits for the main resource. -/
structure Awaiting (q : Inquiry) (t : Target) (waiting : List RequestId) (l : Loader Answer) :
    Prop where
  fares : q.Fares waiting l
  context : Context.ofUrl t.url = .ok q.ctx
  resolving : l.bootstrap.state = .resolving
  mains : l.bootstrap.inFlight = 1
  deferred : l.bootstrap.deferred = waiting
  fetching : ∃ f, l.fetches.inFlight = [f] ∧ f.target = t ∧ f.role = .main
  worklist : l.worklist = []
  idle : l.dispatching = false

/-- The next specifier is asked for, which has to wait. -/
theorem Awaiting.ask {t : Target} (h : Awaiting q t waiting l) {s : String} {rest : List String}
    (hs : q.specifiers[l.requests.serial]? = some s) :
    ∃ l' waiting', Costs o 3 ⟨l, [.body none (askFrom l.requests.serial (s :: rest)) .plain]⟩
        ⟨l', [.body none (askFrom (l.requests.serial + 1) rest) .plain]⟩ ∧
      Awaiting q t waiting' l' ∧ waiting'.length = waiting.length + 1 ∧
      l'.requests.serial = l.requests.serial + 1 := by
  have hfares := h.fares.enter hs none
  have hcontext : l.bootstrap.context? = none := by
    unfold Bootstrap.context?
    rw [h.resolving]
  generalize hid : (l.enter (Fares.request l.requests.serial s none)).1 = id at hfares
  have hadvance : Machine.advance l
      (.body none (askFrom l.requests.serial (s :: rest)) .plain) =
        ({ (l.enter (Fares.request l.requests.serial s none)).2 with
            bootstrap := l.bootstrap.defer id },
          [.dispatch, .body none (askFrom (l.requests.serial + 1) rest) .plain]) := by
    rw [askFrom_cons, ← hid]
    simp only [Machine.advance, Machine.perform, Loader.submit, Loader.context?, hcontext]
    rfl
  have hask := costs_advance (o := o) (k := []) (c := 1) hadvance rfl rfl (Nat.le_refl _)
  have hdispatch := costs_advance (o := o) (c := 1)
    (k := [.body none (askFrom (l.requests.serial + 1) rest) .plain])
    (advance_dispatch { (l.enter (Fares.request l.requests.serial s none)).2 with
      bootstrap := l.bootstrap.defer id } h.idle) rfl rfl (Nat.le_refl _)
  have hdrained := costs_advance (o := o) (c := 1)
    (k := [.body none (askFrom (l.requests.serial + 1) rest) .plain])
    (advance_drained { (l.enter (Fares.request l.requests.serial s none)).2 with
      bootstrap := l.bootstrap.defer id, dispatching := true } h.worklist) rfl rfl (Nat.le_refl _)
  refine ⟨_, waiting ++ [id], (hask.trans hdispatch).trans hdrained, ?_, by simp, rfl⟩
  exact {
    fares := ⟨hfares.resolver, hfares.resources, hfares.made, hfares.ordered, hfares.stocked⟩
    context := h.context
    resolving := h.resolving
    mains := h.mains
    deferred := congrArg (· ++ [id]) h.deferred
    fetching := h.fetching
    worklist := h.worklist
    idle := rfl }

/-! ## Taking up what has been fetched -/

/-- What the command does once nothing is in flight any more. -/
def ending : Bool → Script Answer := fun _ => .finish .done

/-- It does not matter in which order fetches are looked at. -/
theorem Fares.arrange (h : q.Fares waiting l) (o : Order Answer) (k : List (Task Answer)) :
    q.Fares waiting (o.arrange ⟨l, k⟩).loader where
  resolver := h.resolver
  resources := h.resources
  made := h.made
  ordered := h.ordered
  stocked := {
    modules := h.stocked.modules
    fetches := fun f hf =>
      (h.stocked.fetches f hf).imp_right fun hqueued => (o.perm ⟨l, k⟩).mem_iff.mpr hqueued
    notes := h.stocked.notes }

theorem Opened.arrange (h : Opened q l) (o : Order Answer) (k : List (Task Answer)) :
    Opened q (o.arrange ⟨l, k⟩).loader :=
  { h with fares := h.fares.arrange o k }

theorem Awaiting.arrange {t : Target} (h : Awaiting q t waiting l) (o : Order Answer)
    (k : List (Task Answer)) : Awaiting q t waiting (o.arrange ⟨l, k⟩).loader :=
  { h with fares := h.fares.arrange o k }

theorem Fares.arrived {t : Target} {fs : Fetches Answer} (h : q.Fares waiting l)
    (hfs : q.Stocked l.registry fs l.journal) (role : LoadRole) :
    q.Fares waiting (Loader.record { l with fetches := fs } (.arrived t role)) :=
  Fares.record (l := { l with fetches := fs })
    ⟨h.resolver, h.resources, h.made, h.ordered, hfs⟩ rfl rfl

/-- A main resource leaves nothing but a report. -/
theorem completeMain_fetched (l : Loader Answer) (t : Target) :
    ∃ report, completeMain l t (q.fetched t) = ((l.record (.report report)).finishMain t, []) := by
  rcases q.fetched_cases t with ⟨e, he⟩ | ⟨f, hf⟩
  · exact ⟨.mainNotLoaded e, by rw [he]; rfl⟩
  · exact ⟨.mainIsMarkup t.key, by rw [hf]; rfl⟩

/-- The main resource has been dealt with: there is a context, and what has waited for it is
linked. -/
theorem Fares.finishMain {t : Target} (h : q.Fares waiting l) (hloaded : l.Loaded)
    (hctx : Context.ofUrl t.url = .ok q.ctx) (hmains : l.bootstrap.inFlight = 1)
    (hdeferred : l.bootstrap.deferred = waiting)
    (hlive : ∀ id ∈ waiting, (l.requests.get? id).isSome) :
    q.Fares [] (l.finishMain t) ∧ Joins waiting l (l.finishMain t) ∧
      Loader.Level { l with bootstrap := { l.bootstrap with
        inFlight := 0, ambient := some q.ctx, state := .established, deferred := [] } }
        (l.finishMain t) := by
  rw [Loader.finishMain_last hctx hmains, hdeferred]
  generalize { l.bootstrap with
    inFlight := 0, ambient := some q.ctx, state := .established, deferred := [] } = b
  have hfares : q.Fares waiting { l with bootstrap := b } :=
    ⟨h.resolver, h.resources, h.made, h.ordered, h.stocked⟩
  obtain ⟨hlinked, hjoins⟩ := hfares.linkAll waiting (hloaded.same rfl rfl rfl) hlive
  exact ⟨hlinked, ⟨hjoins.worklist, hjoins.notes, hjoins.inFlight⟩, .linkAll _ waiting q.ctx⟩

/-- The main resource has arrived. -/
theorem Awaiting.settle {t : Target} (h : Awaiting q t waiting l)
    (hreach : Reachable ⟨l, [.settling none ending .plain]⟩) :
    ∃ l', Costs o (3 * waiting.length + 2) ⟨l, [.settling none ending .plain]⟩
        ⟨l', [.settling none ending .plain]⟩ ∧
      Opened q l' ∧ l'.requests.serial = l.requests.serial := by
  obtain ⟨l₀, hl₀, hreach₀, hinFlight, hjournal, hrequests, htakes⟩ := arranged o hreach rfl
  replace h : Awaiting q t waiting l₀ := hl₀ ▸ h.arrange o _
  rw [← hrequests]
  obtain ⟨f, hflight, rfl, hrole⟩ := h.fetching
  obtain ⟨f', fs, htake, hstocked, hlength⟩ :=
    h.fares.stocked.take hreach₀.loaded.numbered (by simp [hflight])
  have heq : f' = f := by
    have hmem := (Fetches.take_eq_some htake).1
    rwa [hflight, List.mem_singleton] at hmem
  subst heq
  have hloaded := hreach₀.loaded.arrive htake
  have hfares := h.fares.arrived (t := f'.target) hstocked f'.role
  rw [hrole] at hloaded hfares
  obtain ⟨report, hcomplete⟩ := completeMain_fetched (q := q)
    (Loader.record { l₀ with fetches := fs } (.arrived f'.target .main)) f'.target
  have hlinked : l₀.AllLinked := hreach₀.allLinked
  have hlive : ∀ id ∈ waiting, (l₀.requests.get? id).isSome := by
    intro id hid
    obtain ⟨r, hr, _⟩ := hlinked.deferred (h.deferred ▸ hid)
    exact Option.isSome_iff_exists.mpr ⟨r, hr⟩
  obtain ⟨hopen, hjoins, hlevel⟩ := (hfares.record (e := .report report) rfl rfl).finishMain
    (hloaded.record rfl) h.context h.mains h.deferred hlive
  have hadvance : Machine.advance l₀ (.settling none ending .plain) =
      ((Loader.record (Loader.record { l₀ with fetches := fs } (.arrived f'.target .main))
        (.report report)).finishMain f'.target, [.dispatch, .settling none ending .plain]) := by
    simp only [Machine.advance, takeUp, htake, complete, hrole, hcomplete]
    rfl
  generalize (Loader.record (Loader.record { l₀ with fetches := fs } (.arrived f'.target .main))
    (.report report)).finishMain f'.target = l₁ at hadvance hopen hjoins hlevel
  have hcosts := costs_step (c := 3 * waiting.length) (htakes hadvance)
    (hjoins.notes.trans (show notes l₀.journal = notes l.journal by rw [hjournal])) (by
      have hgrown : l₁.fetches.inFlight.length ≤ fs.inFlight.length + waiting.length :=
        hjoins.inFlight
      have hnone : fs.inFlight.length + 1 = 1 := by rw [hlength, hflight]; rfl
      dsimp only
      rw [← hinFlight, hflight, List.length_singleton]
      omega)
  obtain ⟨new, hnew, hsub⟩ := hjoins.worklist
  have hnew : l₁.worklist = new := hnew.trans (congrArg (· ++ new) h.worklist)
  obtain ⟨hnodup, hsteps⟩ := nodup_of_sublist (l := l₁) hsub
    (h.deferred ▸ hlinked.deferred_nodup) fun id hid => by
      rw [Fares.live_of_level hlevel]
      exact hlive id hid
  have hdeferred : l₁.bootstrap.deferred = [] := by rw [hlevel.bootstrap]
  obtain ⟨l', hdrain, h', hdrained⟩ := dispatch_costs (hcosts.reachable hreach) hopen
    (hlevel.dispatching.trans h.idle) hdeferred (hnew ▸ hnodup) (hnew ▸ hsteps)
  refine ⟨l', hcosts.trans hdrain, ?_, ?_⟩
  · exact hdrained.opened h' (by rw [hlevel.bootstrap]; rfl) hdeferred
      (by rw [hlevel.bootstrap])
  · exact hdrained.serial.trans hlevel.serial

/-! ### Modules -/

/-- A request asks for one module, so it waits for a module at one place at most. -/
theorem Fares.waiters (h : q.Fares waiting l) (hlinked : l.AllLinked) (url : String) :
    ((l.registry.waiters url).map Waiter.request).Nodup ∧
      ∀ id ∈ (l.registry.waiters url).map Waiter.request, (l.requests.get? id).isSome := by
  have hfirst : ∀ w ∈ l.registry.waiters url, w.slot = 0 := by
    intro w hw
    obtain ⟨_, r, slot, hr, hslot, _⟩ := hlinked.waiter hw
    obtain ⟨_, _, hslots⟩ := (h.made.asks hr).2.slots
    rw [Request.slot?, hslots] at hslot
    cases hi : w.slot with
    | zero => rfl
    | succ i =>
      rw [hi] at hslot
      cases hslot
  constructor
  · refine (hlinked.nodup url).map_on fun w hw w' hw' heq => ?_
    have hslot := (hfirst w hw).trans (hfirst w' hw').symm
    cases w
    cases w'
    cases heq
    cases hslot
    rfl
  · intro id hid
    obtain ⟨w, hw, rfl⟩ := List.mem_map.mp hid
    obtain ⟨_, r, _, hr, _⟩ := hlinked.waiter hw
    exact Option.isSome_iff_exists.mpr ⟨r, hr⟩

/-- From one loader to another a module has been settled, which makes a step for each request that
waits for it. -/
structure Settled (url : String) (l l' : Loader Answer) : Prop where
  worklist : (l'.worklist.map Step.request).Sublist ((l.registry.waiters url).map Waiter.request)
  requests : l'.requests = l.requests
  fetches : l'.fetches = l.fetches
  bootstrap : l'.bootstrap = l.bootstrap
  journal : l'.journal = l.journal
  idle : l'.dispatching = l.dispatching

theorem settled_of_settle {g : Registry} {url : String} {f : Record → Record}
    {toStep : Waiter → Step} (hstep : ∀ w, (toStep w).request = w.request) :
    (((g.settle url f).1.map toStep).map Step.request).Sublist
      ((g.waiters url).map Waiter.request) := by
  have hrequests : Step.request ∘ toStep = Waiter.request := funext hstep
  rw [List.map_map, hrequests]
  by_cases ho : g.IsOpen url
  · rw [Registry.fst_settle_of_isOpen f ho]
  · rw [Registry.settle_of_not_isOpen f ho]
    exact List.nil_sublist _

/-- A module that has been fetched is settled. -/
theorem Fares.completeModule (h : q.Fares waiting l) (hdefining : l.WellDefining)
    (hwork : l.worklist = []) {t : Target} (ht : t ∈ moduleTargets (loads l.journal)) :
    ∃ l', Machine.completeModule l t (q.fetched t) = (l', []) ∧ q.Fares waiting l' ∧
      Settled t.key l l' := by
  rcases q.fetched_cases t with ⟨e, he⟩ | ⟨f, hf⟩
  · have hnone : ∀ id, l.registry.definition? t.key = some id → l.requests.get? id = none := by
      refine fun id => hdefining.get?_eq_none fun id' r hr hsome => ?_
      rw [(h.made.asks hr).2.definitionUrl] at hsome
      cases hsome
    refine ⟨l.abandonModule t.key e, ?_, h.abandonModule ⟨t, ht, rfl, he⟩, ?_, rfl, rfl, rfl, rfl,
      rfl⟩
    · rw [he]
      exact failModule_of_none hnone e
    · rw [← Registry.waiters_setDefinition l.registry t.key t.key none]
      have hdue : (l.abandonModule t.key e).worklist =
          ((l.registry.setDefinition t.key none).markFailed t.key e).1.map
            fun w => .fail w.request (.dependency t.key e) := by
        rw [Loader.abandonModule, hwork]
        rfl
      rw [hdue]
      exact settled_of_settle fun _ => rfl
  · have hmade : q.Fares waiting (l.make (.fragment f)).2 :=
      ⟨h.resolver, h.resources, h.made, h.ordered, h.stocked⟩
    refine ⟨readyFragment l t f, by rw [hf]; rfl,
      hmade.readyModule ⟨t, ht, rfl, f, hf, rfl⟩, ?_, rfl, rfl, rfl, rfl, rfl⟩
    have hdue : (readyFragment l t f).worklist =
        (l.registry.markReady t.key (l.make (.fragment f)).1).1.map
          fun w => .fill w.request w.slot (l.make (.fragment f)).1 := by
      show l.worklist ++ _ = _
      rw [hwork]
      rfl
    rw [hdue]
    exact settled_of_settle fun _ => rfl

/-- Once the command has a context nothing but modules is being fetched. -/
theorem Opened.role (h : Opened q l) {k : List (Task Answer)} (hreach : Reachable ⟨l, k⟩)
    {f : Fetch Answer} (hf : f ∈ l.fetches.inFlight) : f.role = .module := by
  have hcounter : l.bootstrap.inFlight = l.fetches.mains + _ := hreach.mains.counter
  rw [h.mains] at hcounter
  have hnone : l.fetches.mains = 0 := by omega
  have hrole := List.countP_eq_zero.mp hnone f.errand (List.mem_map_of_mem hf)
  cases hf : f.role with
  | module => rfl
  | main => exact absurd (decide_eq_true hf) hrole

theorem mem_moduleTargets {ps : List (Target × LoadRole)} {t : Target} :
    t ∈ moduleTargets ps ↔ (t, .module) ∈ ps := by
  rw [moduleTargets, List.mem_filterMap]
  constructor
  · rintro ⟨⟨t', role⟩, hmem, heq⟩
    dsimp only at heq
    split at heq
    · rename_i hrole
      cases heq
      cases hrole
      exact hmem
    · cases heq
  · exact fun hmem => ⟨_, hmem, rfl⟩

/-- As long as anything is being fetched, a module arrives. -/
theorem Opened.settle (h : Opened q l)
    (hreach : Reachable ⟨l, [.settling none ending .plain]⟩) (hne : l.fetches.inFlight ≠ []) :
    ∃ l', Costs o 0 ⟨l, [.settling none ending .plain]⟩ ⟨l', [.settling none ending .plain]⟩ ∧
      Opened q l' ∧ l'.requests.serial = l.requests.serial ∧
      l'.fetches.inFlight.length < l.fetches.inFlight.length := by
  obtain ⟨l₀, hl₀, hreach₀, hinFlight, hjournal, hrequests, htakes⟩ := arranged o hreach rfl
  replace h : Opened q l₀ := hl₀ ▸ h.arrange o _
  rw [← hinFlight] at hne
  obtain ⟨f, fs, htake, hstocked, hlength⟩ := h.fares.stocked.take hreach₀.loaded.numbered hne
  have hmem := (Fetches.take_eq_some htake).1
  have hrole := h.role hreach₀ hmem
  have hfares := h.fares.arrived (t := f.target) hstocked .module
  have ht : f.target ∈ moduleTargets (loads l₀.journal) := by
    refine mem_moduleTargets.mpr (hreach₀.loaded.taken.subset (List.mem_append_left _ ?_))
    rw [← hrole]
    exact List.mem_map_of_mem (List.mem_map_of_mem hmem)
  obtain ⟨l₁, hcomplete, h₁, hsettled⟩ := hfares.completeModule hreach₀.wellDefining h.worklist ht
  have hadvance : Machine.advance l₀ (.settling none ending .plain) =
      (l₁, [.dispatch, .settling none ending .plain]) := by
    simp only [Machine.advance, takeUp, htake, complete, hrole, hcomplete]
    rfl
  have hnotes : notes l₁.journal = notes l.journal := by
    rw [hsettled.journal, ← hjournal]
    rfl
  have hflight : l₁.fetches.inFlight.length + 1 = l.fetches.inFlight.length := by
    rw [hsettled.fetches, ← hinFlight]
    exact hlength
  obtain ⟨hnodup, hlive⟩ := h.fares.waiters hreach₀.allLinked f.target.key
  obtain ⟨hnodup, hsteps⟩ := nodup_of_sublist (l := l₁) hsettled.worklist hnodup fun id hid => by
    rw [hsettled.requests]
    exact hlive id hid
  have hstep := htakes hadvance
  obtain ⟨l', hdrain, h', hdrained⟩ := dispatch_costs (o := o) (hstep.reachable hreach) h₁
    (hsettled.idle.trans h.idle) (by rw [hsettled.bootstrap]; exact h.deferred) hnodup hsteps
  refine ⟨l', ?_, ?_, ?_, ?_⟩
  · -- The fetch that is no more in flight pays for the step and for what dispatching costs.
    obtain ⟨n, hdrain, hle⟩ := hdrain
    refine ⟨1 + n, hstep.trans hdrain, ?_⟩
    dsimp only at hle ⊢
    rw [hnotes] at hle
    omega
  · exact hdrained.opened h' (by rw [hsettled.bootstrap]; exact h.context)
      (by rw [hsettled.bootstrap]; exact h.deferred) (by rw [hsettled.bootstrap]; exact h.mains)
  · rw [hdrained.serial, hsettled.requests, ← hrequests]
    rfl
  · rw [hdrained.fetches]
    omega

/-! ## The whole run -/

/-- What is left to be asked for starts with the next specifier. -/
theorem next_of_drop {specifiers : List String} {index : Nat} {s : String} {rest : List String}
    (h : specifiers.drop index = s :: rest) :
    specifiers[index]? = some s ∧ specifiers.drop (index + 1) = rest := by
  constructor
  · rw [← List.head?_drop, h]
    rfl
  · rw [← List.tail_drop, h]
    rfl

/-- With no specifier left the command waits for what is being fetched. -/
theorem costs_settling (l : Loader Answer) (index : Nat) :
    Costs o 1 ⟨l, [.body none (askFrom index []) .plain]⟩ ⟨l, [.settling none ending .plain]⟩ :=
  costs_advance (k := []) rfl rfl rfl (Nat.le_refl _)

theorem Opened.askAll (rest : List String) : ∀ {l : Loader Answer}, Opened q l →
    Reachable ⟨l, [.body none (askFrom l.requests.serial rest) .plain]⟩ →
    q.specifiers.drop l.requests.serial = rest →
    ∃ l', Costs o (6 * rest.length + 1) ⟨l, [.body none (askFrom l.requests.serial rest) .plain]⟩
        ⟨l', [.settling none ending .plain]⟩ ∧
      Opened q l' ∧ l'.requests.serial = l.requests.serial + rest.length := by
  induction rest with
  | nil => exact fun h _ _ => ⟨_, costs_settling _ _, h, rfl⟩
  | cons s rest ih =>
    intro l h hreach hdrop
    obtain ⟨hs, hrest⟩ := next_of_drop hdrop
    obtain ⟨l₁, hask, h₁, hserial⟩ := h.ask (o := o) hreach hs
    have hreach₁ := hask.reachable hreach
    rw [← hserial] at hask hreach₁ hrest
    obtain ⟨l', hcosts, h', hserial'⟩ := ih h₁ hreach₁ hrest
    refine ⟨l', ?_, h', by rw [hserial', hserial, List.length_cons]; omega⟩
    have hall := hask.trans hcosts
    rwa [List.length_cons, Nat.mul_add, Nat.mul_one, Nat.add_comm (6 * _) 6, Nat.add_assoc]

theorem Awaiting.askAll {t : Target} (rest : List String) : ∀ {l : Loader Answer}
    {waiting : List RequestId}, Awaiting q t waiting l →
    q.specifiers.drop l.requests.serial = rest →
    ∃ l' waiting', Costs o (3 * rest.length + 1)
        ⟨l, [.body none (askFrom l.requests.serial rest) .plain]⟩
        ⟨l', [.settling none ending .plain]⟩ ∧
      Awaiting q t waiting' l' ∧ waiting'.length = waiting.length + rest.length ∧
      l'.requests.serial = l.requests.serial + rest.length := by
  induction rest with
  | nil => exact fun h _ => ⟨_, _, costs_settling _ _, h, rfl, rfl⟩
  | cons s rest ih =>
    intro l waiting h hdrop
    obtain ⟨hs, hrest⟩ := next_of_drop hdrop
    obtain ⟨l₁, waiting₁, hask, h₁, hlength, hserial⟩ := h.ask (o := o) hs
    rw [← hserial] at hask hrest
    obtain ⟨l', waiting', hcosts, h', hlength', hserial'⟩ := ih h₁ hrest
    refine ⟨l', waiting', ?_, h', by rw [hlength', hlength, List.length_cons]; omega,
      by rw [hserial', hserial, List.length_cons]; omega⟩
    have hall := hask.trans hcosts
    rwa [List.length_cons, Nat.mul_add, Nat.mul_one, Nat.add_comm (3 * _) 3, Nat.add_assoc]

theorem take_of_nil {fs : Fetches ν} (hnone : fs.inFlight = []) :
    fs.take = (none, { fs with queue := [] }) := by
  have hfirst : ∀ queue, Fetches.firstFinished (ν := ν) [] queue = (none, []) := by
    intro queue
    induction queue with
    | nil => rfl
    | cons id queue ih => exact ih
  obtain ⟨inFlight, queue, count⟩ := fs
  subst hnone
  unfold Fetches.take
  rw [hfirst]

/-- Once nothing is in flight any more the command ends. -/
theorem Opened.finish (h : Opened q l) (hnone : l.fetches.inFlight = []) :
    ∃ l', Costs o 2 ⟨l, [.settling none ending .plain]⟩ ⟨l', []⟩ ∧ Opened q l' ∧
      l'.requests.serial = l.requests.serial ∧ l'.fetches.inFlight = [] := by
  have hnone₀ : (o.arrange ⟨l, [.settling none ending .plain]⟩).loader.fetches.inFlight = [] :=
    hnone
  have hadvance : Machine.advance (o.arrange ⟨l, [.settling none ending .plain]⟩).loader
      (.settling none ending .plain) = ({ l with fetches := { l.fetches with queue := [] } },
        [.body none (.finish .done) .plain]) := by
    simp only [Machine.advance, takeUp, take_of_nil hnone₀, hnone₀, hnone]
    rfl
  have hsettled := costs_step (c := 1) (Takes.arrange (k := []) hadvance rfl) rfl (Nat.le_refl _)
  have hended : Costs o 1 ⟨{ l with fetches := { l.fetches with queue := [] } },
      [.body none (.finish .done) .plain]⟩ ⟨{ l with fetches := { l.fetches with queue := [] } },
      []⟩ := costs_advance (k := []) rfl rfl rfl (Nat.le_refl _)
  refine ⟨_, hsettled.trans hended, ⟨?_, h.context, h.deferred, h.mains, h.worklist, h.idle⟩, rfl,
    hnone⟩
  refine ⟨h.fares.resolver, h.fares.resources, h.fares.made, h.fares.ordered,
    h.fares.stocked.modules, ?_, h.fares.stocked.notes⟩
  intro f hf
  dsimp only at hf
  rw [hnone] at hf
  cases hf

theorem Opened.settleAll (flight : Nat) : ∀ {l : Loader Answer}, Opened q l →
    Reachable ⟨l, [.settling none ending .plain]⟩ → l.fetches.inFlight.length = flight →
    ∃ l', Costs o 2 ⟨l, [.settling none ending .plain]⟩ ⟨l', []⟩ ∧ Opened q l' ∧
      l'.requests.serial = l.requests.serial ∧ l'.fetches.inFlight = [] := by
  induction flight using Nat.strongRecOn with
  | ind flight ih =>
    intro l h hreach hflight
    by_cases hnone : l.fetches.inFlight = []
    · exact h.finish hnone
    · obtain ⟨l₁, hsettle, h₁, hserial, hless⟩ := h.settle (o := o) hreach hnone
      obtain ⟨l', hcosts, h', hserial', hnone'⟩ :=
        ih _ (hflight ▸ hless) h₁ (hsettle.reachable hreach) rfl
      exact ⟨l', by simpa using hsettle.trans hcosts, h', hserial'.trans hserial, hnone'⟩

section Notes

variable {rs : Requests Answer} {j : List (Event Answer)}

theorem Made.exists_serial (h : q.Made rs j) {index : Nat} (hindex : index < rs.serial) :
    ∃ id ∈ submissions j, id.serial = index + 1 := by
  have hmem : index + 1 ∈ (submissions j).reverse.map RequestId.serial := by
    rw [h.serials, List.mem_range'_1]
    omega
  obtain ⟨id, hid, hserial⟩ := List.mem_map.mp hmem
  exact ⟨id, List.mem_reverse.mp hid, hserial⟩

theorem Made.nodup_indices (h : q.Made rs j) : ((notes j).map Answer.index).Nodup := by
  rw [List.nodup_iff_count_le_one]
  intro index
  rw [List.count_eq_countP, List.countP_map]
  by_cases hindex : index < rs.serial
  · obtain ⟨id, hid, hserial⟩ := h.exists_serial hindex
    have hnoted := h.noted id hid
    rw [hserial] at hnoted
    have hsame : (notes j).countP ((· == index) ∘ Answer.index) =
        (notes j).countP fun a => a.index + 1 = index + 1 := by
      refine List.countP_congr fun a _ => ?_
      simp
    rw [hsame, hnoted]
    split <;> omega
  · have hnone : (notes j).countP ((· == index) ∘ Answer.index) = 0 := by
      refine List.countP_eq_zero.mpr fun a ha heq => hindex ?_
      have heq : a.index = index := by simpa using heq
      exact heq ▸ h.indices a ha
    omega

/-- There are no more answers than specifiers have been asked for. -/
theorem Made.length_notes_le (h : q.Made rs j) : (notes j).length ≤ rs.serial := by
  have hsub : (notes j).map Answer.index ⊆ List.range rs.serial := by
    intro index hindex
    obtain ⟨a, ha, rfl⟩ := List.mem_map.mp hindex
    exact List.mem_range.mpr (h.indices a ha)
  simpa using (h.nodup_indices.subperm hsub).length_le

end Notes

/-- The command has come to its end: every specifier has been asked for, and nothing is left to be
done. -/
structure Ended (q : Inquiry) (m : Machine Answer) : Prop where
  stack : m.stack = []
  opened : Opened q m.loader
  serial : m.loader.requests.serial = q.specifiers.length
  inFlight : m.loader.fetches.inFlight = []

/-- The command starts with a context, or else waits for the main resource to get one. -/
inductive Begun (q : Inquiry) (l : Loader Answer) : Prop where
  | opened (h : Opened q l) (hflight : l.fetches.inFlight = [])
  | awaiting (t : Target) (h : Awaiting q t [] l)

/-- The command comes to its end before it has taken all the steps that it may. -/
theorem Begun.runIn (h : Begun q l) (o : Order Answer) (hreach : Reachable (.start l (askAll q.specifiers)))
    (hserial : l.requests.serial = 0) :
    Ended q (Machine.runIn o (stepsPerSpecifier * (q.specifiers.length + 2))
      (.start l (askAll q.specifiers))) := by
  have hstart : Machine.start l (askAll q.specifiers) =
      ⟨l, [.body none (askFrom l.requests.serial q.specifiers) .plain]⟩ := by
    rw [hserial]
    rfl
  have hdrop : q.specifiers.drop l.requests.serial = q.specifiers := by
    rw [hserial]
    rfl
  rw [hstart] at hreach ⊢
  have hcomes : ∃ l' c, Costs o c ⟨l, [.body none (askFrom l.requests.serial q.specifiers) .plain]⟩
      ⟨l', []⟩ ∧ Opened q l' ∧ l'.requests.serial = q.specifiers.length ∧
      l'.fetches.inFlight = [] ∧
      3 * l.fetches.inFlight.length + c ≤ 6 * q.specifiers.length + 8 := by
    cases h with
    | opened h hflight =>
      obtain ⟨l₁, hask, h₁, hserial₁⟩ := h.askAll (o := o) q.specifiers hreach hdrop
      obtain ⟨l', hsettle, h', hserial', hnone⟩ :=
        h₁.settleAll (o := o) _ (hask.reachable hreach) rfl
      refine ⟨l', _, hask.trans hsettle, h', by rw [hserial', hserial₁, hserial]; omega, hnone, ?_⟩
      rw [hflight, List.length_nil]
      omega
    | awaiting t h =>
      obtain ⟨l₁, waiting, hask, h₁, hlength, hserial₁⟩ := h.askAll (o := o) q.specifiers hdrop
      have hreach₁ := hask.reachable hreach
      obtain ⟨l₂, hmain, h₂, hserial₂⟩ := h₁.settle (o := o) hreach₁
      obtain ⟨l', hsettle, h', hserial', hnone⟩ :=
        h₂.settleAll _ (hmain.reachable hreach₁) rfl
      refine ⟨l', _, (hask.trans hmain).trans hsettle, h',
        by rw [hserial', hserial₂, hserial₁, hserial]; omega, hnone, ?_⟩
      obtain ⟨f, hflight, _⟩ := h.fetching
      rw [hflight, hlength, List.length_singleton, List.length_nil]
      omega
  obtain ⟨l', c, ⟨n, htakes, hle⟩, h', hserial', hnone, hc⟩ := hcomes
  have hnotes := h'.fares.made.length_notes_le
  have hfuel : n ≤ stepsPerSpecifier * (q.specifiers.length + 2) := by
    unfold stepsPerSpecifier
    dsimp only at hle
    omega
  rw [htakes.runIn rfl hfuel]
  exact ⟨rfl, h', hserial', hnone⟩

end Command.Inquiry
end AsyncModule
