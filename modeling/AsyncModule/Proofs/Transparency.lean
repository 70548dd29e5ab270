import AsyncModule.Proofs.Abreast
import AsyncModule.Proofs.Aloof

/-!
# AsyncModule.Proofs.Transparency

Deferring requests does not show on a loader. It makes no difference whether a host makes its
requests before it configures a loader or afterwards, as long as their programs keep to what they
are given. Programs that share state besides can tell: those of a request without dependencies run
at once, when the ones before it have been seen to in the one case and wait for a context in the
other.

* `Loader.Agrees`        — what of two loaders is to agree.
* `deferral_transparent` — it does, and goes on to do so.
* `deferral_shows`       — not with programs that read what others have left, nor with callbacks
  that let a fetch finish.
-/

namespace AsyncModule

open List (Forall₂)

variable {ν : Type}

/-- What can be told of two loaders agrees. Requests are known by their numbers, which are their
positions in the order in which they were made; where they are kept may differ. -/
structure Loader.Agrees (l l' : Loader ν) : Prop where
  loads : loads l'.journal = loads l.journal
  outline : l'.registry.outline = l.registry.outline
  state : ∀ url, l'.registry.state? url = l.registry.state? url
  waiters : ∀ url, (l'.registry.waiters url).map (fun w => (w.request.serial, w.slot)) =
    (l.registry.waiters url).map fun w => (w.request.serial, w.slot)
  definition : ∀ url, (l'.registry.definition? url).map RequestId.serial =
    (l.registry.definition? url).map RequestId.serial
  /-- The same requests are pending, in the same context and linked to the same modules. -/
  pending : ∀ n r, (∃ id : RequestId, id.serial = n ∧ l'.requests.get? id = some r) ↔
    ∃ id : RequestId, id.serial = n ∧ l.requests.get? id = some r
  upshots : ∀ n, upshots n l'.journal = upshots n l.journal

namespace Matching

variable {μ : Matching ν} {l l' : Loader ν}

theorem map_serial_of_sameWaiter {ws ws' : List Waiter} (h : Forall₂ μ.SameWaiter ws ws') :
    ws'.map (fun w => (w.request.serial, w.slot)) = ws.map fun w => (w.request.serial, w.slot) := by
  induction h with
  | nil => rfl
  | cons hw _ ih => rw [List.map_cons, List.map_cons, ih, hw.1.1, hw.2]

/-- Two loaders that are the same agree, if what they had told before agrees. -/
theorem Same.agrees (h : μ.Same l l') (hall : μ.Total l.requests l'.requests)
    (hloads : loads μ.past' = loads μ.past) (hupshots : ∀ n, upshots n μ.past' = upshots n μ.past) :
    l.Agrees l' where
  loads := h.journal.loads hloads
  outline := h.modules.outline
  state := h.modules.state
  waiters url := by
    have hw := h.modules.waiters url
    rw [List.filter_eq_self.mpr fun w _ => hall.shown _] at hw
    exact map_serial_of_sameWaiter hw
  definition url := by
    have hd := h.modules.definition url
    generalize l.registry.definition? url = d at hd
    generalize l'.registry.definition? url = d' at hd
    cases hd with
    | none => rfl
    | some hid => exact congrArg some hid.1
  pending n r := by
    constructor
    · rintro ⟨id', rfl, hr⟩
      obtain ⟨id, hid⟩ := hall.right hr
      exact ⟨id, hid.1.symm, (h.requests hid (hall.shown _)).symm.trans hr⟩
    · rintro ⟨id, rfl, hr⟩
      obtain ⟨id', hid⟩ := hall.left hr
      exact ⟨id', hid.1, (h.requests hid (hall.shown _)).trans hr⟩
  upshots n := h.journal.upshots (hupshots n)

/-- From now on all requests are shown, and the two loaders are compared by what they tell. -/
def reveal (μ : Matching ν) (past past' : List (Event ν)) : Matching ν :=
  { places := μ.places, shown := fun _ => true, past, past' }

end Matching

namespace Abreast

variable {μ : Matching ν} {ctx : Context} {l l' : Loader ν}

/-- Once the second loader has failed what it had to, nothing is hidden of it. -/
theorem reveal (h : Abreast μ [] [] [] l l') (hw : l.worklist = []) (hw' : l'.worklist = [])
    (hlinked : l'.AllLinked) : (μ.reveal l.journal l'.journal).Same l l' ∧
      (μ.reveal l.journal l'.journal).Total l.requests l'.requests := by
  have hright : ∀ {id' r}, l'.requests.get? id' = some r →
      ∃ id, μ.Pairs id id' ∧ μ.shown id' = true := by
    intro id' r hr
    rcases h.right hr with hmem | hmem | hpaired
    · cases hmem
    · cases hmem
    · exact hpaired
  refine ⟨?_, fun _ => rfl, fun hr => ?_, fun hr => ?_⟩
  · exact {
      resolver := h.resolver
      resources := h.resources
      fetches := h.fetches
      modules := {
        outline := h.modules.outline
        state := h.modules.state
        waiters := by
          intro url
          have hshown : ∀ w ∈ l'.registry.waiters url, μ.shown w.request = true := by
            intro w hw
            obtain ⟨_, r, s, hr, _⟩ := Linkage.waiter hlinked hw
            obtain ⟨_, _, hshown⟩ := hright hr
            exact hshown
          have hwaiters := h.modules.waiters url
          rw [List.filter_eq_self.mpr hshown] at hwaiters
          refine Eq.mpr (congrArg _ ?_) hwaiters
          exact List.filter_eq_self.mpr fun w _ => rfl
        definition := h.modules.definition }
      requests := by
        intro id id' hid _
        by_cases hshown : μ.shown id' = true
        · exact h.requests hid hshown
        · -- a hidden request has been failed on both
          have hnone : l.requests.get? id = none := by
            cases hr : l.requests.get? id with
            | none => rfl
            | some r =>
              obtain ⟨i', hi, hi'⟩ := h.left hr
              exact absurd (((hid.eq_iff hi).mp rfl) ▸ hi') hshown
          have hnone' : l'.requests.get? id' = none := by
            cases hr : l'.requests.get? id' with
            | none => rfl
            | some r =>
              obtain ⟨_, _, hi'⟩ := hright hr
              exact absurd hi' hshown
          rw [hnone, hnone']
      worklist := by rw [hw, hw']; exact .nil
      journal := ⟨[], [], rfl, rfl, rfl⟩ }
  · obtain ⟨id', hid, _⟩ := h.left hr
    exact ⟨id', hid⟩
  · obtain ⟨id, hid, _⟩ := hright hr
    exact ⟨id, hid⟩

theorem upshots_eq (h : Abreast μ [] [] [] l l') (n : Nat) :
    upshots n l'.journal = upshots n l.journal := by
  rcases Nat.lt_or_ge l.requests.serial n with hlt | hle
  · cases h.queued with
    | nil hquiet => rw [hquiet n hlt, h.heard.quiet n hlt]
  · exact h.heard.told n hle List.not_mem_nil

/-- Then the loaders are the same to every discreet program. -/
theorem mirrors (h : Abreast μ [] [] [] l l') (hpoised : l.Poised ctx) (hw' : l'.worklist = [])
    (hidle : l'.dispatching = false) (hlinked : l'.AllLinked)
    (hresources : DiscreetResources l.journal l'.journal l.resources) :
    (μ.reveal l.journal l'.journal).Mirrors l l' :=
  { (h.reveal hpoised.worklist hw' hlinked).1 with
    total := (h.reveal hpoised.worklist hw' hlinked).2
    serial := h.serial
    unissued := h.unissued
    bootstrap := by
      rw [h.bootstrap]
      refine ⟨?_, rfl⟩
      rw [hpoised.deferred]
      exact .nil
    dispatching := hidle.trans hpoised.idle.symm
    values := h.values
    discreetRequests := hpoised.discreet _ _
    discreetFetches := by
      intro f hf result hresult
      exact hresources f.target result ((hpoised.fetched f hf).symm.trans hresult)
    discreetResources := hresources }

end Abreast

/-! ## Before and after -/

namespace Loader

variable {l : Loader ν} {base : String} {url : Url} {ctx : Context}

/-- The loader with a base, and with its context. -/
def established (l : Loader ν) (url : Url) (ctx : Context) : Loader ν :=
  { l.setDefaultBase url with bootstrap := ⟨.established, 0, some ctx, some ctx, []⟩ }

theorem configure_idle (hurl : Url.asDirectory base = .ok url) (hctx : Context.ofUrl url = .ok ctx)
    (h : l.bootstrap.inFlight = 0) : l.configure base = (.ok true,
      l.bootstrap.deferred.foldl (fun l id => l.link id ctx) (l.established url ctx)) := by
  unfold configure
  rw [hurl]
  dsimp only
  rw [hctx]
  simp [afterEstablishing, drainDeferred, Bootstrap.establish, Bootstrap.conclude,
    Bootstrap.context?, setDefaultBase, established, h]

theorem configure_accepted {drained : Bool} (h : (l.configure base).1 = .ok drained) :
    ∃ url ctx, Url.asDirectory base = .ok url ∧ Context.ofUrl url = .ok ctx := by
  generalize hout : l.configure base = out at h
  obtain ⟨result, l'⟩ := out
  cases h
  obtain ⟨url, ctx, hurl, hctx, _⟩ := configure_eq_ok hout
  exact ⟨url, ctx, hurl, hctx⟩

theorem get?_new (config : Config) (resources : Target → Option (Fetched (Script ν)))
    (id : RequestId) : (Loader.new config resources).requests.get? id = none := by
  simp [Loader.new, Requests.empty, Requests.get?]

theorem poised_established (config : Config) (resources : Target → Option (Fetched (Script ν)))
    (url : Url) (ctx : Context) :
    ((Loader.new config resources).established url ctx).Poised ctx where
  context := rfl
  deferred := rfl
  worklist := rfl
  idle := rfl
  unsettled u s hs := by cases hs
  fetched f hf := by cases hf
  discreet past past' id r hr := absurd (hr.symm.trans (get?_new config resources id)) (by simp)

end Loader

/-- Before anything is linked, the loader that has been made all requests already is in step with
the one that has been made none. -/
theorem Postpones.inStep {config : Config} {resources : Target → Option (Fetched (Script ν))}
    {calls : List (Call ν)} {ids : List RequestId} {l' : Loader ν}
    (h : Postpones (Loader.new config resources) calls ids l') (url : Url) (ctx : Context) :
    InStep ctx calls ids ((Loader.new config resources).established url ctx)
      (l'.established url ctx) := by
  refine ⟨⟨fun _ => none, fun _ => true, [], l'.journal⟩, [], ?_,
    Loader.poised_established config resources url ctx, h.worklist⟩
  exact {
    resolver := by
      show { l'.resolver with defaultBase := some url } = _
      rw [h.resolver]
      rfl
    resources := h.resources
    fetches := h.fetches
    modules := by
      show Matching.SameModules _ _ l'.registry
      rw [h.registry]
      exact ⟨rfl, fun _ => rfl, fun _ => .nil, fun _ => .none⟩
    requests := fun hid => absurd hid.2 (by simp)
    worklist := by
      show Forall₂ _ _ (l'.worklist.filter _)
      rw [h.worklist]
      exact .nil
    journal := ⟨[], [], rfl, rfl, rfl⟩
    bootstrap := rfl
    left := by
      intro id r hr
      exact absurd (hr.symm.trans (Loader.get?_new config resources id)) (by simp)
    right := by
      intro id r hr
      rcases h.live id r hr with hold | hid
      · exact absurd (hold.symm.trans (Loader.get?_new config resources id)) (by simp)
      · exact .inl hid
    fresh := fun _ _ => rfl
    unissued := fun _ _ => rfl
    serial := h.serial
    queued := h.queued.keep (fun _ _ => rfl) fun _ => rfl
    live := fun f hf => absurd hf List.not_mem_nil
    hidden := fun f hf => absurd hf List.not_mem_nil
    values := h.values
    heard := {
      loads := h.loads
      quiet := fun _ _ => rfl
      told := fun m hm _ => h.older m hm
      owed := fun f hf => absurd hf List.not_mem_nil
      distinct := .nil } }

namespace Machine

variable {l : Loader ν} {base : String} {url : Url} {ctx : Context}

/-- A host configures a loader, which then works off what has been linked. -/
theorem configure_steps (hurl : Url.asDirectory base = .ok url) (hctx : Context.ofUrl url = .ok ctx)
    (hmains : l.bootstrap.inFlight = 0) (hidle : l.dispatching = false) (next : Script ν) :
    Steps ⟨l, [.body none (.configure base fun _ => next) .plain]⟩
      ⟨{ l.bootstrap.deferred.foldl (fun l id => l.link id ctx) (l.established url ctx) with
          dispatching := true }, [.draining, .body none next .plain]⟩ := by
  have hconfigure : advance l (.body none (.configure base fun _ => next) .plain) =
      (l.bootstrap.deferred.foldl (fun l id => l.link id ctx) (l.established url ctx),
        [.dispatch, .body none next .plain]) := by
    simp only [advance, perform, Loader.configure_idle hurl hctx hmains, afterChange]
  have hidle' : (l.bootstrap.deferred.foldl (fun l id => l.link id ctx)
      (l.established url ctx)).dispatching = false :=
    (Loader.Level.linkAll (l.established url ctx) l.bootstrap.deferred ctx).dispatching.trans hidle
  exact (Steps.advance hconfigure).trans (dispatch_steps _ hidle' _)

/-- Whatever happens to two machines alike that are the same to discreet programs, their loaders
agree if what they had told before agrees. -/
theorem Mirrors.agrees {past past' : List (Event ν)} {m₀ m₀' m m' : Machine ν}
    (h : Mirrors past past' m₀ m₀') (hloads : loads past' = loads past)
    (hupshots : ∀ n, upshots n past' = upshots n past)
    (hrun : Together past past' m₀ m₀' m m') : m.loader.Agrees m'.loader := by
  obtain ⟨μ, rfl, rfl, hloader, _⟩ := h.together hrun
  exact hloader.toSame.agrees hloader.total hloads hupshots

end Machine

open Machine in
/-- Making requests and then configuring a new loader comes to the same as configuring it and then
making the requests, whatever they are linked to and whether or not they can be linked, if their
programs keep to what they are given; and so it goes on, whatever happens to the two loaders alike.
The programs that run then may do anything on the loaders. What they must not do is look back at the
journal as it was up to here, which is no part of a loader: in the one case callbacks have run
before other requests failed, in the other case afterwards. -/
theorem deferral_transparent (config : Config)
    (resources : Target → Option (Fetched (Script ν))) (calls : List (Call ν)) {base : String}
    {drained : Bool}
    (haccepted : ((Loader.new config resources).configure base).1 = .ok drained)
    (rest : Script ν) :
    ∃ m m',
      Steps (start (Loader.new config resources) (.configure base fun _ => callAll calls rest)) m ∧
      Steps (start (Loader.new config resources) (callAll calls (.configure base fun _ => rest)))
        m' ∧
      m.stack = [.body none rest .plain] ∧ m'.stack = [.body none rest .plain] ∧
      m.loader.Agrees m'.loader ∧
      (rest.Discreet m.loader.journal m'.loader.journal →
        DiscreetResources m.loader.journal m'.loader.journal resources →
        ∀ {n n'}, Together m.loader.journal m'.loader.journal m m' n n' →
          n.loader.Agrees n'.loader) := by
  obtain ⟨url, ctx, hurl, hctx⟩ := Loader.configure_accepted haccepted
  -- the loader that is configured first makes the requests one after the other
  have hconfigured := (configure_steps (l := Loader.new config resources) hurl hctx rfl rfl
    (callAll calls rest)).trans (drained_steps _ rfl _)
  have hreachable := hconfigured.reachable (reachable_start config resources _)
  -- the other one defers them, links them and then fails some
  obtain ⟨ids, l₁, hpostponed, hpostpones⟩ := postpone_all
    (.configure base fun _ => rest) calls (l := Loader.new config resources) rfl rfl rfl
    fun _ _ => rfl
  have hmains : l₁.bootstrap.inFlight = 0 := by rw [hpostpones.bootstrap]; rfl
  have hdeferred : l₁.bootstrap.deferred = ids := by rw [hpostpones.bootstrap]; rfl
  have hlinked := configure_steps hurl hctx hmains hpostpones.idle rest
  rw [hdeferred] at hlinked
  obtain ⟨l, hcalled, μ, failing, habreast, hpoised, hwork⟩ :=
    inStep_all rest calls (hpostpones.inStep url ctx) hreachable
  obtain ⟨μ₁, l', hfailed, hwork', hidle', hdone⟩ := draining_abreast hpoised
    [.body none rest .plain] failing (habreast.dispatching true) hwork
  have hdeferring := hpostponed.trans (hlinked.trans hfailed)
  have hall := (hdeferring.reachable (reachable_start config resources _)).allLinked
  obtain ⟨hsame, htotal⟩ := hdone.reveal hpoised.worklist hwork' hall
  have hserved : l.resources = resources :=
    habreast.resources.symm.trans
      ((Loader.Level.linkAll (l₁.established url ctx) ids ctx).resources.trans hpostpones.resources)
  refine ⟨⟨l, [.body none rest .plain]⟩, ⟨l', [.body none rest .plain]⟩, hconfigured.trans hcalled,
    hdeferring, rfl, rfl, hsame.agrees htotal hdone.heard.loads hdone.upshots_eq, ?_⟩
  intro hrest hresources n n' hrun
  have hmirrors : Mirrors l.journal l'.journal ⟨l, [.body none rest .plain]⟩
      ⟨l', [.body none rest .plain]⟩ :=
    ⟨_, rfl, rfl, hdone.mirrors hpoised hwork' hidle' hall (hserved ▸ hresources),
      .cons (.body none hrest .plain) .nil⟩
  exact hmirrors.agrees hdone.heard.loads hdone.upshots_eq hrun

/-- A request that has to wait, one that cannot be linked, and one without dependencies. -/
def variedCalls : List (Call Unit) :=
  [{ defines := false
     dependencies := ["./x.js", "./y.js"]
     callback := fun _ => .finish .done
     errback := none
     inert_callback := fun _ => ⟨none, 0, .finish rfl⟩
     inert_errback := fun _ h => by cases h },
   { defines := true
     dependencies := ["./y.js", ""]
     callback := fun _ => .finish .done
     errback := some fun _ => .note () (.finish .done)
     inert_callback := fun _ => ⟨none, 0, .finish rfl⟩
     inert_errback := fun _ h e => by
       cases h
       exact ⟨none, 0, .note (.finish rfl)⟩ },
   { defines := false
     dependencies := []
     callback := fun _ => .make (.fragment ⟨"z", "a:/z.html", "<p>"⟩) fun _ => .finish (.error "no")
     errback := none
     inert_callback := fun _ => ⟨some "no", 1, .make fun _ _ => .finish rfl⟩
     inert_errback := fun _ h => by cases h }]

open Machine in
theorem deferral_transparent_varied :
    ((Loader.new {} fun _ => none : Loader Unit).configure "a:/").1 = .ok true ∧
    ∃ m m' : Machine Unit,
      Steps (start (Loader.new {} fun _ => none)
        (.configure "a:/" fun _ => callAll variedCalls (.settle fun _ => .finish .done))) m ∧
      Steps (start (Loader.new {} fun _ => none)
        (callAll variedCalls (.configure "a:/" fun _ => .settle fun _ => .finish .done))) m' ∧
      m.loader.Agrees m'.loader ∧
      ∀ {n n'}, Together m.loader.journal m'.loader.journal m m' n n' →
        n.loader.Agrees n'.loader := by
  have haccepted : ((Loader.new {} fun _ => none : Loader Unit).configure "a:/").1 = .ok true := by
    decide +kernel
  obtain ⟨m, m', hm, hm', _, _, hagrees, hlater⟩ :=
    deferral_transparent {} (fun _ => none) variedCalls haccepted (.settle fun _ => .finish .done)
  refine ⟨haccepted, m, m', hm, hm', hagrees, ?_⟩
  exact hlater (.settle fun _ => .finish _) fun _ _ h => by cases h

/-! ## Programs that share state -/

/-- A new loader is configured, then asked for what a host requires, and the host goes on. -/
def configuredFirst (resources : Target → Option (Fetched (Script Nat)))
    (requests : Script Nat → Script Nat) (rest : Script Nat) : Machine Nat :=
  (Machine.start (Loader.new {} resources) (.configure "a:/" fun _ => requests rest)).run 60

/-- The same, but the loader is configured after it has been asked. -/
def configuredLast (resources : Target → Option (Fetched (Script Nat)))
    (requests : Script Nat → Script Nat) (rest : Script Nat) : Machine Nat :=
  (Machine.start (Loader.new {} resources) (requests (.configure "a:/" fun _ => rest))).run 60

/-- What a program does that leaves the note 1. -/
def leaveNote {α : Type} (_ : α) : Script Nat := .note 1 (.finish .done)

/-- A callback that fails unless the note 1 has been left. -/
def awaitNote (_ : List ModuleValue) : Script Nat :=
  .look fun view => .finish (if 1 ∈ notes view.journal then .done else .error "no note")

/-- A request that cannot be linked, whose handler leaves a note, and one without dependencies,
whose callback looks for the note. -/
def heedful (next : Script Nat) : Script Nat :=
  .require [""] (fun _ => .finish .done) (some leaveNote)
    (.require [] awaitNote (some fun _ => .finish .done) next)

/-- A request that cannot be linked and one without dependencies, both of which leave notes without
reading any, and one for a module. -/
def talkative (next : Script Nat) : Script Nat :=
  .require [""] (fun _ => .finish .done) (some leaveNote)
    (.require [] (fun _ => .note 2 (.finish .done)) none
      (.require ["./x.js"] (fun _ => .finish .done) none next))

/-- Every module is a fragment with a script that fails unless the notes are in a certain order. -/
def particular (t : Target) : Option (Fetched (Script Nat)) :=
  some (.markup ⟨t.name, t.key, ""⟩ (some (.look fun view =>
    .finish (if notes view.journal = [2, 1] then .done else .error "wrong order"))))

/-- A request for a module, and one without dependencies, whose callback lets the module's fetch
finish. -/
def hasty (next : Script Nat) : Script Nat :=
  .require ["./x.js"] (fun _ => .finish .done) none
    (.require [] (fun _ => .deliver "a:/x.js" (fun t => .markup ⟨t.name, t.key, ""⟩ none) fun _ =>
      .finish .done) none next)

/-- A host takes up what has been fetched. -/
def takesUp : Script Nat := .settle fun _ => .finish .done

/-- Deferring shows as soon as programs share state outside of the loader, even if none calls it: in
what callbacks do that look at what others have left; in what a fetched script does that looks at
what callbacks have left; and in which fetches there are for a callback to finish. -/
theorem deferral_shows :
    ((Loader.new {} fun _ => none : Loader Nat).configure "a:/").1 = .ok true ∧
    ((∀ values, (awaitNote values).Aloof fun _ => True) ∧
      (∀ e : LoadError, (leaveNote e).Aloof fun _ => True) ∧
      let first := configuredFirst (fun _ => none) heedful (.finish .done)
      let last := configuredLast (fun _ => none) heedful (.finish .done)
      first.isDone = true ∧ last.isDone = true ∧
      upshots 2 first.loader.journal = [.called []] ∧
      upshots 2 last.loader.journal =
        [.handled (.factory "no note"), .failed (.factory "no note"), .called []] ∧
      ¬ first.loader.Agrees last.loader) ∧
    (let first := configuredFirst particular talkative takesUp
      let last := configuredLast particular talkative takesUp
      first.isDone = true ∧ last.isDone = true ∧
      first.loader.status "a:/x.js" = some .ready ∧ last.loader.status "a:/x.js" = some .failed ∧
      ¬ first.loader.Agrees last.loader) ∧
    let first := configuredFirst (fun _ => none) hasty takesUp
    let last := configuredLast (fun _ => none) hasty takesUp
    first.isDone = true ∧ last.isDone = true ∧
    first.loader.status "a:/x.js" = some .ready ∧ last.loader.status "a:/x.js" = some .loading ∧
    ¬ first.loader.Agrees last.loader := by
  refine ⟨by decide +kernel, ⟨fun _ => .look fun _ => .finish trivial,
    fun _ => .note (.finish trivial), by decide +kernel, by decide +kernel, by rfl, by rfl, ?_⟩,
    ⟨by decide +kernel, by decide +kernel, by decide +kernel,
    by decide +kernel, ?_⟩, by decide +kernel, by decide +kernel, by decide +kernel,
    by decide +kernel, ?_⟩
  · intro h
    exact absurd (congrArg List.length (h.upshots 2)) (by decide +kernel)
  · intro h
    exact absurd (congrArg (Option.map ModuleState.status) (h.state "a:/x.js"))
      (by decide +kernel)
  · intro h
    exact absurd (congrArg (Option.map ModuleState.status) (h.state "a:/x.js"))
      (by decide +kernel)

end AsyncModule
