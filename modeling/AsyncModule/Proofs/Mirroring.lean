import AsyncModule.Proofs.Matching
import AsyncModule.Proofs.Ownership

/-!
# AsyncModule.Proofs.Mirroring

Two loaders that are the same but for the places of requests do the same, as long as the programs
that run on them do not look at what had been told before the loaders are compared.

* `Script.Discreet`   — a program that does not.
* `Loader.Level`      — what linking leaves alone.
* `Matching.Mirrors`  — the same loaders, with all that a program can see of them.
* `Mirrors.submit`    — they stay the same when the same request is made, which then has a number.
-/

namespace AsyncModule

open List (Forall₂)

variable {ν : Type}

/-! ## Discreet programs -/

/-- Two views differ at most in what had been told before. -/
structure View.Alike (past past' : List (Event ν)) (view view' : View ν) : Prop where
  journal : SameSince past past' view.journal view'.journal
  rest : view' = { view with journal := view'.journal }

/-- The program among what a fetch yields. -/
def Fetched.script? {σ : Type} : Fetched σ → Option σ
  | failed _ => none
  | code unit => some unit
  | markup _ script => script

/-- A program that goes on in the same way whatever had been told before, and makes requests, and
finishes fetches, only with such programs. -/
inductive Script.Discreet (past past' : List (Event ν)) : Script ν → Prop where
  | finish (o : Outcome) : Discreet past past' (.finish o)
  | require {dependencies : List String} {callback : List ModuleValue → Script ν}
    {errback : Option (LoadError → Script ν)} {next : Script ν}
    (hcallback : ∀ values, Discreet past past' (callback values))
    (herrback : ∀ handler, errback = some handler → ∀ e, Discreet past past' (handler e))
    (h : Discreet past past' next) :
    Discreet past past' (.require dependencies callback errback next)
  | define {dependencies : List String} {factory : List ModuleValue → Script ν}
    {errback : Option (LoadError → Script ν)} {next : Script ν}
    (hfactory : ∀ values, Discreet past past' (factory values))
    (herrback : ∀ handler, errback = some handler → ∀ e, Discreet past past' (handler e))
    (h : Discreet past past' next) : Discreet past past' (.define dependencies factory errback next)
  | configure {base : String} {next : Option LoadError → Script ν}
    (h : ∀ r, Discreet past past' (next r)) : Discreet past past' (.configure base next)
  | bootstrap {entry : String} {main : Option String} {next : Option LoadError → Script ν}
    (h : ∀ r, Discreet past past' (next r)) : Discreet past past' (.bootstrap entry main next)
  | turn {next : Turn → Script ν} (h : ∀ t, Discreet past past' (next t)) :
    Discreet past past' (.turn next)
  | settle {next : Bool → Script ν} (h : ∀ b, Discreet past past' (next b)) :
    Discreet past past' (.settle next)
  | deliver {url : String} {result : Target → Fetched (Script ν)} {next : Bool → Script ν}
    (hresult : ∀ t script, (result t).script? = some script → Discreet past past' script)
    (h : ∀ b, Discreet past past' (next b)) : Discreet past past' (.deliver url result next)
  | make {payload : Payload} {next : ModuleValue → Script ν}
    (h : ∀ v, v.payload = payload → Discreet past past' (next v)) :
    Discreet past past' (.make payload next)
  | look {next : View ν → Script ν} (h : ∀ view, Discreet past past' (next view))
    (halike : ∀ view view', View.Alike past past' view view' → next view' = next view) :
    Discreet past past' (.look next)
  | note {n : ν} {next : Script ν} (h : Discreet past past' next) :
    Discreet past past' (.note n next)

def Fetched.Discreet (past past' : List (Event ν)) (result : Fetched (Script ν)) : Prop :=
  ∀ script, result.script? = some script → script.Discreet past past'

structure Request.Discreet (past past' : List (Event ν)) (r : Request ν) : Prop where
  callback : ∀ values, (r.callback values).Discreet past past'
  errback : ∀ handler, r.errback = some handler → ∀ e, (handler e).Discreet past past'

def Requests.Discreet (past past' : List (Event ν)) (rs : Requests ν) : Prop :=
  ∀ id r, rs.get? id = some r → r.Discreet past past'

def Fetches.Discreet (past past' : List (Event ν)) (fs : Fetches ν) : Prop :=
  ∀ f ∈ fs.inFlight, ∀ result, f.result = some result → result.Discreet past past'

theorem Fetches.Discreet.deliver {past past' : List (Event ν)} {fs fs' : Fetches ν}
    (h : fs.Discreet past past') {url : String} {result : Target → Fetched (Script ν)}
    (hdelivered : fs.deliver url result = some fs')
    (hresult : ∀ t, (result t).Discreet past past') : fs'.Discreet past past' := by
  obtain ⟨f, _, _, _, rfl⟩ := Fetches.deliver_eq_some hdelivered
  intro f' hf' r hr
  obtain ⟨f₀, hf₀, rfl⟩ := List.mem_map.mp hf'
  split at hr
  · cases hr
    exact hresult f.target
  · exact h f₀ hf₀ r hr

def DiscreetResources (past past' : List (Event ν))
    (resources : Target → Option (Fetched (Script ν))) : Prop :=
  ∀ t result, resources t = some result → result.Discreet past past'

theorem Loader.get?_enter (l : Loader ν) (r : Request ν) (id : RequestId) :
    (l.enter r).2.requests.get? id =
      if id = (l.enter r).1 then some r else l.requests.get? id :=
  Requests.get?_insert l.requests r id

/-! ## What linking leaves alone -/

/-- What is to be done once a request is settled. -/
def Request.sequel (r : Request ν) :
    (List ModuleValue → Script ν) × Option (LoadError → Script ν) × Option String :=
  (r.callback, r.errback, r.definitionUrl)

namespace Loader

/-- Contexts, values and requests are as before, save for what requests are linked to and filled
with, and what has been asked for since has got what was there. -/
structure Level (l l₁ : Loader ν) : Prop where
  bootstrap : l₁.bootstrap = l.bootstrap
  dispatching : l₁.dispatching = l.dispatching
  values : l₁.values = l.values
  resources : l₁.resources = l.resources
  serial : l₁.requests.serial = l.requests.serial
  sequel : ∀ id, (l₁.requests.get? id).map Request.sequel =
    (l.requests.get? id).map Request.sequel
  fetched : ∀ f ∈ l₁.fetches.inFlight, f ∈ l.fetches.inFlight ∨ f.result = l.resources f.target

namespace Level

variable {l l₁ : Loader ν} {past past' : List (Event ν)}

theorem refl (l : Loader ν) : Level l l :=
  ⟨rfl, rfl, rfl, rfl, rfl, fun _ => rfl, fun _ => .inl⟩

theorem modify (h : Level l l₁) (id : RequestId) {f : Request ν → Request ν}
    (hf : ∀ r, (f r).sequel = r.sequel) :
    Level l { l₁ with requests := l₁.requests.modify id f } :=
  { h with
    serial := by simp [h.serial]
    sequel := by
      intro id'
      simp only [Requests.get?_modify, ← h.sequel]
      split
      · rw [Option.map_map]
        exact congrArg (Option.map · _) (funext hf)
      · rfl }

theorem registry (h : Level l l₁) (g : Registry) : Level l { l₁ with registry := g } :=
  { h with }

theorem load (h : Level l l₁) (t : Target) (role : LoadRole) : Level l (l₁.load t role) :=
  { h with
    fetched := by
      intro f hf
      rcases List.mem_append.mp hf with hf | hf
      · exact h.fetched f hf
      · rw [List.mem_singleton.mp hf, h.resources]
        exact .inr rfl }

theorem sequel_link (r : Request ν) (i : Nat) (url : String) :
    (r.link i url).sequel = r.sequel := by rw [Request.link_eq]; rfl

theorem sequel_fill (r : Request ν) (i : Nat) (v : ModuleValue) :
    (r.fill i v).sequel = r.sequel := by rw [Request.fill_eq]; rfl

theorem attach (h : Level l l₁) (id : RequestId) (i : Nat) (t : Target) :
    Level l (l₁.attach id i t) := by
  have hlinked := h.modify id (sequel_link · i t.key)
  unfold Loader.attach
  dsimp only
  split
  · exact (hlinked.registry _).load t .module
  · exact { hlinked with }
  · exact { hlinked with }
  · exact { hlinked with }

theorem keptByLinking (l : Loader ν) : KeptByLinking fun l₁ : Loader ν => Level l l₁ where
  linked _ _ h := { h with }
  context id _ h := h.modify id fun _ => rfl
  stop _ h _ := { h with }
  attach i t h _ _ := h.attach _ i t

theorem link (l : Loader ν) (id : RequestId) (ctx : Context) : Level l (l.link id ctx) :=
  (keptByLinking l).link (refl l) id ctx

theorem linkAll (l : Loader ν) (ids : List RequestId) (ctx : Context) :
    Level l (ids.foldl (fun l id => l.link id ctx) l) :=
  (keptByLinking l).linkAll ctx ids (refl l)

theorem discreet_fetches (h : Level l l₁) (hf : l.fetches.Discreet past past')
    (hr : DiscreetResources past past' l.resources) : l₁.fetches.Discreet past past' := by
  intro f hmem result hresult
  rcases h.fetched f hmem with hold | hnew
  · exact hf f hold result hresult
  · exact hr f.target result (hnew ▸ hresult)

theorem get?_eq_some (h : Level l l₁) {id : RequestId} {r₁ : Request ν}
    (hr₁ : l₁.requests.get? id = some r₁) :
    ∃ r, l.requests.get? id = some r ∧ r₁.sequel = r.sequel := by
  have hp := h.sequel id
  rw [hr₁] at hp
  obtain ⟨r, hr, heq⟩ := Option.map_eq_some_iff.mp hp.symm
  exact ⟨r, hr, heq.symm⟩

theorem discreet_requests (h : Level l l₁) (hr : l.requests.Discreet past past') :
    l₁.requests.Discreet past past' := by
  intro id r₁ hr₁
  obtain ⟨r, hr₀, heq⟩ := h.get?_eq_some hr₁
  simp only [Request.sequel, Prod.mk.injEq] at heq
  obtain ⟨hcallback, herrback, _⟩ := heq
  exact ⟨hcallback ▸ (hr id r hr₀).callback, herrback ▸ (hr id r hr₀).errback⟩

end Level
end Loader

namespace Matching

variable (μ : Matching ν)

/-- The same contexts, and the same requests deferred, in the same order. -/
structure SameBootstrap (b b' : Bootstrap) : Prop where
  deferred : Forall₂ μ.Pairs b.deferred b'.deferred
  rest : b' = { b with deferred := b'.deferred }

/-- Two loaders are the same to every discreet program, but for the places of requests. -/
structure Mirrors (l l' : Loader ν) : Prop extends μ.Same l l' where
  total : μ.Total l.requests l'.requests
  serial : l'.requests.serial = l.requests.serial
  unissued : ∀ n, l.requests.serial < n → μ.places n = none
  bootstrap : μ.SameBootstrap l.bootstrap l'.bootstrap
  dispatching : l'.dispatching = l.dispatching
  values : l'.values = l.values
  discreetRequests : l.requests.Discreet μ.past μ.past'
  discreetFetches : l.fetches.Discreet μ.past μ.past'
  discreetResources : DiscreetResources μ.past μ.past' l.resources

variable {μ} {l l' l₁ l₁' : Loader ν} {id id' : RequestId} {r : Request ν} {frame : Option Frame}

theorem SameBootstrap.context? {b b' : Bootstrap} (h : μ.SameBootstrap b b') :
    b'.context? = b.context? := by rw [h.rest]; rfl

namespace SameBootstrap

variable {b b' : Bootstrap}

theorem conclude (h : μ.SameBootstrap b b') :
    b'.conclude.1 = b.conclude.1 ∧ μ.SameBootstrap b.conclude.2 b'.conclude.2 := by
  obtain ⟨hd, hrest⟩ := h
  rw [hrest]
  unfold Bootstrap.conclude
  dsimp only
  split
  · exact ⟨rfl, hd, rfl⟩
  · exact ⟨rfl, hd, rfl⟩

theorem establish (h : μ.SameBootstrap b b') (ctx : Context) :
    (b'.establish ctx).1 = (b.establish ctx).1 ∧
      μ.SameBootstrap (b.establish ctx).2 (b'.establish ctx).2 :=
  conclude ⟨h.deferred, by rw [h.rest]⟩

theorem beginEstablishing (h : μ.SameBootstrap b b') (root : Context) :
    μ.SameBootstrap (b.beginEstablishing root) (b'.beginEstablishing root) :=
  ⟨h.deferred, by rw [h.rest]; rfl⟩

theorem finishEstablishing (h : μ.SameBootstrap b b') (ctx : Context) :
    (b'.finishEstablishing ctx).1 = (b.finishEstablishing ctx).1 ∧
      μ.SameBootstrap (b.finishEstablishing ctx).2 (b'.finishEstablishing ctx).2 :=
  conclude ⟨h.deferred, by rw [h.rest]⟩

theorem defer (h : μ.SameBootstrap b b') (hid : μ.Pairs id id') :
    μ.SameBootstrap (b.defer id) (b'.defer id') :=
  ⟨List.rel_append h.deferred (.cons hid .nil), by rw [h.rest]; rfl⟩

theorem forget (h : μ.SameBootstrap b b') (hid : μ.Pairs id id') :
    μ.SameBootstrap (b.forget id) (b'.forget id') :=
  ⟨List.rel_filter (fun i i' hi => by simp only [bne_iff_ne, ne_eq, hid.eq_iff hi]) h.deferred,
    by rw [h.rest]; rfl⟩

theorem drained (h : μ.SameBootstrap b b') :
    μ.SameBootstrap { b with deferred := [] } { b' with deferred := [] } :=
  ⟨.nil, by rw [h.rest]⟩

end SameBootstrap

namespace Mirrors

/-- What leaves the rest alone keeps two loaders mirroring each other if it keeps them the same. -/
theorem level (h : μ.Mirrors l l') (hs : μ.Same l₁ l₁') (hl : l.Level l₁) (hl' : l'.Level l₁') :
    μ.Mirrors l₁ l₁' :=
  { hs with
    total := by
      refine h.total.keep (fun hr => ?_) fun hr => ?_
      · obtain ⟨r, hr, _⟩ := hl.get?_eq_some hr
        exact ⟨r, hr⟩
      · obtain ⟨r, hr, _⟩ := hl'.get?_eq_some hr
        exact ⟨r, hr⟩
    serial := by rw [hl'.serial, hl.serial, h.serial]
    unissued := by rw [hl.serial]; exact h.unissued
    bootstrap := by rw [hl'.bootstrap, hl.bootstrap]; exact h.bootstrap
    dispatching := by rw [hl'.dispatching, hl.dispatching, h.dispatching]
    values := by rw [hl'.values, hl.values, h.values]
    discreetRequests := hl.discreet_requests h.discreetRequests
    discreetFetches := hl.discreet_fetches h.discreetFetches h.discreetResources
    discreetResources := by rw [hl.resources]; exact h.discreetResources }

theorem get? (h : μ.Mirrors l l') (hid : μ.Pairs id id') :
    l'.requests.get? id' = l.requests.get? id := h.requests hid (h.total.shown _)

theorem context? (h : μ.Mirrors l l') (frame : Option Frame) :
    l'.context? frame = l.context? frame := by
  unfold Loader.context?
  rw [h.bootstrap.context?]

/-- All that a discreet program sees of the two loaders is alike. -/
theorem view (h : μ.Mirrors l l') (frame : Option Frame) :
    View.Alike μ.past μ.past' (l.view frame) (l'.view frame) := by
  have hstatus : l'.status = l.status := by
    funext url
    simp only [Loader.status, h.modules.state]
  have hvalue : l'.value = l.value := by
    funext url
    simp only [Loader.value, h.modules.state]
  have hresolve : l'.resolve frame = l.resolve frame := by
    funext specifier
    unfold Loader.resolve
    rw [h.context?, h.resolver, h.bootstrap.rest]
  have hdefining : l'.isDefining frame = l.isDefining frame := by
    unfold Loader.isDefining
    rw [hstatus]
  have hsize : l'.registry.size = l.registry.size := by
    have hlength := congrArg List.length h.modules.outline
    simpa [Registry.outline, Registry.size] using hlength
  refine ⟨h.journal, ?_⟩
  simp only [Loader.view, hstatus, hvalue, hresolve, hdefining, hsize, h.resolver, h.fetches,
    h.total.size h.toSame, h.bootstrap.deferred.length_eq]
  rw [h.bootstrap.rest]

theorem record (h : μ.Mirrors l l') {event event' : Event ν}
    (he : event'.unplaced = event.unplaced) : μ.Mirrors (l.record event) (l'.record event') :=
  { h with toSame := h.toSame.record he }

theorem recordOf (h : μ.Mirrors l l') (hid : μ.Pairs id id') (event : RequestId → Event ν)
    (hevent : ∀ id, (event id).unplaced = event id.unplaced) :
    μ.Mirrors (l.record (event id)) (l'.record (event id')) :=
  h.record (by rw [hevent, hevent, hid.unplaced])

theorem enqueue (h : μ.Mirrors l l') {s s' : Step} (hs : μ.SameStep s s') :
    μ.Mirrors (l.enqueue s) (l'.enqueue s') :=
  { h with toSame := h.toSame.enqueue hs (h.total.shown _) }

theorem setDefaultBase (h : μ.Mirrors l l') (base : Url) :
    μ.Mirrors (l.setDefaultBase base) (l'.setDefaultBase base) :=
  { h with toSame := h.toSame.setDefaultBase base }

theorem readyModule (h : μ.Mirrors l l') (url : String) (v : ModuleValue) :
    μ.Mirrors (l.readyModule url v) (l'.readyModule url v) :=
  { h with toSame := h.toSame.readyModule url v }

theorem abandonModule (h : μ.Mirrors l l') (url : String) (e : LoadError) :
    μ.Mirrors (l.abandonModule url e) (l'.abandonModule url e) :=
  { h with toSame := h.toSame.abandonModule url e }

theorem load (h : μ.Mirrors l l') (t : Target) (role : LoadRole) :
    μ.Mirrors (l.load t role) (l'.load t role) :=
  h.level (h.toSame.load t role) ((Loader.Level.refl l).load t role)
    ((Loader.Level.refl l').load t role)

theorem link (h : μ.Mirrors l l') (hid : μ.Pairs id id') (ctx : Context) :
    μ.Mirrors (l.link id ctx) (l'.link id' ctx) :=
  h.level (h.toSame.link h.total hid ctx) (.link l id ctx) (.link l' id' ctx)

theorem linkAll {ids ids' : List RequestId} (hids : Forall₂ μ.Pairs ids ids') (ctx : Context) :
    ∀ {l l' : Loader ν}, μ.Mirrors l l' →
      μ.Mirrors (ids.foldl (fun l id => l.link id ctx) l)
        (ids'.foldl (fun l id => l.link id ctx) l') := by
  induction hids with
  | nil => exact fun h => h
  | cons hid _ ih => exact fun h => ih (h.link hid ctx)

theorem fill (h : μ.Mirrors l l') (hid : μ.Pairs id id') (slot : Nat) (v : ModuleValue) :
    μ.Mirrors { l with requests := l.requests.modify id (·.fill slot v) }
      { l' with requests := l'.requests.modify id' (·.fill slot v) } :=
  h.level (h.toSame.modify hid _)
    ((Loader.Level.refl l).modify id (Loader.Level.sequel_fill · slot v))
    ((Loader.Level.refl l').modify id' (Loader.Level.sequel_fill · slot v))

theorem withBootstrap (h : μ.Mirrors l l') {b b' : Bootstrap} (hb : μ.SameBootstrap b b') :
    μ.Mirrors { l with bootstrap := b } { l' with bootstrap := b' } :=
  { h with bootstrap := hb }

theorem make (h : μ.Mirrors l l') (payload : Payload) :
    (l'.make payload).1 = (l.make payload).1 ∧
      μ.Mirrors (l.make payload).2 (l'.make payload).2 :=
  ⟨by simp [Loader.make, h.values], { h with values := by simp [Loader.make, h.values] }⟩

theorem erase (h : μ.Mirrors l l') (hid : μ.Pairs id id') :
    μ.Mirrors { l with requests := l.requests.erase id }
      { l' with requests := l'.requests.erase id' } :=
  { h with
    toSame := h.toSame.erase hid
    total := h.total.keep (fun hr => ⟨_, Requests.get?_of_erase hr⟩)
      fun hr => ⟨_, Requests.get?_of_erase hr⟩
    serial := by simp [h.serial]
    unissued := by simpa using h.unissued
    discreetRequests := fun i r hr => h.discreetRequests i r (Requests.get?_of_erase hr) }

theorem withdraw (h : μ.Mirrors l l') (hid : μ.Pairs id id') (r : Request ν) :
    μ.Mirrors (l.withdraw id r) (l'.withdraw id' r) :=
  { h.erase hid with
    toSame := h.toSame.withdraw hid r
    bootstrap := h.bootstrap.forget hid }

/-! ## Contexts -/

theorem drainDeferred (h : μ.Mirrors l l') : μ.Mirrors l.drainDeferred l'.drainDeferred := by
  unfold Loader.drainDeferred
  rw [h.bootstrap.context?]
  split
  · exact h
  · exact linkAll h.bootstrap.deferred _ (h.withBootstrap h.bootstrap.drained)

theorem afterEstablishing (h : μ.Mirrors l l') {change change' : Bool × Bootstrap}
    (hdrained : change'.1 = change.1) (hb : μ.SameBootstrap change.2 change'.2) :
    (l'.afterEstablishing change').1 = (l.afterEstablishing change).1 ∧
      μ.Mirrors (l.afterEstablishing change).2 (l'.afterEstablishing change').2 := by
  refine ⟨hdrained, ?_⟩
  unfold Loader.afterEstablishing
  dsimp only
  rw [hdrained]
  split
  · exact (h.withBootstrap hb).drainDeferred
  · exact h.withBootstrap hb

theorem configure (h : μ.Mirrors l l') (base : String) :
    (l'.configure base).1 = (l.configure base).1 ∧
      μ.Mirrors (l.configure base).2 (l'.configure base).2 := by
  unfold Loader.configure
  cases Url.asDirectory base with
  | error e => exact ⟨rfl, h⟩
  | ok url =>
    dsimp only
    cases Context.ofUrl url with
    | error e => exact ⟨rfl, h⟩
    | ok ctx =>
      obtain ⟨hdrained, hb⟩ := h.bootstrap.establish ctx
      obtain ⟨hresult, hl⟩ := (h.setDefaultBase url).afterEstablishing hdrained hb
      exact ⟨congrArg Except.ok hresult, hl⟩

theorem boot (h : μ.Mirrors l l') (entry : String) (main : Option String) :
    (l'.boot entry main).1 = (l.boot entry main).1 ∧
      μ.Mirrors (l.boot entry main).2 (l'.boot entry main).2 := by
  unfold Loader.boot
  cases Context.parse entry with
  | error e => exact ⟨rfl, h⟩
  | ok ctx =>
    have hbase := h.setDefaultBase ctx.base
    cases main with
    | none =>
      obtain ⟨hdrained, hb⟩ := h.bootstrap.establish ctx
      obtain ⟨hresult, hl⟩ := hbase.afterEstablishing hdrained hb
      exact ⟨congrArg Except.ok hresult, hl⟩
    | some main =>
      dsimp only
      rw [hbase.resolver]
      cases (l.setDefaultBase ctx.base).resolver.resolve main ctx with
      | error e => exact ⟨rfl, hbase⟩
      | ok t =>
        dsimp only
        cases t.url.directory with
        | error e => exact ⟨rfl, hbase⟩
        | ok directory =>
          dsimp only
          cases Context.ofUrl directory with
          | error e => exact ⟨rfl, hbase.setDefaultBase directory⟩
          | ok root =>
            exact ⟨rfl, ((hbase.setDefaultBase directory).withBootstrap
              (h.bootstrap.beginEstablishing root)).load t .main⟩

theorem finishMain (h : μ.Mirrors l l') (t : Target) :
    μ.Mirrors (l.finishMain t) (l'.finishMain t) := by
  have hfinish : ∀ ctx, μ.Mirrors
      (l.afterEstablishing (l.bootstrap.finishEstablishing ctx)).2
      (l'.afterEstablishing (l'.bootstrap.finishEstablishing ctx)).2 := by
    intro ctx
    obtain ⟨hdrained, hb⟩ := h.bootstrap.finishEstablishing ctx
    exact (h.afterEstablishing hdrained hb).2
  have hroot : l'.bootstrap.root = l.bootstrap.root := by rw [h.bootstrap.rest]
  unfold Loader.finishMain
  rw [hroot]
  dsimp only
  split
  · exact hfinish _
  · exact h

end Mirrors

/-! ## New requests -/

/-- From now on, two more requests are the same. -/
def add (μ : Matching ν) (id id' : RequestId) : Matching ν :=
  { μ with places := Function.update μ.places id.serial (some (id.key, id'.key)) }

theorem places_add_of_ne {n : Nat} (hn : n ≠ id.serial) :
    (μ.add id id').places n = μ.places n := Function.update_of_ne hn _ _

section Add

variable (hnew : μ.places id.serial = none)
include hnew

theorem Pairs.add {i i' : RequestId} (h : μ.Pairs i i') : (μ.add id id').Pairs i i' := by
  refine ⟨h.1, ?_⟩
  rw [places_add_of_ne, h.2]
  rintro heq
  rw [← heq, h.2] at hnew
  cases hnew

theorem SameModules.add {g g' : Registry} (h : μ.SameModules g g') :
    (μ.add id id').SameModules g g' where
  outline := h.outline
  state := h.state
  waiters url := (h.waiters url).imp fun _ _ hw => ⟨hw.1.add hnew, hw.2⟩
  definition url := by
    have hd := h.definition url
    generalize g.definition? url = d at hd
    generalize g'.definition? url = d' at hd
    cases hd with
    | none => exact .none
    | some hid => exact .some (hid.add hnew)

theorem SameStep.add {s s' : Step} (h : μ.SameStep s s') : (μ.add id id').SameStep s s' := by
  cases h with
  | fill hid slot v => exact .fill (hid.add hnew) slot v
  | fire hid => exact .fire (hid.add hnew)
  | fail hid e => exact .fail (hid.add hnew) e

theorem SameBootstrap.add {b b' : Bootstrap} (h : μ.SameBootstrap b b') :
    (μ.add id id').SameBootstrap b b' :=
  ⟨h.deferred.imp fun _ _ hid => hid.add hnew, h.rest⟩

end Add

theorem pairs_add_self (hserial : id'.serial = id.serial) : (μ.add id id').Pairs id id' :=
  ⟨hserial, Function.update_self _ _ _⟩

theorem of_pairs_add {i i' : RequestId} (hserial : id'.serial = id.serial)
    (h : (μ.add id id').Pairs i i') : i = id ∧ i' = id' ∨ μ.Pairs i i' := by
  by_cases hi : i.serial = id.serial
  · exact .inl ((pairs_add_self hserial).unique h hi)
  · exact .inr ⟨h.1, (places_add_of_ne hi).symm.trans h.2⟩

namespace Mirrors

theorem serial_fst_enter (h : μ.Mirrors l l') (r : Request ν) :
    (l'.enter r).1.serial = (l.enter r).1.serial := by
  simp [Loader.enter, Requests.fst_insert, h.serial]

theorem places_enter (h : μ.Mirrors l l') (r : Request ν) :
    μ.places (l.enter r).1.serial = none :=
  h.unissued _ (by simp [Loader.enter, Requests.fst_insert])

/-- The same request is made on both loaders. -/
theorem enter (h : μ.Mirrors l l') (hr : r.Discreet μ.past μ.past') :
    (μ.add (l.enter r).1 (l'.enter r).1).Mirrors (l.enter r).2 (l'.enter r).2 := by
  have hserial := h.serial_fst_enter r
  have hnew := h.places_enter r
  have hself : (μ.add (l.enter r).1 (l'.enter r).1).Pairs (l.enter r).1 (l'.enter r).1 :=
    pairs_add_self hserial
  exact {
    resolver := h.resolver
    resources := h.resources
    fetches := h.fetches
    modules := by
      cases hd : r.definitionUrl with
      | none =>
        rw [Owned.registry_enter_none hd, Owned.registry_enter_none hd]
        exact h.modules.add hnew
      | some url =>
        rw [Owned.registry_enter_some hd, Owned.registry_enter_some hd]
        exact (h.modules.add hnew).setDefinition url (.some hself)
    requests := by
      intro i i' hi hshown
      rw [Loader.get?_enter, Loader.get?_enter]
      rcases of_pairs_add hserial hi with ⟨rfl, rfl⟩ | hold
      · rw [if_pos rfl, if_pos rfl]
      · have hne : i ≠ (l.enter r).1 := by
          rintro rfl
          rw [hold.2] at hnew
          cases hnew
        have hne' : i' ≠ (l'.enter r).1 := fun heq => hne ((hself.eq_iff hi).mpr heq)
        rw [if_neg hne, if_neg hne', h.requests hold hshown]
    worklist := h.worklist.imp fun _ _ hs => hs.add hnew
    journal := h.journal.cons (congrArg (Event.submitted · _ _) hself.unplaced)
    total := {
      shown := h.total.shown
      left := by
        intro i q hq
        rcases Requests.get?_insert_eq_some hq with ⟨rfl, _⟩ | hold
        · exact ⟨_, hself⟩
        · obtain ⟨i', hi⟩ := h.total.left hold
          exact ⟨i', hi.add hnew⟩
      right := by
        intro i' q hq
        rcases Requests.get?_insert_eq_some hq with ⟨rfl, _⟩ | hold
        · exact ⟨_, hself⟩
        · obtain ⟨i, hi⟩ := h.total.right hold
          exact ⟨i, hi.add hnew⟩ }
    serial := by simp [Loader.enter, Loader.record, h.serial]
    unissued := by
      intro n hn
      have hlt : l.requests.serial + 1 < n := hn
      rw [places_add_of_ne (by simp [Loader.enter, Requests.fst_insert]; omega)]
      exact h.unissued n (by omega)
    bootstrap := h.bootstrap.add hnew
    dispatching := h.dispatching
    values := h.values
    discreetRequests := by
      intro i q hq
      rcases Requests.get?_insert_eq_some hq with ⟨_, rfl⟩ | hold
      · exact hr
      · exact h.discreetRequests i q hold
    discreetFetches := h.discreetFetches
    discreetResources := h.discreetResources }

theorem begin (h : μ.Mirrors l l') (hid : μ.Pairs id id') (r : Request ν) :
    μ.Mirrors (l.begin id r) (l'.begin id' r) := by
  unfold Loader.begin
  split
  · exact h.enqueue (.fire hid)
  · split
    · exact h.link hid _
    · exact h.withBootstrap (h.bootstrap.defer hid)

theorem submit (h : μ.Mirrors l l') (frame : Option Frame) (dependencies : List String)
    {callback : List ModuleValue → Script ν} {errback : Option (LoadError → Script ν)}
    (definitionUrl : Option String)
    (hcallback : ∀ values, (callback values).Discreet μ.past μ.past')
    (herrback : ∀ handler, errback = some handler → ∀ e, (handler e).Discreet μ.past μ.past') :
    ∃ id id', μ.places id.serial = none ∧
      (μ.add id id').Mirrors (l.submit frame dependencies callback errback definitionUrl)
        (l'.submit frame dependencies callback errback definitionUrl) := by
  unfold Loader.submit
  rw [h.context?]
  exact ⟨_, _, h.places_enter _,
    (h.enter ⟨hcallback, herrback⟩).begin (pairs_add_self (h.serial_fst_enter _)) _⟩

end Mirrors
end Matching
end AsyncModule
