import AsyncModule.ConfigFile
import AsyncModule.Proofs.Answering
import AsyncModule.Proofs.Foretold

/-!
# AsyncModule.Proofs.Answers

What the command that loads specifiers answers. Each of them is answered once, and is told what came
of the module that it names; this was loaded for the first specifier to name it. So what is told to
a specifier is what the first one that names the same would be told if it were the only one.

* `Ended.answer`      — every specifier is answered, and how.
* `fetch_any_order`   — the command prints the same in whatever order fetches finish.
* `fetch_accounts`    — the whole statement, with what the command prints.
* `second_kind_loses` — the specifier that comes first may decide what a later one is told.
-/

namespace AsyncModule

namespace Command

variable {config : Config} {workingDirectory : Url} {files : FileTree} {specifiers : List String}
  {network : Network} {order : Machine.Order Answer} {l : Loader Answer}

/-! ## The start of the command -/

/-- The settings that the command loads by; without a base it is the working directory. -/
def loadingConfig (config : Config) (workingDirectory : Url) : Config :=
  match config.baseUrl with
  | some _ => config
  | none => config.withBaseUrl workingDirectory.toString

/-- The loader that specifiers are to be asked of. -/
def starting (config : Config) (workingDirectory : Url) (files : FileTree) (network : Network) :
    Except LoadError (Loader Answer) :=
  Loader.ofConfig (loadingConfig config workingDirectory) fun t =>
    some ((⟨[], files⟩ : LocalResources Answer).load t network)

theorem exists_base (config : Config) (workingDirectory : Url) :
    ∃ base, (loadingConfig config workingDirectory).baseUrl = some base := by
  unfold loadingConfig
  cases hbase : config.baseUrl with
  | some base => exact ⟨base, hbase⟩
  | none => exact ⟨_, rfl⟩

theorem main_loadingConfig (config : Config) (workingDirectory : Url) :
    (loadingConfig config workingDirectory).main = config.main := by
  unfold loadingConfig
  cases config.baseUrl <;> rfl

theorem fetchAll_eq (config : Config) (workingDirectory : Url) (files : FileTree)
    (specifiers : List String) (network : Network) (order : Machine.Order Answer) :
    fetchAll config workingDirectory files specifiers network order =
      (starting config workingDirectory files network).map fun l =>
        (Machine.runIn order (stepsPerSpecifier * (specifiers.length + 2))
          (.start l (askAll specifiers))).loader := by
  unfold fetchAll starting loadingConfig
  cases config.baseUrl <;> rfl

namespace Inquiry

open Machine

variable {q : Inquiry} {m : Machine Answer}

/-- Nothing has been asked for yet, save perhaps a main resource. -/
theorem fares_of_new {l : Loader Answer} (hresolver : l.resolver = q.resolver)
    (hresources : l.resources = fun t => some (q.fetched t)) (hregistry : l.registry = .empty)
    (hrequests : l.requests = .empty)
    (hj : l.journal = [] ∧ l.fetches = .empty ∨ ∃ t, l.journal = [.load t .main] ∧
      l.fetches = .start .empty t .main (some (q.fetched t))) : q.Fares [] l := by
  have hno : ∀ id, l.requests.get? id = none := by
    rw [hrequests]
    exact fun _ => rfl
  have hnone : submissions l.journal = [] ∧ notes l.journal = [] ∧ linkings l.journal = [] ∧
      moduleTargets (loads l.journal) = [] := by
    rcases hj with ⟨hj, _⟩ | ⟨t, hj, _⟩
    · rw [hj]
      exact ⟨rfl, rfl, rfl, rfl⟩
    · rw [hj]
      exact ⟨rfl, rfl, rfl, rfl⟩
  obtain ⟨hsubmissions, hnotes, hlinkings, hloads⟩ := hnone
  refine ⟨hresolver, hresources, ⟨?_, ?_, ?_, ?_⟩, ⟨?_, ?_, ?_⟩, ⟨?_, ?_, ?_⟩⟩
  · rw [hsubmissions, hrequests]
    rfl
  · intro id r hr
    rw [hno] at hr
    cases hr
  · rw [hsubmissions]
    exact fun _ hid => absurd hid List.not_mem_nil
  · rw [hnotes]
    exact fun _ ha => absurd ha List.not_mem_nil
  · rw [hlinkings, hsubmissions]
    rfl
  · intro id resolver ctx hmem
    rcases hj with ⟨hj, _⟩ | ⟨t, hj, _⟩
    · rw [hj] at hmem
      cases hmem
    · rw [hj, List.mem_singleton] at hmem
      cases hmem
  · rw [hloads, hlinkings]
    rfl
  · intro url s hs
    rw [hregistry] at hs
    cases hs
  · intro f hf
    rcases hj with ⟨_, hfetches⟩ | ⟨t, _, hfetches⟩
    · rw [hfetches] at hf
      cases hf
    · rw [hfetches] at hf ⊢
      rw [List.mem_singleton.mp hf]
      exact ⟨rfl, List.mem_cons_self⟩
  · rw [hnotes]
    exact fun _ ha => absurd ha List.not_mem_nil

end Inquiry

/-- Where a loader with settings starts from: a default base with its context. Without a main
resource it is the base of the settings. -/
structure Ground (config : Config) (directory : Url) (ctx : Context) : Prop where
  context : Context.ofUrl directory = .ok ctx
  base : ∀ base, config.baseUrl = some base → config.main = none →
    Url.asDirectory base = .ok directory

theorem begun_ofConfig {config : Config} {base : String} (hbase : config.baseUrl = some base)
    (hl : Loader.ofConfig config
      (fun t => some ((⟨[], files⟩ : LocalResources Answer).load t network)) = .ok l) :
    ∃ directory ctx, Ground config directory ctx ∧ l.requests.serial = 0 ∧
      ∀ specifiers, Inquiry.Begun ⟨⟨some directory, config⟩, ctx, files, network, specifiers⟩ l := by
  rcases Loader.ofConfig_eq_ok hl with ⟨hnone, _⟩ | ⟨base', _, hbase', hmain, hconfigure⟩ |
    ⟨base', main, entry, _, hbase', hmain, hentry, hboot⟩
  · rw [hbase] at hnone
    cases hnone
  · obtain ⟨url, ctx, hurl, hctx, rfl⟩ := Loader.configure_eq_ok hconfigure
    refine ⟨url, ctx, ⟨hctx, fun base hbase _ => ?_⟩, rfl, fun specifiers => .opened ?_ rfl⟩
    · cases hbase.symm.trans hbase'
      exact hurl
    · exact {
        fares := Inquiry.fares_of_new rfl rfl rfl rfl (.inl ⟨rfl, rfl⟩)
        context := rfl
        deferred := rfl
        mains := rfl
        worklist := rfl
        idle := rfl }
  · obtain ⟨t, directory, root, hdirectory, hroot, ht, rfl⟩ := Loader.boot_main_loads hboot
    refine ⟨directory, root, ⟨hroot, fun _ _ hnone => ?_⟩, rfl, fun specifiers => .awaiting t ?_⟩
    · rw [hmain] at hnone
      cases hnone
    · exact {
        fares := Inquiry.fares_of_new rfl rfl rfl rfl (.inr ⟨t, rfl, rfl⟩)
        context := ht
        resolving := rfl
        mains := rfl
        deferred := rfl
        fetching := ⟨_, rfl, rfl, rfl⟩
        worklist := rfl
        idle := rfl }

/-! ## What is told -/

theorem answer?_eq (j : List (Event Answer)) (index : Nat) :
    answer? j index = ((notes j).find? (·.index == index)).map Answer.result := by
  induction j with
  | nil => rfl
  | cons e j ih =>
    unfold answer? at ih ⊢
    rw [List.findSome?_cons]
    cases e with
    | note a =>
      have hnotes : notes (.note a :: j) = a :: notes j := rfl
      rw [hnotes, List.find?_cons]
      dsimp only
      cases a.index == index with
      | true => rfl
      | false => exact ih
    | _ => exact ih

namespace Inquiry

variable {q : Inquiry} {m : Machine Answer}

/-- The targets that specifiers name, in their order. -/
def targets (q : Inquiry) : List Target := q.specifiers.filterMap fun s => (q.name s).toOption

theorem mem_keys_firsts {ts : List Target} {url : String} :
    url ∈ (firsts ts).map Target.key ↔ url ∈ ts.map Target.key := by
  induction ts using List.reverseRecOn with
  | nil => exact .rfl
  | append_singleton ts t ih =>
    rw [firsts_concat]
    split
    · rename_i hold
      rw [List.map_append, List.mem_append, ih]
      refine ⟨.inl, fun h => h.elim id fun hlast => ?_⟩
      rw [List.map_singleton, List.mem_singleton] at hlast
      subst hlast
      exact ih.mp hold
    · rw [List.map_append, List.map_append, List.mem_append, List.mem_append, ih]

theorem mem_firsts {ts : List Target} {t : Target} (h : t ∈ firsts ts) :
    ts.find? (·.key == t.key) = some t := by
  induction ts using List.reverseRecOn with
  | nil => cases h
  | append_singleton ts t' ih =>
    rw [firsts_concat] at h
    rw [List.find?_append]
    split at h
    · rw [ih h]
      rfl
    · rename_i hnew
      rcases List.mem_append.mp h with hold | hlast
      · rw [ih hold]
        rfl
      · cases List.mem_singleton.mp hlast
        have hnone : ts.find? (·.key == t.key) = none := by
          refine List.find?_eq_none.mpr fun t' ht' heq => hnew (mem_keys_firsts.mpr ?_)
          exact List.mem_map.mpr ⟨t', ht', by simpa using heq⟩
        rw [hnone]
        simp

/-- What is told to a specifier: that it names nothing, or what came of the module that it names,
which was loaded for a target. -/
inductive Tells (q : Inquiry) : Except LoadError Target → Except LoadError ModuleValue → Prop where
  | unnamed (e : LoadError) : Tells q (.error e) (.error e)
  | read {t : Target} {f : Fragment} {v : ModuleValue} (hf : q.fetched t = .markup f none)
      (hv : v.payload = .fragment f) : Tells q (.ok t) (.ok v)
  | failed {t : Target} {source : LoadError} (hf : q.fetched t = .failed source) :
      Tells q (.ok t) (.error (.dependency t.key source))

theorem Tells.unique {named : Except LoadError Target}
    {result result' : Except LoadError ModuleValue} (h : q.Tells named result)
    (h' : q.Tells named result') :
    result.map ModuleValue.payload = result'.map ModuleValue.payload := by
  cases h with
  | unnamed e =>
    cases h'
    rfl
  | read hf hv =>
    cases h' with
    | read hf' hv' =>
      cases hf.symm.trans hf'
      rw [Except.map, Except.map, hv, hv']
    | failed hf' => cases hf.symm.trans hf'
  | failed hf =>
    cases h' with
    | read hf' _ => cases hf.symm.trans hf'
    | failed hf' =>
      cases hf.symm.trans hf'
      rfl

/-- Resolving has no part in what is fetched. -/
theorem Tells.congr {q' : Inquiry} {named : Except LoadError Target}
    {result : Except LoadError ModuleValue} (h : q.Tells named result)
    (hfiles : q'.files = q.files) (hnetwork : q'.network = q.network) : q'.Tells named result := by
  have hfetched : q'.fetched = q.fetched := by
    unfold fetched
    rw [hfiles, hnetwork]
  cases h with
  | unnamed e => exact .unnamed e
  | read hf hv => exact .read (hfetched ▸ hf) hv
  | failed hf => exact .failed (hfetched ▸ hf)

/-- The target that the module of a specifier is loaded for: of those with its canonical URL the one
that is named first. -/
def loadedFor (q : Inquiry) (s : String) : Except LoadError Target :=
  (q.name s).map fun t => (q.targets.find? (·.key == t.key)).getD t

/-! ## At the end -/

variable {i : Nat} {s : String}

theorem Ended.atRest (h : Ended q m) : m.AtRest := by
  refine ⟨h.opened.idle, ?_⟩
  rw [h.stack]
  exact fun _ htask => absurd htask List.not_mem_nil

/-- Every request is done with. -/
theorem Ended.get?_eq_none (h : Ended q m) (hreach : m.Reachable) (id : RequestId) :
    m.loader.requests.get? id = none := by
  cases hr : m.loader.requests.get? id with
  | none => rfl
  | some r =>
    have hwaits := mem_deferred_of_rest hreach h.atRest h.inFlight hr
    rw [h.opened.deferred] at hwaits
    cases hwaits

theorem filterMap_range'_getElem? {α β : Type} (f : α → Option β) (xs : List α) :
    (List.range' 1 xs.length).filterMap (fun k => xs[k - 1]?.bind f) = xs.filterMap f := by
  have hself : (List.range' 1 xs.length).map (fun k => xs[k - 1]?) = xs.map some := by
    refine List.ext_getElem (by simp) fun i hi hi' => ?_
    simp
  calc (List.range' 1 xs.length).filterMap (fun k => xs[k - 1]?.bind f)
      = ((List.range' 1 xs.length).map fun k => xs[k - 1]?).filterMap (·.bind f) :=
        by rw [List.filterMap_map]; rfl
    _ = (xs.map some).filterMap (·.bind f) := by rw [hself]
    _ = xs.filterMap f := List.filterMap_map

/-- The module of each canonical URL has been loaded for the first specifier to name it. -/
theorem Ended.loaded (h : Ended q m) :
    (moduleTargets (loads m.loader.journal)).reverse = firsts q.targets := by
  obtain ⟨horder, _, hloads⟩ := h.opened.fares.ordered
  have hserials := h.opened.fares.made.serials
  rw [List.append_nil] at horder
  rw [hloads, horder]
  have htargets : (submissions m.loader.journal).reverse.filterMap q.target? =
      ((submissions m.loader.journal).reverse.map RequestId.serial).filterMap fun k =>
        q.specifiers[k - 1]?.bind fun s => (q.name s).toOption := by
    rw [List.filterMap_map]
    rfl
  rw [htargets, hserials, h.serial, filterMap_range'_getElem?]
  rfl

/-- Every specifier is answered once. -/
theorem Ended.count_eq_one (h : Ended q m) (hreach : m.Reachable) (hi : i < q.specifiers.length) :
    (notes m.loader.journal).countP (·.index = i) = 1 := by
  have hmade := h.opened.fares.made
  obtain ⟨id, hid, hserial⟩ := hmade.exists_serial (h.serial ▸ hi)
  have hnoted := hmade.noted id hid
  rw [h.get?_eq_none hreach, hserial] at hnoted
  simpa using hnoted

theorem Ended.tells (h : Ended q m) (hs : q.specifiers[i]? = some s)
    {result : Except LoadError ModuleValue} (hresult : ⟨i, result⟩ ∈ notes m.loader.journal) :
    q.Tells (q.loadedFor s) result := by
  obtain ⟨s', hs', hcomes⟩ := h.opened.fares.stocked.notes _ hresult
  cases hs.symm.trans hs'
  have hfirst : ∀ {t first : Target}, q.name s = .ok t →
      first ∈ moduleTargets (loads m.loader.journal) → first.key = t.key →
      q.loadedFor s = .ok first := by
    intro t first ht hmem hkey
    have hfound := mem_firsts (h.loaded ▸ List.mem_reverse.mpr hmem)
    rw [loadedFor, ht, Except.map, ← hkey, hfound]
    rfl
  cases result with
  | ok v =>
    obtain ⟨t, ht, hstate⟩ := hcomes
    obtain ⟨first, hmem, hkey, hfetched⟩ := h.opened.fares.stocked.modules hstate
    obtain ⟨f, hf, hv⟩ := hfetched
    rw [hfirst ht hmem hkey]
    exact .read hf hv
  | error e =>
    rcases hcomes with hunnamed | ⟨t, source, ht, hstate, rfl⟩
    · have hunnamed : q.name s = .error e := hunnamed
      rw [loadedFor, hunnamed]
      exact .unnamed e
    · obtain ⟨first, hmem, hkey, hfetched⟩ := h.opened.fares.stocked.modules hstate
      rw [hfirst ht hmem hkey, ← hkey]
      exact .failed hfetched

/-- Every specifier is answered, by what comes of the module that it names. -/
theorem Ended.answer (h : Ended q m) (hreach : m.Reachable) (hs : q.specifiers[i]? = some s) :
    ∃ result, answer? m.loader.journal i = some result ∧ q.Tells (q.loadedFor s) result := by
  obtain ⟨hi, _⟩ := List.getElem?_eq_some_iff.mp hs
  obtain ⟨a, ha, hindex⟩ := List.countP_pos_iff.mp (h.count_eq_one hreach hi ▸ Nat.one_pos)
  have hindex : (a.index == i) = true := by simpa using hindex
  have hsome : ((notes m.loader.journal).find? (·.index == i)).isSome :=
    List.find?_isSome.mpr ⟨a, ha, hindex⟩
  obtain ⟨a', hfound⟩ := Option.isSome_iff_exists.mp hsome
  have hindex' : a'.index = i := by simpa using List.find?_some hfound
  subst hindex'
  exact ⟨a'.result, by rw [answer?_eq, hfound]; rfl,
    h.tells hs (List.mem_of_find?_eq_some hfound)⟩

theorem Ended.resolve (h : Ended q m) (s : String) : m.loader.resolve none s = q.name s := by
  unfold Loader.resolve Loader.context?
  rw [Option.bind_none, h.opened.context, h.opened.fares.resolver]
  rfl

end Inquiry

/-! ## What specifiers have to do with one another -/

section Names

variable {q : Inquiry}

/-- What the module of a specifier is loaded for is what the first specifier names that names the
same. -/
theorem Inquiry.loadedFor_eq {s first : String} {j : Nat} (hj : q.specifiers[j]? = some first)
    (hsame : (q.name first).map Target.key = (q.name s).map Target.key)
    (hearlier : ∀ k earlier, k < j → q.specifiers[k]? = some earlier →
      (q.name earlier).map Target.key ≠ (q.name s).map Target.key) :
    q.loadedFor s = q.name first := by
  unfold loadedFor
  cases hs : q.name s with
  | error e =>
    rw [hs] at hsame
    cases hfirst : q.name first with
    | error e' =>
      rw [hfirst] at hsame
      cases hsame
      rfl
    | ok t =>
      rw [hfirst] at hsame
      cases hsame
  | ok t =>
    rw [hs] at hsame hearlier
    cases hfirst : q.name first with
    | error e =>
      rw [hfirst] at hsame
      cases hsame
    | ok t' =>
      rw [hfirst] at hsame
      have hkey : t'.key = t.key := Except.ok.inj hsame
      have hfound : q.specifiers.find? (fun s => (q.name s).toOption.any (·.key == t.key)) =
          some first := by
        obtain ⟨hlt, hget⟩ := List.getElem?_eq_some_iff.mp hj
        refine List.find?_eq_some_iff_getElem.mpr ⟨?_, j, hlt, hget, fun k hk => ?_⟩
        · simp [hfirst, Except.toOption, hkey]
        · have hne := hearlier k _ hk (List.getElem?_eq_getElem (hk.trans hlt))
          cases hname : q.name q.specifiers[k] with
          | error e => rfl
          | ok t₁ =>
            rw [hname] at hne
            have hkeys : t₁.key ≠ t.key := fun heq => hne (congrArg Except.ok heq)
            simpa [hname, Except.toOption] using hkeys
      have htarget : q.targets.find? (·.key == t.key) = some t' := by
        rw [targets, List.find?_filterMap, hfound]
        simp [hfirst, Except.toOption]
      rw [Except.map, htarget]
      rfl

/-- Of the specifiers that name the same there is a first. -/
theorem exists_first {specifiers : List String} {i : Nat} {s : String}
    (hs : specifiers[i]? = some s) {α : Type} (f : String → α) :
    ∃ j first, specifiers[j]? = some first ∧ j ≤ i ∧ f first = f s ∧
      ∀ k earlier, k < j → specifiers[k]? = some earlier → f earlier ≠ f s := by
  classical
  have hexists : ∃ j first, specifiers[j]? = some first ∧ f first = f s := ⟨i, s, hs, rfl⟩
  obtain ⟨first, hfirst, hsame⟩ := Nat.find_spec hexists
  refine ⟨Nat.find hexists, first, hfirst, Nat.find_min' hexists ⟨s, hs, rfl⟩, hsame, ?_⟩
  exact fun k earlier hk hearlier heq => Nat.find_min hexists hk ⟨earlier, hearlier, heq⟩

end Names

theorem Inquiry.exists_loadedFor {q : Inquiry} {i : Nat} {s : String}
    (hs : q.specifiers[i]? = some s) : ∃ j first, q.specifiers[j]? = some first ∧ j ≤ i ∧
      (q.name first).map Target.key = (q.name s).map Target.key ∧
      (∀ k earlier, k < j → q.specifiers[k]? = some earlier →
        (q.name earlier).map Target.key ≠ (q.name s).map Target.key) ∧
      q.loadedFor s = q.name first := by
  obtain ⟨j, first, hj, hle, hsame, hearlier⟩ :=
    exists_first hs fun s => (q.name s).map Target.key
  exact ⟨j, first, hj, hle, hsame, hearlier, loadedFor_eq hj hsame hearlier⟩

/-- The loader has ended a command that loads specifiers. -/
def Ends (q : Inquiry) (l : Loader Answer) : Prop :=
  ∃ m : Machine Answer, m.Reachable ∧ Inquiry.Ended q m ∧ m.loader = l

/-- If the command can start it comes to its end, whatever it is to load and in whatever order
fetches finish. -/
theorem ends_of_fetchAll
    (h : fetchAll config workingDirectory files specifiers network order = .ok l) :
    ∃ directory ctx, Ground (loadingConfig config workingDirectory) directory ctx ∧
      Ends ⟨⟨some directory, loadingConfig config workingDirectory⟩, ctx, files, network,
        specifiers⟩ l ∧
      ∀ others order', ∃ l',
        fetchAll config workingDirectory files others network order' = .ok l' ∧
        Ends ⟨⟨some directory, loadingConfig config workingDirectory⟩, ctx, files, network,
          others⟩ l' := by
  cases hl₀ : starting config workingDirectory files network with
  | error e =>
    rw [fetchAll_eq, hl₀] at h
    cases h
  | ok l₀ =>
    obtain ⟨base, hbase⟩ := exists_base config workingDirectory
    obtain ⟨directory, ctx, hground, hserial, hbegun⟩ := begun_ofConfig hbase hl₀
    have hends : ∀ others order', ∃ l',
        fetchAll config workingDirectory files others network order' = .ok l' ∧
        Ends ⟨⟨some directory, loadingConfig config workingDirectory⟩, ctx, files, network,
          others⟩ l' := by
      intro others order'
      have hreach : Machine.Reachable (.start l₀ (askAll others)) :=
        ⟨_, ⟨_, _, l₀, _, .inr hl₀, rfl⟩, .refl⟩
      refine ⟨_, ?_, _, hreach.runIn order' _, (hbegun others).runIn order' hreach hserial, rfl⟩
      rw [fetchAll_eq, hl₀]
      rfl
    refine ⟨directory, ctx, hground, ?_, hends⟩
    obtain ⟨l', hl', hends'⟩ := hends specifiers order
    cases h.symm.trans hl'
    exact hends'

/-! ## What is printed -/

/-- The lines for the specifiers that have been loaded. -/
def successes (l : Loader Answer) (specifiers : List String) : List String :=
  specifiers.zipIdx.filterMap fun (_, i) =>
    match answer? l.journal i with
    | some (.ok v) => some (valueLine v)
    | _ => none

/-- The reports for those that have not. -/
def failures (l : Loader Answer) (specifiers : List String) : List String :=
  specifiers.zipIdx.filterMap fun (s, i) =>
    match answer? l.journal i with
    | some (.error e) => some (s ++ ": " ++ e.message)
    | _ => none

/-- What comes of a specifier, but for the number of its value. -/
def outcome (l : Loader Answer) (index : Nat) : Option (Except LoadError Payload) :=
  (answer? l.journal index).map (·.map ModuleValue.payload)

theorem length_filterMap_add {α β γ : Type} {f : α → Option β} {g : α → Option γ} {xs : List α}
    (h : ∀ x ∈ xs, (f x).isSome = (g x).isNone) :
    (xs.filterMap f).length + (xs.filterMap g).length = xs.length := by
  rw [List.length_filterMap_eq_countP, List.length_filterMap_eq_countP,
    List.length_eq_countP_add_countP fun x => (f x).isSome]
  refine congrArg _ (List.countP_congr fun x hx => ?_)
  rw [h x hx]
  cases g x <;> simp

theorem length_successes_add_failures
    (h : ∀ p ∈ specifiers.zipIdx, answer? l.journal p.2 ≠ none) :
    (successes l specifiers).length + (failures l specifiers).length = specifiers.length := by
  unfold successes failures
  rw [length_filterMap_add, List.length_zipIdx]
  intro p hp
  cases hanswer : answer? l.journal p.2 with
  | none => exact absurd hanswer (h p hp)
  | some result => cases result <;> simp only [hanswer] <;> rfl

theorem ofResults_eq {verdict : String} {results : List (Except String String)}
    {lines errors : List String}
    (hlines : (results.filterMap fun
      | .ok line => some line
      | .error _ => none) = lines)
    (herrors : (results.filterMap fun
      | .ok _ => none
      | .error reason => some ("error: " ++ reason)) = errors) :
    Output.ofResults verdict results =
      if errors.isEmpty then { lines }
      else
        { lines
          errors := errors ++
            ["Error: " ++ toString errors.length ++ " of " ++ toString results.length ++ verdict]
          exitCode := 1 } := by
  subst hlines herrors
  rfl

/-- What the command has to say of a specifier. -/
def said (l : Loader Answer) (p : String × Nat) : Except String String :=
  match answer? l.journal p.2 with
  | some (.ok v) => .ok (valueLine v)
  | some (.error e) => .error (p.1 ++ ": " ++ e.message)
  | none => .error (p.1 ++ ": request never completed")

theorem lines_eq (l : Loader Answer) (specifiers : List String) :
    ((specifiers.zipIdx.map (said l)).filterMap fun
      | .ok line => some line
      | .error _ => none) = successes l specifiers := by
  rw [List.filterMap_map]
  refine List.filterMap_congr fun p _ => ?_
  dsimp only [Function.comp, said]
  rcases answer? l.journal p.2 with _ | _ | _ <;> rfl

theorem errors_eq (hall : ∀ p ∈ specifiers.zipIdx, answer? l.journal p.2 ≠ none) :
    ((specifiers.zipIdx.map (said l)).filterMap fun
      | .ok _ => none
      | .error reason => some ("error: " ++ reason)) =
        (failures l specifiers).map ("error: " ++ ·) := by
  rw [List.filterMap_map, failures, List.map_filterMap]
  refine List.filterMap_congr fun p hp => ?_
  dsimp only [Function.comp, said]
  cases hanswer : answer? l.journal p.2 with
  | none => exact absurd hanswer (hall p hp)
  | some result => cases result <;> rfl

theorem fetch_eq_ofResults
    (hl : fetchAll config workingDirectory files specifiers network order = .ok l) :
    fetch config workingDirectory files specifiers network order =
      .ofResults " requests failed" (specifiers.zipIdx.map (said l)) := by
  unfold fetch
  rw [hl]
  rfl

/-- As long as every specifier has been answered the command prints what it was. -/
theorem fetch_eq (hl : fetchAll config workingDirectory files specifiers network order = .ok l)
    (hall : ∀ p ∈ specifiers.zipIdx, answer? l.journal p.2 ≠ none) :
    fetch config workingDirectory files specifiers network order =
      if failures l specifiers = [] then { lines := successes l specifiers }
      else
        { lines := successes l specifiers
          errors := (failures l specifiers).map ("error: " ++ ·) ++
            ["Error: " ++ toString (failures l specifiers).length ++ " of " ++
              toString specifiers.length ++ " requests failed"]
          exitCode := 1 } := by
  rw [fetch_eq_ofResults hl, ofResults_eq (lines_eq l specifiers) (errors_eq hall)]
  simp only [List.length_map, List.length_zipIdx, List.isEmpty_iff, List.map_eq_nil_iff]

theorem Ends.resolve {q : Inquiry} (h : Ends q l) (s : String) :
    l.resolve none s = q.name s := by
  obtain ⟨m, _, hended, rfl⟩ := h
  exact hended.resolve s

theorem Ends.outcome {q : Inquiry} (h : Ends q l) {i : Nat} {s : String}
    (hs : q.specifiers[i]? = some s) :
    ∃ result, answer? l.journal i = some result ∧ q.Tells (q.loadedFor s) result := by
  obtain ⟨m, hreach, hended, rfl⟩ := h
  exact hended.answer hreach hs

/-- A specifier that is loaded alone is told what comes of the module that it names. -/
theorem Inquiry.loadedFor_alone {q : Inquiry} {s : String} (hq : q.specifiers = [s]) :
    q.loadedFor s = q.name s :=
  loadedFor_eq (j := 0) (by rw [hq]; rfl) rfl fun _ _ hk => absurd hk (Nat.not_lt_zero _)

/-- What two specifiers are told comes to the same if it is of the same module. -/
theorem outcome_congr {q : Inquiry} {l l' : Loader Answer} {i j : Nat}
    {named : Except LoadError Target}
    (h : ∃ result, answer? l.journal i = some result ∧ q.Tells named result)
    (h' : ∃ result, answer? l'.journal j = some result ∧ q.Tells named result) :
    outcome l i = outcome l' j := by
  obtain ⟨result, hresult, htells⟩ := h
  obtain ⟨result', hresult', htells'⟩ := h'
  rw [outcome, outcome, hresult, hresult', Option.map_some, Option.map_some, htells.unique htells']

/-- What comes of a specifier is what comes of another that is loaded alone and names what the
module of the first one is loaded for. -/
theorem outcome_eq {q q' : Inquiry} {l l' : Loader Answer} {i : Nat} {s s' : String}
    (h : Ends q l) (h' : Ends q' l') (hfiles : q'.files = q.files)
    (hnetwork : q'.network = q.network) (hs : q.specifiers[i]? = some s)
    (hq' : q'.specifiers = [s']) (hsame : q.loadedFor s = q'.name s') :
    outcome l i = outcome l' 0 := by
  obtain ⟨result, hresult, htells⟩ := h'.outcome (i := 0) (s := s') (by rw [hq']; rfl)
  rw [Inquiry.loadedFor_alone hq', ← hsame] at htells
  exact outcome_congr (h.outcome hs) ⟨result, hresult, htells.congr hfiles.symm hnetwork.symm⟩

/-- What is said of a specifier does not depend on the number of its value. -/
theorem said_eq (l : Loader Answer) (p : String × Nat) :
    said l p = match outcome l p.2 with
      | some (.ok payload) => .ok (valueLine ⟨0, payload⟩)
      | some (.error e) => .error (p.1 ++ ": " ++ e.message)
      | none => .error (p.1 ++ ": request never completed") := by
  unfold said outcome
  cases answer? l.journal p.2 with
  | none => rfl
  | some result => cases result <;> rfl

/-- The command prints the same in whatever order fetches finish. -/
theorem fetch_any_order (config : Config) (workingDirectory : Url) (files : FileTree)
    (specifiers : List String) (network : Network) (order order' : Machine.Order Answer) :
    fetch config workingDirectory files specifiers network order =
      fetch config workingDirectory files specifiers network order' := by
  cases hl : fetchAll config workingDirectory files specifiers network order with
  | error e =>
    have hl' : fetchAll config workingDirectory files specifiers network order' = .error e := by
      rw [fetchAll_eq] at hl ⊢
      cases hstart : starting config workingDirectory files network with
      | error e' =>
        rw [hstart] at hl
        exact hl
      | ok l₀ =>
        rw [hstart] at hl
        cases hl
    simp only [fetch, hl, hl']
  | ok l =>
    obtain ⟨directory, ctx, _, hends, hothers⟩ := ends_of_fetchAll hl
    obtain ⟨l', hl', hends'⟩ := hothers specifiers order'
    rw [fetch_eq_ofResults hl, fetch_eq_ofResults hl']
    refine congrArg _ (List.map_congr_left fun p hp => ?_)
    have hs : specifiers[p.2]? = some p.1 := by
      simpa using List.mem_zipIdx_iff_getElem?.mp hp
    rw [said_eq, said_eq, outcome_congr (hends.outcome hs) (hends'.outcome hs)]

/-- Whenever the command can start, whatever servers answer and in whatever order fetches finish.
Every specifier is answered, and once; the command prints a line for each that has been loaded and a
report for each that has not, both in their order, and as many as there are specifiers; it exits
with 0 if there is no report, and otherwise with 1 after a line that counts them. What comes of a
specifier is what comes of the first one that names the same canonical URL, or fails by the same
error, when this is loaded alone. So if all those before it that name the same canonical URL name
the same target, it is what would come of it alone. -/
theorem fetch_accounts
    (h : fetchAll config workingDirectory files specifiers network order = .ok l) :
    (∀ i < specifiers.length, answer? l.journal i ≠ none ∧
      (notes l.journal).countP (·.index = i) = 1) ∧
    (fetch config workingDirectory files specifiers network order =
      if failures l specifiers = [] then { lines := successes l specifiers }
      else
        { lines := successes l specifiers
          errors := (failures l specifiers).map ("error: " ++ ·) ++
            ["Error: " ++ toString (failures l specifiers).length ++ " of " ++
              toString specifiers.length ++ " requests failed"]
          exitCode := 1 }) ∧
    (successes l specifiers).length + (failures l specifiers).length = specifiers.length ∧
    (∀ i s, specifiers[i]? = some s → ∃ j first, specifiers[j]? = some first ∧ j ≤ i ∧
      (l.resolve none first).map Target.key = (l.resolve none s).map Target.key ∧
      (∀ k earlier, k < j → specifiers[k]? = some earlier →
        (l.resolve none earlier).map Target.key ≠ (l.resolve none s).map Target.key) ∧
      ∀ order', ∃ l', fetchAll config workingDirectory files [first] network order' = .ok l' ∧
        outcome l i = outcome l' 0) ∧
    (∀ i s, specifiers[i]? = some s →
      (∀ j earlier, j < i → specifiers[j]? = some earlier →
        (l.resolve none earlier).map Target.key = (l.resolve none s).map Target.key →
        l.resolve none earlier = l.resolve none s) →
      ∀ order', ∃ l', fetchAll config workingDirectory files [s] network order' = .ok l' ∧
        outcome l i = outcome l' 0) := by
  obtain ⟨directory, ctx, _, hends, hothers⟩ := ends_of_fetchAll h
  generalize (⟨some directory, loadingConfig config workingDirectory⟩ : Resolver) = resolver
    at hends hothers
  have hname := hends.resolve
  have hanswered : ∀ i < specifiers.length, answer? l.journal i ≠ none := by
    intro i hi
    obtain ⟨result, hresult, _⟩ := hends.outcome (List.getElem?_eq_getElem hi)
    rw [hresult]
    exact Option.some_ne_none _
  have hall : ∀ p ∈ specifiers.zipIdx, answer? l.journal p.2 ≠ none :=
    fun p hp => hanswered p.2 (List.snd_lt_of_mem_zipIdx hp)
  refine ⟨fun i hi => ⟨hanswered i hi, ?_⟩, fetch_eq h hall,
    length_successes_add_failures hall, ?_, ?_⟩
  · obtain ⟨m, hreach, hended, rfl⟩ := hends
    exact hended.count_eq_one hreach hi
  · intro i s hs
    obtain ⟨j, first, hj, hle, hsame, hearlier, hloaded⟩ :=
      Inquiry.exists_loadedFor (q := ⟨resolver, ctx, files, network, specifiers⟩) hs
    simp only [← hname] at hsame hearlier
    refine ⟨j, first, hj, hle, hsame, hearlier, fun order' => ?_⟩
    obtain ⟨l', hl', hends'⟩ := hothers [first] order'
    exact ⟨l', hl', outcome_eq hends hends' rfl rfl hs rfl hloaded⟩
  · intro i s hs hagree order'
    obtain ⟨j, first, hj, hle, hsame, _, hloaded⟩ :=
      Inquiry.exists_loadedFor (q := ⟨resolver, ctx, files, network, specifiers⟩) hs
    obtain ⟨l', hl', hends'⟩ := hothers [s] order'
    refine ⟨l', hl', outcome_eq hends hends' rfl rfl hs rfl (hloaded.trans ?_)⟩
    rcases hle.eq_or_lt with rfl | hlt
    · rw [Option.some.inj (hj.symm.trans hs)]
      rfl
    · rw [← hname, ← hname] at hsame
      have hfirst := hagree j first hlt hj hsame
      rwa [hname, hname] at hfirst

/-- One file, with a name that has to be escaped in a URL. -/
def cutFiles : FileTree :=
  FileTree.empty.insert (Surroundings.bytesOf "/a.html#") (.file [0x3C, 0x70, 0x2F, 0x3E])

/-- A server that knows one page. -/
def pageServer : Network := fun u =>
  if u.toString = "http://x/page.html" then .answered ⟨200, "OK"⟩ (.ok "<p>")
  else .answered ⟨404, "Not Found"⟩ (.ok "")

/-- Of the fetches that are looked at the last one to be started is the first to finish. -/
def lastFirst : Machine.Order Answer :=
  ⟨fun m => m.loader.fetches.queue.reverse, fun _ => List.reverse_perm _⟩

/-- Two of a resource that can be read, one of a unit that nobody has registered, and two that a
server is asked for. -/
def fiveSpecifiers : List String :=
  ["a.html%23", "./a.html%23", "b", "http://x/page.html", "http://x/none.html"]

theorem fetch_accounts_five : ∃ l l',
    fetchAll {} (Url.ofDirectory []) cutFiles fiveSpecifiers pageServer lastFirst = .ok l ∧
    (successes l fiveSpecifiers).length + (failures l fiveSpecifiers).length = 5 ∧
    fetchAll {} (Url.ofDirectory []) cutFiles ["./a.html%23"] pageServer = .ok l' ∧
    outcome l 1 = outcome l' 0 := by
  have hsame : ((fetchAll {} (Url.ofDirectory []) cutFiles fiveSpecifiers pageServer
      lastFirst).toOption.any fun l =>
        decide (l.resolve none "a.html%23" = l.resolve none "./a.html%23")) = true := by
    decide +kernel
  cases hl : fetchAll {} (Url.ofDirectory []) cutFiles fiveSpecifiers pageServer lastFirst with
  | error e =>
    rw [hl] at hsame
    cases hsame
  | ok l =>
    rw [hl] at hsame
    have hsame : l.resolve none "a.html%23" = l.resolve none "./a.html%23" :=
      of_decide_eq_true hsame
    obtain ⟨_, _, hlength, _, halone⟩ := fetch_accounts hl
    obtain ⟨l', hl', hwhat⟩ := halone 1 "./a.html%23" rfl (fun j earlier hj hearlier _ => by
      cases Nat.lt_one_iff.mp hj
      cases hearlier
      exact hsame) .asStarted
    exact ⟨l, l', rfl, hlength, hl', hwhat⟩

/-- Settings by which the name of a resource does not tell its kind: what is added to a name is cut
from the URL. -/
def cutConfig : Config := { defaultExtension := "html#", markupExtensions := ["html#"] }

/-- What comes of the second of two specifiers of the same module is what comes of the first, of
another kind; alone it fails. -/
theorem second_kind_loses :
    (fetch cutConfig (Url.ofDirectory []) cutFiles ["a", "a.html%23"] =
      { lines := ["a\tfile:///a.html%23\t4 bytes", "a\tfile:///a.html%23\t4 bytes"] }) ∧
    (fetch cutConfig (Url.ofDirectory []) cutFiles ["a.html%23"]).exitCode = 1 := by
  decide +kernel

end Command
end AsyncModule
