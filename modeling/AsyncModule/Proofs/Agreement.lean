import AsyncModule.Command.Resolve
import AsyncModule.Proofs.Answers
import AsyncModule.Proofs.WorkingDirectory

/-!
# AsyncModule.Proofs.Agreement

The command that says what specifiers name and the one that loads them. Both read bare specifiers in
the base of the settings, or else in the working directory, and all of them as a resource there
would; unless a main resource is loaded first, whose directory is then the base of the one but not of
the other.

* `base_eq`          — where the bases are the same.
* `commands_agree`   — what is loaded is what has been said, and what is rejected is so by both.
* `main_moves_base`  — with a main resource elsewhere they differ.
-/

namespace AsyncModule.Command

variable {config : Config} {workingDirectory : Url} {files : FileTree} {specifiers : List String}
  {network : Network} {order : Machine.Order Answer} {l : Loader Answer} {results : List (Except LoadError Target)}

/-- Where the command that says what specifiers name reads bare ones. -/
def resolvingBase (config : Config) (workingDirectory : Url) : Except LoadError Url :=
  match config.baseUrl with
  | some url => Url.asDirectory url
  | none => .ok workingDirectory

theorem resolveAll_eq_ok
    (h : resolveAll config workingDirectory none specifiers = .ok results) :
    ∃ base ctx, resolvingBase config workingDirectory = .ok base ∧ Context.ofUrl base = .ok ctx ∧
      results = specifiers.map fun s => (⟨some base, config⟩ : Resolver).resolve s ctx := by
  have hbase : resolveAll config workingDirectory none specifiers =
      (resolvingBase config workingDirectory).bind fun base =>
        (Context.ofUrl base).bind fun ctx =>
          .ok (specifiers.map fun s => (⟨some base, config⟩ : Resolver).resolve s ctx) := by
    unfold resolveAll resolvingBase
    cases config.baseUrl <;> rfl
  rw [hbase] at h
  obtain ⟨base, hbase, h⟩ := Url.bind_eq_ok h
  obtain ⟨ctx, hctx, h⟩ := Url.bind_eq_ok h
  exact ⟨base, ctx, hbase, hctx, (Except.ok.inj h).symm⟩

/-- Resolving does not read the base of the settings. -/
theorem resolve_withBaseUrl (base : Option Url) (config : Config) (url : String) :
    (⟨base, config.withBaseUrl url⟩ : Resolver).resolve = (⟨base, config⟩ : Resolver).resolve := by
  have habsolute : (⟨base, config.withBaseUrl url⟩ : Resolver).absolute =
      (⟨base, config⟩ : Resolver).absolute := rfl
  have hname : (⟨base, config.withBaseUrl url⟩ : Resolver).resourceName =
      (⟨base, config⟩ : Resolver).resourceName := rfl
  have hkind : (⟨base, config.withBaseUrl url⟩ : Resolver).kindOf =
      (⟨base, config⟩ : Resolver).kindOf := rfl
  funext s ctx
  unfold Resolver.resolve
  simp only [habsolute, hname, hkind]

theorem resolve_loadingConfig (config : Config) (workingDirectory : Url) (base : Option Url) :
    (⟨base, loadingConfig config workingDirectory⟩ : Resolver).resolve =
      (⟨base, config⟩ : Resolver).resolve := by
  unfold loadingConfig
  cases config.baseUrl with
  | some url => rfl
  | none => exact resolve_withBaseUrl base config _

/-- Without a main resource both commands have the same base. -/
theorem base_eq {here : Surroundings} (hhere : here.IsPlace) {directory base : Url} {ctx : Context}
    (hground : Ground (loadingConfig config here.url) directory ctx) (hmain : config.main = none)
    (hbase : resolvingBase config here.url = .ok base) : directory = base := by
  have hnone := (main_loadingConfig config here.url).trans hmain
  unfold resolvingBase at hbase
  cases hurl : config.baseUrl with
  | some url =>
    rw [hurl] at hbase
    have hloading : (loadingConfig config here.url).baseUrl = some url := by
      rw [loadingConfig, hurl]
      exact hurl
    exact Except.ok.inj ((hground.base url hloading hnone).symm.trans hbase)
  | none =>
    rw [hurl] at hbase
    have hloading : (loadingConfig config here.url).baseUrl = some here.url.toString := by
      rw [loadingConfig, hurl]
      rfl
    have hsame := (hground.base _ hloading hnone).symm.trans (Surroundings.asDirectory_url hhere)
    exact (Except.ok.inj hsame).trans (Except.ok.inj hbase)

/-- What is loaded is what specifiers name, and for each canonical URL the first that has it. -/
theorem Ends.loaded {q : Inquiry} (h : Ends q l) :
    (moduleTargets (loads l.journal)).reverse = firsts q.targets := by
  obtain ⟨m, _, hended, rfl⟩ := h
  exact hended.loaded

theorem Ends.load {q : Inquiry} (h : Ends q l) {t : Target} (ht : t ∈ q.targets)
    (hsame : ∀ t' ∈ q.targets, t'.key = t.key → t' = t) : (t, .module) ∈ loads l.journal := by
  have hkey : t.key ∈ (firsts q.targets).map Target.key :=
    Inquiry.mem_keys_firsts.mpr (List.mem_map_of_mem ht)
  obtain ⟨t', hfirst, hkey⟩ := List.mem_map.mp hkey
  have ht' := List.mem_of_find?_eq_some (Inquiry.mem_firsts hfirst)
  rw [← h.loaded, List.mem_reverse, hsame t' ht' hkey] at hfirst
  exact Inquiry.mem_moduleTargets.mp hfirst

theorem Ends.rejected {q : Inquiry} (h : Ends q l) {i : Nat} {s : String} {e : LoadError}
    (hs : q.specifiers[i]? = some s) (he : q.name s = .error e) :
    answer? l.journal i = some (.error e) := by
  obtain ⟨result, hresult, htells⟩ := h.outcome hs
  rw [Inquiry.loadedFor, he] at htells
  cases htells
  exact hresult

theorem mem_of_toOption {t : Target} (h : t ∈ results.filterMap Except.toOption) :
    .ok t ∈ results := by
  obtain ⟨result, hresult, ht⟩ := List.mem_filterMap.mp h
  cases result with
  | error e => cases ht
  | ok t' =>
    cases ht
    exact hresult

/-- Whenever both commands get as far as looking at specifiers, without a main resource or with one
in the directory that is the base anyway. The URLs of which modules are loaded are those that have
been said, each once and in the order in which they are first said. If nothing else is said of a URL
than this target, it is this target that is loaded. And what is not resolved by the one is not
loaded by the other, for the same reason. -/
theorem commands_agree {here : Surroundings} (hhere : here.IsPlace) {base : Option String}
    (hresolve : resolveAll (settings config base) here.url none specifiers = .ok results)
    (hfetch : fetchAll (settings config base) here.url here.files specifiers network order =
      .ok l)
    (hmain : (settings config base).main = none ∨
      l.resolver.defaultBase = (resolvingBase (settings config base) here.url).toOption) :
    (modulesOf (loads l.journal)).reverse =
      (firsts (results.filterMap Except.toOption)).map Target.key ∧
    (∀ t, .ok t ∈ results → (∀ t', .ok t' ∈ results → t'.key = t.key → t' = t) →
      (t, .module) ∈ loads l.journal) ∧
    (∀ i e, results[i]? = some (.error e) →
      e.IsUnresolved ∧ answer? l.journal i = some (.error e)) := by
  generalize settings config base = config at hresolve hfetch hmain
  obtain ⟨base, ctx, hbase, hctx, rfl⟩ := resolveAll_eq_ok hresolve
  obtain ⟨directory, ctx', hground, hends, _⟩ := ends_of_fetchAll hfetch
  have hdirectory : directory = base := by
    rcases hmain with hnone | hsame
    · exact base_eq hhere hground hnone hbase
    · obtain ⟨m, _, hended, rfl⟩ := hends
      rw [hended.opened.fares.resolver, hbase] at hsame
      exact Option.some.inj hsame
  subst hdirectory
  cases hctx.symm.trans hground.context
  have hname := resolve_loadingConfig config here.url (some directory)
  generalize hq : (⟨⟨some directory, loadingConfig config here.url⟩, ctx, here.files, network,
    specifiers⟩ : Inquiry) = q at hends
  have hnames : ∀ s, q.name s = (⟨some directory, config⟩ : Resolver).resolve s ctx := by
    intro s
    rw [← hq]
    exact congrFun₂ hname s ctx
  have hspecifiers : q.specifiers = specifiers := by rw [← hq]
  have htargets : q.targets = (specifiers.map fun s =>
      (⟨some directory, config⟩ : Resolver).resolve s ctx).filterMap Except.toOption := by
    rw [List.filterMap_map, Inquiry.targets, hspecifiers]
    exact List.filterMap_congr fun s _ => by rw [hnames]; rfl
  refine ⟨?_, fun t ht hsame => hends.load ?_ fun t' ht' => hsame t' ?_, fun i e he => ?_⟩
  · rw [modulesOf_eq, ← List.map_reverse, hends.loaded, htargets]
  · rw [htargets]
    exact List.mem_filterMap.mpr ⟨_, ht, rfl⟩
  · rw [htargets] at ht'
    exact mem_of_toOption ht'
  · rw [List.getElem?_map] at he
    obtain ⟨s, hs, he⟩ := Option.map_eq_some_iff.mp he
    exact ⟨Resolver.isUnresolved_of_resolve he,
      hends.rejected (hspecifiers ▸ hs) ((hnames s).trans he)⟩

/-- Two directories below the root, and nothing in them. -/
def deepHere : Surroundings := ⟨["srv", "web site"], .empty⟩

/-- Settings without a base, with a main resource in the working directory. -/
def mainConfig : Config := { main := some "main.js" }

theorem commands_agree_deep : ∃ results l,
    resolveAll mainConfig deepHere.url none ["x.js", "", "./x.js"] = .ok results ∧
    fetchAll mainConfig deepHere.url deepHere.files ["x.js", "", "./x.js"] = .ok l ∧
    (modulesOf (loads l.journal)).reverse =
      (firsts (results.filterMap Except.toOption)).map Target.key := by
  have hhere : deepHere.IsPlace := by
    unfold Surroundings.IsPlace
    decide
  have hfetch : ((fetchAll mainConfig deepHere.url deepHere.files
      ["x.js", "", "./x.js"]).toOption.any fun l => decide (l.resolver.defaultBase =
        (resolvingBase mainConfig deepHere.url).toOption)) = true := by decide +kernel
  have hresolve : (resolveAll mainConfig deepHere.url none
      ["x.js", "", "./x.js"]).toOption.isSome = true := by decide +kernel
  cases hr : resolveAll mainConfig deepHere.url none ["x.js", "", "./x.js"] with
  | error e =>
    rw [hr] at hresolve
    cases hresolve
  | ok results =>
    cases hl : fetchAll mainConfig deepHere.url deepHere.files ["x.js", "", "./x.js"] with
    | error e =>
      rw [hl] at hfetch
      cases hfetch
    | ok l =>
      rw [hl] at hfetch
      have hsettings : settings mainConfig none = mainConfig := rfl
      rw [← hsettings] at hr hl
      have hagree := commands_agree hhere hr hl (.inr (of_decide_eq_true hfetch))
      exact ⟨results, l, rfl, rfl, hagree.1⟩

/-- Settings with a main resource in another directory than the base. -/
def elsewhereConfig : Config := { baseUrl := some "http://x/app/", main := some "lib/main.js" }

/-- What is said to be one resource is loaded as another. -/
theorem main_moves_base :
    (resolveAll elsewhereConfig deepHere.url none ["a.js"]).map (·.map (·.map Target.key)) =
      .ok [.ok "http://x/app/a.js"] ∧
    (fetchAll elsewhereConfig deepHere.url deepHere.files ["a.js"]).map
      (fun l => modulesOf (loads l.journal)) = .ok ["http://x/app/lib/a.js"] := by
  decide +kernel

end AsyncModule.Command
