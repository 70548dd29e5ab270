import AsyncModule.Proofs.Runs
import AsyncModule.Proofs.Table
import Mathlib.Data.List.Nodup

/-!
# AsyncModule.Proofs.Tame

Runs by a table. Whatever is fetched is what the table says of it; units make their one definition
or none, callbacks and handlers come to an end, and none of them calls the loader otherwise. The
programs that call from outside make requests and take up what has been fetched, in any order.

* `Script.Ends`    — a program that comes to its end without calling the loader.
* `Fate.Serves`   — what may come of a fetch.
* `Machine.GoesBy` — what can happen in a run by a table.
-/

namespace AsyncModule

variable {ν : Type}

namespace Outcome

def IsOk : Outcome → Prop
  | error _ => False
  | _ => True

/-- The program ends as a factory does that makes a certain value, or none, or fails. -/
def Gives (result : Except String (Option Payload)) : Outcome → Prop
  | done => result = .ok none
  | value v => result = .ok (some v.payload)
  | error reason => result = .error reason

end Outcome

namespace Script

/-- The program comes to a point of some kind without calling the loader. It may make values, look
around and take notes on its way. -/
inductive Quietly (P : Script ν → Prop) : Script ν → Prop where
  | here {s : Script ν} (h : P s) : Quietly P s
  | make {payload : Payload} {next : ModuleValue → Script ν}
    (h : ∀ v, v.payload = payload → Quietly P (next v)) : Quietly P (.make payload next)
  | look {next : View ν → Script ν} (h : ∀ view, Quietly P (next view)) : Quietly P (.look next)
  | note {n : ν} {next : Script ν} (h : Quietly P next) : Quietly P (.note n next)

theorem Quietly.mono {P Q : Script ν → Prop} {s : Script ν} (h : s.Quietly P)
    (hPQ : ∀ s, P s → Q s) : s.Quietly Q := by
  induction h with
  | here h => exact .here (hPQ _ h)
  | make _ ih => exact .make ih
  | look _ ih => exact .look ih
  | note _ ih => exact .note ih

def Ends (P : Outcome → Prop) : Script ν → Prop := Quietly fun s => ∃ o, s = .finish o ∧ P o

/-- The program makes one definition, and ends well. The factory makes values of values. -/
def Defines (dependencies : List String)
    (factory : List Payload → Except String (Option Payload)) : Script ν → Prop :=
  Quietly fun s => ∃ callback errback next, s = .define dependencies callback errback next ∧
    (∀ values, (callback values).Ends (Outcome.Gives (factory (values.map (·.payload))))) ∧
    (∀ handler ∈ errback, ∀ e, (handler e).Ends fun _ => True) ∧ next.Ends Outcome.IsOk

end Script

/-- What a fetch may yield of a module. -/
def Fate.Serves : Fate → Fetched (Script ν) → Prop
  | missing, .failed _ => True
  | markup fragment, .markup fragment' none => fragment' = fragment
  | broken, .code s => s.Ends fun o => ¬ o.IsOk
  | silent, .code s => s.Ends Outcome.IsOk
  | defining dependencies factory, .code s => s.Defines dependencies factory
  | _, _ => False

def Script.ofResult : Except String (Option Payload) → Script ν
  | .ok (some p) => .make p fun v => .finish (.value v)
  | .ok none => .finish .done
  | .error reason => .finish (.error reason)

theorem Script.ends_ofResult (result : Except String (Option Payload)) :
    (ofResult (ν := ν) result).Ends (Outcome.Gives result) := by
  cases result with
  | error reason => exact .here ⟨_, rfl, rfl⟩
  | ok made =>
    cases made with
    | none => exact .here ⟨_, rfl, rfl⟩
    | some p =>
      refine .make fun v hv => .here ⟨_, rfl, ?_⟩
      rw [← hv]
      rfl

/-- Something that a fetch of a module may yield. -/
def Fate.fetched (t : Target) : Fate → Fetched (Script ν)
  | missing => .failed (.fetch t.key "not there")
  | markup fragment => .markup fragment none
  | broken => .code (.finish (.error "broken"))
  | silent => .code (.finish .done)
  | defining dependencies factory =>
    .code (.define dependencies (fun values => .ofResult (factory (values.map (·.payload)))) none
      (.finish .done))

theorem Fate.serves_fetched (t : Target) (fate : Fate) :
    fate.Serves (fate.fetched t : Fetched (Script ν)) := by
  cases fate with
  | missing => trivial
  | markup fragment => exact rfl
  | broken => exact .here ⟨_, rfl, not_false⟩
  | silent => exact .here ⟨_, rfl, trivial⟩
  | defining dependencies factory =>
    exact .here ⟨_, none, _, rfl, fun values => Script.ends_ofResult _, by simp,
      .here ⟨_, rfl, trivial⟩⟩

/-- A program that calls from outside: it makes requests, each with a callback that ends well and
a handler, and takes up what has been fetched. -/
inductive Script.Hosts (τ : Table) : Script ν → Prop where
  | finish (o : Outcome) : Hosts τ (.finish o)
  | require {dependencies : List String} {callback : List ModuleValue → Script ν}
    {errback : LoadError → Script ν} {next : Script ν}
    (hcallback : ∀ values, (callback values).Ends Outcome.IsOk)
    (herrback : ∀ e, (errback e).Ends fun _ => True) (h : Hosts τ next) :
    Hosts τ (.require dependencies callback (some errback) next)
  | turn {next : Turn → Script ν} (h : ∀ t, Hosts τ (next t)) : Hosts τ (.turn next)
  | settle {next : Bool → Script ν} (h : ∀ b, Hosts τ (next b)) : Hosts τ (.settle next)
  | deliver {url : String} {result : Target → Fetched (Script ν)} {next : Bool → Script ν}
    (hresult : ∀ t, (τ t.key).Serves (result t)) (h : ∀ b, Hosts τ (next b)) :
    Hosts τ (.deliver url result next)
  | make {payload : Payload} {next : ModuleValue → Script ν} (h : ∀ v, Hosts τ (next v)) :
    Hosts τ (.make payload next)
  | look {next : View ν → Script ν} (h : ∀ view, Hosts τ (next view)) : Hosts τ (.look next)
  | note {n : ν} {next : Script ν} (h : Hosts τ next) : Hosts τ (.note n next)

/-- Whatever has come of the fetches in flight is what the table says. -/
def Fetches.ServedBy (τ : Table) (fs : Fetches ν) : Prop :=
  ∀ f ∈ fs.inFlight, ∀ result, f.result = some result → (τ f.target.key).Serves result

theorem Fetches.ServedBy.start {τ : Table} {fs : Fetches ν} (h : fs.ServedBy τ) (t : Target)
    (role : LoadRole) {result : Option (Fetched (Script ν))}
    (hresult : ∀ r, result = some r → (τ t.key).Serves r) : (fs.start t role result).ServedBy τ := by
  intro f hf r hr
  rcases List.mem_append.mp hf with hf | hf
  · exact h f hf r hr
  · rw [List.mem_singleton.mp hf] at hr ⊢
    exact hresult r hr

theorem Fetches.Numbered.eq_of_id {fs : Fetches ν} (h : fs.Numbered) {f f' : Fetch ν}
    (hf : f ∈ fs.inFlight) (hf' : f' ∈ fs.inFlight) (hid : f.id = f'.id) : f = f' := by
  have hnodup : (fs.inFlight.map Fetch.id).Nodup := by
    have hnodup := h.nodup
    rw [errands, List.map_map] at hnodup
    exact hnodup
  exact List.inj_on_of_nodup_map hnodup hf hf' hid

theorem Fetches.ServedBy.deliver {τ : Table} {fs fs' : Fetches ν} {url : String}
    {result : Target → Fetched (Script ν)} (h : fs.ServedBy τ) (hnumbered : fs.Numbered)
    (hresult : ∀ t, (τ t.key).Serves (result t)) (hdeliver : fs.deliver url result = some fs') :
    fs'.ServedBy τ := by
  obtain ⟨f, hf, _, _, rfl⟩ := deliver_eq_some hdeliver
  intro f' hf' r hr
  obtain ⟨f'', hf'', rfl⟩ := List.mem_map.mp hf'
  by_cases hid : f''.id = f.id
  · obtain rfl := hnumbered.eq_of_id hf'' hf hid
    rw [if_pos (by simp)] at hr ⊢
    cases hr
    exact hresult f''.target
  · rw [if_neg (by simpa using hid)] at hr ⊢
    exact h f'' hf'' r hr

namespace Machine

inductive GoesBy (τ : Table) : Machine ν → Machine ν → Prop where
  | step (m : Machine ν) : GoesBy τ m m.step
  | pass (m : Machine ν) {fetches : Fetches ν} (h : m.loader.fetches.Agree fetches)
    (hserved : fetches.ServedBy τ) :
    GoesBy τ m { m with loader := { m.loader with fetches } }
  | call {m : Machine ν} {script : Script ν} (hscript : script.Hosts τ) (h : m.stack = []) :
    GoesBy τ m { m with stack := [.body none script .plain] }

theorem GoesBy.goes {τ : Table} {m m' : Machine ν} (h : GoesBy τ m m') : Goes m m' := by
  cases h with
  | step => exact .step m
  | pass hagree _ => exact .pass m hagree
  | call _ hs => exact .call _ hs

theorem goesBy_run {τ : Table} (fuel : Nat) (m : Machine ν) :
    Relation.ReflTransGen (GoesBy τ) m (run fuel m) := by
  induction fuel generalizing m with
  | zero => exact .refl
  | succ fuel ih =>
    simp only [run]
    split
    · exact .refl
    · exact .head (.step m) (ih m.step)

end Machine

theorem Loader.configure_new_eq_ok {config : Config}
    {resources : Target → Option (Fetched (Script ν))} {base : String} {drained : Bool}
    {l : Loader ν} (h : (Loader.new config resources).configure base = (.ok drained, l)) :
    ∃ url ctx, Url.asDirectory base = .ok url ∧ Context.ofUrl url = .ok ctx ∧ drained = true ∧
      l = { Loader.new config resources with
        resolver := ⟨some url, config⟩
        bootstrap := ⟨.established, 0, some ctx, some ctx, []⟩ } := by
  unfold Loader.configure at h
  split at h
  · cases h
  · rename_i url hurl
    split at h
    · cases h
    · rename_i ctx hctx
      cases h
      exact ⟨url, ctx, hurl, hctx, rfl, rfl⟩

/-- After a base has been configured for a new loader nothing is left to do. -/
theorem Machine.reachable_configure {config : Config}
    {resources : Target → Option (Fetched (Script ν))} {base : String} {drained : Bool}
    {l : Loader ν} (h : (Loader.new config resources).configure base = (.ok drained, l)) :
    Reachable ⟨l, []⟩ := by
  obtain ⟨url, ctx, _, _, rfl, rfl⟩ := Loader.configure_new_eq_ok h
  have hstart := reachable_start config resources (.configure base fun _ => .finish .done)
  have hrun := hstart.run 4
  have hend : run 4 (start (Loader.new config resources) (.configure base fun _ => .finish .done)) =
      ⟨{ Loader.new config resources with
        resolver := ⟨some url, config⟩
        bootstrap := ⟨.established, 0, some ctx, some ctx, []⟩ }, []⟩ := by
    simp only [run, isDone, start, step, advance, perform, h, afterChange]
    rfl
  rw [hend] at hrun
  exact hrun

end AsyncModule
