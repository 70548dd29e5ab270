import AsyncModule.Request

/-!
# AsyncModule.Bootstrap

The context of requests that are made outside of any unit. There is none until one is
established, and none while main resources are on their way; until then such requests are
deferred and keep their order.
-/

namespace AsyncModule

/-- Contexts outside of units, and the requests that wait for one. -/
structure Bootstrap where
  state : BootstrapState
  /-- Main resources on their way. -/
  inFlight : Nat
  root : Option Context
  ambient : Option Context
  deferred : List RequestId
  deriving Repr

namespace Bootstrap

def initial : Bootstrap := ⟨.uninitialized, 0, none, none, []⟩

/-- The context for requests outside of units, once there is one. -/
def context? (b : Bootstrap) : Option Context :=
  match b.state with
  | .established => b.ambient
  | _ => none

/-- Become established, unless main resources are on their way; with whether it did. -/
def conclude (b : Bootstrap) : Bool × Bootstrap :=
  if b.inFlight == 0 then (true, { b with state := .established }) else (false, b)

def establish (b : Bootstrap) (ctx : Context) : Bool × Bootstrap :=
  conclude { b with root := some ctx, ambient := some ctx }

def beginEstablishing (b : Bootstrap) (root : Context) : Bootstrap :=
  { b with inFlight := b.inFlight + 1, root := some root, state := .resolving }

def finishEstablishing (b : Bootstrap) (ctx : Context) : Bool × Bootstrap :=
  conclude { b with inFlight := b.inFlight - 1, ambient := some ctx }

def defer (b : Bootstrap) (id : RequestId) : Bootstrap :=
  { b with deferred := b.deferred ++ [id] }

def forget (b : Bootstrap) (id : RequestId) : Bootstrap :=
  { b with deferred := b.deferred.filter (· != id) }

@[simp] theorem deferred_establish (b : Bootstrap) (ctx : Context) :
    (b.establish ctx).2.deferred = b.deferred := by
  unfold establish conclude
  split <;> rfl

@[simp] theorem deferred_finishEstablishing (b : Bootstrap) (ctx : Context) :
    (b.finishEstablishing ctx).2.deferred = b.deferred := by
  unfold finishEstablishing conclude
  split <;> rfl

end Bootstrap

end AsyncModule
