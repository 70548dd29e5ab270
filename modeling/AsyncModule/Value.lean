import AsyncModule.Data
import AsyncModule.Resource

/-!
# AsyncModule.Value

Module values. A value has an identity, given to it when it is made, that every use of it shares:
two values are the same when their identities are, whatever they hold.
-/

namespace AsyncModule

inductive Payload where
  | fragment (f : Fragment)
  | data (d : Data)
  deriving Repr, Inhabited

/-- A value with its identity. -/
structure ModuleValue where
  id : Nat
  payload : Payload
  deriving Repr, Inhabited

namespace ModuleValue

def Same (a b : ModuleValue) : Prop := a.id = b.id

instance : DecidableRel Same := fun a b => inferInstanceAs (Decidable (a.id = b.id))

end ModuleValue

end AsyncModule
