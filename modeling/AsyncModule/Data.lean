/-!
# AsyncModule.Data

Plain structured data: what a configuration file holds and what scripted modules produce.
-/

namespace AsyncModule

/-- A tree of plain data. A number is `mantissa / 10 ^ places`; notations that have numbers beyond
those have infinities and what is not a number. -/
inductive Data where
  | null
  | bool (b : Bool)
  | number (mantissa : Int) (places : Nat)
  | infinite (negative : Bool)
  | notANumber
  | text (s : String)
  | list (items : List Data)
  | record (fields : List (String × Data))
  deriving Repr, Inhabited

namespace Data

def int (n : Int) : Data := .number n 0

def asText? : Data → Option String
  | text s => some s
  | _ => none

def asTexts? : Data → Option (List String)
  | list items => items.mapM asText?
  | _ => none

def asInt? : Data → Option Int
  | number n 0 => some n
  | _ => none

/-- The field of a record; of several with one name, the first. -/
def field? (name : String) : Data → Option Data
  | record fields => fields.lookup name
  | _ => none

end Data

end AsyncModule
