import AsyncModule.Data

/-!
# AsyncModule.Toml.Table

Tables under construction. A name is given once. How a table came about decides what may be added
to it: a header opens a table once, and a dotted key goes through no table that has a header.

* `define_isSome_iff` — which names of a table can be defined: those it does not have.
-/

namespace AsyncModule.Toml

/-- How a table came about. -/
inductive Origin where
  /-- By a header of its own, or as the document. -/
  | header
  /-- By the header of a table inside. -/
  | implied
  /-- By a dotted key. -/
  | dotted
  deriving DecidableEq, Repr

/-- What a name in a table stands for; the elements of a list of tables come last first. -/
inductive Item where
  | value (d : Data)
  | table (origin : Origin) (entries : List (String × Item))
  | tables (earlier : List (List (String × Item))) (last : List (String × Item))

abbrev Entries := List (String × Item)

namespace Entries

def set (es : Entries) (name : String) (item : Item) : Entries :=
  if es.any (·.1 == name) then es.map fun e => if e.1 == name then (name, item) else e
  else es ++ [(name, item)]

/-- Change the table at the end of a path. Tables that are missing are made; a list of tables
stands for its last element. -/
def descend (dotted : Bool) (change : Origin → Entries → Option Entries) :
    List String → Origin → Entries → Option Entries
  | [], origin, es => change origin es
  | name :: path, _, es =>
    match es.lookup name with
    | none =>
      let origin : Origin := if dotted then .dotted else .implied
      (descend dotted change path origin []).map fun sub => es.set name (.table origin sub)
    | some (.value _) => none
    | some (.table origin sub) =>
      if dotted && origin == .header then none
      else (descend dotted change path origin sub).map fun sub => es.set name (.table origin sub)
    | some (.tables earlier last) =>
      (descend dotted change path .header last).map fun last => es.set name (.tables earlier last)

def define (es : Entries) (name : String) (d : Data) : Option Entries :=
  match es.lookup name with
  | none => some (es.set name (.value d))
  | some _ => none

def insert (es : Entries) (path : List String) (name : String) (d : Data) : Option Entries :=
  es.descend true
    (fun origin es =>
      if (origin == .dotted) == path.isEmpty then none else es.define name d) path .header

def openTable (es : Entries) (path : List String) (name : String) : Option Entries :=
  es.descend false
    (fun _ es =>
      match es.lookup name with
      | none => some (es.set name (.table .header []))
      | some (.table .implied sub) => some (es.set name (.table .header sub))
      | some _ => none) path .header

def openElement (es : Entries) (path : List String) (name : String) : Option Entries :=
  es.descend false
    (fun _ es =>
      match es.lookup name with
      | none => some (es.set name (.tables [] []))
      | some (.tables earlier last) => some (es.set name (.tables (last :: earlier) []))
      | some _ => none) path .header

theorem define_isSome_iff (es : Entries) (name : String) (d : Data) :
    (es.define name d).isSome ↔ es.lookup name = none := by
  simp only [define]
  split <;> rename_i h <;> simp [h]

end Entries

/-! ## Tables as data -/

mutual

def Item.toData : Item → Data
  | .value d => d
  | .table _ es => .record (fieldsOf es)
  | .tables earlier last => .list (recordsOf earlier [.record (fieldsOf last)])

def fieldsOf : List (String × Item) → List (String × Data)
  | [] => []
  | (name, item) :: es => (name, item.toData) :: fieldsOf es

/-- Tables as records in reverse, in front of others. -/
def recordsOf : List (List (String × Item)) → List Data → List Data
  | [], ds => ds
  | es :: earlier, ds => recordsOf earlier (.record (fieldsOf es) :: ds)

end

def Entries.toData (es : Entries) : Data := .record (fieldsOf es)

end AsyncModule.Toml
