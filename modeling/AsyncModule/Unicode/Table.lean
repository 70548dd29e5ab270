import AsyncModule.Text
import AsyncModule.Url.Percent

/-!
# AsyncModule.Unicode.Table

Tables of code points kept as text: entries of hexadecimal numbers, separated by blanks.
-/

namespace AsyncModule.Unicode

open AsyncModule.Text

def entries (text : String) : List (List Char) :=
  (fields isBlank text.toList).filter (!·.isEmpty)

/-- The numbers of an entry, whatever stands between them. -/
def numbers (entry : List Char) : List Nat :=
  (fields (fun c => (Url.Percent.hexValue? c).isNone) entry).map
    (·.foldl (fun n c => n * 16 + (Url.Percent.hexValue? c).getD 0) 0)

/-- The code points from `first` to `last`. -/
structure Range where
  first : Nat
  last : Nat
  deriving Repr

namespace Range

def mem (r : Range) (n : Nat) : Bool := r.first ≤ n && n ≤ r.last

def anyMem (rs : List Range) (n : Nat) : Bool := rs.any (·.mem n)

/-- A table of ranges `a-b` and single code points `a`. -/
def ofText (text : String) : List Range :=
  (entries text).filterMap fun e =>
    match numbers e with
    | [a] => some ⟨a, a⟩
    | [a, b] => some ⟨a, b⟩
    | _ => none

def tagged (text : String) : List (Range × Nat) :=
  (entries text).filterMap fun e =>
    match numbers e with
    | [a, k] => some (⟨a, a⟩, k)
    | [a, b, k] => some (⟨a, b⟩, k)
    | _ => none

end Range

/-- A run of code points, every one or every second, that moves as a whole to `target`. -/
structure Shift where
  range : Range
  everySecond : Bool
  target : Nat
  deriving Repr

namespace Shift

def ofText (text : String) : List Shift :=
  (entries text).filterMap fun e =>
    match numbers e with
    | [a, t] => some ⟨⟨a, a⟩, false, t⟩
    | [a, b, t] => some ⟨⟨a, b⟩, e.contains '~', t⟩
    | _ => none

def find? (shifts : List Shift) (n : Nat) : Option Nat :=
  (shifts.find? fun s =>
    s.range.mem n && (!s.everySecond || (n - s.range.first) % 2 == 0)).map
      fun s => s.target + (n - s.range.first)

end Shift

def expansions (text : String) : List (Nat × List Nat) :=
  (entries text).filterMap fun e =>
    match numbers e with
    | a :: bs => some (a, bs)
    | [] => none

def triples (text : String) : List (Nat × Nat × Nat) :=
  (entries text).filterMap fun e =>
    match numbers e with
    | [a, b, c] => some (a, b, c)
    | _ => none

end AsyncModule.Unicode
