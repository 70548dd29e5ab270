import AsyncModule.Text
import AsyncModule.Url.Percent

/-!
# AsyncModule.Url.IPv6

IPv6 addresses as eight 16-bit pieces. `ofText?` reads the text between the brackets of a host,
with at most one `::` and an optional dotted tail; `toString` writes lower-case pieces and
compresses the first longest run of at least two zeros.
-/

namespace AsyncModule.Url.IPv6

open AsyncModule.Text

def piece? (ds : List Char) : Option Nat :=
  if ds.isEmpty || 4 < ds.length then none
  else (ds.mapM Percent.hexValue?).map (·.foldl (fun n d => n * 16 + d) 0)

/-- A byte of a dotted tail: decimal, at most 255, no leading zero. -/
def byte? (ds : List Char) : Option Nat :=
  match ds with
  | [] => none
  | '0' :: _ :: _ => none
  | _ =>
    if ds.all Char.isDigit then
      let n := ds.foldl (fun n c => n * 10 + (c.toNat - 0x30)) 0
      if n ≤ 255 then some n else none
    else none

def dotted? (text : List Char) : Option (List Nat) :=
  match (fields (· == '.') text).mapM byte? with
  | some [a, b, c, d] => some [a * 256 + b, c * 256 + d]
  | _ => none

/-- Pieces separated by single colons; the last one may be dotted when `tail` allows it. -/
def pieces? (tail : Bool) : List (List Char) → Option (List Nat)
  | [] => some []
  | [last] =>
    if tail && last.contains '.' then dotted? last else (piece? last).map ([·])
  | p :: ps => do
    let n ← piece? p
    let ns ← pieces? tail ps
    pure (n :: ns)

def side? (tail : Bool) (text : List Char) : Option (List Nat) :=
  if text.isEmpty then some [] else pieces? tail (fields (· == ':') text)

def cut : List Char → List Char × Option (List Char)
  | ':' :: ':' :: rest => ([], some rest)
  | c :: rest =>
    let (front, back) := cut rest
    (c :: front, back)
  | [] => ([], none)

def ofText? (text : List Char) : Option (List Nat) :=
  match cut text with
  | (front, none) => do
    let ns ← if front.isEmpty then none else pieces? true (fields (· == ':') front)
    if ns.length == 8 then some ns else none
  | (front, some back) => do
    let xs ← side? false front
    let ys ← side? true back
    if xs.length + ys.length < 8 then
      some (xs ++ List.replicate (8 - xs.length - ys.length) 0 ++ ys)
    else none

def zeros (ns : List Nat) : Nat := (ns.takeWhile (· == 0)).length

/-- Start and length of the first longest run of zeros. -/
def longestZeros : Nat → List Nat → Nat × Nat
  | _, [] => (0, 0)
  | i, n :: ns =>
    let rest := longestZeros (i + 1) ns
    let here := zeros (n :: ns)
    if here ≥ rest.2 then (i, here) else rest

def hex (n : Nat) : String := String.ofList (Nat.toDigits 16 n)

def toString (ns : List Nat) : String :=
  let (start, count) := longestZeros 0 ns
  if count < 2 then joinWith ":" (ns.map hex)
  else
    joinWith ":" ((ns.take start).map hex) ++ "::" ++
      joinWith ":" ((ns.drop (start + count)).map hex)

end AsyncModule.Url.IPv6
