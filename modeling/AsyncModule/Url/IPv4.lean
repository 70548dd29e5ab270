import AsyncModule.Text
import AsyncModule.Url.Percent

/-!
# AsyncModule.Url.IPv4

IPv4 addresses as hosts. A host whose last label is a number must be an address of at most four
numbers, each decimal, octal (leading `0`) or hexadecimal (leading `0x`), the last of which
fills all the bytes that the others leave.
-/

namespace AsyncModule.Url.IPv4

open AsyncModule.Text

def radix : List Char → Nat × List Char
  | '0' :: 'x' :: ds => (16, ds)
  | '0' :: 'X' :: ds => (16, ds)
  | '0' :: d :: ds => (8, d :: ds)
  | ds => (10, ds)

def digit? (base : Nat) (c : Char) : Option Nat :=
  (Percent.hexValue? c).filter (· < base)

/-- A number with its leading marks; `0x` alone is zero. -/
def number? (label : List Char) : Option Nat :=
  if label.isEmpty then none
  else
    let (base, ds) := radix label
    (ds.mapM (digit? base)).map (·.foldl (fun n d => n * base + d) 0)

def labels (host : List Char) : List (List Char) :=
  let parts := fields (· == '.') host
  match parts.reverse with
  | [] :: front => front.reverse
  | _ => parts

/-- Whether a host has to be read as an address. -/
def endsInNumber (host : List Char) : Bool :=
  match (labels host).getLast? with
  | none => false
  | some last => (!last.isEmpty && last.all Char.isDigit) || (number? last).isSome

def ofHost? (host : List Char) : Option UInt32 := do
  let numbers ← (labels host).mapM number?
  let last ← numbers.getLast?
  let high := numbers.dropLast
  if 3 < high.length || high.any (255 < ·) || Nat.pow 256 (4 - high.length) ≤ last then none
  else
    some (UInt32.ofNat
      (high.zipIdx.foldr (fun (n, i) rest => n * Nat.pow 256 (3 - i) + rest) last))

def bytes (a : UInt32) : List Nat :=
  [a.toNat / 16777216, a.toNat / 65536 % 256, a.toNat / 256 % 256, a.toNat % 256]

def toString (a : UInt32) : String := joinWith "." ((bytes a).map Nat.repr)

end AsyncModule.Url.IPv4
