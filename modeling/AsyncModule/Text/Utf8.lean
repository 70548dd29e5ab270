/-!
# AsyncModule.Text.Utf8

UTF-8 as lists of bytes. `decodeLossy` reads any bytes and puts U+FFFD in the place of each
longest piece that begins a character without completing it; `decode?` accepts well-formed text
only.
-/

namespace AsyncModule.Text.Utf8

def encode (cs : List Char) : List UInt8 := cs.flatMap String.utf8EncodeChar

def isContinuation (b : UInt8) : Bool := 0x80 ≤ b && b ≤ 0xBF

/-- The bytes that may follow a lead byte, and how many continuation bytes come in all. -/
def lead (b : UInt8) : Option (UInt8 × UInt8 × Nat) :=
  if 0xC2 ≤ b && b ≤ 0xDF then some (0x80, 0xBF, 1)
  else if b == 0xE0 then some (0xA0, 0xBF, 2)
  else if b == 0xED then some (0x80, 0x9F, 2)
  else if 0xE1 ≤ b && b ≤ 0xEF then some (0x80, 0xBF, 2)
  else if b == 0xF0 then some (0x90, 0xBF, 3)
  else if 0xF1 ≤ b && b ≤ 0xF3 then some (0x80, 0xBF, 3)
  else if b == 0xF4 then some (0x80, 0x8F, 3)
  else none

/-- The payload bits of a lead byte that announces `k` continuation bytes. -/
def leadBits (b : UInt8) (k : Nat) : Nat := b.toNat % Nat.pow 2 (6 - k)

def extend (acc : Nat) (b : UInt8) : Nat := acc * 64 + b.toNat % 64

/-- One character, or `none` for a broken piece, and how many bytes after the first it takes. -/
def item (b : UInt8) (rest : List UInt8) : Option Char × Nat :=
  if b < 0x80 then (some (Char.ofNat b.toNat), 0)
  else
    match lead b with
    | none => (none, 0)
    | some (lo, hi, k) =>
      match rest with
      | [] => (none, 0)
      | c :: more =>
        if c < lo || hi < c then (none, 0)
        else
          let tail := (more.take (k - 1)).takeWhile isContinuation
          if tail.length + 1 == k then
            (some (Char.ofNat ((c :: tail).foldl extend (leadBits b k))), k)
          else (none, tail.length + 1)

def items : List UInt8 → List (Option Char)
  | [] => []
  | b :: rest =>
    let (c, k) := item b rest
    c :: items (rest.drop k)
termination_by bytes => bytes.length
decreasing_by simp only [List.length_cons, List.length_drop]; omega

def decodeLossy (bytes : List UInt8) : List Char :=
  (items bytes).map (·.getD (Char.ofNat 0xFFFD))

def decode? (bytes : List UInt8) : Option (List Char) := (items bytes).mapM id

end AsyncModule.Text.Utf8
