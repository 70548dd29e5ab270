import AsyncModule.Text.Utf8

/-!
# AsyncModule.Url.Percent

Percent-encoding. A `Set` says which ASCII characters are written as `%XX`; characters beyond
ASCII are always written so, byte by byte. The sets are those of the URL standard.
-/

namespace AsyncModule.Url.Percent

open AsyncModule.Text

/-- Which ASCII characters an encoder escapes. -/
abbrev Set := Char → Bool

def control : Set := fun c => c.toNat < 0x20 || c.toNat == 0x7F

def fragment : Set := fun c => control c || [' ', '"', '<', '>', '`'].contains c

def query : Set := fun c => control c || [' ', '"', '#', '<', '>'].contains c

def specialQuery : Set := fun c => query c || c == '\''

def path : Set := fun c => fragment c || ['#', '?', '\x7b', '\x7d'].contains c

/-- A path segment made from a plain name: separators and percent signs are escaped too. -/
def segment : Set := fun c => path c || ['/', '%', '\\'].contains c

def userinfo : Set :=
  fun c => path c || ['/', ':', ';', '=', '@', '[', '\\', ']', '^', '|'].contains c

def hexDigit (n : Nat) : Char := if n < 10 then Char.ofNat (0x30 + n) else Char.ofNat (0x37 + n)

def hexValue? (c : Char) : Option Nat :=
  if '0' ≤ c && c ≤ '9' then some (c.toNat - 0x30)
  else if 'A' ≤ c && c ≤ 'F' then some (c.toNat - 0x37)
  else if 'a' ≤ c && c ≤ 'f' then some (c.toNat - 0x57)
  else none

def escape (b : UInt8) : List Char := ['%', hexDigit (b.toNat / 16), hexDigit (b.toNat % 16)]

def encodeChar (set : Set) (c : Char) : List Char :=
  if c.toNat < 0x80 && !set c then [c] else (String.utf8EncodeChar c).flatMap escape

def encode (set : Set) (cs : List Char) : List Char := cs.flatMap (encodeChar set)

def decode : List UInt8 → List UInt8
  | [] => []
  | [a] => [a]
  | [a, b] => [a, b]
  | a :: b :: c :: rest =>
    if a == 0x25 then
      match hexValue? (Char.ofNat b.toNat), hexValue? (Char.ofNat c.toNat) with
      | some hi, some lo => UInt8.ofNat (hi * 16 + lo) :: decode rest
      | _, _ => a :: decode (b :: c :: rest)
    else a :: decode (b :: c :: rest)

def decodeText (s : String) : List UInt8 := decode (Utf8.encode s.toList)

end AsyncModule.Url.Percent
