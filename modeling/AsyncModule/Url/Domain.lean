import AsyncModule.Text.Utf8
import AsyncModule.Unicode.Direction
import AsyncModule.Unicode.Joining
import AsyncModule.Url.Domain.Mapping
import AsyncModule.Url.Punycode

/-!
# AsyncModule.Url.Domain

Domain names in their ASCII form, by UTS #46 with non-transitional processing: characters are
mapped and normalized, each label is checked, and labels beyond ASCII are written in Punycode.
A name of ASCII letters without a Punycode label only has its letters lowered.
-/

namespace AsyncModule.Url.Domain

open AsyncModule.Text
open AsyncModule.Unicode

def isForbidden (c : Char) : Bool :=
  c.toNat ≤ 0x20 || c.toNat == 0x7F ||
    ['%', '#', '/', ':', '<', '>', '?', '@', '[', '\\', ']', '^', '|'].contains c

def isAscii (c : Char) : Bool := c.toNat < 0x80

def mark : List Char := ['x', 'n', '-', '-']

/-- Whether lowering the letters of a name is all there is to do. -/
def isPlain (name : List Char) : Bool :=
  name.all isAscii &&
    (fields (· == '.') (name.map Char.toLower)).all fun l => !mark.isPrefixOf l

def mapped? (name : List Char) : Option (List Char) :=
  (name.mapM mapChar).map fun parts => Normal.normalize parts.flatten

/-- The label behind a Punycode label: it must need Punycode and be in mapped form already. -/
def decodeLabel? (label : List Char) : Option (List Char) :=
  if mark.isPrefixOf label then do
    let rest := label.drop mark.length
    let full ← if rest.all isAscii then Punycode.decode rest else none
    if full.all isAscii || !full.all isKept || full.any (·.isUpper) then none
    else if Normal.normalize full == full then some full
    else none
  else some label

/-- What holds of a label by itself. -/
def isValidLabel (label : List Char) : Bool :=
  label.all (fun c => !isForbidden c) && !label.head?.any isMark && Joining.admits [] label

/-- A name with a right-to-left character keeps the bidi rule in every label. -/
def isReadable (labels : List (List Char)) : Bool :=
  let directions := labels.map (·.map Direction.ofChar)
  !directions.any (·.any Direction.isRightward) || directions.all Direction.admits

def foldLabel (label : List Char) : List Char :=
  if label.all isAscii then label else mark ++ Punycode.encode label

def toAscii? (name : List Char) : Option (List Char) :=
  if isPlain name then
    if name.any isForbidden then none else some (name.map Char.toLower)
  else do
    let whole ← mapped? name
    let labels ← (fields (· == '.') whole).mapM decodeLabel?
    if labels.all isValidLabel && isReadable labels then
      some (List.intercalate ['.'] (labels.map foldLabel))
    else none

def ofBytes? (bytes : List UInt8) : Option (List Char) := (Utf8.decode? bytes).bind toAscii?

end AsyncModule.Url.Domain
