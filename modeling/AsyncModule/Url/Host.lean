import AsyncModule.Url.Domain
import AsyncModule.Url.IPv4
import AsyncModule.Url.IPv6

/-!
# AsyncModule.Url.Host

The host of a URL: a name, or an address. Schemes of the web read names as domain names and
numbers as IPv4 addresses; other schemes take a host as it stands.
-/

namespace AsyncModule.Url

/-- Why a text is not a URL. -/
inductive Error where
  | relativeWithoutBase
  | relativeToRootless
  | emptyHost
  | invalidPort
  | invalidIPv4
  | invalidIPv6
  | invalidDomain
  | invalidHostCharacter
  deriving DecidableEq, Repr

def Error.message : Error → String
  | .relativeWithoutBase => "relative URL without a base"
  | .relativeToRootless => "relative URL with a cannot-be-a-base base"
  | .emptyHost => "empty host"
  | .invalidPort => "invalid port number"
  | .invalidIPv4 => "invalid IPv4 address"
  | .invalidIPv6 => "invalid IPv6 address"
  | .invalidDomain => "invalid international domain name"
  | .invalidHostCharacter => "invalid domain character"

inductive Host where
  | name (text : String)
  | ipv4 (address : UInt32)
  | ipv6 (pieces : List Nat)
  deriving DecidableEq, Repr

namespace Host

def empty : Host := .name ""

def toString : Host → String
  | .name text => text
  | .ipv4 address => IPv4.toString address
  | .ipv6 pieces => "[" ++ IPv6.toString pieces ++ "]"

/-- An address in brackets, when the text opens one. -/
def bracketed? (text : List Char) : Option (Except Error Host) :=
  match text with
  | '[' :: rest =>
    if rest.getLast? == some ']' then
      match IPv6.ofText? rest.dropLast with
      | some pieces => some (.ok (.ipv6 pieces))
      | none => some (.error .invalidIPv6)
    else some (.error .invalidIPv6)
  | _ => none

def parse (text : List Char) : Except Error Host :=
  match bracketed? text with
  | some result => result
  | none =>
    match Domain.ofBytes? (Percent.decode (Text.Utf8.encode text)) with
    | none => .error .invalidDomain
    | some [] => .error .emptyHost
    | some domain =>
      if IPv4.endsInNumber domain then
        match IPv4.ofHost? domain with
        | some address => .ok (.ipv4 address)
        | none => .error .invalidIPv4
      else .ok (.name (String.ofList domain))

def isForbidden (c : Char) : Bool :=
  c == Char.ofNat 0 ||
    ['\t', '\n', '\r', ' ', '#', '/', ':', '<', '>', '?', '@', '[', '\\', ']', '^', '|'].contains c

def parseVerbatim (text : List Char) : Except Error Host :=
  match bracketed? text with
  | some result => result
  | none =>
    if text.any isForbidden then .error .invalidHostCharacter
    else .ok (.name (String.ofList (Percent.encode Percent.control text)))

end Host

end AsyncModule.Url
