import AsyncModule.Text
import AsyncModule.Url.Percent

/-!
# AsyncModule.Url.Path

Paths and how a reference walks them. A rooted path is a list of segments, each written after a
slash, so `/` is one empty segment and the empty list is no path at all; a rootless path is plain
text that no reference can be resolved against.

Walking goes segment by segment: `.` stays, `..` climbs, any other segment is entered. A segment
that names a drive, such as `C:`, is not left by climbing.
-/

namespace AsyncModule.Url

open AsyncModule.Text

/-- How a scheme reads what follows it. -/
inductive SchemeKind where
  | file
  | web
  | other
  deriving DecidableEq, Repr

namespace SchemeKind

def ofScheme (scheme : String) : SchemeKind :=
  if scheme == "file" then .file
  else if ["http", "https", "ws", "wss", "ftp"].contains scheme then .web
  else .other

/-- Schemes for which a backslash separates like a slash. -/
def isSlash (kind : SchemeKind) (c : Char) : Bool :=
  c == '/' || (c == '\\' && kind != .other)

end SchemeKind

inductive Path where
  | rooted (segments : List String)
  | rootless (text : String)
  deriving DecidableEq, Repr

namespace Path

def toString : Path → String
  | .rooted segments => String.join (segments.map ("/" ++ ·))
  | .rootless text => text

def isHere (segment : String) : Bool :=
  [".", "%2e"].contains (String.ofList (segment.toList.map Char.toLower))

def isParent (segment : String) : Bool :=
  ["..", "%2e.", ".%2e", "%2e%2e"].contains
    (String.ofList (segment.toList.map Char.toLower))

/-- A letter and a colon or bar, then nothing or a separator. -/
def beginsWithDrive : List Char → Bool
  | a :: b :: rest =>
    a.isAlpha && (b == ':' || b == '|') &&
      (match rest with
        | [] => true
        | c :: _ => ['/', '\\', '?', '#'].contains c)
  | _ => false

def isDrive (segment : String) : Bool :=
  segment.toList.length == 2 && beginsWithDrive segment.toList

def isNormalDrive (segment : String) : Bool :=
  isDrive segment && segment.toList.getLast? == some ':'

def normalDrive (segment : String) : String := String.ofList (segment.toList.take 1 ++ [':'])

/-- How far a walk has come: the segments entered, innermost first, and whether a drive was
entered at the root. -/
structure Trail where
  stack : List String
  drive : Bool
  deriving DecidableEq, Repr

namespace Trail

/-- Leave the innermost segment, unless it is a drive. -/
def climb (t : Trail) : Trail :=
  match t.stack with
  | [] => t
  | top :: rest => if beginsWithDrive (top.toList ++ ['/']) then t else { t with stack := rest }

def enter (kind : SchemeKind) (t : Trail) (segment : String) : Trail :=
  if kind == .file && t.stack.isEmpty && isDrive segment then
    { stack := [normalDrive segment], drive := true }
  else { t with stack := segment :: t.stack }

/-- Follow a segment that a slash ends. -/
def pass (kind : SchemeKind) (t : Trail) (segment : String) : Trail :=
  if isParent segment then t.climb
  else if isHere segment then t
  else t.enter kind segment

/-- Follow the last segment; a path that ends by staying or climbing ends in a slash. -/
def finish (kind : SchemeKind) (t : Trail) (segment : String) : Trail :=
  if isParent segment then { t.climb with stack := "" :: t.climb.stack }
  else if isHere segment then { t with stack := "" :: t.stack }
  else t.enter kind segment

def walk (kind : SchemeKind) (t : Trail) : List String → Trail
  | [] => t
  | [last] => t.finish kind last
  | segment :: rest => (t.pass kind segment).walk kind rest

def walkFrom (kind : SchemeKind) (t : Trail) (stem : String) : List String → Trail
  | [] => { t with stack := stem :: t.stack }
  | segment :: rest =>
    let stay := { t with stack := stem :: t.stack }
    let next :=
      if isParent segment then stay
      else if isHere segment then (if rest.isEmpty then { stay with stack := "" :: stay.stack } else stay)
      else { t with stack := (stem ++ segment) :: t.stack }
    if rest.isEmpty then next else next.walk kind rest

/-- File paths do not begin with empty segments. -/
def dropEmpty : List String → List String
  | "" :: s :: rest => dropEmpty (s :: rest)
  | segments => segments

def path (kind : SchemeKind) (t : Trail) : Path :=
  let segments := t.stack.reverse
  .rooted (if kind == .file then dropEmpty segments else segments)

end Trail

def segmentsOf (kind : SchemeKind) (text : List Char) : List String :=
  (fields kind.isSlash text).map fun f => String.ofList (Percent.encode Percent.path f)

def follow (kind : SchemeKind) (stack : List String) (text : List Char) : Trail :=
  Trail.walk kind ⟨stack, false⟩ (segmentsOf kind text)

def afterSlash (kind : SchemeKind) (text : List Char) : List Char :=
  match text with
  | c :: rest => if kind.isSlash c then rest else text
  | [] => []

def ofText (kind : SchemeKind) (text : List Char) : Path :=
  if kind == .other && text.isEmpty then .rooted []
  else (follow kind [] (afterSlash kind text)).path kind

end Path

end AsyncModule.Url
