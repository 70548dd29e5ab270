import AsyncModule.Url.Basic

/-!
# AsyncModule.Url.Parser

Reading URLs and resolving references against a base, after the URL standard. `Url.parse` reads
a text that must name its scheme; `Url.join` reads one that may leave out whatever it shares with
the base.
-/

namespace AsyncModule.Url

open AsyncModule.Text

namespace Parser

/-- Controls and spaces around a URL, and tabs and line breaks anywhere in it, do not count. -/
def clean (s : String) : List Char :=
  (strip (·.toNat ≤ 0x20) s.toList).filter (!isTabOrBreak ·)

def isSchemeChar (c : Char) : Bool := c.isAlphanum || c == '+' || c == '-' || c == '.'

def scheme? (input : List Char) : Option (String × List Char) :=
  match input with
  | c :: _ =>
    if c.isAlpha then
      match input.dropWhile isSchemeChar with
      | ':' :: rest =>
        some (String.ofList ((input.takeWhile isSchemeChar).map Char.toLower), rest)
      | _ => none
    else none
  | [] => none

def endsPath (c : Char) : Bool := c == '?' || c == '#'

def cutPath (input : List Char) : List Char × List Char :=
  (input.takeWhile (!endsPath ·), input.dropWhile (!endsPath ·))

def encoded (set : Percent.Set) (cs : List Char) : String :=
  String.ofList (Percent.encode set cs)

def readSuffix (kind : SchemeKind) (rest : List Char) : Option String × Option String :=
  let querySet := if kind == .other then Percent.query else Percent.specialQuery
  match rest with
  | '?' :: rest =>
    (some (encoded querySet (rest.takeWhile (· ≠ '#'))),
      match rest.dropWhile (· ≠ '#') with
      | _ :: fragment => some (encoded Percent.fragment fragment)
      | [] => none)
  | '#' :: rest => (none, some (encoded Percent.fragment rest))
  | _ => (none, none)

def withSuffix (u : Url) (rest : List Char) : Url :=
  let (query, fragment) := readSuffix u.kind rest
  { u with query, fragment }

structure Credentials where
  username : String
  password : String

def endsAuthority (kind : SchemeKind) (c : Char) : Bool :=
  kind.isSlash c || endsPath c

/-- The text before the last `@`, and the text after it. -/
def lastAt? (cs : List Char) : Option (List Char × List Char) :=
  let back := cs.reverse
  match back.dropWhile (· ≠ '@') with
  | [] => none
  | _ :: front => some (front.reverse, (back.takeWhile (· ≠ '@')).reverse)

/-- Credentials, and the input from the host on. A lone `@` needs a host behind it. -/
def readCredentials (kind : SchemeKind) (input : List Char) :
    Except Error (Credentials × List Char) :=
  let area := input.takeWhile (!endsAuthority kind ·)
  let rest := input.dropWhile (!endsAuthority kind ·)
  match lastAt? area with
  | none => .ok (⟨"", ""⟩, input)
  | some (info, host) =>
    if info.isEmpty && host.isEmpty && !rest.isEmpty then .error .emptyHost
    else
      .ok (⟨encoded Percent.userinfo (info.takeWhile (· ≠ ':')),
            encoded Percent.userinfo ((info.dropWhile (· ≠ ':')).drop 1)⟩, host ++ rest)

/-- The host text and what follows it; a colon ends it unless brackets are open. -/
def cutHost (kind : SchemeKind) : Bool → List Char → List Char × List Char
  | _, [] => ([], [])
  | inside, c :: rest =>
    if (c == ':' && !inside) || endsAuthority kind c then ([], c :: rest)
    else
      let (host, rest) := cutHost kind (if c == '[' then true else if c == ']' then false else inside) rest
      (c :: host, rest)

def readPort (scheme : String) (input : List Char) : Except Error (Option Nat × List Char) :=
  let digits := input.takeWhile Char.isDigit
  let rest := input.dropWhile Char.isDigit
  let n := digits.foldl (fun n c => n * 10 + (c.toNat - 0x30)) 0
  let ended := match rest with
    | [] => true
    | c :: _ => ['/', '\\', '?', '#'].contains c
  if 65535 < n || !ended then .error .invalidPort
  else if digits.isEmpty || defaultPort? scheme == some n then .ok (none, rest)
  else .ok (some n, rest)

def readHost (kind : SchemeKind) (text : List Char) : Except Error Host :=
  if kind == .other then Host.parseVerbatim text
  else if text.isEmpty then .error .emptyHost
  else Host.parse text

/-- The port that may follow the host of an authority, and what follows it. -/
def readPortAfter (scheme : String) (hostText input : List Char) :
    Except Error (Option Nat × List Char) :=
  match input with
  | ':' :: rest => if hostText.isEmpty then .error .emptyHost else readPort scheme rest
  | _ => .ok (none, input)

/-- What follows `scheme://`; nobody but a host can have a name and a password. -/
def readAuthority (scheme : String) (input : List Char) : Except Error Url := do
  let kind := SchemeKind.ofScheme scheme
  let (credentials, input) ← readCredentials kind input
  let (hostText, input) := cutHost kind false input
  let host ← readHost kind hostText
  let (port, input) ← readPortAfter scheme hostText input
  let nobody := credentials.username.isEmpty && credentials.password.isEmpty
  if hostText.isEmpty && !nobody then .error .emptyHost
  else
    let (pathText, rest) := cutPath input
    .ok (withSuffix
      { scheme, username := credentials.username, password := credentials.password
        host := some host, port, path := Path.ofText kind pathText
        query := none, fragment := none } rest)

def fileUrl (host : Host) (path : Path) : Url :=
  { scheme := "file", username := "", password := "", host := some host, port := none, path
    query := none, fragment := none }

/-- The host of a file URL. This machine need not be named, and is not when a drive is. -/
def readFileHost (text : List Char) : Except Error Host :=
  if Path.isDrive (String.ofList text) || text.isEmpty then .ok Host.empty
  else
    match Host.parse text with
    | .ok (.name "localhost") => .ok Host.empty
    | result => result

/-- What follows `file://`: a host, unless a drive stands in its place. -/
def readFileAuthority (input : List Char) : Except Error Url := do
  let hostText := input.takeWhile (!endsAuthority .file ·)
  let rest := input.dropWhile (!endsAuthority .file ·)
  let host ← readFileHost hostText
  let (pathText, rest) := cutPath (if Path.isDrive (String.ofList hostText) then input else rest)
  let trail := Path.follow .file []
    (if host == Host.empty then pathText else Path.afterSlash .file pathText)
  .ok (withSuffix (fileUrl (if trail.drive then Host.empty else host) (trail.path .file)) rest)

/-- A reference that begins with one slash, against a file base. -/
def readFileRooted (base : Option Url) (input : List Char) : Url :=
  let (pathText, rest) := cutPath input
  let (host, stack) :=
    match base with
    | none => (Host.empty, [])
    | some b =>
      if Path.beginsWithDrive input then (Host.empty, [])
      else
        match b.segments.head? with
        | some first =>
          if Path.isNormalDrive first then (Host.empty, [first])
          else (b.host.getD Host.empty, [])
        | none => (b.host.getD Host.empty, [])
  withSuffix (fileUrl host ((Path.follow .file stack pathText).path .file)) rest

/-- Walk a path text from the directory of a base; a base that ends in a drive goes on from it. -/
def walkFrom (b : Url) (pathText : List Char) : Path :=
  let kind := b.kind
  match b.segments.reverse with
  | [] => (Path.follow kind [] pathText).path kind
  | last :: directory =>
    if kind == .file && Path.isNormalDrive last then
      if directory.isEmpty then (Path.follow kind [last] pathText).path kind
      else
        (Path.Trail.walkFrom kind ⟨directory, false⟩ last
          (Path.segmentsOf kind pathText)).path kind
    else (Path.follow kind directory pathText).path kind

/-- A reference that begins with a path, a query or nothing, against any base. -/
def readPathless (b : Url) (input : List Char) : Url :=
  match input with
  | [] => { b with fragment := none }
  | '?' :: _ => withSuffix b input
  | '#' :: rest => { b with fragment := some (encoded Percent.fragment rest) }
  | _ =>
    let (pathText, rest) := cutPath input
    withSuffix { b with path := walkFrom b pathText } rest

/-- What follows `file:`, or a reference against a file base. -/
def readFile (base : Option Url) (input : List Char) : Except Error Url :=
  match input with
  | a :: b :: rest =>
    if SchemeKind.file.isSlash a then
      if SchemeKind.file.isSlash b then readFileAuthority rest
      else .ok (readFileRooted base (b :: rest))
    else .ok (readFileRelative base (a :: b :: rest))
  | [a] =>
    if SchemeKind.file.isSlash a then .ok (readFileRooted base [])
    else .ok (readFileRelative base [a])
  | [] => .ok (readFileRelative base [])
where
  /-- A drive starts afresh; anything else goes on from the base. -/
  readFileRelative (base : Option Url) (input : List Char) : Url :=
    let afresh :=
      let (pathText, rest) := cutPath input
      withSuffix (fileUrl Host.empty ((Path.follow .file [] pathText).path .file)) rest
    match base with
    | none => afresh
    | some b =>
      match input with
      | c :: _ =>
        if !endsPath c && Path.beginsWithDrive input then afresh else readPathless b input
      | [] => readPathless b input

def readRelative (b : Url) (input : List Char) : Except Error Url :=
  let isSlash := SchemeKind.web.isSlash
  let slashes := (input.takeWhile isSlash).length
  match input with
  | c :: rest =>
    if isSlash c then
      if 2 ≤ slashes then
        readAuthority b.scheme
          (match input with
            | '/' :: '/' :: after => after
            | _ => input.dropWhile isSlash)
      else
        let (pathText, rest) := cutPath rest
        .ok (withSuffix { b with path := (Path.follow b.kind [] pathText).path b.kind } rest)
    else .ok (readPathless b input)
  | [] => .ok (readPathless b input)

/-- What follows a scheme that is neither of the web nor `file`. -/
def readOther (scheme : String) (input : List Char) : Except Error Url :=
  match input with
  | '/' :: '/' :: rest => readAuthority scheme rest
  | _ =>
    let (pathText, rest) := cutPath input
    let path :=
      match pathText with
      | '/' :: text => (Path.follow .other [] text).path .other
      | _ => .rootless (encoded Percent.control pathText)
    .ok (withSuffix
      { scheme, username := "", password := "", host := none, port := none, path
        query := none, fragment := none } rest)

def read (base : Option Url) (text : String) : Except Error Url :=
  let input := clean text
  match scheme? input with
  | some (scheme, rest) =>
    match SchemeKind.ofScheme scheme with
    | .file => readFile (base.filter (·.scheme == "file")) rest
    | .other => readOther scheme rest
    | .web =>
      let isSlash := SchemeKind.web.isSlash
      let slashes := (rest.takeWhile isSlash).length
      match base.filter (·.scheme == scheme) with
      | some b =>
        if slashes < 2 then readRelative b rest
        else readAuthority scheme (rest.dropWhile isSlash)
      | none => readAuthority scheme (rest.dropWhile isSlash)
  | none =>
    match base with
    | none => .error .relativeWithoutBase
    | some b =>
      match input with
      | '#' :: rest => .ok { b with fragment := some (encoded Percent.fragment rest) }
      | _ =>
        if b.isRootless then .error .relativeToRootless
        else if b.kind == .file then readFile (some b) input
        else readRelative b input

end Parser

def parse (text : String) : Except Error Url := Parser.read none text

def join (base : Url) (reference : String) : Except Error Url := Parser.read (some base) reference

end AsyncModule.Url
