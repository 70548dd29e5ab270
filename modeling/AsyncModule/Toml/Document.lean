import AsyncModule.Toml.Scalar
import AsyncModule.Toml.Table

/-!
# AsyncModule.Toml.Document

TOML documents: lists, inline tables and the lines of a document, and what a document says as
data. Values nest less than 80 deep, and no dotted key has 80 names.
-/

namespace AsyncModule.Toml

open AsyncModule.Text

def depthLimit : Nat := 80

/-! ## Blanks and comments -/

def comment : Parser Unit
  | '#' :: cs => some ((), cs.dropWhile isPlain)
  | _ => none

def endOfLine : Parser Unit
  | [] => some ((), [])
  | cs => lineBreak cs

/-- Spaces, comments and line breaks inside of a list. -/
def filler (cs : List Char) : List Char :=
  let space : Parser Unit := .map (fun _ => ()) (.one isSpace)
  let brk : Parser Unit := fun cs => lineBreak (Parser.skip comment cs)
  (Parser.many (.orElse space brk) cs).2

/-! ## Keys -/

def isBareKey (c : Char) : Bool :=
  c.isAlphanum || c == '-' || c == '_'

def keyName : Parser String := fun cs =>
  let bare : Parser String := .map String.ofList (.run1 isBareKey)
  match Parser.orElse basicString (.orElse literalString bare) (cs.dropWhile isSpace) with
  | some (name, rest) => some (name, rest.dropWhile isSpace)
  | none => none

def key : Parser (List String × String) := fun cs =>
  match Parser.sepBy1 (.literal ['.']) keyName cs with
  | some (names, rest) =>
    match names.reverse with
    | last :: path =>
      if names.length < depthLimit then some ((path.reverse, last), rest) else none
    | [] => none
  | none => none

def pair (value : Parser Data) : Parser ((List String × String) × Data) := fun cs => do
  let (k, cs) ← key cs
  let (_, cs) ← Parser.literal ['='] cs
  let (d, cs) ← value (cs.dropWhile isSpace)
  pure ((k, d), cs.dropWhile isSpace)

/-! ## Values -/

/-- A list, over several lines if need be; a comma may follow its last item. -/
def list (value : Parser Data) : Parser Data := fun cs => do
  let (_, cs) ← Parser.literal ['['] cs
  let item : Parser Data := fun cs => do
    let (d, cs) ← value (filler cs)
    pure (d, filler cs)
  let comma : Parser Unit := .literal [',']
  let (items, cs) := (Parser.sepBy1 comma item cs).getD ([], cs)
  let cs := if items.isEmpty then cs else Parser.skip comma cs
  let (_, cs) ← Parser.literal [']'] (filler cs)
  pure (.list items, cs)

def inlineTable (value : Parser Data) : Parser Data := fun cs => do
  let (_, cs) ← Parser.literal ['{'] cs
  let (pairs, cs) := (Parser.sepBy1 (.literal [',']) (pair value) cs).getD ([], cs)
  let (_, cs) ← Parser.literal ['}'] (cs.dropWhile isSpace)
  let es ← pairs.foldlM (fun (es : Entries) ((path, name), d) => es.insert path name d) []
  pure (es.toData, cs)

def value : Nat → Parser Data
  | 0 => scalar
  | depth + 1 => .orElse (list (value depth)) (.orElse (inlineTable (value depth)) scalar)

/-! ## Documents -/

inductive Line where
  | blank
  | pair (path : List String) (name : String) (d : Data)
  | header (path : List String) (name : String)
  | element (path : List String) (name : String)

def lineContent : Parser Line := fun cs =>
  match cs with
  | '[' :: '[' :: cs => do
    let ((path, name), cs) ← key cs
    let (_, cs) ← Parser.literal [']', ']'] cs
    pure (.element path name, cs)
  | '[' :: cs => do
    let ((path, name), cs) ← key cs
    let (_, cs) ← Parser.literal [']'] cs
    pure (.header path name, cs)
  | cs =>
    match pair (value (depthLimit - 1)) cs with
    | some (((path, name), d), cs) => some (.pair path name d, cs)
    | none => some (.blank, cs)

def line : Parser Line := fun cs => do
  let (l, cs) ← lineContent (cs.dropWhile isSpace)
  let (_, cs) ← endOfLine (Parser.skip comment (cs.dropWhile isSpace))
  pure (l, cs)

/-- A document as far as it has been read, and the table that its lines define names in. -/
structure Draft where
  entries : Entries
  here : List String

/-- Read a line into a document. -/
def Draft.add (draft : Draft) : Line → Option Draft
  | .blank => some draft
  | .pair path name d => do
    let es ← draft.entries.descend false (fun _ es => es.insert path name d) draft.here .header
    pure { draft with entries := es }
  | .header path name => do
    let es ← draft.entries.openTable path name
    pure ⟨es, path ++ [name]⟩
  | .element path name => do
    let es ← draft.entries.openElement path name
    pure ⟨es, path ++ [name]⟩

/-- What a document says, a mark of byte order in front aside. -/
def parse? (text : String) : Option Data := do
  let cs := match text.toList with
    | '\ufeff' :: cs => cs
    | cs => cs
  let (lines, rest) := Parser.many line cs
  guard rest.isEmpty
  let draft ← lines.foldlM Draft.add ⟨[], []⟩
  pure draft.entries.toData

end AsyncModule.Toml
