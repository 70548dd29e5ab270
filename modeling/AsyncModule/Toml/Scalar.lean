import AsyncModule.Data
import AsyncModule.Text.Parser

/-!
# AsyncModule.Toml.Scalar

The parts of a TOML document that hold no other values: strings in their four notations, whole
numbers of 64 bits, binary floating point numbers, truth values, dates and times.
-/

namespace AsyncModule.Toml

open AsyncModule.Text

def isSpace (c : Char) : Bool := c == ' ' || c == '\t'

/-- Characters that need no escape, outside of the ASCII range or in it. -/
def isPlain (c : Char) : Bool := c == '\t' || (0x20 ≤ c.toNat && c != '\x7f')

def lineBreak : Parser Unit := .orElse (.literal ['\n']) (.literal ['\r', '\n'])

/-! ## Strings -/

/-- A character given by its number in so many hexadecimal digits. -/
def charNumber (digits : Nat) : Parser Char := fun cs =>
  match Parser.count digits isHex cs with
  | none => none
  | some (ds, rest) =>
    let n := ds.foldl (fun n d => n * 16 + hexValue d) 0
    if n.isValidChar then some (Char.ofNat n, rest) else none
where
  isHex (c : Char) : Bool := c.isDigit || ('a' ≤ c && c ≤ 'f') || ('A' ≤ c && c ≤ 'F')
  hexValue (c : Char) : Nat :=
    if c.isDigit then c.toNat - 0x30 else c.toLower.toNat - 0x57

def escape : Parser Char
  | 'b' :: cs => some ('\x08', cs)
  | 't' :: cs => some ('\t', cs)
  | 'n' :: cs => some ('\n', cs)
  | 'f' :: cs => some ('\x0c', cs)
  | 'r' :: cs => some ('\r', cs)
  | '"' :: cs => some ('"', cs)
  | '\\' :: cs => some ('\\', cs)
  | 'u' :: cs => charNumber 4 cs
  | 'U' :: cs => charNumber 8 cs
  | _ => none

def basicChar : Parser Char
  | '\\' :: cs => escape cs
  | c :: cs => if isPlain c && c != '"' then some (c, cs) else none
  | [] => none

def basicString : Parser String
  | '"' :: cs =>
    match Parser.many basicChar cs with
    | (text, '"' :: rest) => some (String.ofList text, rest)
    | _ => none
  | _ => none

def literalString : Parser String
  | '\'' :: cs =>
    match Parser.run (fun c => isPlain c && c != '\'') cs with
    | (text, '\'' :: rest) => some (String.ofList text, rest)
    | _ => none
  | _ => none

/-- One or two quotes that do not belong to the end of a string of several lines. -/
def innerQuotes (q : Char) : Parser (List Char) := fun cs =>
  let (quotes, rest) := Parser.run (· == q) cs
  if quotes.length == 1 || quotes.length == 2 then some (quotes, rest) else none

/-- The end of a string of several lines: three quotes, before which two more may stand. -/
def closingQuotes (q : Char) : Parser (List Char) := fun cs =>
  let n := (cs.takeWhile (· == q)).length
  if n < 3 then none
  else
    let inner := min (n - 3) 2
    some (List.replicate inner q, cs.drop (inner + 3))

/-- A backslash that ends a line: the blanks and line breaks behind it go with it. -/
def continuation : Parser (List Char)
  | '\\' :: cs =>
    match lineBreak (cs.dropWhile isSpace) with
    | some (_, rest) =>
      let blank : Parser Unit := .orElse (.map (fun _ => ()) (.one isSpace)) lineBreak
      some ([], (Parser.many blank rest).2)
    | none => none
  | _ => none

/-- A string of several lines between tripled quotes; a line break right behind the first three is
not part of it. -/
def multiline (q : Char) (piece : Parser (List Char)) : Parser String := fun cs =>
  match Parser.literal [q, q, q] cs with
  | none => none
  | some (_, cs) =>
    let whole := Parser.orElse piece
      (.orElse (innerQuotes q) (.map (fun _ => ['\n']) lineBreak))
    let (pieces, rest) := Parser.many whole (Parser.skip lineBreak cs)
    (closingQuotes q rest).map fun (last, rest) => (String.ofList (pieces.flatten ++ last), rest)

def string : Parser String :=
  .orElse (multiline '"' (.orElse continuation (.map (fun c => [c]) basicChar)))
    (.orElse basicString
      (.orElse (multiline '\'' (.run1 fun c => isPlain c && c != '\'')) literalString))

/-! ## Numbers -/

def digits (p : Char → Bool) : Parser (List Char) := fun cs =>
  match Parser.one p cs with
  | none => none
  | some (d, rest) =>
    let (ds, rest) := Parser.many (.orElse (.one p) next) rest
    some (d :: ds, rest)
where
  next : Parser Char
    | '_' :: cs => Parser.one p cs
    | _ => none

def digitsValue (base : Nat) (ds : List Char) : Nat :=
  ds.foldl (fun n d => n * base + charNumber.hexValue d) 0

def sign : List Char → Bool × List Char
  | '+' :: cs => (false, cs)
  | '-' :: cs => (true, cs)
  | cs => (false, cs)

/-- Decimal digits without needless zeros in front. -/
def decimalDigits : Parser (List Char)
  | '0' :: cs => some (['0'], cs)
  | cs => digits Char.isDigit cs

def based (mark : Char) (base : Nat) (p : Char → Bool) : Parser Int := fun cs =>
  match Parser.literal ['0', mark] cs with
  | none => none
  | some (_, cs) => Parser.map (fun ds => (digitsValue base ds : Int)) (digits p) cs

def integer : Parser Int := fun cs =>
  let decimal : Parser Int := fun cs =>
    let (negative, cs) := sign cs
    Parser.map
      (fun ds => let n : Int := digitsValue 10 ds; if negative then -n else n) decimalDigits cs
  let number := Parser.orElse (based 'x' 16 charNumber.isHex)
    (.orElse (based 'o' 8 fun c => '0' ≤ c && c ≤ '7')
      (.orElse (based 'b' 2 fun c => c == '0' || c == '1') decimal))
  match number cs with
  | some (n, rest) => if -0x8000000000000000 ≤ n && n < 0x8000000000000000 then some (n, rest) else none
  | none => none

/-- Whether `mantissa * 10 ^ exponent` is too large for a binary floating point number of 64
bits: it is nearer to `2 ^ 1024` than to any of them. -/
def overflows (mantissa : Nat) (exponent : Int) : Bool :=
  let bound := Nat.pow 2 1024 - Nat.pow 2 970
  let magnitude : Int := (Nat.toDigits 10 mantissa).length + exponent
  if mantissa == 0 || magnitude < 300 then false
  else if 400 < magnitude then true
  else bound * Nat.pow 10 (-exponent).toNat ≤ mantissa * Nat.pow 10 exponent.toNat

/-- The number `± mantissa * 10 ^ exponent`. Numbers too large are refused above and infinite
below. -/
def floatData? (negative : Bool) (mantissa : Nat) (exponent : Int) : Option Data :=
  if overflows mantissa exponent then
    if negative then some (.infinite true) else none
  else if mantissa == 0 then some (.number 0 0)
  else
    let m : Int := if negative then -mantissa else mantissa
    some (.number (m * Nat.pow 10 exponent.toNat) (-exponent).toNat)

def exponent : Parser Int
  | c :: cs =>
    if c == 'e' || c == 'E' then
      let (negative, cs) := sign cs
      Parser.map (fun ds => let n : Int := digitsValue 10 ds; if negative then -n else n)
        (digits Char.isDigit) cs
    else none
  | [] => none

def finiteFloat : Parser Data := fun cs =>
  let (negative, cs) := sign cs
  match decimalDigits cs with
  | none => none
  | some (whole, '.' :: cs) =>
    match digits Char.isDigit cs with
    | none => none
    | some (part, cs) =>
      let (e, rest) := (exponent cs).getD (0, cs)
      (floatData? negative (digitsValue 10 (whole ++ part)) (e - part.length)).map (·, rest)
  | some (whole, cs) =>
    match exponent cs with
    | none => none
    | some (e, rest) => (floatData? negative (digitsValue 10 whole) e).map (·, rest)

def specialFloat : Parser Data := fun cs =>
  let (negative, cs) := sign cs
  Parser.orElse (.map (fun _ => .infinite negative) (.literal "inf".toList))
    (.map (fun _ => .notANumber) (.literal "nan".toList)) cs

/-! ## Dates and times -/

def bounded (digits low high : Nat) : Parser Nat := fun cs =>
  match Parser.count digits Char.isDigit cs with
  | none => none
  | some (ds, rest) =>
    let n := digitsValue 10 ds
    if low ≤ n && n ≤ high then some (n, rest) else none

def daysIn (year month : Nat) : Nat :=
  if month == 2 then
    if year % 4 == 0 && (year % 100 != 0 || year % 400 == 0) then 29 else 28
  else if [4, 6, 9, 11].contains month then 30
  else 31

def afterDate (cs : List Char) : Option (List Char) := do
  let (year, cs) ← bounded 4 0 9999 cs
  let (_, cs) ← Parser.literal ['-'] cs
  let (month, cs) ← bounded 2 1 12 cs
  let (_, cs) ← Parser.literal ['-'] cs
  let (_, cs) ← bounded 2 1 (daysIn year month) cs
  pure cs

def afterTime (cs : List Char) : Option (List Char) := do
  let (_, cs) ← bounded 2 0 23 cs
  let (_, cs) ← Parser.literal [':'] cs
  let (_, cs) ← bounded 2 0 59 cs
  let (_, cs) ← Parser.literal [':'] cs
  let (_, cs) ← bounded 2 0 60 cs
  match cs with
  | '.' :: cs => (Parser.run1 Char.isDigit cs).map (·.2)
  | cs => pure cs

/-- The distance from Greenwich time; the answer is the text behind it. -/
def afterOffset : List Char → Option (List Char)
  | 'Z' :: cs => some cs
  | 'z' :: cs => some cs
  | c :: cs =>
    if c == '+' || c == '-' then do
      let (_, cs) ← bounded 2 0 23 cs
      let (_, cs) ← Parser.literal [':'] cs
      let (_, cs) ← bounded 2 0 59 cs
      pure cs
    else none
  | [] => none

/-- The text behind a date, a time of day, or both with or without an offset. -/
def afterMoment (cs : List Char) : Option (List Char) :=
  match afterDate cs with
  | none => afterTime cs
  | some [] => some []
  | some (c :: cs) =>
    if c == 'T' || c == 't' || c == ' ' then
      match afterTime cs with
      | none => some (c :: cs)
      | some cs => some ((afterOffset cs).getD cs)
    else some (c :: cs)

def moment : Parser Data := fun cs =>
  (afterMoment cs).map fun rest =>
    let text := String.ofList (cs.take (cs.length - rest.length))
    (.record [("moment", .text text)], rest)

/-! ## Scalars -/

def truth : Parser Bool :=
  .orElse (.map (fun _ => true) (.literal "true".toList))
    (.map (fun _ => false) (.literal "false".toList))

def scalar : Parser Data :=
  .orElse (.map .text string)
    (.orElse (.map .bool truth)
      (.orElse moment
        (.orElse finiteFloat
          (.orElse specialFloat (.map .int integer)))))

end AsyncModule.Toml
