import AsyncModule.Text

/-!
# AsyncModule.Text.Parser

Reading texts from the front. A parser says what stands there and what is left, or that it is not
there. Repetition stops where its parser fails or takes nothing, so that no parser runs for ever.

* `many_rest_length_le` — a repetition leaves no more than it was given.
-/

namespace AsyncModule.Text

/-- What stands at the front of a text, and the rest of the text. -/
abbrev Parser (α : Type) := List Char → Option (α × List Char)

namespace Parser

variable {α β : Type}

def map (f : α → β) (p : Parser α) : Parser β := fun cs =>
  (p cs).map fun (a, rest) => (f a, rest)

def orElse (p q : Parser α) : Parser α := fun cs =>
  match p cs with
  | some r => some r
  | none => q cs

def literal (text : List Char) : Parser Unit := fun cs =>
  if text.isPrefixOf cs then some ((), cs.drop text.length) else none

def one (p : Char → Bool) : Parser Char
  | [] => none
  | c :: cs => if p c then some (c, cs) else none

def run (p : Char → Bool) (cs : List Char) : List Char × List Char :=
  (cs.takeWhile p, cs.dropWhile p)

def run1 (p : Char → Bool) : Parser (List Char) := fun cs =>
  match run p cs with
  | ([], _) => none
  | r => some r

def count (n : Nat) (p : Char → Bool) : Parser (List Char) := fun cs =>
  let front := cs.take n
  if front.length == n && front.all p then some (front, cs.drop n) else none

def skip (p : Parser α) (cs : List Char) : List Char :=
  match p cs with
  | some (_, rest) => rest
  | none => cs

def many (p : Parser α) (cs : List Char) : List α × List Char :=
  match p cs with
  | none => ([], cs)
  | some (a, rest) =>
    if _h : rest.length < cs.length then
      let (as, rest) := many p rest
      (a :: as, rest)
    else ([], cs)
termination_by cs.length

def sepBy1 (sep : Parser Unit) (p : Parser α) : Parser (List α) := fun cs =>
  match p cs with
  | none => none
  | some (a, rest) =>
    let next : Parser α := fun cs =>
      match sep cs with
      | none => none
      | some (_, cs) => p cs
    let (as, rest) := many next rest
    some (a :: as, rest)

theorem many_rest_length_le (p : Parser α) (cs : List Char) :
    (many p cs).2.length ≤ cs.length := by
  fun_induction many p cs with
  | case1 => simp
  | case2 cs a rest _ h as rest' he ih =>
    rw [he] at ih
    simp only at ih ⊢
    omega
  | case3 => simp

end Parser

end AsyncModule.Text
