/-!
# AsyncModule.Text

Text primitives on which the other modules agree: blank characters, trimming, cutting at a
separator, and comparison without regard to ASCII case.

* `fields_ne_nil`      — cutting a text always leaves at least one field.
* `splitLast?_eq_some` — the two halves around the last separator rebuild the text.
-/

namespace AsyncModule.Text

def isBlank (c : Char) : Bool :=
  let n := c.toNat
  (0x9 ≤ n && n ≤ 0xD) || n == 0x20 || n == 0x85 || n == 0xA0 || n == 0x1680 ||
    (0x2000 ≤ n && n ≤ 0x200A) || n == 0x2028 || n == 0x2029 || n == 0x202F ||
    n == 0x205F || n == 0x3000

def isTabOrBreak (c : Char) : Bool := c == '\t' || c == '\n' || c == '\r'

def strip (p : Char → Bool) (cs : List Char) : List Char :=
  ((cs.dropWhile p).reverse.dropWhile p).reverse

def trim (s : String) : String := String.ofList (strip isBlank s.toList)

/-- Cut a text at every separator; `n` separators leave `n + 1` fields. -/
def fields (sep : Char → Bool) : List Char → List (List Char)
  | [] => [[]]
  | c :: cs =>
    if sep c then [] :: fields sep cs
    else
      match fields sep cs with
      | [] => [[c]]
      | f :: fs => (c :: f) :: fs

theorem fields_ne_nil (sep : Char → Bool) (cs : List Char) : fields sep cs ≠ [] := by
  cases cs with
  | nil => simp [fields]
  | cons c cs =>
    simp only [fields]
    split
    · simp
    · split <;> simp

/-- The texts before and after the last occurrence of `sep`. -/
def splitLast? (sep : Char) (s : String) : Option (String × String) :=
  let back := s.toList.reverse
  match back.dropWhile (· ≠ sep) with
  | [] => none
  | _ :: front =>
    some (String.ofList front.reverse, String.ofList (back.takeWhile (· ≠ sep)).reverse)

theorem splitLast?_eq_some {sep : Char} {s front back : String}
    (h : splitLast? sep s = some (front, back)) :
    s.toList = front.toList ++ sep :: back.toList := by
  simp only [splitLast?] at h
  split at h
  · simp at h
  · rename_i c rest hd
    simp only [Option.some.injEq, Prod.mk.injEq] at h
    obtain ⟨rfl, rfl⟩ := h
    have hsplit := List.takeWhile_append_dropWhile (p := (· ≠ sep)) (l := s.toList.reverse)
    rw [hd] at hsplit
    have hc : c = sep := by
      have := List.head?_dropWhile_not (p := fun x : Char => decide (x ≠ sep)) s.toList.reverse
      rw [hd] at this
      simpa using this
    subst hc
    have := congrArg List.reverse hsplit
    simp only [List.reverse_append, List.reverse_cons, List.reverse_reverse] at this
    simpa using this.symm

/-- The text before the first occurrence of `mark`, when there is one. -/
def before? (mark : List Char) : List Char → Option (List Char)
  | [] => if mark.isEmpty then some [] else none
  | c :: cs =>
    if mark.isPrefixOf (c :: cs) then some []
    else (before? mark cs).map (c :: ·)

/-- Equality up to ASCII letter case. -/
def sameLetters (a b : String) : Bool :=
  a.toList.map Char.toLower == b.toList.map Char.toLower

def joinWith (sep : String) (parts : List String) : String := sep.intercalate parts

end AsyncModule.Text
