/-!
# AsyncModule.Url.Punycode

The Punycode form of a host label: the ASCII characters first, then, after a hyphen, the other
characters in increasing order, each as a base-36 number that says how far it lies from the last.

* `decodeNumber_length` — reading a number consumes input, so decoding ends.
-/

namespace AsyncModule.Url.Punycode

def digitChar (d : Nat) : Char :=
  if d < 26 then Char.ofNat (0x61 + d) else Char.ofNat (0x30 + d - 26)

def digitValue? (c : Char) : Option Nat :=
  if 'a' ≤ c && c ≤ 'z' then some (c.toNat - 0x61)
  else if 'A' ≤ c && c ≤ 'Z' then some (c.toNat - 0x41)
  else if '0' ≤ c && c ≤ '9' then some (c.toNat - 0x30 + 26)
  else none

def threshold (k bias : Nat) : Nat := min 26 (max 1 (k - bias))

theorem threshold_pos (k bias : Nat) : 1 ≤ threshold k bias := by
  simp only [threshold]; omega

/-- Divide by 35 until at most 455 is left, counting 36 for every division. -/
def scaleDown (delta k : Nat) : Nat × Nat :=
  if 455 < delta then scaleDown (delta / 35) (k + 36) else (delta, k)
termination_by delta
decreasing_by exact Nat.div_lt_self (by omega) (by omega)

def adapt (delta count : Nat) (first : Bool) : Nat :=
  let d := if first then delta / 700 else delta / 2
  let (small, k) := scaleDown (d + d / count) 0
  k + 36 * small / (small + 38)

/-- Read one number from position `k` with weight `w`, adding it to `i`. -/
def decodeNumber (bias : Nat) : List Char → Nat → Nat → Nat → Option (Nat × List Char)
  | [], _, _, _ => none
  | c :: rest, k, w, i =>
    match digitValue? c with
    | none => none
    | some d =>
      let t := threshold k bias
      if d < t then some (i + d * w, rest)
      else decodeNumber bias rest (k + 36) (w * (36 - t)) (i + d * w)

theorem decodeNumber_length {bias : Nat} {cs : List Char} {k w i : Nat} {r : Nat × List Char}
    (h : decodeNumber bias cs k w i = some r) : r.2.length < cs.length := by
  induction cs generalizing k w i with
  | nil => simp [decodeNumber] at h
  | cons c rest ih =>
    simp only [decodeNumber] at h
    split at h
    · simp at h
    · split at h
      · cases h; simp
      · have := ih h; simp; omega

def char? (n : Nat) : Option Char :=
  if n < 0xD800 || (0xDFFF < n && n < 0x110000) then some (Char.ofNat n) else none

/-- Insert the characters that the numbers of `cs` stand for into `out`. -/
def decodeRest (cs : List Char) (n i bias : Nat) (out : List Char) : Option (List Char) :=
  match cs with
  | [] => some out
  | c :: rest =>
    match _h : decodeNumber bias (c :: rest) 36 1 i with
    | none => none
    | some (j, cs') =>
      let count := out.length + 1
      let n' := n + j / count
      match char? n' with
      | none => none
      | some x =>
        decodeRest cs' n' (j % count + 1) (adapt (j - i) count (i == 0))
          (out.insertIdx (j % count) x)
termination_by cs.length
decreasing_by have := decodeNumber_length _h; simpa using this

/-- The label that a Punycode text stands for. A hyphen at the very start separates nothing. -/
def decode (cs : List Char) : Option (List Char) :=
  let back := cs.reverse
  match back.dropWhile (· ≠ '-') with
  | _ :: f :: front =>
    decodeRest (back.takeWhile (· ≠ '-')).reverse 128 0 72 (f :: front).reverse
  | _ => decodeRest cs 128 0 72 []

/-- The digits of `q`, least significant first, from position `k`. -/
def encodeNumber (bias k q : Nat) : List Char :=
  let t := threshold k bias
  if q < t then [digitChar q]
  else digitChar (t + (q - t) % (36 - t)) :: encodeNumber bias (k + 36) ((q - t) / (36 - t))
termination_by q
decreasing_by
  have h₁ := threshold_pos k bias
  have h₂ := Nat.div_le_self (q - threshold k bias) (36 - threshold k bias)
  simp_all only [Nat.not_lt]
  omega

/-- Where encoding stands: the text so far, the distance to write next, the bias, and how many
characters are done. -/
structure Progress where
  out : List Char
  delta : Nat
  bias : Nat
  done : Nat

/-- Pass one character of the label while the characters numbered `m` are being written. -/
def Progress.visit (basic m : Nat) (p : Progress) (c : Char) : Progress :=
  if c.toNat < m then { p with delta := p.delta + 1 }
  else if c.toNat == m then
    { out := p.out ++ encodeNumber p.bias 36 p.delta
      delta := 0
      bias := adapt p.delta (p.done + 1) (p.done == basic)
      done := p.done + 1 }
  else p

/-- Write the characters whose numbers are listed, in increasing order, from number `n` on. -/
def encodeRest (label : List Char) (basic : Nat) : List Nat → Nat → Progress → Progress
  | [], _, p => p
  | m :: ms, n, p =>
    let p := { p with delta := p.delta + (m - n) * (p.done + 1) }
    let p := label.foldl (Progress.visit basic m) p
    encodeRest label basic ms (m + 1) { p with delta := p.delta + 1 }

def beyond (label : List Char) : List Nat :=
  ((label.map Char.toNat).filter (128 ≤ ·)).mergeSort.eraseDups

def encode (label : List Char) : List Char :=
  let basic := label.filter (·.toNat < 128)
  let start : Progress := ⟨[], 0, 72, basic.length⟩
  basic ++ (if basic.isEmpty then [] else ['-']) ++
    (encodeRest label basic.length (beyond label) 128 start).out

end AsyncModule.Url.Punycode
