import AsyncModule.ConfigFile
import AsyncModule.Context
import AsyncModule.Proofs.Directories
import Mathlib.Data.List.TakeWhile

/-!
# AsyncModule.Proofs.WorkingDirectory

The URL of the working directory, written and read again. Names are escaped when the URL is made of
them, so that nothing in it is escaped a second time, separates anything or is walked when it is
read: it is the same URL.

* `Url.parse_ofSegments`         — the URL of a directory of this machine can be read again.
* `Url.kept_encode`              — a name that has been escaped is kept as it is.
* `Surroundings.asDirectory_url` — the URL of the working directory, read as a directory.
-/

namespace AsyncModule

namespace Text

variable {sep : Char → Bool}

theorem fields_of_no_sep {f : List Char} (h : ∀ c ∈ f, sep c = false) : fields sep f = [f] := by
  induction f with
  | nil => rfl
  | cons c cs ih =>
    obtain ⟨hc, hcs⟩ := List.forall_mem_cons.mp h
    rw [fields, if_neg (by simp [hc]), ih hcs]

theorem fields_append_sep {f : List Char} (h : ∀ c ∈ f, sep c = false) {c : Char}
    (hc : sep c = true) (rest : List Char) :
    fields sep (f ++ c :: rest) = f :: fields sep rest := by
  induction f with
  | nil => rw [List.nil_append, fields, if_pos hc]
  | cons a f ih =>
    obtain ⟨ha, hf⟩ := List.forall_mem_cons.mp h
    rw [List.cons_append, fields, if_neg (by simp [ha]), ih hf]

/-- Nothing is stripped off a text that begins and ends otherwise. -/
theorem strip_of_ends {p : Char → Bool} {cs : List Char} (hhead : ∀ c ∈ cs.head?, p c = false)
    (hlast : ∀ c ∈ cs.getLast?, p c = false) : strip p cs = cs := by
  have hdrop : ∀ {cs : List Char}, (∀ c ∈ cs.head?, p c = false) → cs.dropWhile p = cs := by
    intro cs hcs
    cases cs with
    | nil => rfl
    | cons c cs => rw [List.dropWhile_cons_of_neg (by simp [hcs c rfl])]
  rw [strip, hdrop hhead, hdrop (by rwa [List.head?_reverse]), List.reverse_reverse]

theorem strip_eq_self {p : Char → Bool} {cs : List Char} (h : ∀ c ∈ cs, p c = false) :
    strip p cs = cs :=
  strip_of_ends (fun c hc => h c (List.mem_of_mem_head? hc)) fun c hc =>
    h c (List.mem_of_getLast? hc)

/-- What is visible in ASCII is not blank. -/
theorem isBlank_of_visible {c : Char} (hlow : 0x20 < c.toNat) (hhigh : c.toNat < 0x80) :
    isBlank c = false := by
  simp only [isBlank, Bool.or_eq_false_iff, Bool.and_eq_false_iff, beq_eq_false_iff_ne,
    decide_eq_false_iff_not]
  omega

end Text

namespace Url

open AsyncModule.Text

/-! ## Reading again -/

/-- A character that stands for itself in a path, and separates nothing. -/
structure Plain (c : Char) : Prop where
  visible : 0x20 < c.toNat
  ascii : c.toNat < 0x80
  path : Percent.path c = false
  slash : c ≠ '/'
  backslash : c ≠ '\\'

/-- A segment that is kept as it is when it is read. -/
structure Kept (s : String) : Prop where
  plain : ∀ c ∈ s.toList, Plain c
  nonempty : s ≠ ""
  here : Path.isHere s = false
  parent : Path.isParent s = false

theorem Plain.isSlash {c : Char} (h : Plain c) : SchemeKind.file.isSlash c = false := by
  simp [SchemeKind.isSlash, h.slash, h.backslash]

theorem Plain.endsPath {c : Char} (h : Plain c) : Parser.endsPath c = false := by
  have hpath := h.path
  simp only [Percent.path, Bool.or_eq_false_iff, List.contains_cons] at hpath
  simp [Parser.endsPath, hpath]

theorem Percent.encode_of_all {set : Percent.Set} {cs : List Char}
    (h : ∀ c ∈ cs, c.toNat < 0x80 ∧ set c = false) : Percent.encode set cs = cs := by
  induction cs with
  | nil => rfl
  | cons c cs ih =>
    obtain ⟨⟨hascii, hset⟩, hcs⟩ := List.forall_mem_cons.mp h
    have hself : Percent.encodeChar set c = [c] := by simp [Percent.encodeChar, hascii, hset]
    rw [Percent.encode, List.flatMap_cons, hself]
    exact congrArg (c :: ·) (ih hcs)

theorem encode_plain {cs : List Char} (h : ∀ c ∈ cs, Plain c) :
    Percent.encode Percent.path cs = cs :=
  Percent.encode_of_all fun c hc => ⟨(h c hc).ascii, (h c hc).path⟩

section Segments

variable {segments : List String}

/-- Segments behind a text are cut where they are written behind one another. -/
theorem fields_append_written {kind : SchemeKind} (segments : List String) :
    ∀ {f : List Char}, (∀ c ∈ f, kind.isSlash c = false) →
      (∀ s ∈ segments, ∀ c ∈ s.toList, kind.isSlash c = false) →
      fields kind.isSlash (f ++ written segments) = f :: segments.map String.toList := by
  induction segments with
  | nil =>
    intro f hf _
    rw [show written [] = [] from rfl, List.append_nil, fields_of_no_sep hf]
    rfl
  | cons s segments ih =>
    intro f hf hsegments
    obtain ⟨hs, hrest⟩ := List.forall_mem_cons.mp hsegments
    have hslash : kind.isSlash '/' = true := rfl
    have hwritten : written (s :: segments) = '/' :: (s.toList ++ written segments) := rfl
    rw [hwritten, fields_append_sep hf hslash, ih hs hrest]
    rfl

theorem segmentsOf_written (h : ∀ s ∈ segments, ∀ c ∈ s.toList, Plain c) :
    Path.segmentsOf .file (written segments) = "" :: segments := by
  have hfields := fields_append_written segments (f := [])
    (fun _ hc => absurd hc List.not_mem_nil) fun s hs c hc => (h s hs c hc).isSlash
  rw [List.nil_append] at hfields
  rw [Path.segmentsOf, hfields, List.map_cons, List.map_map]
  refine congrArg ("" :: ·) ?_
  calc segments.map _ = segments.map id := List.map_congr_left fun s hs => by
        rw [Function.comp_apply, encode_plain (h s hs), String.ofList_toList]
        rfl
    _ = segments := List.map_id _

/-- Behind the first segment those are entered, one after the other, that are not followed. -/
theorem Path.Trail.walk_steady {kind : SchemeKind}
    (h : ∀ s ∈ segments, isHere s = false ∧ isParent s = false) : ∀ {t : Trail}, t.stack ≠ [] →
      t.walk kind segments = { t with stack := segments.reverse ++ t.stack } := by
  have henter : ∀ (t : Trail) (s : String), t.stack ≠ [] →
      t.enter kind s = { t with stack := s :: t.stack } := by
    intro t s ht
    unfold enter
    rw [if_neg (by simp [ht])]
  induction segments with
  | nil => exact fun {t} _ => rfl
  | cons s segments ih =>
    intro t ht
    obtain ⟨⟨hhere, hparent⟩, hrest⟩ := List.forall_mem_cons.mp h
    cases segments with
    | nil =>
      rw [walk, finish, hparent, hhere, henter t s ht]
      rfl
    | cons s' rest =>
      have hpass : t.pass kind s = { t with stack := s :: t.stack } := by
        rw [pass, hparent, hhere, henter t s ht]
        rfl
      rw [walk, hpass, ih hrest (List.cons_ne_nil _ _)]
      · simp
      · exact List.cons_ne_nil _ _

/-- Behind the root segments are entered one after the other. -/
theorem walk_kept (h : ∀ s ∈ segments, Kept s) {t : Path.Trail} (ht : t.stack ≠ []) :
    t.walk .file (segments ++ [""]) = { t with stack := "" :: (segments.reverse ++ t.stack) } := by
  have hsteady : ∀ s ∈ segments ++ [""], Path.isHere s = false ∧ Path.isParent s = false := by
    intro s hs
    rcases List.mem_append.mp hs with hs | hs
    · exact ⟨(h s hs).here, (h s hs).parent⟩
    · rw [List.mem_singleton.mp hs]
      decide
  rw [Path.Trail.walk_steady hsteady ht]
  simp

theorem path_of_written (h : ∀ s ∈ segments, Kept s) :
    (Path.follow .file [] (written (segments ++ [""]))).drive = false ∧
      (Path.follow .file [] (written (segments ++ [""]))).path .file =
        .rooted (segments ++ [""]) := by
  have hplain : ∀ s ∈ segments ++ [""], ∀ c ∈ s.toList, Plain c := by
    intro s hs
    rcases List.mem_append.mp hs with hs | hs
    · exact (h s hs).plain
    · cases List.mem_singleton.mp hs
      exact fun _ hc => absurd hc (by simp)
  have hfollow : Path.follow .file [] (written (segments ++ [""])) =
      ⟨"" :: (segments.reverse ++ [""]), false⟩ := by
    have hroot : Path.Trail.pass .file ⟨[], false⟩ "" = ⟨[""], false⟩ := by decide
    obtain ⟨s, rest, heq⟩ := List.exists_cons_of_ne_nil
      (show segments ++ [""] ≠ [] by simp)
    rw [Path.follow, segmentsOf_written hplain, heq, Path.Trail.walk, hroot, ← heq,
      walk_kept h (List.cons_ne_nil _ _)]
    exact List.cons_ne_nil _ _
  rw [hfollow]
  refine ⟨rfl, ?_⟩
  have hreverse : ("" :: (segments.reverse ++ [""])).reverse = "" :: (segments ++ [""]) := by
    simp
  rw [Path.Trail.path_eq, hreverse]
  have htrim : Path.Trail.dropEmpty ("" :: (segments ++ [""])) = segments ++ [""] := by
    cases segments with
    | nil => rfl
    | cons s rest =>
      rw [List.cons_append, Path.Trail.dropEmpty]
      exact Path.Trail.dropEmpty_cons_of_ne (h s List.mem_cons_self).nonempty _
  exact congrArg Path.rooted htrim

end Segments

/-- The URL of a directory of this machine. -/
def ofSegments (segments : List String) : Url :=
  Parser.fileUrl Host.empty (.rooted (segments ++ [""]))

theorem toList_ofSegments (segments : List String) : (ofSegments segments).toString.toList =
    ['f', 'i', 'l', 'e', ':', '/', '/'] ++ written (segments ++ [""]) := by
  rw [← toList_rooted]
  simp [toString, ofSegments, Parser.fileUrl, authority, credentials, guard, suffix, Host.empty,
    Host.toString]

section Local

variable {segments : List String}

theorem mem_written {c : Char} (hc : c ∈ written (segments ++ [""])) :
    c = '/' ∨ ∃ s ∈ segments, c ∈ s.toList := by
  obtain ⟨s, hs, hc⟩ := List.mem_flatMap.mp hc
  rcases List.mem_cons.mp hc with hslash | hc
  · exact .inl hslash
  · rcases List.mem_append.mp hs with hs | hs
    · exact .inr ⟨s, hs, hc⟩
    · cases List.mem_singleton.mp hs
      exact absurd hc (by simp)

theorem visible_ofSegments (h : ∀ s ∈ segments, Kept s) :
    ∀ c ∈ (ofSegments segments).toString.toList, 0x20 < c.toNat ∧ c.toNat < 0x80 := by
  intro c hc
  rw [toList_ofSegments, List.mem_append] at hc
  rcases hc with hc | hc
  · have hall : (['f', 'i', 'l', 'e', ':', '/', '/'].all fun c =>
        decide (0x20 < c.toNat ∧ c.toNat < 0x80)) = true := by decide
    exact of_decide_eq_true (List.all_eq_true.mp hall c hc)
  · rcases mem_written hc with rfl | ⟨s, hs, hc⟩
    · decide
    · exact ⟨((h s hs).plain c hc).visible, ((h s hs).plain c hc).ascii⟩

theorem clean_ofSegments (h : ∀ s ∈ segments, Kept s) :
    Parser.clean (ofSegments segments).toString = (ofSegments segments).toString.toList := by
  have hvisible := visible_ofSegments h
  rw [Parser.clean, strip_eq_self fun c hc => by simpa using (hvisible c hc).1]
  refine List.filter_eq_self.mpr fun c hc => ?_
  have hlow := (hvisible c hc).1
  have hnot : isTabOrBreak c = false := by
    have hne : ∀ d : Char, d.toNat ≤ 0x20 → (c == d) = false := by
      intro d hd
      rw [beq_eq_false_iff_ne]
      rintro rfl
      omega
    simp [isTabOrBreak, hne]
  rw [hnot]
  rfl

theorem readFileAuthority_written (h : ∀ s ∈ segments, Kept s) :
    Parser.readFileAuthority (written (segments ++ [""])) = .ok (ofSegments segments) := by
  obtain ⟨text, htext⟩ : ∃ text, written (segments ++ [""]) = '/' :: text := by
    cases segments with
    | nil => exact ⟨_, rfl⟩
    | cons s rest => exact ⟨_, rfl⟩
  have hpath : ∀ c ∈ written (segments ++ [""]), Parser.endsPath c = false := by
    intro c hc
    rcases mem_written hc with rfl | ⟨s, hs, hc⟩
    · rfl
    · exact ((h s hs).plain c hc).endsPath
  have hcut : Parser.cutPath (written (segments ++ [""])) = (written (segments ++ [""]), []) := by
    have hall : ∀ c ∈ written (segments ++ [""]), (!Parser.endsPath c) = true :=
      fun c hc => by rw [hpath c hc]; rfl
    rw [Parser.cutPath, List.takeWhile_eq_self_iff.mpr hall, List.dropWhile_eq_nil_iff.mpr hall]
  have hhost : (written (segments ++ [""])).takeWhile (!Parser.endsAuthority .file ·) = [] ∧
      (written (segments ++ [""])).dropWhile (!Parser.endsAuthority .file ·) =
        written (segments ++ [""]) := by
    rw [htext]
    exact ⟨rfl, rfl⟩
  have hempty : Parser.readFileHost [] = .ok Host.empty := rfl
  have hdriveless : Path.isDrive (String.ofList []) = false := rfl
  obtain ⟨hdrive, hrooted⟩ := path_of_written h
  unfold Parser.readFileAuthority
  dsimp only
  rw [hhost.1, hhost.2, hempty, hdriveless]
  simp only [Bool.false_eq_true, if_false, hcut]
  show Except.ok (Parser.withSuffix _ []) = _
  have hlocal : (Host.empty == Host.empty) = true := by decide
  simp only [hlocal, if_true, hdrive, hrooted]
  rfl

theorem parse_ofSegments (h : ∀ s ∈ segments, Kept s) :
    parse (ofSegments segments).toString = .ok (ofSegments segments) := by
  have hscheme : ∀ rest, Parser.scheme? ('f' :: 'i' :: 'l' :: 'e' :: ':' :: rest) =
      some ("file", rest) := fun _ => rfl
  unfold parse Parser.read
  rw [clean_ofSegments h, toList_ofSegments]
  dsimp only [List.cons_append, List.nil_append]
  rw [hscheme]
  exact readFileAuthority_written h

end Local

theorem asDirectory_ofSegments {segments : List String} (h : ∀ s ∈ segments, Kept s) :
    asDirectory (ofSegments segments).toString = .ok (ofSegments segments) := by
  have htrim : Text.trim (ofSegments segments).toString = (ofSegments segments).toString := by
    have hblank : ∀ c ∈ (ofSegments segments).toString.toList, isBlank c = false :=
      fun c hc => isBlank_of_visible (visible_ofSegments h c hc).1 (visible_ofSegments h c hc).2
    rw [Text.trim, strip_eq_self hblank, String.ofList_toList]
  have hslash : (ofSegments segments).path.toString.toList.getLast? = some '/' := by
    rw [show (ofSegments segments).path = .rooted (segments ++ [""]) from rfl, toList_rooted]
    simp [written]
  unfold asDirectory parseFor
  rw [htrim, parse_ofSegments h]
  dsimp only [bind, Except.bind]
  rw [hslash]
  rfl

/-! ## Names -/

/-- A text in which every escape stands for a byte that cannot stand for itself. -/
inductive Encoded : List Char → Prop where
  | nil : Encoded []
  | plain {c : Char} {rest : List Char} (hlow : c.toNat < 0x80) (hc : Percent.segment c = false)
      (h : Encoded rest) : Encoded (c :: rest)
  | escape {b : UInt8} {rest : List Char}
      (hb : 0x80 ≤ b.toNat ∨ Percent.segment (Char.ofNat b.toNat) = true) (h : Encoded rest) :
      Encoded ('%' :: Percent.hexDigit (b.toNat / 16) :: Percent.hexDigit (b.toNat % 16) :: rest)

/-- The bytes of a character beyond ASCII are all beyond ASCII. -/
theorem le_of_mem_utf8EncodeChar {c : Char} (hc : 0x80 ≤ c.toNat) :
    ∀ b ∈ String.utf8EncodeChar c, 0x80 ≤ b.toNat := by
  have hlow : ¬ c.val.toNat ≤ 127 := Nat.not_le.mpr hc
  intro b hb
  unfold String.utf8EncodeChar at hb
  dsimp only at hb
  rw [if_neg hlow] at hb
  split at hb
  · simp only [List.mem_cons, List.not_mem_nil, or_false] at hb
    rcases hb with rfl | rfl <;> simp only [UInt8.toNat_ofNat'] <;> omega
  · split at hb
    · simp only [List.mem_cons, List.not_mem_nil, or_false] at hb
      rcases hb with rfl | rfl | rfl <;> simp only [UInt8.toNat_ofNat'] <;> omega
    · simp only [List.mem_cons, List.not_mem_nil, or_false] at hb
      rcases hb with rfl | rfl | rfl | rfl <;> simp only [UInt8.toNat_ofNat'] <;> omega

theorem escaped_bytes {c : Char} (hc : ¬ (c.toNat < 0x80 ∧ Percent.segment c = false)) :
    ∀ b ∈ String.utf8EncodeChar c,
      0x80 ≤ b.toNat ∨ Percent.segment (Char.ofNat b.toNat) = true := by
  intro b hb
  by_cases hlow : c.toNat < 0x80
  · have hsegment : Percent.segment c = true := by
      simpa using fun hfalse => hc ⟨hlow, hfalse⟩
    have hself : String.utf8EncodeChar c = [UInt8.ofNat c.toNat] := by
      unfold String.utf8EncodeChar
      exact if_pos (Nat.le_of_lt_succ hlow)
    rw [hself, List.mem_singleton] at hb
    subst hb
    rw [UInt8.toNat_ofNat', Nat.mod_eq_of_lt (by omega), Char.ofNat_toNat]
    exact .inr hsegment
  · exact .inl (le_of_mem_utf8EncodeChar (Nat.not_lt.mp hlow) b hb)

theorem encoded_encode (name : List Char) : Encoded (Percent.encode Percent.segment name) := by
  have hescapes : ∀ (bytes : List UInt8) (rest : List Char),
      (∀ b ∈ bytes, 0x80 ≤ b.toNat ∨ Percent.segment (Char.ofNat b.toNat) = true) →
      Encoded rest → Encoded (bytes.flatMap Percent.escape ++ rest) := by
    intro bytes rest hbytes hrest
    induction bytes with
    | nil => exact hrest
    | cons b bytes ih =>
      obtain ⟨hb, hbytes⟩ := List.forall_mem_cons.mp hbytes
      exact .escape hb (ih hbytes)
  induction name with
  | nil => exact .nil
  | cons c name ih =>
    rw [Percent.encode, List.flatMap_cons, Percent.encodeChar]
    split
    · rename_i hplain
      simp only [Bool.and_eq_true, decide_eq_true_eq, Bool.not_eq_true'] at hplain
      exact .plain hplain.1 hplain.2 ih
    · rename_i hescaped
      simp only [Bool.and_eq_true, decide_eq_true_eq, Bool.not_eq_true'] at hescaped
      exact hescapes _ _ (escaped_bytes hescaped) ih

theorem plain_hexDigit {n : Nat} (hn : n < 16) : Plain (Percent.hexDigit n) := by
  have hall : ∀ n : Fin 16, 0x20 < (Percent.hexDigit n).toNat ∧ (Percent.hexDigit n).toNat < 0x80 ∧
      Percent.path (Percent.hexDigit n) = false ∧ Percent.hexDigit n ≠ '/' ∧
      Percent.hexDigit n ≠ '\\' := by decide
  obtain ⟨hvisible, hascii, hpath, hslash, hbackslash⟩ := hall ⟨n, hn⟩
  exact ⟨hvisible, hascii, hpath, hslash, hbackslash⟩

theorem plain_of_segment {c : Char} (hlow : c.toNat < 0x80) (hc : Percent.segment c = false) :
    Plain c := by
  obtain ⟨hpath, hseparators⟩ := Bool.or_eq_false_iff.mp hc
  have hfragment := (Bool.or_eq_false_iff.mp hpath).1
  obtain ⟨hcontrol, hspaces⟩ := Bool.or_eq_false_iff.mp hfragment
  simp only [List.contains_cons, Bool.or_eq_false_iff, beq_eq_false_iff_ne] at hseparators hspaces
  simp only [Percent.control, Bool.or_eq_false_iff, decide_eq_false_iff_not] at hcontrol
  have hspace : c.toNat ≠ 0x20 := fun heq => hspaces.1 (Char.toNat_inj.mp heq)
  exact ⟨by omega, hlow, hpath, hseparators.1, hseparators.2.2.1⟩

theorem Encoded.plain_all {cs : List Char} (h : Encoded cs) : ∀ c ∈ cs, Plain c := by
  induction h with
  | nil => exact fun _ hc => absurd hc List.not_mem_nil
  | plain hlow hc _ ih => exact List.forall_mem_cons.mpr ⟨plain_of_segment hlow hc, ih⟩
  | @escape b rest _ _ ih =>
    have hpercent : Plain '%' := ⟨by decide, by decide, by decide, by decide, by decide⟩
    have hb : b.toNat < 256 := b.toNat_lt
    exact List.forall_mem_cons.mpr ⟨hpercent, List.forall_mem_cons.mpr
      ⟨plain_hexDigit (by omega), List.forall_mem_cons.mpr ⟨plain_hexDigit (by omega), ih⟩⟩⟩

/-- No escape stands for a dot. -/
theorem Encoded.not_dot {a b : Char} {rest : List Char} (h : Encoded ('%' :: a :: b :: rest))
    (ha : a.toLower = '2') (hb : b.toLower = 'e') : False := by
  cases h with
  | plain _ hc => exact absurd hc (by decide)
  | @escape byte _ hbyte =>
    have hdigits : ∀ n : Fin 16, ((Percent.hexDigit n).toLower = '2' → n.val = 2) ∧
        ((Percent.hexDigit n).toLower = 'e' → n.val = 14) := by decide
    have hlt : byte.toNat < 256 := byte.toNat_lt
    have hhigh := (hdigits ⟨byte.toNat / 16, by omega⟩).1 ha
    have hlow := (hdigits ⟨byte.toNat % 16, by omega⟩).2 hb
    have hdot : byte.toNat = 46 := by
      dsimp only at hhigh hlow
      omega
    rw [hdot] at hbyte
    exact absurd hbyte (by decide)

theorem eq_of_toLower {c d : Char} (h : c.toLower = d) (hd : d.toNat < 97) : c = d := by
  by_contra hne
  have hle := le_toNat_toLower (c := c) fun heq => hne (heq.symm.trans h)
  rw [h] at hle
  omega

theorem Encoded.not_dot_map {cs rest : List Char} (h : Encoded cs)
    (hmap : cs.map Char.toLower = '%' :: '2' :: 'e' :: rest) : False := by
  obtain ⟨c, cs, rfl, hc, hmap⟩ := List.map_eq_cons_iff.mp hmap
  obtain ⟨a, cs, rfl, ha, hmap⟩ := List.map_eq_cons_iff.mp hmap
  obtain ⟨b, cs, rfl, hb, _⟩ := List.map_eq_cons_iff.mp hmap
  cases eq_of_toLower hc (by decide)
  exact h.not_dot ha hb

theorem dots_of_map {cs : List Char} (n : Nat)
    (hmap : cs.map Char.toLower = List.replicate n '.') : cs = List.replicate n '.' := by
  rw [List.eq_replicate_iff] at hmap ⊢
  refine ⟨by simpa using hmap.1, fun c hc => ?_⟩
  exact eq_of_toLower (hmap.2 _ (List.mem_map_of_mem hc)) (by decide)

/-- What is read as one dot or two is written so. -/
theorem Encoded.dots_of_isHere {cs : List Char} (h : Encoded cs)
    (hhere : Path.isHere (String.ofList cs) = true) : cs = ['.'] ∨ cs = ['.', '.'] := by
  unfold Path.isHere at hhere
  rw [String.toList_ofList, List.contains_iff_mem] at hhere
  simp only [List.mem_cons, List.not_mem_nil, or_false, ← String.toList_inj,
    String.toList_ofList] at hhere
  rcases hhere with hmap | hmap
  · exact .inl (dots_of_map 1 hmap)
  · exact (h.not_dot_map hmap).elim

theorem Encoded.dots_of_isParent {cs : List Char} (h : Encoded cs)
    (hparent : Path.isParent (String.ofList cs) = true) : cs = ['.'] ∨ cs = ['.', '.'] := by
  unfold Path.isParent at hparent
  rw [String.toList_ofList, List.contains_iff_mem] at hparent
  simp only [List.mem_cons, List.not_mem_nil, or_false, ← String.toList_inj,
    String.toList_ofList] at hparent
  rcases hparent with hmap | hmap | hmap | hmap
  · exact .inr (dots_of_map 2 hmap)
  · exact (h.not_dot_map hmap).elim
  · have hmap : cs.map Char.toLower = '.' :: ['%', '2', 'e'] := hmap
    obtain ⟨c, cs, rfl, hc, hbehind⟩ := List.map_eq_cons_iff.mp hmap
    cases eq_of_toLower hc (by decide)
    cases h with
    | plain _ _ h => exact (h.not_dot_map hbehind).elim
  · exact (h.not_dot_map hmap).elim

/-- A text without escapes is that of the name itself. -/
theorem encode_eq_self {name : List Char} (h : '%' ∉ Percent.encode Percent.segment name) :
    Percent.encode Percent.segment name = name := by
  induction name with
  | nil => rfl
  | cons c name ih =>
    rw [Percent.encode, List.flatMap_cons, List.mem_append, not_or] at h
    obtain ⟨hc, hname⟩ := h
    have hself : Percent.encodeChar Percent.segment c = [c] := by
      unfold Percent.encodeChar at hc ⊢
      split
      · rfl
      · rename_i hescaped
        rw [if_neg hescaped] at hc
        obtain ⟨b, bytes, hbytes⟩ :=
          List.exists_cons_of_ne_nil (String.utf8EncodeChar_ne_nil (c := c))
        rw [hbytes] at hc
        exact absurd List.mem_cons_self hc
    rw [Percent.encode, List.flatMap_cons, hself]
    exact congrArg (c :: ·) (ih hname)

/-- A name that is neither empty nor made of one or two dots is kept as it is once it has been
escaped. -/
theorem kept_encode {name : List Char} (hempty : name ≠ []) (hhere : name ≠ ['.'])
    (hparent : name ≠ ['.', '.']) :
    Kept (String.ofList (Percent.encode Percent.segment name)) := by
  have hencoded := encoded_encode name
  generalize htext : Percent.encode Percent.segment name = text at hencoded
  have hself : '%' ∉ text → text = name := fun h => htext ▸ encode_eq_self (htext ▸ h)
  have hdots : text ≠ ['.'] ∧ text ≠ ['.', '.'] := by
    constructor
    · rintro rfl
      exact hhere (hself (by decide)).symm
    · rintro rfl
      exact hparent (hself (by decide)).symm
  refine ⟨?_, ?_, ?_, ?_⟩
  · rw [String.toList_ofList]
    exact hencoded.plain_all
  · intro heq
    have hnil : text = [] := by simpa using heq
    subst hnil
    exact hempty (hself List.not_mem_nil).symm
  · exact Bool.eq_false_iff.mpr fun h => (hencoded.dots_of_isHere h).elim hdots.1 hdots.2
  · exact Bool.eq_false_iff.mpr fun h => (hencoded.dots_of_isParent h).elim hdots.1 hdots.2

end Url

/-- The names on the way to the working directory are names of directories. -/
def Surroundings.IsPlace (here : Surroundings) : Prop :=
  ∀ name ∈ here.workingDirectory, name ≠ "" ∧ name ≠ "." ∧ name ≠ ".."

theorem Surroundings.asDirectory_url {here : Surroundings} (h : here.IsPlace) :
    Url.asDirectory here.url.toString = .ok here.url := by
  have hurl : here.url = Url.ofSegments (here.workingDirectory.map fun name =>
      String.ofList (Url.Percent.encode Url.Percent.segment name.toList)) := by
    unfold url Url.ofDirectory Url.ofSegments Url.Parser.fileUrl
    rw [List.map_map]
    rfl
  rw [hurl]
  refine Url.asDirectory_ofSegments fun s hs => ?_
  obtain ⟨name, hname, rfl⟩ := List.mem_map.mp hs
  obtain ⟨hempty, hhere, hparent⟩ := h name hname
  refine Url.kept_encode ?_ ?_ ?_
  · exact fun heq => hempty (String.toList_inj.mp heq)
  · exact fun heq => hhere (String.toList_inj.mp heq)
  · exact fun heq => hparent (String.toList_inj.mp heq)

end AsyncModule
