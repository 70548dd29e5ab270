import AsyncModule.Proofs.WorkingDirectory

/-!
# AsyncModule.Proofs.Walked

What stands in the paths of URLs. However a URL has come about, by reading, joining or being given
another path, its segments have been escaped and walked: another walk finds nothing in them to
escape, to cut or to follow.

* `Path.Clean`          — such a segment.
* `Url.Obtained.bears`  — what reading leaves in paths is there in every URL, however obtained.
* `Url.Walked`          — a URL that has no other segments.
* `Url.Obtained.walked` — every URL is one.
-/

namespace AsyncModule

theorem Text.toNat_lt_of_isAlphanum {c : Char} (h : c.isAlphanum = true) : c.toNat < 128 := by
  have h : (decide (c.val ≥ 'A'.val ∧ c.val ≤ 'Z'.val) ||
      decide (c.val ≥ 'a'.val) && decide (c.val ≤ 'z'.val) ||
      decide (c.val ≥ '0'.val) && decide (c.val ≤ '9'.val)) = true := h
  simp only [Bool.or_eq_true, Bool.and_eq_true, decide_eq_true_eq, ge_iff_le,
    UInt32.le_iff_toNat_le] at h
  have hZ : 'Z'.val.toNat = 90 := rfl
  have hz : 'z'.val.toNat = 122 := rfl
  have h9 : '9'.val.toNat = 57 := rfl
  show c.val.toNat < 128
  omega

/-- What is true of the characters of ASCII, one by one. -/
theorem Text.of_ascii {P : Char → Prop} (h : ∀ n : Fin 128, P (Char.ofNat n)) {c : Char}
    (hc : c.toNat < 128) : P c := by
  have hchar := h ⟨c.toNat, hc⟩
  rwa [Char.ofNat_toNat] at hchar

namespace Url

open AsyncModule.Text

variable {kind : SchemeKind} {s : String}

namespace Path

/-- A text in which nothing is left to be escaped or cut. -/
def Escaped (kind : SchemeKind) (s : String) : Prop :=
  ∀ c ∈ s.toList, c.toNat < 0x80 ∧ Percent.path c = false ∧ kind.isSlash c = false

/-- A segment in which nothing is left to be escaped, cut or followed. -/
structure Clean (kind : SchemeKind) (s : String) : Prop where
  escaped : Escaped kind s
  here : isHere s = false
  parent : isParent s = false

/-- A path of clean segments; a rootless path has none. -/
def AllClean (kind : SchemeKind) : Path → Prop
  | .rooted segments => ∀ s ∈ segments, Clean kind s
  | .rootless _ => True

theorem clean_empty (kind : SchemeKind) : Clean kind "" :=
  ⟨fun _ hc => absurd hc (by simp), by decide, by decide⟩

/-- No segment with a colon in it is followed as a dot or two. -/
theorem not_dots_of_colon (h : ':' ∈ s.toList) : isHere s = false ∧ isParent s = false := by
  have hcolon : ':' ∈ (String.ofList (s.toList.map Char.toLower)).toList := by
    rw [String.toList_ofList]
    exact List.mem_map_of_mem h
  have hnot : ∀ names : List String, (∀ name ∈ names, ':' ∉ name.toList) →
      names.contains (String.ofList (s.toList.map Char.toLower)) = false := by
    intro names hnames
    rw [Bool.eq_false_iff]
    intro hmem
    exact hnames _ (List.contains_iff_mem.mp hmem) hcolon
  exact ⟨hnot _ (by decide), hnot _ (by decide)⟩

theorem chars_colon (kind : SchemeKind) :
    ':'.toNat < 0x80 ∧ Percent.path ':' = false ∧ kind.isSlash ':' = false := by
  cases kind <;> decide

theorem Clean.normalDrive (h : Clean kind s) : Clean kind (normalDrive s) := by
  have hcolon : ':' ∈ (Path.normalDrive s).toList := by
    rw [Path.normalDrive, String.toList_ofList]
    exact List.mem_append_right _ List.mem_cons_self
  obtain ⟨hhere, hparent⟩ := not_dots_of_colon hcolon
  refine ⟨fun c hc => ?_, hhere, hparent⟩
  rw [Path.normalDrive, String.toList_ofList, List.mem_append, List.mem_singleton] at hc
  rcases hc with hc | rfl
  · exact h.escaped c (List.mem_of_mem_take hc)
  · exact chars_colon kind

theorem colon_mem_of_isNormalDrive (h : isNormalDrive s = true) : ':' ∈ s.toList := by
  simp only [isNormalDrive, Bool.and_eq_true, beq_iff_eq] at h
  exact List.mem_of_getLast? h.2

theorem escaped_segmentsOf {text : List Char} (h : s ∈ segmentsOf kind text) :
    Escaped kind s := by
  obtain ⟨f, hf, rfl⟩ := List.mem_map.mp h
  intro c hc
  rw [String.toList_ofList] at hc
  obtain ⟨a, ha, hc⟩ := List.mem_flatMap.mp hc
  unfold Percent.encodeChar at hc
  split at hc
  · rename_i hself
    rw [List.mem_singleton.mp hc]
    simp only [Bool.and_eq_true, decide_eq_true_eq, Bool.not_eq_true'] at hself
    exact ⟨hself.1, hself.2, sep_of_mem_fields hf a ha⟩
  · -- an escape is a percent sign and two digits
    obtain ⟨b, _, hc⟩ := List.mem_flatMap.mp hc
    have hplain : Plain c := by
      have hb : b.toNat < 256 := b.toNat_lt
      simp only [Percent.escape, List.mem_cons, List.not_mem_nil, or_false] at hc
      rcases hc with rfl | rfl | rfl
      · exact ⟨by decide, by decide, by decide, by decide, by decide⟩
      · exact plain_hexDigit (by omega)
      · exact plain_hexDigit (by omega)
    exact ⟨hplain.ascii, hplain.path, by
      simp [SchemeKind.isSlash, hplain.slash, hplain.backslash]⟩

theorem entering_clean (kind : SchemeKind) : Entering (Escaped kind) (Clean kind) where
  empty := clean_empty kind
  plain hs hhere hparent := ⟨hs, hhere, hparent⟩
  drive hs := hs.normalDrive
  behind {stem s} hstem hdrive hs _ := by
    have hcolon : ':' ∈ (stem ++ s).toList := by
      rw [String.toList_append]
      exact List.mem_append_left _ (colon_mem_of_isNormalDrive hdrive)
    obtain ⟨hhere, hparent⟩ := not_dots_of_colon hcolon
    refine ⟨fun c hc => ?_, hhere, hparent⟩
    rw [String.toList_append] at hc
    exact (List.mem_append.mp hc).elim (hstem.escaped c) (hs c)

theorem Trail.All.allClean {t : Trail} (h : t.All (Clean kind)) :
    (t.path kind).AllClean kind := by
  obtain ⟨segments, hpath, hsegments⟩ := h.path kind
  rw [hpath]
  exact hsegments

theorem allClean_follow {stack : List String} (text : List Char)
    (h : ∀ s ∈ stack, Clean kind s) : ((follow kind stack text).path kind).AllClean kind :=
  Trail.All.allClean (Trail.All.walk (entering_clean kind) (fun _ hs => escaped_segmentsOf hs) h)

end Path

/-- What the paths of URLs have in common however they have been read: it is true of what stands in
for a path, and of every path that is walked, from the root or from the directory of such a path. -/
structure Path.LeftByReading (P : SchemeKind → Path → Prop) : Prop where
  rootless : ∀ kind text, P kind (.rootless text)
  nothing : P .other (.rooted [])
  follow : ∀ {kind stack segments}, P kind (.rooted segments) → stack ⊆ segments →
    ∀ text, P kind ((Path.follow kind stack text).path kind)
  fresh : ∀ kind text, P kind ((Path.follow kind [] text).path kind)
  walkFrom : ∀ {b : Url}, P b.kind b.path → ∀ text, P b.kind (Parser.walkFrom b text)

/-- A URL whose path has such a property, behind a scheme without blanks. -/
structure Bears (P : SchemeKind → Path → Prop) (u : Url) : Prop where
  scheme : ∀ c ∈ u.scheme.toList, isBlank c = false
  path : P u.kind u.path

theorem kind_of_file {u : Url} (h : u.scheme = "file") : u.kind = .file := ofScheme_eq_file.mpr h

/-! ## Reading -/

section Reading

variable {P : SchemeKind → Path → Prop} {u b : Url}

theorem Path.LeftByReading.ofText (hP : Path.LeftByReading P) (kind : SchemeKind)
    (text : List Char) : P kind (Path.ofText kind text) := by
  unfold Path.ofText
  split
  · rename_i hother
    rw [Bool.and_eq_true, beq_iff_eq] at hother
    rw [hother.1]
    exact hP.nothing
  · exact hP.fresh _ _

theorem Bears.withPath (h : u.Bears P) {p : Path} (hp : P u.kind p) :
    Bears P { u with path := p } := ⟨h.scheme, hp⟩

theorem Bears.withSuffix (h : u.Bears P) (rest : List Char) :
    (Parser.withSuffix u rest).Bears P := ⟨h.scheme, h.path⟩

theorem bears_fileUrl {host : Host} {path : Path} (h : P .file path) :
    (Parser.fileUrl host path).Bears P := by
  have hall : "file".toList.all (!isBlank ·) = true := by decide
  refine ⟨fun c hc => ?_, h⟩
  simpa using List.all_eq_true.mp hall c hc

theorem bears_of_readAuthority (hP : Path.LeftByReading P) {scheme : String} {input : List Char}
    (hscheme : ∀ c ∈ scheme.toList, isBlank c = false)
    (h : Parser.readAuthority scheme input = .ok u) : u.Bears P := by
  unfold Parser.readAuthority at h
  dsimp only at h
  obtain ⟨_, _, h⟩ := bind_eq_ok h
  obtain ⟨_, _, h⟩ := bind_eq_ok h
  obtain ⟨_, _, h⟩ := bind_eq_ok h
  split at h
  · cases h
  · cases h
    exact Bears.withSuffix ⟨hscheme, hP.ofText _ _⟩ _

theorem bears_of_readFileAuthority (hP : Path.LeftByReading P) {input : List Char}
    (h : Parser.readFileAuthority input = .ok u) : u.Bears P := by
  unfold Parser.readFileAuthority at h
  dsimp only at h
  obtain ⟨_, _, h⟩ := bind_eq_ok h
  rw [← Except.ok.inj h]
  exact (bears_fileUrl (hP.fresh _ _)).withSuffix _

theorem bears_readFileRooted (hP : Path.LeftByReading P) {base : Option Url}
    (hbase : ∀ b ∈ base, b.Bears P ∧ b.scheme = "file") (input : List Char) :
    (Parser.readFileRooted base input).Bears P := by
  have hplain : ∀ host text,
      (Parser.fileUrl host ((Path.follow .file [] text).path .file)).Bears P :=
    fun _ _ => bears_fileUrl (hP.fresh _ _)
  unfold Parser.readFileRooted
  dsimp only
  refine Bears.withSuffix ?_ _
  split
  · exact hplain _ _
  · rename_i b
    obtain ⟨hb, hfile⟩ := hbase b rfl
    split
    · exact hplain _ _
    · split
      · rename_i first hfirst
        split
        · -- the drive that the base begins with is kept
          have hmem : first ∈ b.segments := List.mem_of_mem_head? hfirst
          cases hpath : b.path with
          | rootless text => simp [segments, hpath] at hmem
          | rooted segments =>
            have hb := hb.path
            rw [kind_of_file hfile, hpath] at hb
            rw [Url.segments, hpath] at hmem
            exact bears_fileUrl (hP.follow hb (by simpa using hmem) _)
        · exact hplain _ _
      · exact hplain _ _

theorem Bears.readPathless (hP : Path.LeftByReading P) (h : b.Bears P) (input : List Char) :
    (Parser.readPathless b input).Bears P := by
  unfold Parser.readPathless
  split
  · exact ⟨h.scheme, h.path⟩
  · exact h.withSuffix _
  · exact ⟨h.scheme, h.path⟩
  · exact (h.withPath (hP.walkFrom h.path _)).withSuffix _

theorem bears_readFileRelative (hP : Path.LeftByReading P) {base : Option Url}
    (hbase : ∀ b ∈ base, b.Bears P) (input : List Char) :
    (Parser.readFile.readFileRelative base input).Bears P := by
  have hafresh : ∀ text rest, (Parser.withSuffix
      (Parser.fileUrl Host.empty ((Path.follow .file [] text).path .file)) rest).Bears P :=
    fun _ _ => (bears_fileUrl (hP.fresh _ _)).withSuffix _
  unfold Parser.readFile.readFileRelative
  dsimp only
  split
  · exact hafresh _ _
  · rename_i b
    have hb := hbase b rfl
    split
    · split
      · exact hafresh _ _
      · exact hb.readPathless hP _
    · exact hb.readPathless hP _

theorem bears_of_readFile (hP : Path.LeftByReading P) {base : Option Url}
    (hbase : ∀ b ∈ base, b.Bears P ∧ b.scheme = "file") {input : List Char}
    (h : Parser.readFile base input = .ok u) : u.Bears P := by
  have hrelative : ∀ input, (Parser.readFile.readFileRelative base input).Bears P :=
    bears_readFileRelative hP fun b hb => (hbase b hb).1
  unfold Parser.readFile at h
  split at h
  · split at h
    · split at h
      · exact bears_of_readFileAuthority hP h
      · rw [← Except.ok.inj h]
        exact bears_readFileRooted hP hbase _
    · rw [← Except.ok.inj h]
      exact hrelative _
  · split at h
    · rw [← Except.ok.inj h]
      exact bears_readFileRooted hP hbase _
    · rw [← Except.ok.inj h]
      exact hrelative _
  · rw [← Except.ok.inj h]
    exact hrelative _

theorem Bears.readRelative (hP : Path.LeftByReading P) (hb : b.Bears P) {input : List Char}
    (h : Parser.readRelative b input = .ok u) : u.Bears P := by
  unfold Parser.readRelative at h
  dsimp only at h
  split at h
  · split at h
    · split at h
      · exact bears_of_readAuthority hP hb.scheme h
      · rw [← Except.ok.inj h]
        exact (hb.withPath (hP.fresh _ _)).withSuffix _
    · rw [← Except.ok.inj h]
      exact hb.readPathless hP _
  · rw [← Except.ok.inj h]
    exact hb.readPathless hP _

theorem bears_of_readOther (hP : Path.LeftByReading P) {scheme : String} {input : List Char}
    (hscheme : ∀ c ∈ scheme.toList, isBlank c = false) (hkind : SchemeKind.ofScheme scheme = .other)
    (h : Parser.readOther scheme input = .ok u) : u.Bears P := by
  unfold Parser.readOther at h
  split at h
  · exact bears_of_readAuthority hP hscheme h
  · rw [← Except.ok.inj h]
    refine Bears.withSuffix ⟨hscheme, ?_⟩ _
    show P (SchemeKind.ofScheme scheme) _
    rw [hkind]
    split
    · exact hP.fresh _ _
    · exact hP.rootless _ _

theorem isBlank_toLower {c : Char} (h : Parser.isSchemeChar c = true) :
    isBlank c.toLower = false := by
  have hascii : c.toNat < 128 := by
    simp only [Parser.isSchemeChar, Bool.or_eq_true, beq_iff_eq] at h
    rcases h with ((h | rfl) | rfl) | rfl
    · exact toNat_lt_of_isAlphanum h
    · decide
    · decide
    · decide
  exact of_ascii (P := fun c => Parser.isSchemeChar c = true → isBlank c.toLower = false)
    (by decide) hascii h

theorem nonblank_scheme {input rest : List Char} {scheme : String}
    (h : Parser.scheme? input = some (scheme, rest)) :
    ∀ c ∈ scheme.toList, isBlank c = false := by
  unfold Parser.scheme? at h
  split at h
  · split at h
    · split at h
      · cases h
        intro c hc
        rw [String.toList_ofList] at hc
        obtain ⟨a, ha, rfl⟩ := List.mem_map.mp hc
        exact isBlank_toLower (List.all_eq_true.mp List.all_takeWhile a ha)
      · cases h
    · cases h
  · cases h

theorem bears_of_read (hP : Path.LeftByReading P) {base : Option Url}
    (hbase : ∀ b ∈ base, b.Bears P) {text : String}
    (h : Parser.read base text = .ok u) : u.Bears P := by
  unfold Parser.read at h
  dsimp only at h
  split at h
  · rename_i scheme rest hscheme
    have hnonblank := nonblank_scheme hscheme
    split at h
    · refine bears_of_readFile hP (fun b hb => ?_) h
      obtain ⟨hb, hfile⟩ := Option.filter_eq_some_iff.mp hb
      exact ⟨hbase b hb, by simpa using hfile⟩
    · rename_i hkind
      exact bears_of_readOther hP hnonblank hkind h
    · split at h
      · rename_i b hb
        obtain ⟨hb, _⟩ := Option.filter_eq_some_iff.mp hb
        split at h
        · exact (hbase b hb).readRelative hP h
        · exact bears_of_readAuthority hP hnonblank h
      · exact bears_of_readAuthority hP hnonblank h
  · split at h
    · cases h
    · rename_i b
      have hb := hbase b rfl
      split at h
      · rw [← Except.ok.inj h]
        exact ⟨hb.scheme, hb.path⟩
      · split at h
        · cases h
        · split at h
          · rename_i hkind
            refine bears_of_readFile hP (fun b' hb' => ?_) h
            cases hb'
            exact ⟨hb, ofScheme_eq_file.mp (beq_iff_eq.mp hkind)⟩
          · exact hb.readRelative hP h

theorem Bears.setPath (hP : Path.LeftByReading P) (h : u.Bears P) (text : String) :
    (u.setPath text).Bears P := by
  unfold Url.setPath
  dsimp only
  split
  · exact h.withPath (hP.ofText _ _)
  · exact h.withPath (hP.rootless _ _)

/-- A URL that has been read, or made of one that has. -/
inductive Obtained : Url → Prop where
  | parse {text : String} {u : Url} (h : Url.parse text = .ok u) : Obtained u
  | join {b u : Url} {reference : String} (hb : Obtained b) (h : b.join reference = .ok u) :
      Obtained u
  | setPath {u : Url} (hu : Obtained u) (text : String) : Obtained (u.setPath text)
  | withoutSuffix {u : Url} (hu : Obtained u) : Obtained u.withoutSuffix

theorem Obtained.bears (hP : Path.LeftByReading P) (h : u.Obtained) : u.Bears P := by
  induction h with
  | parse h => exact bears_of_read hP (by simp) h
  | join _ h ih => exact bears_of_read hP (fun b hb => by cases hb; exact ih) h
  | setPath _ text ih => exact ih.setPath hP text
  | withoutSuffix _ ih => exact ⟨ih.scheme, ih.path⟩

end Reading

/-! ## The URLs that there are -/

/-- A URL whose path has been walked, behind a scheme without blanks. -/
structure Walked (u : Url) : Prop where
  scheme : ∀ c ∈ u.scheme.toList, isBlank c = false
  path : u.path.AllClean u.kind

variable {u b : Url}

theorem walked_iff : u.Walked ↔ u.Bears fun kind path => path.AllClean kind :=
  ⟨fun h => ⟨h.scheme, h.path⟩, fun h => ⟨h.scheme, h.path⟩⟩

theorem clean_segments (h : u.path.AllClean u.kind) : ∀ s ∈ u.segments, Path.Clean u.kind s := by
  unfold Url.segments
  split
  · rename_i segments heq
    rw [heq] at h
    exact h
  · simp

theorem Walked.segments (h : u.Walked) : ∀ s ∈ u.segments, Path.Clean u.kind s :=
  clean_segments h.path

theorem allClean_walkFrom (h : b.path.AllClean b.kind) (text : List Char) :
    (Parser.walkFrom b text).AllClean b.kind := by
  obtain ⟨t, hwalk, hall⟩ := exists_walkFrom (Path.entering_clean b.kind) (clean_segments h) text
    fun _ hs => Path.escaped_segmentsOf hs
  rw [hwalk]
  exact hall.allClean

theorem leftByReading_allClean : Path.LeftByReading fun kind path => path.AllClean kind where
  rootless _ _ := trivial
  nothing := fun _ hs => absurd hs List.not_mem_nil
  follow h hstack text := Path.allClean_follow text fun s hs => h s (hstack hs)
  fresh _ text := Path.allClean_follow text (by simp)
  walkFrom h text := allClean_walkFrom h text

theorem walked_of_read {base : Option Url} (hbase : ∀ b ∈ base, b.Walked) {text : String}
    (h : Parser.read base text = .ok u) : u.Walked :=
  walked_iff.mpr (bears_of_read leftByReading_allClean
    (fun b hb => walked_iff.mp (hbase b hb)) h)

theorem Walked.setPath (h : u.Walked) (text : String) : (u.setPath text).Walked :=
  walked_iff.mpr ((walked_iff.mp h).setPath leftByReading_allClean text)

theorem Obtained.walked (h : u.Obtained) : u.Walked :=
  walked_iff.mpr (h.bears leftByReading_allClean)

end Url
end AsyncModule
