import AsyncModule.Context
import AsyncModule.Proofs.Slashes

/-!
# AsyncModule.Proofs.Written

The written form of a URL is its identity. URLs that have been read can differ in how their
authority came about, but where they are written alike they agree in everything that resolving a
reference depends on, so whatever is resolved against them is written alike again.

* `alike_of_toString_eq` — URLs written alike agree in scheme, authority and path.
* `sameResult_read`      — a reference read against either of them gives URLs written alike.
-/

namespace AsyncModule
namespace Url

open AsyncModule.Text

/-- What a URL keeps to that has been read. -/
structure WellFormed (u : Url) : Prop where
  scheme : ':' ∉ u.scheme.toList
  username : '/' ∉ u.username.toList
  password : '/' ∉ u.password.toList
  host : ∀ h, u.host = some h → '/' ∉ h.toString.toList
  path : u.path.AllProper
  /-- The authority of a file is a host and nothing else. -/
  file : u.scheme = "file" →
    u.username = "" ∧ u.password = "" ∧ u.port = none ∧ u.host ≠ none

/-- URLs that have been read and are written alike, part by part. -/
structure Alike (u v : Url) : Prop where
  left : u.WellFormed
  right : v.WellFormed
  scheme : u.scheme = v.scheme
  authority : u.authority = v.authority
  path : u.path = v.path
  query : u.query = v.query
  fragment : u.fragment = v.fragment

theorem WellFormed.alike {u : Url} (h : u.WellFormed) : Alike u u :=
  ⟨h, h, rfl, rfl, rfl, rfl, rfl⟩

theorem Alike.symm {u v : Url} (h : Alike u v) : Alike v u :=
  ⟨h.right, h.left, h.scheme.symm, h.authority.symm, h.path.symm, h.query.symm,
    h.fragment.symm⟩

theorem WellFormed.segments {u : Url} (h : u.WellFormed) : ∀ s ∈ u.segments, Path.Proper s := by
  have hp := h.path
  unfold Url.segments
  split
  · rename_i segments heq
    rw [heq] at hp
    exact hp
  · simp

/-! ## Authorities -/

/-- What stands in the authority after its two slashes. -/
def authorityText (u : Url) : String :=
  u.credentials ++ (u.host.getD Host.empty).toString ++
    (match u.port with
      | none => ""
      | some n => ":" ++ n.repr)

theorem authority_eq (u : Url) :
    u.authority = if u.host = none then "" else "//" ++ u.authorityText := by
  unfold authority authorityText
  cases u.host with
  | none => rfl
  | some h =>
    rw [if_neg (by simp)]
    cases u.port with
    | none => simp [String.append_assoc]
    | some n => simp [String.append_assoc]

theorem authority_eq_empty_iff {u : Url} : u.authority = "" ↔ u.host = none := by
  rw [authority_eq]
  constructor
  · intro h
    split at h
    · assumption
    · have hlist := congrArg String.toList h
      rw [String.toList_append] at hlist
      cases hlist
  · exact fun h => if_pos h

theorem Alike.host_iff {u v : Url} (h : Alike u v) : u.host = none ↔ v.host = none := by
  rw [← authority_eq_empty_iff, h.authority, authority_eq_empty_iff]

theorem WellFormed.slash_not_mem_authorityText {u : Url} (h : u.WellFormed) :
    '/' ∉ u.authorityText.toList := by
  have hcred : '/' ∉ u.credentials.toList := by
    unfold credentials
    split
    · simp
    · split
      · simp [h.username]
      · simp [h.username, h.password]
  have hhost : '/' ∉ (u.host.getD Host.empty).toString.toList := by
    cases hh : u.host with
    | none => decide
    | some host => exact h.host host hh
  unfold authorityText
  rw [String.toList_append, String.toList_append, List.mem_append, List.mem_append, not_or, not_or]
  refine ⟨⟨hcred, hhost⟩, ?_⟩
  split
  · simp
  · simp only [String.toList_append, List.mem_append, not_or]
    exact ⟨by decide, slash_not_mem_repr _⟩

/-! ## Written alike -/

/-- Where a separator comes next, texts without one can be told from what follows them. -/
theorem append_inj_of_sep {sep : Char} {a b : List Char} (ha : sep ∉ a)
    (hb : ∀ c ∈ b.head?, c = sep) :
    ∀ {a' b' : List Char}, sep ∉ a' → (∀ c ∈ b'.head?, c = sep) → a ++ b = a' ++ b' →
      a = a' ∧ b = b' := by
  induction a with
  | nil =>
    intro a' b' ha' hb' h
    cases a' with
    | nil => exact ⟨rfl, h⟩
    | cons c a' =>
      rw [List.nil_append] at h
      have hc := hb c (by rw [h]; rfl)
      exact absurd (by rw [hc]; exact List.mem_cons_self) ha'
  | cons c a ih =>
    intro a' b' ha' hb' h
    cases a' with
    | nil =>
      rw [List.nil_append] at h
      have hc := hb' c (by rw [← h]; rfl)
      exact absurd (by rw [hc]; exact List.mem_cons_self) ha
    | cons c' a' =>
      rw [List.cons_append, List.cons_append, List.cons.injEq] at h
      obtain ⟨rfl, h⟩ := h
      have ⟨haa, hbb⟩ := ih (fun hm => ha (List.mem_cons_of_mem _ hm))
        (fun hm => ha' (List.mem_cons_of_mem _ hm)) hb' h
      exact ⟨by rw [haa], hbb⟩

/-- Segments, each behind its slash. -/
def written (segments : List String) : List Char := segments.flatMap fun s => '/' :: s.toList

theorem toList_rooted (segments : List String) :
    (Path.rooted segments).toString.toList = written segments := by
  rw [Path.toString, String.toList_join, List.flatMap_map]
  simp [written]

theorem head?_written (segments : List String) : ∀ c ∈ (written segments).head?, c = '/' := by
  intro c hc
  cases segments with
  | nil => cases hc
  | cons s rest =>
    cases hc
    rfl

theorem written_inj {segments segments' : List String} (h : ∀ s ∈ segments, '/' ∉ s.toList)
    (h' : ∀ s ∈ segments', '/' ∉ s.toList) (heq : written segments = written segments') :
    segments = segments' := by
  induction segments generalizing segments' with
  | nil =>
    cases segments' with
    | nil => rfl
    | cons s rest => cases heq
  | cons s rest ih =>
    cases segments' with
    | nil => cases heq
    | cons s' rest' =>
      simp only [written, List.flatMap_cons, List.cons_append, List.cons.injEq, true_and] at heq
      obtain ⟨hs, hrest⟩ := append_inj_of_sep (h s List.mem_cons_self) (head?_written rest)
        (h' s' List.mem_cons_self) (head?_written rest') heq
      rw [String.toList_inj.mp hs, ih (fun x hx => h x (List.mem_cons_of_mem _ hx))
        (fun x hx => h' x (List.mem_cons_of_mem _ hx)) hrest]

/-- The segments that are written: without an authority, two slashes do not come first. -/
def steps (u : Url) : List String :=
  match u.host, u.segments with
  | none, "" :: s :: rest => "." :: "" :: s :: rest
  | _, segments => segments

/-- What a resolver finds: rooted, with nothing behind its path. -/
structure Canonical (u : Url) : Prop extends WellFormed u where
  rooted : u.isRootless = false
  query : u.query = none
  fragment : u.fragment = none

theorem Canonical.path_eq {u : Url} (h : u.Canonical) : u.path = .rooted u.segments := by
  have hr := h.rooted
  unfold isRootless at hr
  unfold segments
  split at hr
  · cases hr
  · rename_i segments heq
    rw [heq]

theorem Canonical.toList_toString {u : Url} (h : u.Canonical) :
    u.toString.toList =
      u.scheme.toList ++ ':' :: (u.authority.toList ++ written u.steps) := by
  have hguard : u.guard.toList ++ u.path.toString.toList = written u.steps := by
    rw [h.path_eq, toList_rooted]
    unfold guard steps
    rw [h.path_eq]
    split
    · rename_i hh hp
      simp only [Path.rooted.injEq] at hp
      rw [hh, hp]
      rfl
    · rename_i hno
      split
      · rename_i s rest hh hs
        exact absurd (by rw [hs]) (hno _ _ hh)
      · rfl
  unfold toString
  rw [h.query, h.fragment]
  simp only [suffix, String.append_empty, String.toList_append, List.append_assoc, hguard]
  rfl

theorem proper_steps {u : Url} (h : u.WellFormed) : ∀ s ∈ u.steps, '/' ∉ s.toList := by
  intro s hs
  unfold steps at hs
  split at hs
  · rename_i hh hsegments
    rcases List.mem_cons.mp hs with rfl | hs
    · decide
    · rw [← hsegments] at hs
      exact (h.segments s hs).1
  · exact (h.segments s hs).1

theorem filter_steps {u : Url} (h : u.WellFormed) : u.steps.filter (· ≠ ".") = u.segments := by
  have hall : u.segments.filter (· ≠ ".") = u.segments := by
    rw [List.filter_eq_self]
    intro s hs
    simpa using (h.segments s hs).2
  unfold steps
  split
  · rename_i hh hsegments
    rw [List.filter_cons_of_neg (by decide), ← hsegments, hall]
  · exact hall

theorem steps_head {u : Url} (h : u.WellFormed) (hh : u.host = none) (text : List Char) :
    written u.steps ≠ '/' :: '/' :: text := by
  intro heq
  unfold steps at heq
  rw [hh] at heq
  split at heq
  · simp [written] at heq
  · rename_i hno
    cases hs : u.segments with
    | nil =>
      rw [hs] at heq
      cases heq
    | cons s rest =>
      rw [hs] at heq
      have hfree := (h.segments s (by rw [hs]; exact List.mem_cons_self)).1
      simp only [written, List.flatMap_cons, List.cons_append, List.cons.injEq, true_and] at heq
      cases hl : s.toList with
      | nil =>
        rw [hl, List.nil_append] at heq
        cases rest with
        | nil => cases heq
        | cons s' rest =>
          have hempty : s = "" := String.toList_inj.mp hl
          rw [hempty] at hs
          exact hno s' rest rfl hs
      | cons c cs =>
        rw [hl, List.cons_append, List.cons.injEq] at heq
        rw [hl, heq.1] at hfree
        exact hfree List.mem_cons_self

theorem alike_of_toString_eq {u v : Url} (hu : u.Canonical) (hv : v.Canonical)
    (h : u.toString = v.toString) : Alike u v := by
  have hlist := congrArg String.toList h
  rw [hu.toList_toString, hv.toList_toString] at hlist
  obtain ⟨hscheme, hrest⟩ := append_inj_of_sep hu.scheme (by simp) hv.scheme (by simp) hlist
  rw [List.cons.injEq] at hrest
  have hrest := hrest.2
  have hsame : u.authority = v.authority ∧ u.steps = v.steps := by
    have hsteps : written u.steps = written v.steps → u.steps = v.steps :=
      written_inj (proper_steps hu.toWellFormed) (proper_steps hv.toWellFormed)
    -- an authority cannot be taken for a path, nor a path for an authority
    have hapart : ∀ {u v : Url}, u.WellFormed → u.host = none → v.host ≠ none →
        u.authority.toList ++ written u.steps ≠ v.authority.toList ++ written v.steps := by
      intro u v hu hnone hsome heq
      rw [authority_eq u, authority_eq v, if_pos hnone, if_neg hsome] at heq
      exact steps_head hu hnone _ (by simpa using heq)
    by_cases hnone : u.host = none
    · by_cases hnone' : v.host = none
      · rw [authority_eq u, authority_eq v, if_pos hnone, if_pos hnone'] at hrest ⊢
        exact ⟨rfl, hsteps (by simpa using hrest)⟩
      · exact absurd hrest (hapart hu.toWellFormed hnone hnone')
    · by_cases hnone' : v.host = none
      · exact absurd hrest.symm (hapart hv.toWellFormed hnone' hnone)
      · rw [authority_eq u, authority_eq v, if_neg hnone, if_neg hnone'] at hrest ⊢
        simp only [String.toList_append, List.append_assoc] at hrest
        obtain ⟨htext, hpath⟩ := append_inj_of_sep hu.slash_not_mem_authorityText
          (head?_written _) hv.slash_not_mem_authorityText (head?_written _)
          (List.append_cancel_left hrest)
        exact ⟨by rw [String.toList_inj.mp htext], hsteps hpath⟩
  refine ⟨hu.toWellFormed, hv.toWellFormed, String.toList_inj.mp hscheme, hsame.1, ?_,
    by rw [hu.query, hv.query], by rw [hu.fragment, hv.fragment]⟩
  rw [hu.path_eq, hv.path_eq, ← filter_steps hu.toWellFormed, ← filter_steps hv.toWellFormed,
    hsame.2]

theorem Alike.toString_eq {u v : Url} (h : Alike u v) : u.toString = v.toString := by
  have hguard : u.guard = v.guard := by
    unfold guard
    rw [h.path]
    cases hu : u.host with
    | none => rw [h.host_iff.mp hu]
    | some host =>
      cases hv : v.host with
      | none =>
        rw [h.host_iff.mpr hv] at hu
        cases hu
      | some host' => rfl
  unfold toString
  rw [h.scheme, h.authority, hguard, h.path, h.query, h.fragment]

/-! ## Reading references -/

theorem bind_eq_ok {ε α β : Type} {x : Except ε α} {f : α → Except ε β} {b : β}
    (h : x >>= f = .ok b) : ∃ a, x = .ok a ∧ f a = .ok b := by
  cases x with
  | error e => cases h
  | ok a => exact ⟨a, rfl, h⟩

/-- Two results that are the same error, or values in some relation. -/
inductive SameResult {ε α : Type} (R : α → α → Prop) : Except ε α → Except ε α → Prop where
  | ok {a b : α} (h : R a b) : SameResult R (.ok a) (.ok b)
  | error (e : ε) : SameResult R (.error e) (.error e)

namespace SameResult

variable {ε α β : Type} {R : α → α → Prop} {S : β → β → Prop} {x y : Except ε α}

theorem refl (h : ∀ a, x = .ok a → R a a) : SameResult R x x := by
  cases x with
  | ok a => exact .ok (h a rfl)
  | error e => exact .error e

theorem bind {f g : α → Except ε β} (h : SameResult R x y)
    (hfg : ∀ a b, R a b → SameResult S (f a) (g b)) : SameResult S (x >>= f) (y >>= g) := by
  cases h with
  | ok hab => exact hfg _ _ hab
  | error e => exact .error e

theorem exists_of_ok {a : α} (h : SameResult R x y) (hx : x = .ok a) : ∃ b, y = .ok b ∧ R a b := by
  cases h with
  | ok hab =>
    cases hx
    exact ⟨_, rfl, hab⟩
  | error e => cases hx

end SameResult

variable {u v : Url}

theorem Alike.kind (h : Alike u v) : u.kind = v.kind := by rw [Url.kind, Url.kind, h.scheme]

theorem Alike.segments (h : Alike u v) : u.segments = v.segments := by
  rw [Url.segments, Url.segments, h.path]

theorem Alike.isRootless (h : Alike u v) : u.isRootless = v.isRootless := by
  rw [Url.isRootless, Url.isRootless, h.path]

theorem WellFormed.withPath (h : u.WellFormed) {p : Path} (hp : p.AllProper) :
    WellFormed { u with path := p } :=
  ⟨h.scheme, h.username, h.password, h.host, hp, h.file⟩

theorem Alike.withPath (h : Alike u v) {p : Path} (hp : p.AllProper) :
    Alike { u with path := p } { v with path := p } :=
  ⟨h.left.withPath hp, h.right.withPath hp, h.scheme, h.authority, rfl, h.query, h.fragment⟩

theorem Alike.withMarks (h : Alike u v) {query query' : Option String} (hq : query = query')
    (fragment : Option String) :
    Alike { u with query := query, fragment := fragment }
      { v with query := query', fragment := fragment } :=
  ⟨⟨h.left.scheme, h.left.username, h.left.password, h.left.host, h.left.path, h.left.file⟩,
    ⟨h.right.scheme, h.right.username, h.right.password, h.right.host, h.right.path,
      h.right.file⟩, h.scheme, h.authority, h.path, hq, rfl⟩

theorem Alike.withSuffix (h : Alike u v) (rest : List Char) :
    Alike (Parser.withSuffix u rest) (Parser.withSuffix v rest) := by
  have hs := h.withMarks (Eq.refl (Parser.readSuffix u.kind rest).1)
    (Parser.readSuffix u.kind rest).2
  unfold Parser.withSuffix
  rw [← h.kind]
  exact hs

theorem slash_not_mem_encoded (cs : List Char) :
    '/' ∉ (Parser.encoded Percent.userinfo cs).toList := by
  rw [Parser.encoded, String.toList_ofList]
  exact Percent.slash_not_mem_encode fun _ => by decide

theorem slash_not_mem_of_readCredentials {kind : SchemeKind} {input rest : List Char}
    {credentials : Parser.Credentials}
    (h : Parser.readCredentials kind input = .ok (credentials, rest)) :
    '/' ∉ credentials.username.toList ∧ '/' ∉ credentials.password.toList := by
  unfold Parser.readCredentials at h
  dsimp only at h
  split at h
  · cases h
    exact ⟨by decide, by decide⟩
  · split at h
    · cases h
    · cases h
      exact ⟨slash_not_mem_encoded _, slash_not_mem_encoded _⟩

theorem slash_not_mem_of_readHost {kind : SchemeKind} {text : List Char} {host : Host}
    (h : Parser.readHost kind text = .ok host) : '/' ∉ host.toString.toList := by
  unfold Parser.readHost at h
  split at h
  · exact Host.slash_not_mem_of_parseVerbatim h
  · split at h
    · cases h
    · exact Host.slash_not_mem_of_parse h

theorem slash_not_mem_of_readFileHost {text : List Char} {host : Host}
    (h : Parser.readFileHost text = .ok host) : '/' ∉ host.toString.toList := by
  unfold Parser.readFileHost at h
  split at h
  · cases h
    decide
  · split at h
    · cases h
      decide
    · exact Host.slash_not_mem_of_parse h

/-- What is read behind an authority is well formed. Files are read otherwise. -/
theorem wellFormed_of_readAuthority {scheme : String} {input : List Char}
    (hscheme : ':' ∉ scheme.toList) (hfile : scheme ≠ "file")
    (h : Parser.readAuthority scheme input = .ok u) : u.WellFormed := by
  unfold Parser.readAuthority at h
  dsimp only at h
  obtain ⟨⟨credentials, input'⟩, hcredentials, h⟩ := bind_eq_ok h
  obtain ⟨host, hhost, h⟩ := bind_eq_ok h
  obtain ⟨⟨port, rest⟩, _, h⟩ := bind_eq_ok h
  obtain ⟨husername, hpassword⟩ := slash_not_mem_of_readCredentials hcredentials
  split at h
  · cases h
  · cases h
    refine (WellFormed.alike ⟨hscheme, husername, hpassword, ?_, Path.allProper_ofText _ _,
      fun heq => absurd heq hfile⟩).withSuffix _ |>.left
    intro host' heq
    cases heq
    exact slash_not_mem_of_readHost hhost

/-! ### Files -/

theorem wellFormed_fileUrl {host : Host} {path : Path} (hhost : '/' ∉ host.toString.toList)
    (hpath : path.AllProper) : (Parser.fileUrl host path).WellFormed where
  scheme := show ':' ∉ "file".toList by decide
  username := show '/' ∉ "".toList by decide
  password := show '/' ∉ "".toList by decide
  host h heq := by
    cases heq
    exact hhost
  path := hpath
  file _ := ⟨rfl, rfl, rfl, by simp [Parser.fileUrl]⟩

theorem slash_not_mem_empty : '/' ∉ Host.empty.toString.toList := by decide

theorem allProper_follow {kind : SchemeKind} {stack : List String} (text : List Char)
    (h : ∀ s ∈ stack, Path.Proper s) : ((Path.follow kind stack text).path kind).AllProper :=
  (Path.proper_follow text h).path kind

theorem wellFormed_of_readFileAuthority {input : List Char}
    (h : Parser.readFileAuthority input = .ok u) : u.WellFormed := by
  unfold Parser.readFileAuthority at h
  dsimp only at h
  obtain ⟨host, hhost, h⟩ := bind_eq_ok h
  simp only [Except.ok.injEq] at h
  subst h
  have hslash : ∀ drive : Bool, '/' ∉ (if drive then Host.empty else host).toString.toList := by
    intro drive
    cases drive with
    | true => exact slash_not_mem_empty
    | false => exact slash_not_mem_of_readFileHost hhost
  exact ((wellFormed_fileUrl (hslash _) (allProper_follow _ (by simp))).alike.withSuffix _).left

theorem Alike.host_of_file (h : Alike u v) (hfile : u.scheme = "file") :
    (u.host.getD Host.empty).toString = (v.host.getD Host.empty).toString := by
  obtain ⟨husername, hpassword, hport, hsome⟩ := h.left.file hfile
  obtain ⟨husername', hpassword', hport', hsome'⟩ := h.right.file (by rw [← h.scheme, hfile])
  have hauthority := congrArg String.toList h.authority
  rw [authority_eq, authority_eq, if_neg hsome, if_neg hsome', String.toList_append,
    String.toList_append] at hauthority
  have htext := String.toList_inj.mp (List.append_cancel_left hauthority)
  simpa [authorityText, credentials, husername, hpassword, hport, husername', hpassword',
    hport'] using htext

theorem alike_fileUrl {host host' : Host} {path : Path}
    (hhost : host.toString = host'.toString) (hslash : '/' ∉ host.toString.toList)
    (hpath : path.AllProper) : Alike (Parser.fileUrl host path) (Parser.fileUrl host' path) where
  left := wellFormed_fileUrl hslash hpath
  right := wellFormed_fileUrl (by rw [← hhost]; exact hslash) hpath
  scheme := rfl
  authority := by simp [authority, Parser.fileUrl, credentials, hhost]
  path := rfl
  query := rfl
  fragment := rfl

theorem proper_head {s : String} (h : u.WellFormed) (hs : u.segments.head? = some s) :
    ∀ x ∈ [s], Path.Proper x := by
  intro x hx
  rw [List.mem_singleton.mp hx]
  exact h.segments s (List.mem_of_mem_head? hs)

theorem Alike.readFileRooted (h : Alike u v) (hfile : u.scheme = "file") (input : List Char) :
    Alike (Parser.readFileRooted (some u) input) (Parser.readFileRooted (some v) input) := by
  have hhost := h.host_of_file hfile
  have hslash : '/' ∉ (u.host.getD Host.empty).toString.toList := by
    cases hu : u.host with
    | none => exact slash_not_mem_empty
    | some host => exact h.left.host host hu
  have hplain : ∀ {text}, ((Path.follow .file [] text).path .file).AllProper :=
    fun {text} => allProper_follow text (by simp)
  unfold Parser.readFileRooted
  dsimp only
  rw [← h.segments]
  split
  · exact (alike_fileUrl rfl slash_not_mem_empty hplain).withSuffix _
  · split
    · rename_i s hs
      split
      · exact (alike_fileUrl rfl slash_not_mem_empty
          (allProper_follow _ (proper_head h.left hs))).withSuffix _
      · exact (alike_fileUrl hhost hslash hplain).withSuffix _
    · exact (alike_fileUrl hhost hslash hplain).withSuffix _

theorem wellFormed_readFileRooted (input : List Char) :
    (Parser.readFileRooted none input).WellFormed :=
  ((wellFormed_fileUrl slash_not_mem_empty
    (allProper_follow _ (by simp))).alike.withSuffix _).left

/-! ### Paths -/

theorem Alike.walkFrom (h : Alike u v) (text : List Char) :
    Parser.walkFrom u text = Parser.walkFrom v text := by
  unfold Parser.walkFrom
  rw [h.kind, h.segments]

theorem allProper_walkFrom (h : u.WellFormed) (text : List Char) :
    (Parser.walkFrom u text).AllProper := by
  obtain ⟨t, hwalk, hall⟩ := exists_walkFrom Path.entering_proper h.segments text
    fun _ hs => Path.slash_not_mem_segmentsOf hs
  rw [hwalk]
  exact Path.Trail.Proper.path _ hall

theorem Alike.readPathless (h : Alike u v) (input : List Char) :
    Alike (Parser.readPathless u input) (Parser.readPathless v input) := by
  unfold Parser.readPathless
  split
  · exact h.withMarks h.query none
  · exact h.withSuffix _
  · exact h.withMarks h.query _
  · dsimp only [Parser.cutPath]
    rw [← h.walkFrom]
    exact (h.withPath (allProper_walkFrom h.left _)).withSuffix _

/-! ### Any reference -/

theorem ofScheme_eq_file {scheme : String} : SchemeKind.ofScheme scheme = .file ↔ scheme = "file" := by
  unfold SchemeKind.ofScheme
  split
  · rename_i h
    simpa using h
  · rename_i h
    split <;> simpa using h

theorem Alike.readFileRelative {base base' : Option Url} (h : Option.Rel Alike base base')
    (input : List Char) :
    Alike (Parser.readFile.readFileRelative base input)
      (Parser.readFile.readFileRelative base' input) := by
  have hafresh : ∀ text rest, Alike
      (Parser.withSuffix (Parser.fileUrl Host.empty ((Path.follow .file [] text).path .file)) rest)
      (Parser.withSuffix (Parser.fileUrl Host.empty ((Path.follow .file [] text).path .file)) rest) :=
    fun text rest => ((wellFormed_fileUrl slash_not_mem_empty
      (allProper_follow text (by simp))).alike.withSuffix rest)
  unfold Parser.readFile.readFileRelative
  dsimp only [Parser.cutPath]
  cases h with
  | none => exact hafresh _ _
  | some h =>
    dsimp only
    split
    · split
      · exact hafresh _ _
      · exact h.readPathless _
    · exact h.readPathless _

theorem sameResult_readFile {base base' : Option Url} (h : Option.Rel Alike base base')
    (hfile : ∀ b ∈ base, b.scheme = "file") (input : List Char) :
    SameResult Alike (Parser.readFile base input) (Parser.readFile base' input) := by
  have hrooted : ∀ input, SameResult Alike
      (.ok (Parser.readFileRooted base input) : Except Error Url) (.ok (Parser.readFileRooted base' input)) := by
    intro input
    cases h with
    | none => exact .ok (wellFormed_readFileRooted input).alike
    | some h => exact .ok (h.readFileRooted (hfile _ rfl) input)
  unfold Parser.readFile
  split
  · split
    · split
      · exact .refl fun _ h => (wellFormed_of_readFileAuthority h).alike
      · exact hrooted _
    · exact .ok (Alike.readFileRelative h _)
  · split
    · exact hrooted _
    · exact .ok (Alike.readFileRelative h _)
  · exact .ok (Alike.readFileRelative h _)

theorem sameResult_readRelative (h : Alike u v) (hfile : u.scheme ≠ "file")
    (input : List Char) : SameResult Alike (Parser.readRelative u input) (Parser.readRelative v input) := by
  unfold Parser.readRelative
  dsimp only [Parser.cutPath]
  split
  · split
    · split
      · rw [← h.scheme]
        exact .refl fun _ hread => (wellFormed_of_readAuthority h.left.scheme hfile hread).alike
      · rw [← h.kind]
        exact .ok ((h.withPath (allProper_follow _ (by simp))).withSuffix _)
    · exact .ok (h.readPathless _)
  · exact .ok (h.readPathless _)

theorem wellFormed_of_readOther {scheme : String} {input : List Char}
    (hscheme : ':' ∉ scheme.toList) (hfile : scheme ≠ "file")
    (h : Parser.readOther scheme input = .ok u) : u.WellFormed := by
  unfold Parser.readOther at h
  split at h
  · exact wellFormed_of_readAuthority hscheme hfile h
  · dsimp only [Parser.cutPath] at h
    rw [← Except.ok.inj h]
    refine (WellFormed.alike ⟨hscheme, show '/' ∉ "".toList by decide,
      show '/' ∉ "".toList by decide, by simp, ?_, fun heq => absurd heq hfile⟩).withSuffix _
      |>.left
    dsimp only
    split
    · exact allProper_follow _ (by simp)
    · trivial

theorem colon_not_mem_scheme {input rest : List Char} {scheme : String}
    (h : Parser.scheme? input = some (scheme, rest)) : ':' ∉ scheme.toList := by
  unfold Parser.scheme? at h
  split at h
  · split at h
    · split at h
      · cases h
        rw [String.toList_ofList]
        refine not_mem_map_toLower (by decide) ?_
        intro hmem
        exact absurd (List.all_eq_true.mp List.all_takeWhile ':' hmem) (by decide)
      · cases h
    · cases h
  · cases h

theorem sameResult_read {base base' : Option Url} (h : Option.Rel Alike base base')
    (text : String) : SameResult Alike (Parser.read base text) (Parser.read base' text) := by
  unfold Parser.read
  dsimp only
  have hfilter : ∀ scheme, Option.Rel Alike (base.filter (·.scheme == scheme))
      (base'.filter (·.scheme == scheme)) := by
    intro scheme
    cases h with
    | none => exact .none
    | some h =>
      simp only [Option.filter_some, ← h.scheme]
      split
      · exact .some h
      · exact .none
  split
  · rename_i scheme rest hscheme
    have hcolon := colon_not_mem_scheme hscheme
    split
    · refine sameResult_readFile (hfilter "file") ?_ rest
      intro b hb
      simpa using (Option.filter_eq_some_iff.mp hb).2
    · rename_i hkind
      refine .refl fun _ hread => (wellFormed_of_readOther hcolon ?_ hread).alike
      intro heq
      rw [ofScheme_eq_file.mpr heq] at hkind
      cases hkind
    · rename_i hkind
      have hfile : scheme ≠ "file" := by
        intro heq
        rw [ofScheme_eq_file.mpr heq] at hkind
        cases hkind
      have hauthority : ∀ input, SameResult Alike (Parser.readAuthority scheme input)
          (Parser.readAuthority scheme input) :=
        fun input => .refl fun _ hread => (wellFormed_of_readAuthority hcolon hfile hread).alike
      cases h with
      | none => exact hauthority _
      | some h =>
        rename_i b b'
        simp only [Option.filter_some, ← h.scheme]
        by_cases hb : b.scheme = scheme
        · simp only [hb, beq_self_eq_true, if_true]
          split
          · exact sameResult_readRelative h (by rw [hb]; exact hfile) _
          · exact hauthority _
        · simp only [beq_eq_false_iff_ne.mpr hb]
          exact hauthority _
  · cases h with
    | none => exact .error _
    | some h =>
      dsimp only
      split
      · exact .ok (h.withMarks h.query _)
      · rw [← h.isRootless, ← h.kind]
        split
        · exact .error _
        · split
          · rename_i hkind
            refine sameResult_readFile (.some h) ?_ _
            intro b hb
            cases hb
            exact ofScheme_eq_file.mp (beq_iff_eq.mp hkind)
          · rename_i hkind
            refine sameResult_readRelative h ?_ _
            intro heq
            exact hkind (beq_iff_eq.mpr (ofScheme_eq_file.mpr heq))

end Url
end AsyncModule
