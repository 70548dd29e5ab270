import AsyncModule.Proofs.Walked

/-!
# AsyncModule.Proofs.Canonicity

Canonical URLs. What a specifier is resolved to ends in the name of the resource, and whoever
resolves the canonical URL itself finds the same resource again.

* `Path.ofText_written`         — clean segments are walked to where they are.
* `Url.Seated`                  — a URL that ends in the name of a resource, and leads there.
* `Url.seated_setPath`          — a name put into the directory of a URL makes one.
* `Resolver.resolve_of_seated`  — where it is read, it is resolved to itself.
* `Resolver.resolve_canonical`  — what specifiers are resolved to is canonical.
-/

namespace AsyncModule

namespace Url

open AsyncModule.Text

namespace Path

variable {kind : SchemeKind} {segments front : List String} {s name : String}

/-- What a walk from the root makes of segments: a drive that comes first in the path of a file is
written with a colon. -/
def entered (kind : SchemeKind) : List String → List String
  | [] => []
  | s :: rest => (if kind == .file && isDrive s then normalDrive s else s) :: rest

theorem entered_concat (hname : isDrive name = false) :
    entered kind (front ++ [name]) = entered kind front ++ [name] := by
  cases front with
  | nil => simp [entered, hname]
  | cons s rest => rfl

theorem exists_of_isDrive (h : isDrive s = true) :
    ∃ a b, s.toList = [a, b] ∧ a.isAlpha = true ∧ (b = ':' ∨ b = '|') := by
  simp only [isDrive, Bool.and_eq_true, beq_iff_eq] at h
  obtain ⟨hlength, hdrive⟩ := h
  match hs : s.toList, hlength with
  | [a, b], _ =>
    rw [hs] at hdrive
    simp only [beginsWithDrive, Bool.and_eq_true, Bool.or_eq_true, beq_iff_eq] at hdrive
    exact ⟨a, b, rfl, hdrive.1⟩

theorem normalDrive_normalDrive (h : isDrive s = true) :
    normalDrive (normalDrive s) = normalDrive s := by
  obtain ⟨a, b, hs, _⟩ := exists_of_isDrive h
  simp [normalDrive, hs]

theorem entered_entered (segments : List String) :
    entered kind (entered kind segments) = entered kind segments := by
  cases segments with
  | nil => rfl
  | cons s rest =>
    simp only [entered]
    by_cases hdrive : (kind == .file && isDrive s) = true
    · rw [if_pos hdrive]
      rw [Bool.and_eq_true] at hdrive
      rw [normalDrive_normalDrive hdrive.2, ite_self]
    · rw [if_neg hdrive, if_neg hdrive]

theorem Clean.entered (h : ∀ s ∈ segments, Clean kind s) :
    ∀ s ∈ Path.entered kind segments, Clean kind s := by
  cases segments with
  | nil => exact h
  | cons s rest =>
    obtain ⟨hs, hrest⟩ := List.forall_mem_cons.mp h
    refine List.forall_mem_cons.mpr ⟨?_, hrest⟩
    split
    · exact hs.normalDrive
    · exact hs

theorem head?_entered (h : front.head? ≠ some "") : (entered kind front).head? ≠ some "" := by
  cases front with
  | nil => exact h
  | cons s rest =>
    intro heq
    simp only [entered, List.head?_cons, Option.some.injEq] at heq
    split at heq
    · have hlist := congrArg String.toList heq
      simp [normalDrive] at hlist
    · exact h (congrArg some heq)

/-- Clean segments are entered one after the other. -/
theorem stack_walk (h : ∀ s ∈ segments, Clean kind s) :
    (Trail.walk kind ⟨[], false⟩ segments).stack.reverse = entered kind segments := by
  cases segments with
  | nil => rfl
  | cons s rest =>
    obtain ⟨hs, hrest⟩ := List.forall_mem_cons.mp h
    have hfirst : (Trail.enter kind ⟨[], false⟩ s).stack =
        [if kind == .file && isDrive s then normalDrive s else s] := by
      simp only [Trail.enter, List.isEmpty_nil, Bool.and_true]
      split <;> rfl
    cases rest with
    | nil =>
      rw [Trail.walk, Trail.finish, hs.here, hs.parent]
      simp [hfirst, entered]
    | cons s' rest =>
      have hsteady : ∀ {t : Trail}, t.stack ≠ [] → Trail.walk kind t (s' :: rest) =
          { t with stack := (s' :: rest).reverse ++ t.stack } :=
        Trail.walk_steady fun s hs => ⟨(hrest s hs).here, (hrest s hs).parent⟩
      have hpass : Trail.pass kind ⟨[], false⟩ s = Trail.enter kind ⟨[], false⟩ s := by
        rw [Trail.pass, hs.here, hs.parent]
        rfl
      rw [Trail.walk, hpass, hsteady (by simp [hfirst])]
      · simp [hfirst, entered]
      · exact List.cons_ne_nil _ _

/-- A path of clean segments is walked to where it is. -/
theorem ofText_written (hne : segments ≠ []) (h : ∀ s ∈ segments, Clean kind s) :
    ofText kind (written segments) = .rooted (Trail.trim kind (entered kind segments)) := by
  obtain ⟨s, rest, rfl⟩ := List.exists_cons_of_ne_nil hne
  have hafter : afterSlash kind (written (s :: rest)) = s.toList ++ written rest := by
    have hlist : written (s :: rest) = '/' :: (s.toList ++ written rest) := rfl
    rw [hlist, afterSlash]
    rfl
  have hsegments : segmentsOf kind (s.toList ++ written rest) = s :: rest := by
    have hchars := fun x hx c hc => ((h x hx).escaped c hc).2.2
    rw [segmentsOf, fields_append_written rest (hchars s List.mem_cons_self)
      fun x hx => hchars x (List.mem_cons_of_mem _ hx), ← List.map_cons (f := String.toList),
      List.map_map]
    refine (List.map_congr_left fun x hx => ?_).trans (List.map_id _)
    rw [Function.comp_apply, Percent.encode_of_all fun c hc =>
      ⟨((h x hx).escaped c hc).1, ((h x hx).escaped c hc).2.1⟩, String.ofList_toList]
    rfl
  have hwritten : (kind == .other && (written (s :: rest)).isEmpty) = false := by
    simp [written]
  rw [ofText, hwritten, if_neg Bool.false_ne_true, hafter, follow, hsegments, Trail.path_eq,
    stack_walk h]

/-- Nothing is dropped off a path that does not begin with an empty segment. -/
theorem Trail.trim_concat_of (h : kind = .file → front.head? ≠ some "") (s : String) :
    trim kind (front ++ [s]) = front ++ [s] := by
  unfold trim
  split
  · rename_i hfile
    refine dropEmpty_eq_self fun s' rest heq => ?_
    cases front with
    | nil => simp at heq
    | cons first front =>
      obtain ⟨rfl, _⟩ := List.cons.inj heq
      exact h (beq_iff_eq.mp hfile) rfl
  · rfl

theorem Trail.head?_of_trim (h : trim kind (front ++ [s]) = front ++ [s]) (hfile : kind = .file) :
    front.head? ≠ some "" := by
  intro hhead
  obtain ⟨rest, rfl⟩ := List.head?_eq_some_iff.mp hhead
  obtain ⟨second, tail, hcons⟩ := List.exists_cons_of_ne_nil (show rest ++ [s] ≠ [] by simp)
  simp only [trim, hfile, beq_self_eq_true, if_true, List.cons_append, hcons, dropEmpty] at h
  have hle := (dropEmpty_suffix (second :: tail)).length_le
  rw [h, List.length_cons] at hle
  omega

theorem isBlank_of_path {c : Char} (hc : c.toNat < 0x80) (h : Percent.path c = false) :
    isBlank c = false :=
  of_ascii (P := fun c => Percent.path c = false → isBlank c = false) (by decide) hc h

theorem isDrive_of_dot (h : '.' ∈ name.toList) : isDrive name = false := by
  rw [Bool.eq_false_iff]
  intro hdrive
  obtain ⟨a, b, hs, ha, hb⟩ := exists_of_isDrive hdrive
  rw [hs] at h
  rcases List.mem_cons.mp h with rfl | h
  · exact absurd ha (by decide)
  · rw [← List.mem_singleton.mp h] at hb
    exact absurd hb (by decide)

theorem clean_alphanum (kind : SchemeKind) {c : Char} (h : c.isAlphanum = true) :
    c.toNat < 0x80 ∧ Percent.path c = false ∧ kind.isSlash c = false := by
  have hascii := toNat_lt_of_isAlphanum h
  have hall := of_ascii (P := fun c => c.isAlphanum = true →
    Percent.path c = false ∧ (c == '/') = false ∧ (c == '\\') = false) (by decide) hascii h
  exact ⟨hascii, hall.1, by simp [SchemeKind.isSlash, hall.2]⟩

/-- A dot behind a text that has none makes it neither one dot nor two, however these are spelled,
unless the text spells a dot itself. -/
theorem not_dots_of_extension {stem : List Char} (hstem : stem ≠ []) (hdot : '.' ∉ stem)
    (hhere : isHere (String.ofList stem) = false) (ext : List Char) :
    Path.isHere (String.ofList (stem ++ '.' :: ext)) = false ∧
      Path.isParent (String.ofList (stem ++ '.' :: ext)) = false := by
  have hlower : ∀ c ∈ stem.map Char.toLower, (c != '.') = true := by
    intro c hc
    obtain ⟨a, ha, rfl⟩ := List.mem_map.mp hc
    rw [bne_iff_ne]
    intro heq
    exact hdot (eq_of_toLower heq (by decide) ▸ ha)
  have hbefore : ∀ rest, (stem.map Char.toLower ++ '.' :: rest).takeWhile (· != '.') =
      stem.map Char.toLower := by
    intro rest
    rw [List.takeWhile_append_of_pos hlower]
    simp
  have hbehind : ∀ rest, (stem.map Char.toLower ++ '.' :: rest).dropWhile (· != '.') =
      '.' :: rest := by
    intro rest
    rw [List.dropWhile_append_of_pos hlower]
    simp
  have hescape : stem.map Char.toLower ≠ ['%', '2', 'e'] := by
    intro heq
    unfold isHere at hhere
    rw [String.toList_ofList, heq] at hhere
    exact absurd hhere (by decide)
  -- what spells one dot or two has no first dot, or nothing or an escape before it
  have hnot : ∀ dots : List String, (∀ d ∈ dots, d.toList.takeWhile (· != '.') = [] ∨
      d.toList.dropWhile (· != '.') = [] ∨
      d.toList.takeWhile (· != '.') = ['%', '2', 'e']) → dots.contains (String.ofList
        ((String.ofList (stem ++ '.' :: ext)).toList.map Char.toLower)) = false := by
    intro dots hdots
    rw [Bool.eq_false_iff]
    intro hmem
    have hd := hdots _ (List.contains_iff_mem.mp hmem)
    simp only [String.toList_ofList, List.map_append, List.map_cons,
      show '.'.toLower = '.' from rfl, hbefore, hbehind] at hd
    rcases hd with hd | hd | hd
    · exact hstem (List.map_eq_nil_iff.mp hd)
    · cases hd
    · exact hescape hd
  exact ⟨hnot _ (by decide), hnot _ (by decide)⟩

end Path

/-! ## URLs of resources -/

/-- A URL that ends in a name with a dot, and that is where its path leads. -/
structure Seated (u : Url) (front : List String) (name : String) : Prop where
  path : u.path = .rooted (front ++ [name])
  clean_front : ∀ s ∈ front, Path.Clean u.kind s
  clean_name : Path.Clean u.kind name
  dotted : '.' ∈ name.toList
  entered : Path.entered u.kind front = front
  trimmed : u.kind = .file → front.head? ≠ some ""
  query : u.query = none
  fragment : u.fragment = none

variable {u d : Url} {front : List String} {name : String}

theorem kind_setPath (u : Url) (text : String) : (u.setPath text).kind = u.kind := by
  unfold setPath
  dsimp only
  split
  · rfl
  · rfl

/-- A path of clean segments is given to a URL. -/
theorem setPath_written {segments before : List String} {text : String}
    (hpath : u.path = .rooted before) (hne : segments ≠ [])
    (h : ∀ s ∈ segments, Path.Clean u.kind s) (htext : text.toList = written segments) :
    u.setPath text = { u with
      path := .rooted (Path.Trail.trim u.kind (Path.entered u.kind segments)) } := by
  have hkeep : (written segments).filter (!isTabOrBreak ·) = written segments := by
    refine List.filter_eq_self.mpr fun c hc => ?_
    obtain ⟨s, hs, hc⟩ := List.mem_flatMap.mp hc
    rcases List.mem_cons.mp hc with rfl | hc
    · rfl
    · have hset := ((h s hs).escaped c hc).2.1
      by_contra hbreak
      simp only [Bool.not_eq_true', Bool.not_eq_false, isTabOrBreak, Bool.or_eq_true,
        beq_iff_eq] at hbreak
      rcases hbreak with (rfl | rfl) | rfl <;> exact absurd hset (by decide)
  unfold setPath
  simp only [htext, hkeep, hpath, Path.ofText_written hne h]

theorem toList_append_name (before : List String) (name : String) :
    ((Path.rooted (before ++ [""])).toString ++ name).toList = written (before ++ [name]) := by
  rw [String.toList_append, toList_rooted]
  simp [written]

theorem walked_of_parseFor {specifier text : String} (h : parseFor specifier text = .ok u) :
    u.Walked := by
  unfold parseFor at h
  split at h
  · rename_i hparse
    cases h
    exact walked_of_read (by simp) hparse
  · cases h

theorem Walked.joinFor (hu : u.Walked) {specifier reference : String}
    (h : u.joinFor specifier reference = .ok d) : d.Walked := by
  unfold Url.joinFor at h
  split at h
  · rename_i hjoin
    cases h
    exact walked_of_read (fun b hb => by cases hb; exact hu) hjoin
  · cases h

/-- The written form of a URL begins with something to be seen, and ends as its path does. -/
theorem Walked.trim_toString (hu : u.Walked) (hquery : u.query = none)
    (hfragment : u.fragment = none) {last : Char}
    (hlast : u.path.toString.toList.getLast? = some last) (hblank : isBlank last = false) :
    Text.trim u.toString = u.toString := by
  have hlist : u.toString.toList = u.scheme.toList ++ ':' ::
      (u.authority.toList ++ u.guard.toList ++ u.path.toString.toList) := by
    unfold toString
    rw [hquery, hfragment]
    simp [suffix]
  have hhead : ∀ c ∈ u.toString.toList.head?, isBlank c = false := by
    intro c hc
    rw [hlist] at hc
    cases hscheme : u.scheme.toList with
    | nil =>
      rw [hscheme] at hc
      cases hc
      decide
    | cons a rest =>
      rw [hscheme] at hc
      cases hc
      exact hu.scheme _ (hscheme ▸ List.mem_cons_self)
  have hend : ∀ c ∈ u.toString.toList.getLast?, isBlank c = false := by
    intro c hc
    have hc : last = c := by
      simpa [hlist, List.getLast?_append, List.getLast?_cons, hlast] using hc
    exact hc ▸ hblank
  rw [Text.trim, strip_of_ends hhead hend, String.ofList_toList]

/-- The path of a directory is clean, and nothing is dropped off it. -/
theorem exists_of_directory (hu : u.Walked) (hd : u.directory = .ok d) :
    ∃ before, d = { u with path := .rooted (before ++ [""]), query := none, fragment := none } ∧
      (∀ s ∈ before, Path.Clean u.kind s) ∧ (u.kind = .file → before.head? ≠ some "") := by
  obtain ⟨before, hbefore⟩ := Path.Trail.trim_concat u.kind u.parents ""
  have heq := eq_of_directory hd
  rw [hbefore] at heq
  refine ⟨before, heq, fun s hs => ?_,
    Path.Trail.head?_of_trim (by rw [← hbefore, Path.Trail.trim_trim])⟩
  have hclean := (hu.joinFor hd).path
  rw [heq] at hclean
  exact hclean s (List.mem_append_left _ hs)

/-- A name is put behind a path of clean segments. -/
theorem setPath_name (hfront : ∀ s ∈ front, Path.Clean u.kind s)
    (hentered : u.kind = .file → (Path.entered u.kind front).head? ≠ some "")
    (hname : Path.Clean u.kind name) (hdotted : '.' ∈ name.toList) :
    setPath { u with path := .rooted (front ++ [""]) }
      ((Path.rooted (front ++ [""])).toString ++ name) =
        { u with path := .rooted (Path.entered u.kind front ++ [name]) } := by
  have hset := setPath_written (u := { u with path := .rooted (front ++ [""]) }) rfl (by simp)
    (List.forall_mem_append.mpr ⟨hfront, List.forall_mem_singleton.mpr hname⟩)
    (toList_append_name front name)
  have hpath : Path.Trail.trim u.kind (Path.entered u.kind (front ++ [name])) =
      Path.entered u.kind front ++ [name] := by
    -- the name has a dot, so it is no drive even where it comes first
    rw [Path.entered_concat (Path.isDrive_of_dot hdotted), Path.Trail.trim_concat_of hentered]
  rw [hset, ← hpath]
  rfl

/-- A name is put into the directory of a URL. -/
theorem seated_setPath (hu : u.Walked) (hd : u.directory = .ok d) (hname : Path.Clean u.kind name)
    (hdotted : '.' ∈ name.toList) :
    ∃ front, (d.setPath (d.path.toString ++ name)).Seated front name := by
  obtain ⟨before, rfl, hclean, hfront⟩ := exists_of_directory hu hd
  have hentered : u.kind = .file → (Path.entered u.kind before).head? ≠ some "" :=
    fun hfile => Path.head?_entered (hfront hfile)
  refine ⟨Path.entered u.kind before, ?_⟩
  rw [setPath_name (u := { u with query := none, fragment := none }) hclean hentered hname hdotted]
  exact ⟨rfl, Path.Clean.entered hclean, hname, hdotted, Path.entered_entered before, hentered,
    rfl, rfl⟩

namespace Seated

theorem segments_eq (h : u.Seated front name) : u.segments = front ++ [name] := by
  rw [Url.segments, h.path]

theorem lastSegment_eq (h : u.Seated front name) : u.lastSegment = name := by
  rw [lastSegment, h.segments_eq]
  simp

theorem directory_eq (h : u.Seated front name) :
    u.directory = .ok { u with path := .rooted (front ++ [""]) } := by
  have hroot : u.isRootless = false := by rw [isRootless, h.path]
  have hparents : u.parents = front := by
    have hdrive : Path.isNormalDrive name = false := by
      rw [Path.isNormalDrive, Path.isDrive_of_dot h.dotted, Bool.false_and]
    simp [parents, h.segments_eq, hdrive]
  rw [Url.directory_eq, hroot, if_neg Bool.false_ne_true, walkFrom_here, hparents,
    Path.Trail.trim_concat_of h.trimmed, h.query, h.fragment]

/-- Its name put into its directory, it is itself. -/
theorem setPath_eq (h : u.Seated front name) :
    setPath { u with path := .rooted (front ++ [""]) }
      ((Path.rooted (front ++ [""])).toString ++ name) = u := by
  have hentered : u.kind = .file → (Path.entered u.kind front).head? ≠ some "" := by
    rw [h.entered]
    exact h.trimmed
  rw [setPath_name h.clean_front hentered h.clean_name h.dotted, h.entered, ← h.path]

theorem trim_toString (h : u.Seated front name) (hu : u.Walked) :
    Text.trim u.toString = u.toString := by
  obtain ⟨last, hname⟩ : ∃ last, name.toList.getLast? = some last :=
    ⟨_, List.getLast?_eq_some_getLast (List.ne_nil_of_mem h.dotted)⟩
  have hchars := h.clean_name.escaped last (List.mem_of_getLast? hname)
  have hlast : u.path.toString.toList.getLast? = some last := by
    rw [h.path, toList_rooted]
    simp [written, List.getLast?_append, List.getLast?_cons, hname]
  exact hu.trim_toString h.query h.fragment hlast (Path.isBlank_of_path hchars.1 hchars.2.1)

end Seated

end Url

/-! ## Names -/

/-- The extension given to names without one is made of letters and digits. -/
structure Config.PlainExtension (c : Config) : Prop where
  nonempty : c.defaultExtension ≠ ""
  alphanum : ∀ ch ∈ c.defaultExtension.toList, ch.isAlphanum = true

theorem Config.PlainExtension.escaped {c : Config} (h : c.PlainExtension) (kind : Url.SchemeKind) :
    Url.Path.Escaped kind c.defaultExtension :=
  fun ch hch => Url.Path.clean_alphanum kind (h.alphanum ch hch)

namespace Resolver

open AsyncModule.Url AsyncModule.Text

variable {r r' : Resolver} {kind : SchemeKind} {segment name : String}

theorem resourceName_of_config (hconfig : r'.config = r.config) (segment : String) :
    r'.resourceName segment = r.resourceName segment := by
  unfold resourceName
  rw [hconfig]

theorem kindOf_of_config (hconfig : r'.config = r.config) (name : String) :
    r'.kindOf name = r.kindOf name := by
  unfold kindOf
  rw [hconfig]

theorem dotted_resourceName (r : Resolver) (segment : String) :
    '.' ∈ (r.resourceName segment).toList := by
  unfold resourceName
  split
  · rename_i hdot
    simpa using hdot
  · simp [String.toList_append]

theorem resourceName_eq_self (h : '.' ∈ name.toList) : r.resourceName name = name :=
  if_pos (by simpa using h)

/-- The name of a resource is as clean as the segment it is made of, if nothing in the extension is
to be escaped or cut. -/
theorem clean_resourceName (hext : Path.Escaped kind r.config.defaultExtension)
    (h : Path.Clean kind segment) (hne : segment ≠ "") :
    Path.Clean kind (r.resourceName segment) := by
  unfold resourceName
  split
  · exact h
  · rename_i hdot
    have hlist : segment ++ "." ++ r.config.defaultExtension =
        String.ofList (segment.toList ++ '.' :: r.config.defaultExtension.toList) := by
      rw [← String.toList_inj]
      simp
    have hstem : segment.toList ≠ [] := by simpa using hne
    have hhere : Path.isHere (String.ofList segment.toList) = false := by
      rw [String.ofList_toList]
      exact h.here
    have hdots := Path.not_dots_of_extension hstem (by simpa using hdot) hhere
      r.config.defaultExtension.toList
    rw [hlist]
    refine ⟨fun c hc => ?_, hdots.1, hdots.2⟩
    rw [String.toList_ofList, List.mem_append, List.mem_cons] at hc
    rcases hc with hc | rfl | hc
    · exact h.escaped c hc
    · cases kind <;> decide
    · exact hext c hc

end Resolver

/-! ## Targets -/

/-- A context made of URLs whose paths have been walked. -/
structure Context.Walked (c : Context) : Prop where
  base : c.base.Walked
  root : c.root.Walked

theorem Context.walked_ofUrl {u : Url} {c : Context} (hu : u.Walked) (h : ofUrl u = .ok c) :
    c.Walked := by
  unfold ofUrl at h
  obtain ⟨base, hbase, h⟩ := Url.bind_eq_ok h
  obtain ⟨root, hroot, h⟩ := Url.bind_eq_ok h
  rw [← Except.ok.inj h]
  exact ⟨hu.joinFor hbase, hu.joinFor hroot⟩

namespace Resolver

variable {r : Resolver} {ctx : Context} {specifier : String} {t : Target} {u : Url}

/-- The path of the default base, if there is one, has been walked. -/
def Walked (r : Resolver) : Prop := ∀ base ∈ r.defaultBase, base.Walked

theorem walked_absolute (hr : r.Walked) (hctx : ctx.Walked)
    (h : r.absolute specifier ctx = .ok u) : u.Walked := by
  unfold absolute at h
  split at h
  · exact Url.walked_of_parseFor h
  · split at h
    · exact hctx.root.joinFor h
    · exact hctx.base.joinFor h
    · split at h
      · rename_i base hbase
        exact (hr base hbase).joinFor h
      · cases h

/-- What has been resolved is the name put into the directory that has been reached. -/
theorem exists_of_resolve (h : r.resolve specifier ctx = .ok t) :
    ∃ u d, r.absolute (Text.trim specifier) ctx = .ok u ∧ u.lastSegment ≠ "" ∧
      u.directory = .ok d ∧ t.name = r.resourceName u.lastSegment ∧
      t.url = d.setPath (d.path.toString ++ t.name) ∧ t.kind = r.kindOf t.name := by
  unfold resolve at h
  dsimp only at h
  split at h
  · cases h
  · obtain ⟨u, hu, h⟩ := Url.bind_eq_ok h
    split at h
    · cases h
    · rename_i hlast
      obtain ⟨d, hd, h⟩ := Url.bind_eq_ok h
      cases h
      refine ⟨u, d, hu, by simpa using hlast, hd, ?_⟩
      simp only [and_self]

theorem kind_of_resolve (hu : r.absolute (Text.trim specifier) ctx = .ok u)
    (h : r.resolve specifier ctx = .ok t) : t.url.kind = u.kind := by
  obtain ⟨u', d, hu', _, hd, _, hurl, _⟩ := exists_of_resolve h
  rw [hu] at hu'
  cases hu'
  rw [hurl, Url.kind_setPath, Url.eq_of_directory hd]
  rfl

/-- The last segment of what has been reached is there, and clean. -/
theorem clean_lastSegment (hu : u.Walked) (hlast : u.lastSegment ≠ "") :
    Url.Path.Clean u.kind u.lastSegment := by
  cases hs : u.segments.getLast? with
  | none => exact absurd (by simp [Url.lastSegment, List.getLastD_eq_getLast?, hs]) hlast
  | some last =>
    have hlast : u.lastSegment = last := by
      simp [Url.lastSegment, List.getLastD_eq_getLast?, hs]
    rw [hlast]
    exact hu.segments last (List.mem_of_getLast? hs)

/-- A clean name is seated in the directory that has been reached. -/
theorem seated_of_clean (hr : r.Walked) (hctx : ctx.Walked) (h : r.resolve specifier ctx = .ok t)
    (hname : Url.Path.Clean t.url.kind t.name) :
    ∃ front, t.url.Walked ∧ t.url.Seated front t.name := by
  obtain ⟨u, d, hu, _, hd, hsegment, hurl, _⟩ := exists_of_resolve h
  have hwalked := walked_absolute hr hctx hu
  rw [kind_of_resolve hu h] at hname
  obtain ⟨front, hseated⟩ := Url.seated_setPath hwalked hd hname
    (hsegment ▸ dotted_resourceName r _)
  rw [hurl]
  exact ⟨front, (hwalked.joinFor hd).setPath _, hseated⟩

theorem clean_of_escaped (hr : r.Walked) (hctx : ctx.Walked) (h : r.resolve specifier ctx = .ok t)
    (hext : Url.Path.Escaped t.url.kind r.config.defaultExtension) :
    Url.Path.Clean t.url.kind t.name := by
  obtain ⟨u, _, hu, hlast, _, hname, _⟩ := exists_of_resolve h
  rw [kind_of_resolve hu h] at hext ⊢
  rw [hname]
  exact clean_resourceName hext (clean_lastSegment (walked_absolute hr hctx hu) hlast) hlast

theorem seated_of_resolve (hext : r.config.PlainExtension) (hr : r.Walked) (hctx : ctx.Walked)
    (h : r.resolve specifier ctx = .ok t) :
    ∃ front, t.url.Walked ∧ t.url.Seated front t.name :=
  seated_of_clean hr hctx h (clean_of_escaped hr hctx h (hext.escaped _))

/-- The URL of a resource is resolved to itself. -/
theorem resolve_of_seated {front : List String} {name : String} (h : u.Seated front name)
    (hspec : Text.trim specifier ≠ "") (hu : r.absolute (Text.trim specifier) ctx = .ok u) :
    r.resolve specifier ctx = .ok ⟨u, name, r.kindOf name⟩ := by
  have hne : name ≠ "" := by
    rintro rfl
    exact absurd h.dotted (by simp)
  unfold resolve
  dsimp only
  rw [if_neg (by simpa using hspec), hu]
  dsimp only [bind, Except.bind]
  rw [h.lastSegment_eq, if_neg (by simpa using hne), h.directory_eq,
    resourceName_eq_self h.dotted]
  dsimp only
  rw [h.setPath_eq]
  rfl

theorem kindOf_eq_markup_iff (r : Resolver) (name : String) :
    r.kindOf name = .markup ↔ r.config.isMarkup name = true := by
  unfold kindOf
  split <;> simp_all

/-- Whatever a specifier is resolved to has a URL that ends in its name, with a dot in it and
nothing behind, and is markup if its name says so. Where that URL is complete and reads as what it
is, it is resolved to the same target in any context and with any default base. -/
theorem resolve_canonical (hext : r.config.PlainExtension) (hr : r.Walked) (hctx : ctx.Walked)
    (h : r.resolve specifier ctx = .ok t) :
    t.url.query = none ∧ t.url.fragment = none ∧ '.' ∈ t.name.toList ∧
      t.url.lastSegment = t.name ∧ (t.kind = .markup ↔ r.config.isMarkup t.name = true) ∧
      (Url.parse t.key = .ok t.url → r.isFullyQualified t.key = true →
        ∀ base ctx', Resolver.resolve ⟨base, r.config⟩ t.key ctx' = .ok t) := by
  obtain ⟨front, hwalked, hseated⟩ := seated_of_resolve hext hr hctx h
  obtain ⟨_, _, _, _, _, _, _, hkind⟩ := exists_of_resolve h
  refine ⟨hseated.query, hseated.fragment, hseated.dotted, hseated.lastSegment_eq,
    hkind ▸ kindOf_eq_markup_iff r t.name, fun hparse hfull base ctx' => ?_⟩
  have htrim : Text.trim t.key = t.key := hseated.trim_toString hwalked
  have habsolute : absolute ⟨base, r.config⟩ t.key ctx' = .ok t.url := by
    have hfull' : isFullyQualified ⟨base, r.config⟩ t.key = true := hfull
    rw [absolute, if_pos hfull', Url.parseFor, hparse]
  have hne : t.key ≠ "" := by
    intro hempty
    rw [hempty] at hfull
    cases hfull
  have hresolve := resolve_of_seated hseated (htrim.symm ▸ hne) (htrim.symm ▸ habsolute)
  rw [hresolve, show kindOf ⟨base, r.config⟩ t.name = t.kind from hkind.symm]

/-- A place on a web site. -/
def site (segments : List String) : Url :=
  ⟨"https", "", "", some (.name "example.com"), none, .rooted segments, none, none⟩

theorem resolve_canonical_spaced :
    Context.ofUrl (site ["pages", "index.html"]) =
      .ok ⟨site ["pages", ""], site [""]⟩ ∧
    Resolver.resolve ⟨none, {}⟩ " .././parts/%2e/menu bar?v=2#top\n"
      ⟨site ["pages", ""], site [""]⟩ =
        .ok ⟨site ["parts", "menu%20bar.js"], "menu%20bar.js", .code⟩ ∧
    ∀ base ctx', Resolver.resolve ⟨base, {}⟩ "https://example.com/parts/menu%20bar.js" ctx' =
      .ok ⟨site ["parts", "menu%20bar.js"], "menu%20bar.js", .code⟩ := by
  have hread : Url.parse "https://example.com/pages/index.html" =
      .ok (site ["pages", "index.html"]) := by decide +kernel
  have hcontext : Context.ofUrl (site ["pages", "index.html"]) =
      .ok ⟨site ["pages", ""], site [""]⟩ := by decide +kernel
  have hresolve : Resolver.resolve ⟨none, {}⟩ " .././parts/%2e/menu bar?v=2#top\n"
      ⟨site ["pages", ""], site [""]⟩ =
        .ok ⟨site ["parts", "menu%20bar.js"], "menu%20bar.js", .code⟩ := by decide +kernel
  have hagain : Url.parse "https://example.com/parts/menu%20bar.js" =
      .ok (site ["parts", "menu%20bar.js"]) := by decide +kernel
  have hwalked := Context.walked_ofUrl (Url.Obtained.parse hread).walked hcontext
  have hkey : Target.key ⟨site ["parts", "menu%20bar.js"], "menu%20bar.js", .code⟩ =
      "https://example.com/parts/menu%20bar.js" := by decide +kernel
  have hfull : Resolver.isFullyQualified ⟨none, {}⟩ "https://example.com/parts/menu%20bar.js" =
      true := by decide +kernel
  obtain ⟨_, _, _, _, _, hback⟩ := resolve_canonical ⟨by decide, List.all_eq_true.mp (by decide)⟩
    (by simp [Walked]) hwalked hresolve
  rw [hkey] at hback
  exact ⟨hcontext, hresolve, hback hagain hfull⟩

end Resolver
end AsyncModule
