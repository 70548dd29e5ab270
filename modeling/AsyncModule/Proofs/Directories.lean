import AsyncModule.Proofs.Resolved

/-!
# AsyncModule.Proofs.Directories

Directories of URLs. To take the directory of a URL is to stay where its path has come to, so a
directory is its own directory. The URL of a target has no empty segments in front that matter, so
it has its root in common with its directory, and their contexts are the same.

* `Url.directory_directory`           — a directory is its own directory.
* `Resolver.ofUrl_directory_of_resolve` — the directory of a target has the context of the target.
-/

namespace AsyncModule

namespace Url

namespace Path.Trail

theorem dropEmpty_eq_self {segments : List String}
    (h : ∀ s rest, segments = "" :: s :: rest → False) : dropEmpty segments = segments := by
  rw [dropEmpty]
  exact h

theorem dropEmpty_suffix (segments : List String) : dropEmpty segments <:+ segments := by
  induction segments using dropEmpty.induct with
  | case1 s rest ih =>
    rw [dropEmpty]
    exact ih.trans (List.suffix_cons _ _)
  | case2 segments hne =>
    exact (dropEmpty_eq_self hne).symm ▸ List.suffix_rfl

theorem dropEmpty_ne_nil {segments : List String} (h : segments ≠ []) :
    dropEmpty segments ≠ [] := by
  induction segments using dropEmpty.induct with
  | case1 s rest ih =>
    rw [dropEmpty]
    exact ih (List.cons_ne_nil _ _)
  | case2 segments hne =>
    rw [dropEmpty_eq_self hne]
    exact h

theorem dropEmpty_dropEmpty (segments : List String) :
    dropEmpty (dropEmpty segments) = dropEmpty segments := by
  induction segments using dropEmpty.induct with
  | case1 s rest ih =>
    rw [dropEmpty]
    exact ih
  | case2 segments hne =>
    rw [dropEmpty_eq_self hne, dropEmpty_eq_self hne]

theorem dropEmpty_cons_of_ne {s : String} (hs : s ≠ "") (rest : List String) :
    dropEmpty (s :: rest) = s :: rest := by
  rw [dropEmpty]
  intro s' rest' heq
  cases heq
  exact hs rfl

theorem dropEmpty_concat (segments : List String) (s : String) :
    ∃ before, dropEmpty (segments ++ [s]) = before ++ [s] := by
  have hne := dropEmpty_ne_nil (show segments ++ [s] ≠ [] by simp)
  obtain ⟨before, last, heq⟩ := (List.eq_nil_or_concat _).resolve_left hne
  obtain ⟨dropped, happend⟩ := dropEmpty_suffix (segments ++ [s])
  rw [heq, List.concat_eq_append, ← List.append_assoc] at happend
  obtain ⟨_, hlast⟩ := List.append_inj' happend rfl
  cases hlast
  exact ⟨before, by rw [heq, List.concat_eq_append]⟩

/-- The segments that a path is made of. -/
def trim (kind : SchemeKind) (segments : List String) : List String :=
  if kind == .file then dropEmpty segments else segments

theorem path_eq (kind : SchemeKind) (t : Trail) :
    t.path kind = .rooted (trim kind t.stack.reverse) := rfl

theorem trim_trim (kind : SchemeKind) (segments : List String) :
    trim kind (trim kind segments) = trim kind segments := by
  unfold trim
  split
  · exact dropEmpty_dropEmpty segments
  · rfl

theorem trim_concat (kind : SchemeKind) (segments : List String) (s : String) :
    ∃ before, trim kind (segments ++ [s]) = before ++ [s] := by
  unfold trim
  split
  · exact dropEmpty_concat segments s
  · exact ⟨segments, rfl⟩

theorem segmentsOf_here (kind : SchemeKind) : segmentsOf kind ['.', '/'] = [".", ""] := by
  cases kind <;> decide

/-- Nothing behind the last slash leaves an empty segment. -/
theorem walk_empty (kind : SchemeKind) (t : Trail) :
    t.walk kind [""] = { t with stack := "" :: t.stack } := by
  have hparent : isParent "" = false := by decide
  have hhere : isHere "" = false := by decide
  have hdrive : isDrive "" = false := by decide
  simp [walk, finish, enter, hparent, hhere, hdrive]

theorem walk_here (kind : SchemeKind) (t : Trail) :
    t.walk kind [".", ""] = { t with stack := "" :: t.stack } := by
  have hpass : t.pass kind "." = t := by
    have hparent : isParent "." = false := by decide
    have hhere : isHere "." = true := by decide
    simp [pass, hparent, hhere]
  rw [walk, hpass, walk_empty]
  exact List.cons_ne_nil _ _

theorem walkFrom_stay (kind : SchemeKind) (t : Trail) (stem : String) :
    t.walkFrom kind stem [".", ""] = { t with stack := "" :: stem :: t.stack } := by
  have hparent : isParent "." = false := by decide
  have hhere : isHere "." = true := by decide
  simp [walkFrom, hparent, hhere, walk_empty]

end Path.Trail

variable {u d : Url}

/-- The segments that the path of a directory keeps. -/
def parents (u : Url) : List String :=
  if u.kind == .file && u.segments.getLast?.any Path.isNormalDrive then u.segments
  else u.segments.dropLast

theorem walkFrom_here (u : Url) :
    Parser.walkFrom u ['.', '/'] = .rooted (Path.Trail.trim u.kind (u.parents ++ [""])) := by
  have hfollow : ∀ stack, (Path.follow u.kind stack ['.', '/']).path u.kind =
      .rooted (Path.Trail.trim u.kind (stack.reverse ++ [""])) := by
    intro stack
    rw [Path.follow, Path.Trail.segmentsOf_here, Path.Trail.walk_here, Path.Trail.path_eq,
      List.reverse_cons]
  unfold Parser.walkFrom parents
  dsimp only
  split
  · rename_i hnil
    rw [List.reverse_eq_nil_iff] at hnil
    simpa [hnil] using hfollow []
  · rename_i last directory hsegments
    have hlist : u.segments = directory.reverse ++ [last] := by
      rw [← List.reverse_reverse u.segments, hsegments, List.reverse_cons]
    rw [hlist]
    simp only [List.getLast?_concat, Option.any_some, List.dropLast_concat]
    split
    · split
      · rename_i hempty
        rw [List.isEmpty_iff] at hempty
        subst hempty
        exact hfollow [last]
      · rw [Path.Trail.segmentsOf_here, Path.Trail.walkFrom_stay, Path.Trail.path_eq]
        simp
    · exact hfollow directory

theorem eq_of_directory (h : u.directory = .ok d) :
    d = { u with
      path := .rooted (Path.Trail.trim u.kind (u.parents ++ [""])), query := none
      fragment := none } := by
  have hroot := (rooted_of_directory h).1
  rw [directory_eq, hroot, walkFrom_here] at h
  exact (Except.ok.inj h).symm

theorem parents_of_concat {before : List String} (hpath : u.path = .rooted (before ++ [""])) :
    u.parents = before := by
  have hnone : Path.isNormalDrive "" = false := by decide
  simp [parents, segments, hpath, hnone]

theorem directory_directory (h : u.directory = .ok d) : d.directory = .ok d := by
  have hd := eq_of_directory h
  have hkind : d.kind = u.kind := by rw [hd]; rfl
  obtain ⟨before, hbefore⟩ := Path.Trail.trim_concat u.kind u.parents ""
  have hpath : d.path = .rooted (before ++ [""]) := by rw [hd, hbefore]
  have hparents : d.parents = before := parents_of_concat hpath
  have htrim : Path.Trail.trim u.kind (before ++ [""]) = before ++ [""] := by
    rw [← hbefore, Path.Trail.trim_trim]
  rw [directory_eq, (rooted_of_directory h).2, walkFrom_here, hkind, hparents, htrim, ← hpath]
  rw [if_neg Bool.false_ne_true, hd]

/-! ## Roots -/

/-- The drive that a path of a file begins with. -/
def drive? (u : Url) : Option String := u.segments.head?.filter Path.isNormalDrive

theorem readFileRooted_eq (u : Url) :
    Parser.readFileRooted (some u) [] =
      Parser.withSuffix (Parser.fileUrl
        (match u.drive? with
          | some _ => Host.empty
          | none => u.host.getD Host.empty)
        ((Path.follow .file u.drive?.toList []).path .file)) [] := by
  have hcut : Parser.cutPath [] = ([], []) := rfl
  unfold Parser.readFileRooted drive?
  rw [hcut]
  dsimp only
  rw [if_neg (by decide)]
  cases u.segments.head? with
  | none => rfl
  | some first =>
    simp only [Option.filter_some]
    split
    · rfl
    · rfl

/-- Of a URL with a root the root depends on nothing but its authority, and its drive if it is
that of a file. -/
theorem join_root_congr {v : Url} (hu : u.isRootless = false) (hscheme : v.scheme = u.scheme)
    (hrest : v = { u with path := v.path, query := v.query, fragment := v.fragment })
    (hv : v.isRootless = false) (hdrive : u.kind = .file → v.drive? = u.drive?) :
    v.join "/" = u.join "/" := by
  have hclean : Parser.clean "/" = ['/'] := by decide
  have hscheme? : Parser.scheme? ['/'] = none := by decide
  have hkind : v.kind = u.kind := by rw [Url.kind, hscheme]; rfl
  have hread : ∀ w : Url, w.isRootless = false → w.join "/" =
      if w.kind == .file then .ok (Parser.readFileRooted (some w) [])
      else Parser.readRelative w ['/'] := by
    intro w hw
    unfold Url.join Parser.read
    simp only [hclean, hscheme?]
    split
    · rename_i heq
      cases heq
    · rw [hw, if_neg Bool.false_ne_true]
      rfl
  rw [hread u hu, hread v hv, hkind]
  split
  · rename_i hfile
    rw [readFileRooted_eq, readFileRooted_eq, hdrive (by simpa using hfile)]
    rw [hrest]
  · rw [hrest]
    rfl

/-- The path of a URL of a file has no empty segments in front. -/
def IsTrimmed (u : Url) : Prop := u.kind = .file → Path.Trail.dropEmpty u.segments = u.segments

theorem isTrimmed_setPath (h : u.isRootless = false) (text : String) :
    (u.setPath text).IsTrimmed := by
  intro hfile
  unfold Url.setPath at hfile ⊢
  cases hpath : u.path with
  | rootless text => simp [isRootless, hpath] at h
  | rooted before =>
    rw [hpath] at hfile
    have hfile : u.kind = .file := hfile
    simp only [segments, Path.ofText, hfile]
    exact Path.Trail.dropEmpty_dropEmpty _

theorem drive?_of_directory (h : u.directory = .ok d) (hu : u.IsTrimmed) (hfile : u.kind = .file) :
    d.drive? = u.drive? := by
  have hnone : Path.isNormalDrive "" = false := by decide
  have htrimmed := hu hfile
  have hsegments : d.segments = Path.Trail.dropEmpty (u.parents ++ [""]) := by
    rw [eq_of_directory h]
    simp [segments, Path.Trail.trim, hfile]
  unfold drive?
  rw [hsegments]
  unfold parents
  rw [hfile]
  cases hs : u.segments with
  | nil => simp [Path.Trail.dropEmpty, hnone]
  | cons first rest =>
    rw [hs] at htrimmed
    cases rest with
    | nil =>
      cases hdrive : Path.isNormalDrive first with
      | false => simp [Option.filter, hdrive, Path.Trail.dropEmpty, hnone]
      | true =>
        have hne : first ≠ "" := by
          rintro rfl
          rw [hnone] at hdrive
          cases hdrive
        simp [hdrive, Path.Trail.dropEmpty_cons_of_ne hne]
    | cons second rest =>
      have hne : first ≠ "" := by
        rintro rfl
        rw [Path.Trail.dropEmpty] at htrimmed
        have hle := (Path.Trail.dropEmpty_suffix (second :: rest)).length_le
        rw [htrimmed, List.length_cons] at hle
        omega
      split
      · simp [Path.Trail.dropEmpty_cons_of_ne hne]
      · simp [Path.Trail.dropEmpty_cons_of_ne hne]

/-- The root of a directory is that of what lies in it. -/
theorem join_root_directory (h : u.directory = .ok d) (hu : u.IsTrimmed) :
    d.join "/" = u.join "/" := by
  have hd := eq_of_directory h
  obtain ⟨hroot, hroot'⟩ := rooted_of_directory h
  refine join_root_congr hroot (by rw [hd]) ?_ hroot' (drive?_of_directory h hu)
  rw [hd]

end Url

theorem Context.ofUrl_directory {u d : Url} (h : u.directory = .ok d) (hu : u.IsTrimmed) :
    ofUrl d = ofUrl u := by
  obtain ⟨root, hroot⟩ := Url.join_root u (Url.rooted_of_directory h).1
  have hroot' := (Url.join_root_directory h hu).trans hroot
  unfold ofUrl Url.joinFor
  rw [h, Url.directory_directory h, hroot, hroot']

theorem Resolver.isTrimmed_of_resolve {r : Resolver} {specifier : String} {c : Context}
    {t : Target} (h : r.resolve specifier c = .ok t) : t.url.IsTrimmed := by
  unfold resolve at h
  dsimp only at h
  split at h
  · cases h
  · obtain ⟨u, _, h⟩ := Url.bind_eq_ok h
    split at h
    · cases h
    · obtain ⟨d, hd, h⟩ := Url.bind_eq_ok h
      rw [← Except.ok.inj h]
      exact Url.isTrimmed_setPath (Url.rooted_of_directory hd).2 _

theorem Resolver.ofUrl_directory_of_resolve {r : Resolver} {specifier : String} {c : Context}
    {t : Target} {d : Url} (h : r.resolve specifier c = .ok t) (hd : t.url.directory = .ok d) :
    Context.ofUrl d = Context.ofUrl t.url :=
  Context.ofUrl_directory hd (isTrimmed_of_resolve h)

end AsyncModule
