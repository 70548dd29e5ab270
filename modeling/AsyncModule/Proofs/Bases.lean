import AsyncModule.Proofs.Canonicity
import AsyncModule.Proofs.Foretold

/-!
# AsyncModule.Proofs.Bases

Directories as the bases of specifiers. A URL given as a base is made a directory by hand, by a
slash put behind its path; the base of a context is reached by a reference. Both lead to the same
places: to directories that are their own directories, that are read as themselves, and whose
contexts have them for a base. So a loader that is given a base is in the context of that base, and
one that is given a main resource foresees the context in which that resource leaves it.

* `Url.Obtained.isTrimmed` — paths of files that have been read do not begin with empty segments.
* `Url.IsDirectory`        — a URL that is a directory, and stays one however it is taken.
* `directories_agree`      — the whole statement.
-/

namespace AsyncModule

namespace Url

variable {u d : Url} {before : List String} {text : String}

/-! ## Empty segments -/

/-- A path from which nothing is left to be dropped. -/
def Path.Trimmed (kind : SchemeKind) : Path → Prop
  | .rooted segments => Trail.trim kind segments = segments
  | .rootless _ => True

theorem Path.trimmed_path (kind : SchemeKind) (t : Trail) : (t.path kind).Trimmed kind :=
  Trail.trim_trim kind t.stack.reverse

theorem leftByReading_trimmed : Path.LeftByReading fun kind path => path.Trimmed kind where
  rootless _ _ := trivial
  nothing := rfl
  follow _ _ text := Path.trimmed_path _ _
  fresh _ _ := Path.trimmed_path _ _
  walkFrom {b} _ text := by
    have hany : Path.Entering (fun _ => True) fun _ => True :=
      ⟨trivial, fun _ _ _ => trivial, fun _ => trivial, fun _ _ _ _ => trivial⟩
    obtain ⟨t, hwalk, _⟩ := exists_walkFrom (b := b) hany (fun _ _ => trivial) text
      fun _ _ => trivial
    rw [hwalk]
    exact Path.trimmed_path _ _

theorem Obtained.trimmed (h : u.Obtained) : u.path.Trimmed u.kind :=
  (h.bears leftByReading_trimmed).path

theorem Obtained.isTrimmed (h : u.Obtained) : u.IsTrimmed := by
  intro hfile
  have htrimmed := h.trimmed
  unfold Url.segments
  split
  · rename_i segments hpath
    rw [hpath, hfile] at htrimmed
    exact htrimmed
  · rfl

/-! ## Directories -/

/-- A URL whose path ends in a slash, with nothing behind it. It is its own directory and, where it
is read as what it is, it is read as itself when a directory is asked for. -/
structure IsDirectory (d : Url) : Prop where
  slash : d.path.toString.toList.getLast? = some '/'
  query : d.query = none
  fragment : d.fragment = none
  directory : d.directory = .ok d
  again : Url.parse d.toString = .ok d → asDirectory d.toString = .ok d

theorem slash_of_concat (hpath : u.path = .rooted (before ++ [""])) :
    u.path.toString.toList.getLast? = some '/' := by
  rw [hpath, toList_rooted]
  simp [written]

theorem asDirectory_of_parse (hparse : parseFor text (Text.trim text) = .ok u)
    (hroot : u.isRootless = false) (hslash : u.path.toString.toList.getLast? = some '/') :
    asDirectory text = .ok u.withoutSuffix := by
  unfold asDirectory
  rw [hparse]
  dsimp only [bind, Except.bind]
  rw [hroot, hslash]
  rfl

/-- A URL that has been read and ends in an empty segment is a directory. -/
theorem Obtained.isDirectory (hd : d.Obtained) (hpath : d.path = .rooted (before ++ [""]))
    (hquery : d.query = none) (hfragment : d.fragment = none) : d.IsDirectory := by
  have hroot : d.isRootless = false := by rw [isRootless, hpath]
  have hslash := slash_of_concat hpath
  have htrim : Path.Trail.trim d.kind (before ++ [""]) = before ++ [""] := by
    have htrimmed := hd.trimmed
    rwa [hpath] at htrimmed
  have hplain : d.withoutSuffix = d := by
    cases d
    cases hquery
    cases hfragment
    rfl
  refine ⟨hslash, hquery, hfragment, ?_, fun hparse => ?_⟩
  · rw [directory_eq, hroot, if_neg Bool.false_ne_true, walkFrom_here, parents_of_concat hpath,
      htrim, ← hpath]
    exact congrArg Except.ok hplain
  · have hself := hd.walked.trim_toString hquery hfragment hslash (by decide)
    have hread : parseFor d.toString (Text.trim d.toString) = .ok d := by
      rw [hself, parseFor, hparse]
    rw [asDirectory_of_parse hread hroot hslash, hplain]

theorem obtained_of_parseFor {specifier : String} (h : parseFor specifier text = .ok u) :
    u.Obtained := by
  unfold parseFor at h
  split at h
  · rename_i hparse
    cases h
    exact .parse hparse
  · cases h

theorem Obtained.joinFor (hu : u.Obtained) {specifier reference : String}
    (h : u.joinFor specifier reference = .ok d) : d.Obtained := by
  unfold Url.joinFor at h
  split at h
  · rename_i hjoin
    cases h
    exact hu.join hjoin
  · cases h

/-- A path of clean segments that is written with a slash at its end has an empty segment there. -/
theorem exists_of_slash {segments : List String} (h : ∀ s ∈ segments, Path.Clean u.kind s)
    (hslash : (Path.rooted segments).toString.toList.getLast? = some '/') :
    ∃ before, segments = before ++ [""] := by
  rw [toList_rooted] at hslash
  rcases List.eq_nil_or_concat segments with rfl | ⟨before, last, rfl⟩
  · cases hslash
  · rw [List.concat_eq_append] at hslash h ⊢
    have hlast : last = "" := by
      by_contra hne
      obtain ⟨c, hc⟩ : ∃ c, last.toList.getLast? = some c :=
        ⟨_, List.getLast?_eq_some_getLast (by simpa using hne)⟩
      have hslash : c = '/' := by
        simpa [written, List.getLast?_append, List.getLast?_cons, hc] using hslash
      have hclean := ((h last (by simp)).escaped c (List.mem_of_getLast? hc)).2.2
      rw [hslash] at hclean
      cases hclean
    exact ⟨before, by rw [hlast]⟩

/-- A slash put behind a path of clean segments leaves an empty segment at its end. -/
theorem exists_of_setPath_slash {segments : List String} (hpath : u.path = .rooted segments)
    (h : ∀ s ∈ segments, Path.Clean u.kind s) :
    ∃ before, (u.setPath (u.path.toString ++ "/")).path = .rooted (before ++ [""]) := by
  have htext : (u.path.toString ++ "/").toList = written (segments ++ [""]) := by
    rw [String.toList_append, hpath, toList_rooted]
    simp [written]
  have hclean : ∀ s ∈ segments ++ [""], Path.Clean u.kind s :=
    List.forall_mem_append.mpr ⟨h, List.forall_mem_singleton.mpr (Path.clean_empty u.kind)⟩
  obtain ⟨before, hbefore⟩ := Path.Trail.trim_concat u.kind (Path.entered u.kind segments) ""
  refine ⟨before, ?_⟩
  rw [setPath_written hpath (by simp) hclean htext, Path.entered_concat (by decide), hbefore]

/-- What is read as a directory is one. -/
theorem isDirectory_of_asDirectory (h : asDirectory text = .ok d) : d.IsDirectory := by
  unfold asDirectory at h
  obtain ⟨u, hread, h⟩ := bind_eq_ok h
  have hu := obtained_of_parseFor hread
  cases hpath : u.path with
  | rootless _ => simp [isRootless, hpath, throw, throwThe, MonadExceptOf.throw] at h
  | rooted segments =>
    have hclean := hu.walked.segments
    rw [Url.segments, hpath] at hclean
    have hroot : u.isRootless = false := by rw [isRootless, hpath]
    dsimp only at h
    rw [hroot, if_neg Bool.false_ne_true] at h
    rw [← Except.ok.inj h]
    split
    · rename_i hslash
      obtain ⟨before, rfl⟩ := exists_of_slash hclean (hpath ▸ beq_iff_eq.mp hslash)
      exact hu.withoutSuffix.isDirectory hpath rfl rfl
    · obtain ⟨before, hbefore⟩ := exists_of_setPath_slash hpath hclean
      exact (hu.setPath _).withoutSuffix.isDirectory hbefore rfl rfl

theorem exists_path_of_directory (h : u.directory = .ok d) :
    ∃ before, d.path = .rooted (before ++ [""]) := by
  obtain ⟨before, hbefore⟩ := Path.Trail.trim_concat u.kind u.parents ""
  exact ⟨before, by rw [eq_of_directory h, hbefore]⟩

/-- So is what is reached as the directory of a URL. -/
theorem Obtained.isDirectory_directory (hu : u.Obtained) (h : u.directory = .ok d) :
    d.IsDirectory := by
  obtain ⟨before, hpath⟩ := exists_path_of_directory h
  have heq := eq_of_directory h
  exact (hu.joinFor h).isDirectory hpath (by rw [heq]) (by rw [heq])

end Url

/-! ## Contexts -/

theorem Url.Obtained.wellFormed {u : Url} (h : u.Obtained) : u.WellFormed := by
  induction h with
  | parse h => exact Url.wellFormed_of_parse h
  | join _ h ih =>
    obtain ⟨_, _, halike⟩ := (ih.alike.join _).exists_of_ok h
    exact halike.left
  | setPath _ text ih => exact (ih.alike.setPath text).left
  | withoutSuffix _ ih => exact (ih.alike.withMarks rfl none).left

/-- The default base, if there is one, is some URL. -/
def Resolver.Obtained (r : Resolver) : Prop := ∀ base ∈ r.defaultBase, base.Obtained

theorem Resolver.Obtained.walked {r : Resolver} (h : r.Obtained) : r.Walked :=
  fun base hbase => (h base hbase).walked

theorem Resolver.Obtained.wellFormed {r : Resolver} (h : r.Obtained) : r.WellFormed :=
  fun base hbase => (h base hbase).wellFormed

namespace Context

variable {u d : Url} {c : Context}

/-- A context that has been made of some URL. -/
def Obtained (c : Context) : Prop := ∃ u : Url, u.Obtained ∧ ofUrl u = .ok c

theorem Obtained.walked (h : c.Obtained) : c.Walked := by
  obtain ⟨u, hu, hc⟩ := h
  exact walked_ofUrl hu.walked hc

theorem Obtained.wellFormed (h : c.Obtained) : c.WellFormed := by
  obtain ⟨u, hu, hc⟩ := h
  exact wellFormed_ofUrl hu.wellFormed hc

/-- A directory has a context, and is its base. -/
theorem exists_of_isDirectory (h : d.IsDirectory) : ∃ c, ofUrl d = .ok c ∧ c.base = d := by
  obtain ⟨c, hc⟩ := exists_ofUrl (Url.rooted_of_directory h.directory).1
  exact ⟨c, hc, Except.ok.inj ((directory_of_ofUrl hc).symm.trans h.directory)⟩

/-- A context is that of its base. -/
theorem ofUrl_base (hu : u.Obtained) (h : ofUrl u = .ok c) : ofUrl c.base = .ok c :=
  (ofUrl_directory (directory_of_ofUrl h) hu.isTrimmed).trans h

end Context

/-! ## Loaders -/

namespace Loader

variable {ν : Type} {l l' : Loader ν} {drained : Bool}

theorem resolver_afterEstablishing (l : Loader ν) (change : Bool × Bootstrap) :
    (l.afterEstablishing change).2.resolver = l.resolver :=
  (keptByLinking_resolver l.resolver).afterEstablishing (fun _ h => h) rfl change

theorem ambient_establish (l : Loader ν) (ctx : Context) :
    (l.afterEstablishing (l.bootstrap.establish ctx)).2.bootstrap.ambient = some ctx :=
  (bootstrap_conclude l { l.bootstrap with root := some ctx, ambient := some ctx }).2.1

theorem ambient_finishMain (l : Loader ν) {t : Target} {ctx : Context}
    (h : Context.ofUrl t.url = .ok ctx) : (l.finishMain t).bootstrap.ambient = some ctx := by
  rw [finishMain_eq h]
  exact (bootstrap_conclude l
    { l.bootstrap with inFlight := l.bootstrap.inFlight - 1, ambient := some ctx }).2.1

/-- A loader that is given a base that can be read is in the context of that base. -/
theorem configure_of_asDirectory (l : Loader ν) {text : String} {d : Url}
    (h : Url.asDirectory text = .ok d) :
    ∃ drained l' ctx, l.configure text = (.ok drained, l') ∧ Context.ofUrl d = .ok ctx ∧
      ctx.base = d ∧ l'.resolver.defaultBase = some d ∧ l'.bootstrap.ambient = some ctx := by
  obtain ⟨ctx, hctx, hbase⟩ := Context.exists_of_isDirectory (Url.isDirectory_of_asDirectory h)
  have hout : l.configure text =
      (.ok ((l.setDefaultBase d).afterEstablishing (l.bootstrap.establish ctx)).1,
        ((l.setDefaultBase d).afterEstablishing (l.bootstrap.establish ctx)).2) := by
    unfold configure
    rw [h]
    dsimp only
    rw [hctx]
    rfl
  refine ⟨_, _, ctx, hout, hctx, hbase, ?_, ambient_establish (l.setDefaultBase d) ctx⟩
  rw [resolver_afterEstablishing]
  rfl

/-- The root context that is taken from the directory of a main resource is the one that the
resource leaves when it has been dealt with. -/
theorem boot_main_foresees {entry main : String}
    (h : l.boot entry (some main) = (.ok drained, l')) :
    ∃ t root, l'.journal = .load t .main :: l.journal ∧ l'.bootstrap.root = some root ∧
      l'.resolver.defaultBase = some root.base ∧
      ∀ l₂ : Loader ν, (l₂.finishMain t).bootstrap.ambient = some root := by
  obtain ⟨t, directory, root, hdirectory, hroot, hsame, rfl⟩ := boot_main_loads h
  have hbase : root.base = directory :=
    Except.ok.inj ((Context.directory_of_ofUrl hsame).symm.trans hdirectory)
  exact ⟨t, root, rfl, rfl, congrArg some hbase.symm, fun l₂ => ambient_finishMain l₂ hsame⟩

end Loader

variable {ν : Type}

/-- Directories and contexts agree. What is read as a directory is one, and a loader that is given
it as a base is in a context with that base. The base of the context of any URL is a directory too,
and has the same context. So the root context that starting with a main resource takes from the
directory of that resource is the context that the resource itself leaves, whatever has happened to
the loader in between. -/
theorem directories_agree (l : Loader ν) :
    (∀ text d, Url.asDirectory text = .ok d → d.IsDirectory ∧
      ∃ drained l' ctx, l.configure text = (.ok drained, l') ∧ Context.ofUrl d = .ok ctx ∧
        ctx.base = d ∧ l'.resolver.defaultBase = some d ∧ l'.bootstrap.ambient = some ctx) ∧
    (∀ (u : Url) c, u.Obtained → Context.ofUrl u = .ok c →
      c.base.IsDirectory ∧ Context.ofUrl c.base = .ok c) ∧
    ∀ entry main drained l', l.boot entry (some main) = (.ok drained, l') →
      ∃ t root, l'.journal = .load t .main :: l.journal ∧ l'.bootstrap.root = some root ∧
        l'.resolver.defaultBase = some root.base ∧
        ∀ l₂ : Loader ν, (l₂.finishMain t).bootstrap.ambient = some root :=
  ⟨fun _ _ h => ⟨Url.isDirectory_of_asDirectory h, l.configure_of_asDirectory h⟩,
    fun _ _ hu h => ⟨hu.isDirectory_directory (Context.directory_of_ofUrl h),
      Context.ofUrl_base hu h⟩,
    fun _ _ _ _ h => Loader.boot_main_foresees h⟩

/-- A directory on a drive of this machine, or what lies in it. -/
def onDrive (segments : List String) : Url :=
  ⟨"file", "", "", some (.name ""), none, .rooted ("C:" :: segments), none, none⟩

/-- A loader that nothing has been asked of. -/
def untouched : Loader Nat := .new {} fun _ => none

theorem directories_agree_drive :
    Url.asDirectory " file:///C|/lib/./app?x#y" = .ok (onDrive ["lib", "app", ""]) ∧
    Url.asDirectory "file:///C:/lib/app/" = .ok (onDrive ["lib", "app", ""]) ∧
    Context.ofUrl (onDrive ["lib", "main.js"]) = .ok ⟨onDrive ["lib", ""], onDrive [""]⟩ ∧
    Context.ofUrl (onDrive ["lib", ""]) = .ok ⟨onDrive ["lib", ""], onDrive [""]⟩ ∧
    (untouched.boot "file:///C|/lib/" (some "./main")).1 = .ok false ∧
    ∃ t root, (untouched.boot "file:///C|/lib/" (some "./main")).2.bootstrap.root = some root ∧
      ∀ l₂ : Loader Nat, (l₂.finishMain t).bootstrap.ambient = some root := by
  obtain ⟨hread, hcontext, hboot⟩ := directories_agree untouched
  have hdirectory : Url.asDirectory " file:///C|/lib/./app?x#y" =
      .ok (onDrive ["lib", "app", ""]) := by decide +kernel
  have hwritten : (onDrive ["lib", "app", ""]).toString = "file:///C:/lib/app/" := by
    decide +kernel
  have hagain : Url.parse "file:///C:/lib/app/" = .ok (onDrive ["lib", "app", ""]) := by
    decide +kernel
  have hmain : Url.parse "file:///C:/lib/main.js" = .ok (onDrive ["lib", "main.js"]) := by
    decide +kernel
  have hof : Context.ofUrl (onDrive ["lib", "main.js"]) =
      .ok ⟨onDrive ["lib", ""], onDrive [""]⟩ := by decide +kernel
  have hbegins : (untouched.boot "file:///C|/lib/" (some "./main")).1 = .ok false := by
    decide +kernel
  obtain ⟨t, root, _, hroot, _, hfinish⟩ := hboot _ _ _ _ (Prod.ext hbegins rfl)
  have hself := (hread _ _ hdirectory).1.again
  rw [hwritten] at hself
  exact ⟨hdirectory, hself hagain, hof, (hcontext _ _ (.parse hmain) hof).2, hbegins, t, root,
    hroot, hfinish⟩

end AsyncModule
