import AsyncModule.Proofs.Bases

/-!
# AsyncModule.Proofs.Specifiers

What specifiers are read against. A complete URL is read by itself, and each other specifier against
one URL: by its first character the root or the base of the context of whoever asks, or else the
default base, which is the same for everybody. The first character decides: a name that begins with
a dot is taken for a relative specifier although neither `.` nor `..` comes first in it, and it is
read as if `./` stood before it.

* `Anchor`                        — what a specifier is read against.
* `Resolver.resolve_congr`        — nothing else makes a difference.
* `Url.join_dot_name`             — what a first dot means where it is no segment of its own.
* `Resolver.reads_own_anchor`     — the whole statement.
* `Resolver.hidden_name_strays`   — a name that begins with a dot is not bare.
-/

namespace AsyncModule

namespace Text

variable {p : Char → Bool} {c d : Char} {cs : List Char}

theorem strip_cons (hc : p c = false) (cs : List Char) :
    strip p (c :: cs) = c :: (cs.reverse.dropWhile p).reverse := by
  rw [strip, List.dropWhile_cons_of_neg (by simp [hc]), List.reverse_cons, List.dropWhile_append]
  split
  · rename_i hempty
    rw [List.isEmpty_iff] at hempty
    simp [hempty, hc]
  · simp

theorem strip_cons_cons (hc : p c = false) (hd : p d = false) (cs : List Char) :
    strip p (c :: d :: cs) = c :: strip p (d :: cs) := by
  rw [strip_cons hc, strip, List.dropWhile_cons_of_neg (by simp [hd])]

/-- What has been stripped has nothing left to be stripped. -/
theorem strip_strip (hhead : (strip p cs).head? = some c) (hc : p c = false) :
    strip p (strip p cs) = strip p cs := by
  refine strip_of_ends (fun a ha => ?_) fun a ha => ?_
  · rw [hhead] at ha
    cases ha
    exact hc
  · rw [strip, List.getLast?_reverse] at ha
    have hnot := List.head?_dropWhile_not p (cs.dropWhile p).reverse
    rw [Option.mem_def.mp ha] at hnot
    simpa using hnot

end Text

/-! ## A dot in front -/

namespace Url

open AsyncModule.Text

variable {u : Url} {text : String}

theorem clean_dot (h : text.toList.head? = some '.') :
    ∃ rest, Parser.clean text = '.' :: rest ∧
      Parser.clean ("./" ++ text) = '.' :: '/' :: Parser.clean text := by
  obtain ⟨cs, hcs⟩ := List.head?_eq_some_iff.mp h
  have hlist : ("./" ++ text).toList = '.' :: '/' :: '.' :: cs := by
    rw [String.toList_append, hcs]
    rfl
  refine ⟨(cs.reverse.dropWhile (·.toNat ≤ 0x20)).reverse.filter (!isTabOrBreak ·), ?_, ?_⟩
  · rw [Parser.clean, hcs, strip_cons (by decide), List.filter_cons_of_pos (by decide)]
  · rw [Parser.clean, hlist, strip_cons_cons (by decide) (by decide),
      strip_cons_cons (by decide) (by decide), List.filter_cons_of_pos (by decide),
      List.filter_cons_of_pos (by decide), Parser.clean, hcs]

/-- A reference that begins with a dot is a path, with or without something behind. -/
theorem join_dot {rest : List Char} (h : Parser.clean text = '.' :: rest) :
    u.join text =
      if u.isRootless then .error .relativeToRootless
      else .ok (Parser.readPathless u ('.' :: rest)) := by
  have hscheme : ∀ rest, Parser.scheme? ('.' :: rest) = none := fun _ => rfl
  have hdrive : ∀ rest, Path.beginsWithDrive ('.' :: rest) = false := by
    intro rest
    cases rest <;> rfl
  have hfile : Parser.readFile (some u) ('.' :: rest) =
      .ok (Parser.readPathless u ('.' :: rest)) := by
    have hrelative : Parser.readFile.readFileRelative (some u) ('.' :: rest) =
        Parser.readPathless u ('.' :: rest) := by
      unfold Parser.readFile.readFileRelative
      simp only [hdrive, Bool.and_false, Bool.false_eq_true, if_false]
    cases rest with
    | nil => exact congrArg Except.ok hrelative
    | cons a rest => exact congrArg Except.ok hrelative
  unfold Url.join Parser.read
  simp only [h, hscheme]
  split
  · rename_i heq
    cases heq
  · split
    · rfl
    · split
      · exact hfile
      · rfl

/-- To stay where a path has come to makes no difference to the way on. -/
theorem follow_here (kind : SchemeKind) (stack : List String) (text : List Char) :
    Path.follow kind stack ('.' :: '/' :: text) = Path.follow kind stack text := by
  have hfields : fields kind.isSlash ('.' :: '/' :: text) = ['.'] :: fields kind.isSlash text := by
    have hdot : kind.isSlash '.' = false := by cases kind <;> rfl
    exact fields_append_sep (List.forall_mem_singleton.mpr hdot) rfl text
  obtain ⟨s, rest, hsegments⟩ : ∃ s rest, Path.segmentsOf kind text = s :: rest := by
    obtain ⟨f, fs, heq⟩ := List.exists_cons_of_ne_nil (fields_ne_nil kind.isSlash text)
    exact ⟨_, _, by rw [Path.segmentsOf, heq, List.map_cons]⟩
  have hcut : Path.segmentsOf kind ('.' :: '/' :: text) = "." :: Path.segmentsOf kind text := by
    rw [Path.segmentsOf, hfields]
    rfl
  have hpass : ∀ t : Path.Trail, t.pass kind "." = t := fun _ => rfl
  rw [Path.follow, hcut, hsegments, Path.Trail.walk, hpass, ← hsegments, Path.follow]
  exact List.cons_ne_nil _ _

theorem walkFrom_dot {before : List String} (hpath : u.path = .rooted (before ++ [""]))
    (text : List Char) : Parser.walkFrom u ('.' :: '/' :: text) = Parser.walkFrom u text := by
  have hnone : Path.isNormalDrive "" = false := by decide
  have hsegments : u.segments.reverse = "" :: before.reverse := by
    rw [segments, hpath]
    simp
  unfold Parser.walkFrom
  simp only [hsegments, hnone, Bool.and_false, Bool.false_eq_true, if_false, follow_here]

/-- Against a directory a name that begins with a dot is read as if `./` stood before it. -/
theorem join_dot_name {before : List String} (hpath : u.path = .rooted (before ++ [""]))
    (h : text.toList.head? = some '.') : u.join ("./" ++ text) = u.join text := by
  obtain ⟨rest, hclean, hclean'⟩ := clean_dot h
  have hread : ∀ rest, Parser.readPathless u ('.' :: rest) =
      Parser.withSuffix { u with path := Parser.walkFrom u (Parser.cutPath ('.' :: rest)).1 }
        (Parser.cutPath ('.' :: rest)).2 := fun _ => rfl
  have hcut : Parser.cutPath ('.' :: '/' :: '.' :: rest) =
      ('.' :: '/' :: (Parser.cutPath ('.' :: rest)).1, (Parser.cutPath ('.' :: rest)).2) := rfl
  rw [hclean] at hclean'
  rw [join_dot hclean, join_dot hclean', hread, hread, hcut, walkFrom_dot hpath]

end Url

/-! ## Anchors -/

/-- What a specifier is read against. -/
inductive Anchor where
  /-- Nothing: it is a complete URL. -/
  | itself
  | root
  | base
  | defaultBase
  deriving DecidableEq, Repr

namespace Resolver

variable {r r' : Resolver} {c c' : Context} {s s' : String} {t : Target}

def anchor (r : Resolver) (spec : String) : Anchor :=
  if r.isFullyQualified spec then .itself
  else if spec.toList.head? = some '/' then .root
  else if spec.toList.head? = some '.' then .base
  else .defaultBase

/-- Two places, each with a default base, are the same as far as an anchor goes. -/
structure Shares (r r' : Resolver) (c c' : Context) (a : Anchor) : Prop where
  root : a = .root → c.root = c'.root
  base : a = .base → c.base = c'.base
  defaultBase : a = .defaultBase → r.defaultBase = r'.defaultBase

theorem anchor_of_full (h : r.isFullyQualified s = true) : r.anchor s = .itself := if_pos h

theorem anchor_of_slash (hfull : r.isFullyQualified s = false) (h : s.toList.head? = some '/') :
    r.anchor s = .root := by
  rw [anchor, hfull, if_neg Bool.false_ne_true, if_pos h]

theorem anchor_of_dot (hfull : r.isFullyQualified s = false) (h : s.toList.head? = some '.') :
    r.anchor s = .base := by
  rw [anchor, hfull, h]
  rfl

theorem anchor_of_bare (hfull : r.isFullyQualified s = false) (hslash : s.toList.head? ≠ some '/')
    (hdot : s.toList.head? ≠ some '.') : r.anchor s = .defaultBase := by
  rw [anchor, hfull, if_neg Bool.false_ne_true, if_neg hslash, if_neg hdot]

theorem absolute_congr (hconfig : r'.config = r.config) (h : Shares r r' c c' (r.anchor s)) :
    r.absolute s c = r'.absolute s c' := by
  have hfull : r'.isFullyQualified s = r.isFullyQualified s := by
    unfold isFullyQualified
    rw [hconfig]
  unfold absolute
  rw [hfull]
  split
  · rfl
  · rename_i hnot
    have hnot := Bool.eq_false_iff.mpr hnot
    split
    · rename_i hslash
      rw [h.root (anchor_of_slash hnot hslash)]
    · rename_i hdot
      rw [h.base (anchor_of_dot hnot hdot)]
    · rename_i hslash hdot
      rw [h.defaultBase (anchor_of_bare hnot hslash hdot)]

/-- What a specifier is resolved to depends on nothing but what it is read against. -/
theorem resolve_congr (hconfig : r'.config = r.config)
    (h : Shares r r' c c' (r.anchor (Text.trim s))) : r.resolve s c = r'.resolve s c' := by
  have habsolute := absolute_congr hconfig h
  unfold resolve
  simp only [habsolute, resourceName_of_config hconfig, kindOf_of_config hconfig]

/-- It depends on what it leads to, and not on how that is written. -/
theorem resolve_of_absolute (hspec : Text.trim s' ≠ "")
    (habsolute : ∀ u, r.absolute (Text.trim s) c = .ok u → r.absolute (Text.trim s') c = .ok u)
    (h : r.resolve s c = .ok t) : r.resolve s' c = .ok t := by
  obtain ⟨u, d, hu, hlast, hd, hname, hurl, hkind⟩ := exists_of_resolve h
  unfold resolve
  dsimp only
  rw [if_neg (by simpa using hspec), habsolute u hu]
  dsimp only [bind, Except.bind]
  rw [if_neg (by simpa using hlast), hd, ← hname]
  dsimp only
  rw [← hurl, ← hkind]
  rfl

/-! ## Names that begin with a dot -/

theorem absolute_of_dot (hfull : r.isFullyQualified s = false) (h : s.toList.head? = some '.') :
    r.absolute s c = c.base.joinFor s s := by
  unfold absolute
  rw [hfull, h]
  rfl

/-- A name that begins with a dot leads where it leads with `./` before it. -/
theorem absolute_dot_name (hc : c.Obtained) (hfull : r.isFullyQualified s = false)
    (hfull' : r.isFullyQualified ("./" ++ s) = false) (h : s.toList.head? = some '.') (u : Url) :
    r.absolute s c = .ok u ↔ r.absolute ("./" ++ s) c = .ok u := by
  obtain ⟨v, _, hv⟩ := hc
  obtain ⟨before, hpath⟩ := Url.exists_path_of_directory (Context.directory_of_ofUrl hv)
  have hhead : ("./" ++ s).toList.head? = some '.' := by
    rw [String.toList_append]
    rfl
  rw [absolute_of_dot hfull h, absolute_of_dot hfull' hhead]
  unfold Url.joinFor
  rw [Url.join_dot_name hpath h]
  cases c.base.join s with
  | ok u => rfl
  | error e => exact ⟨nofun, nofun⟩

theorem trim_dot_name (h : (Text.trim s).toList.head? = some '.') :
    Text.trim ("./" ++ Text.trim s) = "./" ++ Text.trim s := by
  have hstrip : (Text.strip Text.isBlank s.toList).head? = some '.' := by
    rwa [Text.trim, String.toList_ofList] at h
  have hagain := Text.strip_strip hstrip (by decide)
  obtain ⟨cs, hcs⟩ := List.head?_eq_some_iff.mp hstrip
  rw [hcs] at hagain
  have hspec : (Text.trim s).toList = '.' :: cs := by rw [Text.trim, String.toList_ofList, hcs]
  have hlist : ("./" ++ Text.trim s).toList = '.' :: '/' :: '.' :: cs := by
    rw [String.toList_append, hspec]
    rfl
  rw [Text.trim, hlist, Text.strip_cons_cons (by decide) (by decide),
    Text.strip_cons_cons (by decide) (by decide), hagain, ← hlist, String.ofList_toList]

/-- A name that begins with a dot is resolved as if `./` stood before it. -/
theorem resolve_dot_name (hc : c.Obtained) (hfull : r.isFullyQualified (Text.trim s) = false)
    (hfull' : r.isFullyQualified ("./" ++ Text.trim s) = false)
    (h : (Text.trim s).toList.head? = some '.') :
    r.resolve s c = .ok t ↔ r.resolve ("./" ++ Text.trim s) c = .ok t := by
  have htrim := trim_dot_name h
  have hne : Text.trim s ≠ "" := by
    intro heq
    rw [heq] at h
    cases h
  constructor
  · refine resolve_of_absolute ?_ fun u hu => ?_
    · rw [htrim]
      intro heq
      have hlist := congrArg String.toList heq
      simp at hlist
    · rw [htrim]
      exact (absolute_dot_name hc hfull hfull' h u).mp hu
  · refine resolve_of_absolute hne fun u hu => ?_
    rw [htrim] at hu
    exact (absolute_dot_name hc hfull hfull' h u).mpr hu

/-- The text before the first separator, or before a query or fragment. -/
def firstSegment (spec : String) : String :=
  String.ofList (spec.toList.takeWhile (! ['/', '\\', '?', '#'].contains ·))

/-- A specifier of the form `./x` or `../x`. -/
def IsRelative (spec : String) : Prop := firstSegment spec = "." ∨ firstSegment spec = ".."

theorem head?_of_isRelative (h : IsRelative s) : s.toList.head? = some '.' := by
  have hhead : (firstSegment s).toList.head? = some '.' := by
    rcases h with h | h <;> rw [h] <;> rfl
  rw [firstSegment, String.toList_ofList] at hhead
  cases hs : s.toList with
  | nil =>
    rw [hs] at hhead
    cases hhead
  | cons c cs =>
    rw [hs, List.takeWhile_cons] at hhead
    split at hhead
    · exact hhead
    · cases hhead

/-- Two resolvers with the same settings, and any contexts. A complete URL is resolved alike in
both; a specifier that begins with a slash where the roots are the same, one of the form `./x` or
`../x` where the bases are, and one that does not begin with a dot where the default bases are. What
begins with a dot and is not of that form is not bare: it depends on the base of the context too,
and is resolved as if `./` stood before it. -/
theorem reads_own_anchor (hconfig : r'.config = r.config) (s : String) (c c' : Context) :
    (r.isFullyQualified (Text.trim s) = true → r.resolve s c = r'.resolve s c') ∧
    (r.isFullyQualified (Text.trim s) = false →
      ((Text.trim s).toList.head? = some '/' → c.root = c'.root →
        r.resolve s c = r'.resolve s c') ∧
      (IsRelative (Text.trim s) → c.base = c'.base → r.resolve s c = r'.resolve s c') ∧
      ((Text.trim s).toList.head? ≠ some '/' → (Text.trim s).toList.head? ≠ some '.' →
        r.defaultBase = r'.defaultBase → r.resolve s c = r'.resolve s c') ∧
      ((Text.trim s).toList.head? = some '.' → ¬ IsRelative (Text.trim s) →
        (c.base = c'.base → r.resolve s c = r'.resolve s c') ∧
        (c.Obtained → r.isFullyQualified ("./" ++ Text.trim s) = false →
          ∀ t, r.resolve s c = .ok t ↔ r.resolve ("./" ++ Text.trim s) c = .ok t))) := by
  have hshared : ∀ {a}, r.anchor (Text.trim s) = a → Shares r r' c c' a →
      r.resolve s c = r'.resolve s c' := fun ha h => resolve_congr hconfig (ha ▸ h)
  have hbase : r.isFullyQualified (Text.trim s) = false →
      (Text.trim s).toList.head? = some '.' → c.base = c'.base →
        r.resolve s c = r'.resolve s c' := fun hfull hdot h =>
    hshared (anchor_of_dot hfull hdot) ⟨nofun, fun _ => h, nofun⟩
  refine ⟨fun hfull => hshared (anchor_of_full hfull) ⟨nofun, nofun, nofun⟩,
    fun hfull => ⟨fun hslash h => ?_, fun hrelative h => ?_, fun hslash hdot h => ?_,
      fun hdot _ => ⟨hbase hfull hdot, fun hc hfull' t => ?_⟩⟩⟩
  · exact hshared (anchor_of_slash hfull hslash) ⟨fun _ => h, nofun, nofun⟩
  · exact hbase hfull (head?_of_isRelative hrelative) h
  · exact hshared (anchor_of_bare hfull hslash hdot) ⟨nofun, nofun, fun _ => h⟩
  · exact resolve_dot_name hc hfull hfull' hdot

/-- The default base is one directory of a site, and requests are made from others. -/
def appResolver : Resolver := ⟨some (site ["app", ""]), {}⟩

theorem reads_own_anchor_hidden :
    Resolver.resolve appResolver ".conf.js" ⟨site ["lib", ""], site [""]⟩ =
      .ok ⟨site ["lib", ".conf.js"], ".conf.js", .code⟩ ∧
    Resolver.resolve appResolver "./.conf.js" ⟨site ["lib", ""], site [""]⟩ =
      .ok ⟨site ["lib", ".conf.js"], ".conf.js", .code⟩ ∧
    ∀ c, Resolver.resolve appResolver "conf" c =
      .ok ⟨site ["app", "conf.js"], "conf.js", .code⟩ := by
  have hlib : Url.parse "https://example.com/lib/" = .ok (site ["lib", ""]) := by decide +kernel
  have hctx : Context.ofUrl (site ["lib", ""]) = .ok ⟨site ["lib", ""], site [""]⟩ := by
    decide +kernel
  have htrim : Text.trim ".conf.js" = ".conf.js" := by decide +kernel
  have htrim' : Text.trim "conf" = "conf" := by decide +kernel
  have hstray : Resolver.resolve appResolver ".conf.js" ⟨site ["lib", ""], site [""]⟩ =
      .ok ⟨site ["lib", ".conf.js"], ".conf.js", .code⟩ := by decide +kernel
  have hbare : Resolver.resolve appResolver "conf" ⟨site [""], site [""]⟩ =
      .ok ⟨site ["app", "conf.js"], "conf.js", .code⟩ := by decide +kernel
  have hnot : ¬ IsRelative ".conf.js" := by
    unfold IsRelative
    decide +kernel
  have hsettings : appResolver.config = appResolver.config := rfl
  have hdotted := reads_own_anchor hsettings ".conf.js" ⟨site ["lib", ""], site [""]⟩
    ⟨site ["lib", ""], site [""]⟩
  rw [htrim] at hdotted
  obtain ⟨_, _, _, hdotted⟩ := hdotted.2 (by decide +kernel)
  have hagain := (hdotted (by decide +kernel) hnot).2 ⟨_, .parse hlib, hctx⟩ (by decide +kernel)
  refine ⟨hstray, (hagain _).mp hstray, fun c => ?_⟩
  have hsame := reads_own_anchor hsettings "conf" c ⟨site [""], site [""]⟩
  rw [htrim'] at hsame
  obtain ⟨_, _, hsame, _⟩ := hsame.2 (by decide +kernel)
  exact (hsame (by decide +kernel) (by decide +kernel) rfl).trans hbare

/-- A name that begins with a dot is not the same everywhere. -/
theorem hidden_name_strays :
    firstSegment (Text.trim ".conf.js") = ".conf.js" ∧
    appResolver.isFullyQualified ".conf.js" = false ∧
    Resolver.resolve appResolver ".conf.js" ⟨site ["lib", ""], site [""]⟩ =
      .ok ⟨site ["lib", ".conf.js"], ".conf.js", .code⟩ ∧
    Resolver.resolve appResolver ".conf.js" ⟨site ["app", ""], site [""]⟩ =
      .ok ⟨site ["app", ".conf.js"], ".conf.js", .code⟩ := by
  decide +kernel

end Resolver
end AsyncModule
