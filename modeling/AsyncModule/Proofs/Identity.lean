import AsyncModule.Proofs.Bases

/-!
# AsyncModule.Proofs.Identity

What the canonical URL of a target says of it. Modules are kept by their URLs, with the target of
whoever asked first, so targets with one URL had better be one target. They are, as long as nothing
in the extension that names are given has to be escaped in a URL: then each name is written in its
URL as it is. Otherwise a name that was given the extension is written in another way, as the name
that somebody else may give in full.

* `Resolver.NamesInFull`  — a specifier that is not given an extension.
* `Resolver.same_target`  — what targets with one URL have in common.
* `Resolver.one_url_two_kinds` — not their kind, in general.
-/

namespace AsyncModule

namespace Text

theorem takeWhile_before {p : Char → Bool} {c : Char} (hc : p c = false) (cs behind : List Char) :
    (cs ++ c :: behind).takeWhile p = cs.takeWhile p := by
  induction cs with
  | nil => simp [hc]
  | cons a cs ih => rw [List.cons_append, List.takeWhile_cons, List.takeWhile_cons, ih]

/-- What is behind the last separator depends on nothing before another one. -/
theorem exists_splitLast? (ext : String) :
    ∃ last, ∀ stem : String, ∃ front, splitLast? '.' (stem ++ "." ++ ext) = some (front, last) := by
  refine ⟨String.ofList (ext.toList.reverse.takeWhile (· ≠ '.')).reverse, fun stem => ?_⟩
  have hback : (stem ++ "." ++ ext).toList.reverse =
      ext.toList.reverse ++ '.' :: stem.toList.reverse := by simp
  have hlast := takeWhile_before (p := (· ≠ '.')) (c := '.') (by decide) ext.toList.reverse
    stem.toList.reverse
  have hdrop : (ext.toList.reverse ++ '.' :: stem.toList.reverse).dropWhile (· ≠ '.') ≠ [] := by
    rw [ne_eq, List.dropWhile_eq_nil_iff]
    intro hall
    simpa using hall '.' (by simp)
  unfold splitLast?
  rw [hback]
  dsimp only
  rw [hlast]
  split
  · rename_i hnil
    exact absurd hnil hdrop
  · exact ⟨_, rfl⟩

end Text

namespace Resolver

variable {r r' : Resolver} {c c' : Context} {s s' : String} {t t' : Target}

/-! ## Names -/

/-- What a specifier leads to is called by a name with a dot, so it is not given an extension. -/
def NamesInFull (r : Resolver) (specifier : String) (ctx : Context) : Prop :=
  ∃ u, r.absolute (Text.trim specifier) ctx = .ok u ∧ '.' ∈ u.lastSegment.toList

theorem name_of_full (h : r.resolve s c = .ok t) (hfull : r.NamesInFull s c) :
    ∃ u, r.absolute (Text.trim s) c = .ok u ∧ u.lastSegment ≠ "" ∧ t.name = u.lastSegment := by
  obtain ⟨u, _, hu, hlast, _, hname, _⟩ := exists_of_resolve h
  obtain ⟨u', hu', hdot⟩ := hfull
  rw [hu] at hu'
  cases hu'
  exact ⟨u, hu, hlast, hname.trans (resourceName_eq_self hdot)⟩

theorem name_of_not_full (h : r.resolve s c = .ok t) (hfull : ¬ r.NamesInFull s c) :
    ∃ stem, t.name = stem ++ "." ++ r.config.defaultExtension := by
  obtain ⟨u, _, hu, _, _, hname, _⟩ := exists_of_resolve h
  have hdot : '.' ∉ u.lastSegment.toList := fun hdot => hfull ⟨u, hu, hdot⟩
  refine ⟨u.lastSegment, hname.trans ?_⟩
  unfold resourceName
  rw [if_neg (by simpa using hdot)]

theorem clean_of_full (hr : r.Walked) (hc : c.Walked) (h : r.resolve s c = .ok t)
    (hfull : r.NamesInFull s c) : Url.Path.Clean t.url.kind t.name := by
  obtain ⟨u, hu, hlast, hname⟩ := name_of_full h hfull
  rw [kind_of_resolve hu h, hname]
  exact clean_lastSegment (walked_absolute hr hc hu) hlast

/-- The kind of a name that was given the extension is that of the extension. -/
theorem kindOf_extension (r : Resolver) (stem stem' ext : String) :
    r.kindOf (stem ++ "." ++ ext) = r.kindOf (stem' ++ "." ++ ext) := by
  obtain ⟨last, hlast⟩ := Text.exists_splitLast? ext
  obtain ⟨front, hfront⟩ := hlast stem
  obtain ⟨front', hfront'⟩ := hlast stem'
  unfold kindOf Config.isMarkup
  rw [hfront, hfront']

/-! ## Targets with one URL -/

/-- Where both names are clean, they are read off the URL. -/
theorem alike_of_clean (hconfig : r'.config = r.config) (hr : r.Walked) (hr' : r'.Walked)
    (hc : c.Walked) (hc' : c'.Walked) (h : r.resolve s c = .ok t) (h' : r'.resolve s' c' = .ok t')
    (hurl : t.url.Alike t'.url) (hname : Url.Path.Clean t.url.kind t.name)
    (hname' : Url.Path.Clean t'.url.kind t'.name) : t.Alike t' := by
  obtain ⟨_, _, hseated⟩ := seated_of_clean hr hc h hname
  obtain ⟨_, _, hseated'⟩ := seated_of_clean hr' hc' h' hname'
  have heq : t.name = t'.name := by
    rw [← hseated.lastSegment_eq, ← hseated'.lastSegment_eq, Url.lastSegment, Url.lastSegment,
      hurl.segments]
  obtain ⟨_, _, _, _, _, _, _, hkind⟩ := exists_of_resolve h
  obtain ⟨_, _, _, _, _, _, _, hkind'⟩ := exists_of_resolve h'
  exact ⟨hurl, heq, by rw [hkind, hkind', heq, kindOf_of_config hconfig]⟩

theorem alike_of_key_eq (hr : r.Obtained) (hr' : r'.Obtained) (hc : c.Obtained)
    (hc' : c'.Obtained) (h : r.resolve s c = .ok t) (h' : r'.resolve s' c' = .ok t')
    (hkey : t.key = t'.key) : t.url.Alike t'.url :=
  Url.alike_of_toString_eq (canonical_of_resolve hr.wellFormed hc.wellFormed h)
    (canonical_of_resolve hr'.wellFormed hc'.wellFormed h') hkey

/-- Two specifiers are resolved with the same settings, whatever the default bases and contexts.
Targets with one URL agree in it part by part. They are one target if nothing in the extension has
to be escaped or cut in their URLs, or if neither name was given it. Names that were both given it
are of one kind, whatever it is; but where it is to be escaped, a name that was given it is never
the name that was given in full. -/
theorem same_target (hconfig : r'.config = r.config) (hr : r.Obtained) (hr' : r'.Obtained)
    (hc : c.Obtained) (hc' : c'.Obtained) (h : r.resolve s c = .ok t)
    (h' : r'.resolve s' c' = .ok t') (hkey : t.key = t'.key) :
    t.url.Alike t'.url ∧
      (Url.Path.Escaped t.url.kind r.config.defaultExtension ∨
        r.NamesInFull s c ∧ r'.NamesInFull s' c' → t.Alike t') ∧
      (¬ r.NamesInFull s c → ¬ r'.NamesInFull s' c' → t.kind = t'.kind) ∧
      (r.NamesInFull s c → ¬ r'.NamesInFull s' c' →
        ¬ Url.Path.Escaped t.url.kind r.config.defaultExtension → t.name ≠ t'.name) := by
  have hurl := alike_of_key_eq hr hr' hc hc' h h' hkey
  have halike := alike_of_clean hconfig hr.walked hr'.walked hc.walked hc'.walked h h' hurl
  refine ⟨hurl, ?_, fun hfull hfull' => ?_, fun hfull hfull' hext heq => hext ?_⟩
  · rintro (hext | ⟨hfull, hfull'⟩)
    · have hext' : Url.Path.Escaped t'.url.kind r'.config.defaultExtension := by
        rw [hconfig, ← hurl.kind]
        exact hext
      exact halike (clean_of_escaped hr.walked hc.walked h hext)
        (clean_of_escaped hr'.walked hc'.walked h' hext')
    · exact halike (clean_of_full hr.walked hc.walked h hfull)
        (clean_of_full hr'.walked hc'.walked h' hfull')
  · obtain ⟨_, _, _, _, _, _, _, hkind⟩ := exists_of_resolve h
    obtain ⟨_, _, _, _, _, _, _, hkind'⟩ := exists_of_resolve h'
    obtain ⟨stem, hname⟩ := name_of_not_full h hfull
    obtain ⟨stem', hname'⟩ := name_of_not_full h' hfull'
    rw [hkind, hkind', hname, hname', hconfig, kindOf_of_config hconfig]
    exact kindOf_extension r stem stem' _
  · -- the extension would be part of a name in which nothing is to be escaped
    obtain ⟨stem', hname'⟩ := name_of_not_full h' hfull'
    have hclean := clean_of_full hr.walked hc.walked h hfull
    rw [heq, hname', hconfig] at hclean
    exact fun ch hch => hclean.escaped ch (by simp [hch])

/-- The module of a bare specifier and of a relative one, found from two places. -/
theorem same_target_twice :
    Resolver.resolve ⟨some (site ["app", ""]), {}⟩ " lib/a" ⟨site [""], site [""]⟩ =
      .ok ⟨site ["app", "lib", "a.js"], "a.js", .code⟩ ∧
    Resolver.resolve ⟨none, {}⟩ "../lib/./a.js?v=2" ⟨site ["app", "page", ""], site [""]⟩ =
      .ok ⟨site ["app", "lib", "a.js"], "a.js", .code⟩ ∧
    Target.Alike ⟨site ["app", "lib", "a.js"], "a.js", .code⟩
      ⟨site ["app", "lib", "a.js"], "a.js", .code⟩ := by
  have hbase : Url.parse "https://example.com/app/" = .ok (site ["app", ""]) := by decide +kernel
  have hroot : Url.parse "https://example.com/" = .ok (site [""]) := by decide +kernel
  have hpage : Url.parse "https://example.com/app/page/" = .ok (site ["app", "page", ""]) := by
    decide +kernel
  have hctx : Context.ofUrl (site [""]) = .ok ⟨site [""], site [""]⟩ := by decide +kernel
  have hctx' : Context.ofUrl (site ["app", "page", ""]) =
      .ok ⟨site ["app", "page", ""], site [""]⟩ := by decide +kernel
  have hresolve : Resolver.resolve ⟨some (site ["app", ""]), {}⟩ " lib/a" ⟨site [""], site [""]⟩ =
      .ok ⟨site ["app", "lib", "a.js"], "a.js", .code⟩ := by decide +kernel
  have hresolve' : Resolver.resolve ⟨none, {}⟩ "../lib/./a.js?v=2"
      ⟨site ["app", "page", ""], site [""]⟩ =
        .ok ⟨site ["app", "lib", "a.js"], "a.js", .code⟩ := by decide +kernel
  have hplain : Config.PlainExtension {} := ⟨by decide, List.all_eq_true.mp (by decide)⟩
  have hr : Obtained ⟨some (site ["app", ""]), {}⟩ := fun base hb => by
    cases hb
    exact .parse hbase
  have hr' : Obtained ⟨none, {}⟩ := fun _ hb => by cases hb
  have hconfig : (⟨none, {}⟩ : Resolver).config =
      (⟨some (site ["app", ""]), {}⟩ : Resolver).config := rfl
  obtain ⟨_, hsame, _⟩ := same_target hconfig hr hr' ⟨_, .parse hroot, hctx⟩
    ⟨_, .parse hpage, hctx'⟩ hresolve hresolve' rfl
  exact ⟨hresolve, hresolve', hsame (.inl (hplain.escaped _))⟩

/-- Names without an extension are given one with a mark in it that is escaped in URLs. -/
def markedConfig : Config := { defaultExtension := "html#", markupExtensions := ["html#"] }

/-- The URL of a page, taken for the name of a unit. -/
theorem one_url_two_kinds :
    Context.ofUrl (site ["app", "main.js"]) = .ok ⟨site ["app", ""], site [""]⟩ ∧
    Resolver.resolve ⟨none, markedConfig⟩ "./a" ⟨site ["app", ""], site [""]⟩ =
      .ok ⟨site ["app", "a.html%23"], "a.html#", .markup⟩ ∧
    Resolver.resolve ⟨none, markedConfig⟩ "./a.html%23" ⟨site ["app", ""], site [""]⟩ =
      .ok ⟨site ["app", "a.html%23"], "a.html%23", .code⟩ := by
  decide +kernel

end Resolver
end AsyncModule
