import AsyncModule.Proofs.Written

/-!
# AsyncModule.Proofs.Resolved

What specifiers are resolved to. The target of a specifier is canonical, and where it is written
one way it was found in one way as far as anything depends on it: contexts made from URLs that
are written alike resolve every specifier alike.

* `Resolver.canonical_of_resolve` — targets are rooted, with nothing behind their paths.
* `Resolver.sameResult_resolve`   — alike contexts resolve specifiers alike.
* `Context.exists_ofUrl`          — whatever has a root has a context.
-/

namespace AsyncModule

open Url

namespace Url

variable {u v d : Url}

theorem Alike.join (h : Alike u v) (reference : String) :
    SameResult Alike (u.join reference) (v.join reference) := sameResult_read (.some h) reference

theorem Alike.joinFor (h : Alike u v) (specifier reference : String) :
    SameResult Alike (u.joinFor specifier reference) (v.joinFor specifier reference) := by
  have hjoin := h.join reference
  unfold Url.joinFor
  generalize u.join reference = x at hjoin ⊢
  generalize v.join reference = y at hjoin ⊢
  cases hjoin with
  | ok h' => exact .ok h'
  | error e => exact .error _

theorem wellFormed_of_parse {text : String} (h : parse text = .ok u) : u.WellFormed := by
  obtain ⟨v, _, halike⟩ := (sameResult_read .none text).exists_of_ok h
  exact halike.left

theorem wellFormed_of_parseFor {specifier text : String} (h : parseFor specifier text = .ok u) :
    u.WellFormed := by
  unfold parseFor at h
  split at h
  · rename_i hparse
    cases h
    exact wellFormed_of_parse hparse
  · cases h

theorem Alike.directory (h : Alike u v) : SameResult Alike u.directory v.directory := by
  unfold Url.directory
  rw [← h.toString_eq]
  exact h.joinFor _ _

theorem WellFormed.directory (h : u.WellFormed) (hd : u.directory = .ok d) : d.WellFormed := by
  obtain ⟨_, _, halike⟩ := h.alike.directory.exists_of_ok hd
  exact halike.left

theorem join_here (u : Url) :
    u.join "./" =
      if u.isRootless then .error .relativeToRootless
      else .ok { u with path := Parser.walkFrom u ['.', '/'], query := none, fragment := none } := by
  have hclean : Parser.clean "./" = ['.', '/'] := by decide
  have hscheme : Parser.scheme? ['.', '/'] = none := by decide
  unfold Url.join Parser.read
  simp only [hclean, hscheme]
  split
  · rename_i heq
    cases heq
  · split
    · rfl
    · split
      · rfl
      · rfl

/-- The directory of a URL is there unless the URL has no root. -/
theorem directory_eq (u : Url) :
    u.directory =
      if u.isRootless then .error (.unresolved u.toString Error.relativeToRootless.message)
      else .ok { u with path := Parser.walkFrom u ['.', '/'], query := none, fragment := none } := by
  unfold Url.directory Url.joinFor
  rw [join_here]
  cases u.isRootless with
  | true => rfl
  | false => rfl

theorem rooted_walkFrom (u : Url) (text : List Char) :
    ∃ segments, Parser.walkFrom u text = .rooted segments := by
  unfold Parser.walkFrom
  dsimp only
  split
  · exact ⟨_, rfl⟩
  · split
    · split
      · exact ⟨_, rfl⟩
      · exact ⟨_, rfl⟩
    · exact ⟨_, rfl⟩

theorem rooted_of_directory (hd : u.directory = .ok d) :
    u.isRootless = false ∧ d.isRootless = false := by
  rw [directory_eq] at hd
  cases hu : u.isRootless with
  | true =>
    rw [hu] at hd
    cases hd
  | false =>
    rw [hu] at hd
    obtain ⟨segments, hpath⟩ := rooted_walkFrom u ['.', '/']
    refine ⟨rfl, ?_⟩
    rw [← Except.ok.inj hd, isRootless, hpath]

theorem WellFormed.canonical_directory (h : u.WellFormed) (hd : u.directory = .ok d) :
    d.Canonical := by
  have hrooted := rooted_of_directory hd
  obtain ⟨_, _, halike⟩ := h.alike.directory.exists_of_ok hd
  rw [directory_eq, hrooted.1] at hd
  rw [← Except.ok.inj hd] at halike hrooted ⊢
  exact ⟨halike.left, hrooted.2, rfl, rfl⟩

theorem isRootless_setPath (u : Url) (text : String) :
    (u.setPath text).isRootless = u.isRootless := by
  unfold Url.setPath Url.isRootless Path.ofText
  dsimp only
  cases hpath : u.path with
  | rootless text => rfl
  | rooted segments =>
    dsimp only
    split
    · rename_i heq
      split at heq <;> cases heq
    · rfl

theorem join_root (u : Url) (h : u.isRootless = false) : ∃ root, u.join "/" = .ok root := by
  have hclean : Parser.clean "/" = ['/'] := by decide
  have hscheme : Parser.scheme? ['/'] = none := by decide
  unfold Url.join Parser.read
  simp only [hclean, hscheme]
  split
  · rename_i heq
    cases heq
  · rw [h, if_neg Bool.false_ne_true]
    split
    · exact ⟨_, rfl⟩
    · exact ⟨_, rfl⟩

theorem Alike.setPath (h : Alike u v) (text : String) :
    Alike (u.setPath text) (v.setPath text) := by
  unfold Url.setPath
  dsimp only
  rw [← h.kind, ← h.path]
  split
  · exact h.withPath (Path.allProper_ofText _ _)
  · exact h.withPath trivial

theorem Canonical.setPath (h : u.Canonical) (text : String) : (u.setPath text).Canonical := by
  refine ⟨(h.alike.setPath text).left, ?_, ?_, ?_⟩
  · rw [isRootless_setPath]
    exact h.rooted
  · unfold Url.setPath
    rw [h.path_eq]
    exact h.query
  · unfold Url.setPath
    rw [h.path_eq]
    exact h.fragment

theorem WellFormed.asDirectory {text : String} (h : asDirectory text = .ok u) :
    u.WellFormed := by
  unfold Url.asDirectory at h
  obtain ⟨w, hw, h⟩ := bind_eq_ok h
  have hwf := wellFormed_of_parseFor hw
  dsimp only at h
  split at h
  · cases h
  · rw [← Except.ok.inj h]
    have hdone : ∀ {w : Url}, w.WellFormed → w.withoutSuffix.WellFormed :=
      fun hw => (hw.alike.withMarks rfl none).left
    split
    · exact hdone hwf
    · exact hdone (hwf.alike.setPath _).left

end Url

/-- Contexts made of URLs that are written alike. -/
structure Context.Alike (c c' : Context) : Prop where
  base : Url.Alike c.base c'.base
  root : Url.Alike c.root c'.root

/-- Targets that differ in nothing but how their URL came about. -/
structure Target.Alike (t t' : Target) : Prop where
  url : Url.Alike t.url t'.url
  name : t.name = t'.name
  kind : t.kind = t'.kind

theorem Target.Alike.key_eq {t t' : Target} (h : t.Alike t') : t.key = t'.key :=
  h.url.toString_eq

namespace Context

theorem sameResult_ofUrl {u v : Url} (h : Url.Alike u v) :
    SameResult Alike (ofUrl u) (ofUrl v) := by
  unfold ofUrl
  rw [← h.toString_eq]
  refine h.directory.bind fun base base' hbase => ?_
  exact (h.joinFor _ _).bind fun root root' hroot => .ok ⟨hbase, hroot⟩

theorem exists_ofUrl {u : Url} (h : u.isRootless = false) : ∃ ctx, ofUrl u = .ok ctx := by
  obtain ⟨root, hroot⟩ := Url.join_root u h
  unfold ofUrl Url.joinFor
  rw [Url.directory_eq, h, hroot]
  exact ⟨_, rfl⟩

theorem directory_of_ofUrl {u : Url} {c : Context} (h : ofUrl u = .ok c) :
    u.directory = .ok c.base := by
  unfold ofUrl at h
  obtain ⟨base, hbase, h⟩ := bind_eq_ok h
  obtain ⟨root, _, h⟩ := bind_eq_ok h
  rw [← Except.ok.inj h]
  exact hbase

/-- A context made from a URL that has been read. -/
def WellFormed (c : Context) : Prop := c.base.WellFormed ∧ c.root.WellFormed

theorem WellFormed.alike {c : Context} (h : c.WellFormed) : c.Alike c := ⟨h.1.alike, h.2.alike⟩

theorem wellFormed_ofUrl {u : Url} {c : Context} (h : u.WellFormed) (hc : ofUrl u = .ok c) :
    c.WellFormed := by
  obtain ⟨_, _, halike⟩ := (sameResult_ofUrl h.alike).exists_of_ok hc
  exact ⟨halike.base.left, halike.root.left⟩

end Context

namespace Resolver

variable {r : Resolver}

/-- The default base, if there is one, has been read. -/
def WellFormed (r : Resolver) : Prop := ∀ base ∈ r.defaultBase, base.WellFormed

theorem sameResult_absolute (hr : r.WellFormed) {c c' : Context} (h : c.Alike c')
    (specifier : String) :
    SameResult Url.Alike (r.absolute specifier c) (r.absolute specifier c') := by
  unfold absolute
  split
  · exact .refl fun _ hread => (Url.wellFormed_of_parseFor hread).alike
  · split
    · exact h.root.joinFor _ _
    · exact h.base.joinFor _ _
    · split
      · rename_i base hbase
        exact (hr base hbase).alike.joinFor _ _
      · exact .error _

theorem sameResult_resolve (hr : r.WellFormed) {c c' : Context} (h : c.Alike c')
    (specifier : String) :
    SameResult Target.Alike (r.resolve specifier c) (r.resolve specifier c') := by
  unfold resolve
  dsimp only
  split
  · exact .error _
  · refine (sameResult_absolute hr h _).bind fun u v huv => ?_
    have hlast : u.lastSegment = v.lastSegment := by
      rw [Url.lastSegment, Url.lastSegment, huv.segments]
    rw [← hlast]
    split
    · exact .error _
    · refine huv.directory.bind fun d d' hd => ?_
      rw [← hd.path]
      exact .ok ⟨hd.setPath _, rfl, rfl⟩

theorem canonical_of_resolve (hr : r.WellFormed) {c : Context} (hc : c.WellFormed)
    {specifier : String} {t : Target} (h : r.resolve specifier c = .ok t) : t.url.Canonical := by
  unfold resolve at h
  dsimp only at h
  split at h
  · cases h
  · obtain ⟨u, hu, h⟩ := bind_eq_ok h
    obtain ⟨_, _, halike⟩ := (sameResult_absolute hr hc.alike _).exists_of_ok hu
    split at h
    · cases h
    · obtain ⟨d, hd, h⟩ := bind_eq_ok h
      rw [← Except.ok.inj h]
      exact (halike.left.canonical_directory hd).setPath _

theorem rooted_of_resolve {specifier : String} {c : Context} {t : Target}
    (h : r.resolve specifier c = .ok t) : t.url.isRootless = false := by
  unfold resolve at h
  dsimp only at h
  split at h
  · cases h
  · obtain ⟨u, _, h⟩ := bind_eq_ok h
    split at h
    · cases h
    · obtain ⟨d, hd, h⟩ := bind_eq_ok h
      rw [← Except.ok.inj h, Url.isRootless_setPath]
      exact (Url.rooted_of_directory hd).2

end Resolver
end AsyncModule
