import AsyncModule.Url.Parser

/-!
# AsyncModule.Proofs.Slashes

Where no slash can stand. A slash ends the authority of a written URL and each segment of its
path, so what is written between slashes must be free of them: hosts, credentials, ports and the
segments that a path is walked by.

* `Host.slash_not_mem_of_parse` — no host that has been read is written with a slash.
* `Path.Trail.All.walk`         — what a walk enters, by what it is given.
* `allProper_ofText`            — the segments of a path that has been walked have no slash.
-/

namespace AsyncModule

namespace Text

theorem ofNat_ne_slash {n : Nat} (h : 0x30 ≤ n) : Char.ofNat n ≠ '/' := by
  intro heq
  unfold Char.ofNat at heq
  by_cases hv : n.isValidChar
  · rw [dif_pos hv] at heq
    have hn : n = 0x2F := congrArg Char.toNat heq
    omega
  · rw [dif_neg hv] at heq
    exact absurd heq (by decide)

theorem le_toNat_toLower {c : Char} (h : c.toLower ≠ c) : 97 ≤ c.toLower.toNat := by
  unfold Char.toLower at h ⊢
  split
  · rename_i hc
    have hlow := UInt32.le_iff_toNat_le.mp hc.1
    have hhigh := UInt32.le_iff_toNat_le.mp hc.2
    have hA : 'A'.val.toNat = 65 := rfl
    have hZ : 'Z'.val.toNat = 90 := rfl
    have hd : ('a'.val - 'A'.val).toNat = 32 := rfl
    show 97 ≤ (c.val + ('a'.val - 'A'.val)).toNat
    rw [UInt32.toNat_add]
    omega
  · rename_i hc
    rw [dif_neg hc] at h
    exact absurd rfl h

theorem not_mem_map_toLower {a : Char} {cs : List Char} (ha : a.toNat < 97) (h : a ∉ cs) :
    a ∉ cs.map Char.toLower := by
  intro hmem
  obtain ⟨c, hc, rfl⟩ := List.mem_map.mp hmem
  by_cases heq : c.toLower = c
  · rw [heq] at h
    exact h hc
  · have := le_toNat_toLower heq
    omega

theorem sep_of_mem_fields {sep : Char → Bool} {cs f : List Char} (hf : f ∈ fields sep cs) :
    ∀ c ∈ f, sep c = false := by
  induction cs generalizing f with
  | nil =>
    rw [fields, List.mem_singleton] at hf
    subst hf
    intro c hc
    cases hc
  | cons a cs ih =>
    rw [fields] at hf
    split at hf
    · rcases List.mem_cons.mp hf with rfl | hf
      · intro c hc
        cases hc
      · exact ih hf
    · rename_i ha
      split at hf
      · rename_i hnil
        exact absurd hnil (fields_ne_nil sep cs)
      · rename_i g gs heq
        rw [heq] at ih
        rcases List.mem_cons.mp hf with rfl | hf
        · intro c hc
          rcases List.mem_cons.mp hc with rfl | hc
          · simpa using ha
          · exact ih List.mem_cons_self c hc
        · exact ih (List.mem_cons_of_mem _ hf)

theorem not_mem_intercalate {a : Char} {sep : List Char} {parts : List (List Char)}
    (hsep : a ∉ sep) (h : ∀ p ∈ parts, a ∉ p) : a ∉ sep.intercalate parts := by
  induction parts with
  | nil => simp
  | cons p rest ih =>
    have hp := h p List.mem_cons_self
    have hrest := ih fun q hq => h q (List.mem_cons_of_mem _ hq)
    cases rest with
    | nil => simpa [List.intercalate] using hp
    | cons q rest =>
      simp only [List.intercalate, List.intersperse_cons_cons, List.flatten_cons, List.mem_append,
        not_or] at hrest ⊢
      exact ⟨hp, hsep, hrest⟩

theorem not_mem_joinWith {a : Char} {sep : String} {parts : List String}
    (hsep : a ∉ sep.toList) (h : ∀ s ∈ parts, a ∉ s.toList) :
    a ∉ (joinWith sep parts).toList := by
  rw [joinWith, String.toList_intercalate]
  refine not_mem_intercalate hsep ?_
  intro p hp
  obtain ⟨s, hs, rfl⟩ := List.mem_map.mp hp
  exact h s hs

end Text

namespace Url

open AsyncModule.Text

namespace Percent

theorem slash_not_mem_escape (b : UInt8) : '/' ∉ escape b := by
  have hdigit : ∀ n, hexDigit n ≠ '/' := by
    intro n
    unfold hexDigit
    split
    · exact ofNat_ne_slash (by omega)
    · exact ofNat_ne_slash (by omega)
  simp only [escape, List.mem_cons, List.not_mem_nil, or_false, not_or]
  exact ⟨by decide, (hdigit _).symm, (hdigit _).symm⟩

/-- A slash is written only where one stands already and is not escaped. -/
theorem slash_not_mem_encode {set : Set} {cs : List Char} (h : '/' ∈ cs → set '/' = true) :
    '/' ∉ encode set cs := by
  intro hmem
  obtain ⟨c, hc, hin⟩ := List.mem_flatMap.mp hmem
  unfold encodeChar at hin
  split at hin
  · rename_i hcond
    rw [List.mem_singleton] at hin
    subst hin
    rw [h hc] at hcond
    simp at hcond
  · obtain ⟨b, _, hb⟩ := List.mem_flatMap.mp hin
    exact slash_not_mem_escape b hb

end Percent

/-! ## Numbers -/

theorem slash_not_mem_toDigits {b : Nat} (hb : 1 < b) (n : Nat) : '/' ∉ Nat.toDigits b n := by
  induction n using Nat.strongRecOn with
  | _ n ih =>
    have hdigit : ∀ m : Nat, '/' ≠ m.digitChar := fun m => (Nat.digitChar_ne '/' rfl).symm
    rw [Nat.toDigits_eq_if hb]
    split
    · rw [List.mem_singleton]
      exact hdigit n
    · rename_i hlt
      rw [List.mem_append, not_or, List.mem_singleton]
      exact ⟨ih (n / b) (Nat.div_lt_self (by omega) hb), hdigit _⟩

theorem slash_not_mem_repr (n : Nat) : '/' ∉ n.repr.toList := by
  rw [Nat.toList_repr]
  exact slash_not_mem_toDigits (by decide) n

theorem slash_not_mem_hex (n : Nat) : '/' ∉ (IPv6.hex n).toList := by
  rw [IPv6.hex, String.toList_ofList]
  exact slash_not_mem_toDigits (by decide) n

theorem slash_not_mem_ipv4 (a : UInt32) : '/' ∉ (IPv4.toString a).toList := by
  refine not_mem_joinWith (by decide) ?_
  intro s hs
  obtain ⟨n, _, rfl⟩ := List.mem_map.mp hs
  exact slash_not_mem_repr n

theorem slash_not_mem_ipv6 (pieces : List Nat) : '/' ∉ (IPv6.toString pieces).toList := by
  have hpart : ∀ ns : List Nat, '/' ∉ (joinWith ":" (ns.map IPv6.hex)).toList := by
    intro ns
    refine not_mem_joinWith (by decide) ?_
    intro s hs
    obtain ⟨n, _, rfl⟩ := List.mem_map.mp hs
    exact slash_not_mem_hex n
  unfold IPv6.toString
  split
  split
  · exact hpart _
  · rw [String.toList_append, String.toList_append, List.mem_append, List.mem_append]
    rintro ((h | h) | h)
    · exact hpart _ h
    · exact absurd h (by decide)
    · exact hpart _ h

/-! ## Domain names -/

namespace Punycode

theorem slash_ne_digitChar (d : Nat) : digitChar d ≠ '/' := by
  unfold digitChar
  split
  · exact ofNat_ne_slash (by omega)
  · exact ofNat_ne_slash (by omega)

theorem slash_not_mem_encodeNumber (bias k q : Nat) : '/' ∉ encodeNumber bias k q := by
  induction k, q using encodeNumber.induct bias with
  | case1 k q t hlt =>
    rw [encodeNumber, if_pos hlt, List.mem_singleton]
    exact (slash_ne_digitChar _).symm
  | case2 k q t hlt ih =>
    rw [encodeNumber, if_neg hlt, List.mem_cons, not_or]
    exact ⟨(slash_ne_digitChar _).symm, ih⟩

theorem slash_not_mem_visit {p : Progress} (h : '/' ∉ p.out) (basic m : Nat) (c : Char) :
    '/' ∉ (p.visit basic m c).out := by
  unfold Progress.visit
  split
  · exact h
  · split
    · rw [List.mem_append, not_or]
      exact ⟨h, slash_not_mem_encodeNumber _ _ _⟩
    · exact h

theorem slash_not_mem_encodeRest (label : List Char) (basic : Nat) (ms : List Nat) :
    ∀ (n : Nat) (p : Progress), '/' ∉ p.out → '/' ∉ (encodeRest label basic ms n p).out := by
  induction ms with
  | nil => exact fun _ _ h => h
  | cons m ms ih =>
    intro n p h
    have hall : ∀ (cs : List Char) (p : Progress), '/' ∉ p.out →
        '/' ∉ (cs.foldl (Progress.visit basic m) p).out := by
      intro cs
      induction cs with
      | nil => exact fun _ h => h
      | cons c cs ihc => exact fun p h => ihc _ (slash_not_mem_visit h basic m c)
    exact ih _ _ (hall label { p with delta := p.delta + (m - n) * (p.done + 1) } h)

theorem slash_not_mem_encode {label : List Char} (h : '/' ∉ label) : '/' ∉ encode label := by
  unfold encode
  dsimp only
  rw [List.mem_append, List.mem_append, not_or, not_or]
  refine ⟨⟨?_, ?_⟩, slash_not_mem_encodeRest _ _ _ _ _ (by simp)⟩
  · exact fun hmem => h (List.mem_filter.mp hmem).1
  · split <;> simp

end Punycode

namespace Domain

theorem slash_not_mem_toAscii? {name domain : List Char} (h : toAscii? name = some domain) :
    '/' ∉ domain := by
  have hforbidden : isForbidden '/' = true := by decide
  unfold toAscii? at h
  split at h
  · split at h
    · cases h
    · rename_i hnone
      cases h
      refine not_mem_map_toLower (by decide) ?_
      intro hmem
      exact hnone (List.any_eq_true.mpr ⟨'/', hmem, hforbidden⟩)
  · simp only [Option.bind_eq_bind, Option.bind_eq_some_iff] at h
    obtain ⟨whole, _, labels, _, h⟩ := h
    split at h
    · rename_i hvalid
      cases h
      rw [Bool.and_eq_true, List.all_eq_true] at hvalid
      refine not_mem_intercalate (by decide) ?_
      intro p hp
      obtain ⟨label, hlabel, rfl⟩ := List.mem_map.mp hp
      have hfree : '/' ∉ label := by
        intro hmem
        have hv := hvalid.1 label hlabel
        simp only [isValidLabel, Bool.and_eq_true, List.all_eq_true] at hv
        have hslash := hv.1.1 '/' hmem
        rw [hforbidden] at hslash
        cases hslash
      unfold foldLabel
      split
      · exact hfree
      · rw [List.mem_append, not_or]
        exact ⟨by decide, Punycode.slash_not_mem_encode hfree⟩
    · cases h

end Domain

/-! ## Hosts -/

namespace Host

theorem slash_not_mem_of_bracketed? {text : List Char} {host : Host}
    (h : bracketed? text = some (.ok host)) : '/' ∉ host.toString.toList := by
  unfold bracketed? at h
  split at h
  · split at h
    · split at h
      · cases h
        simp only [toString, String.toList_append, List.mem_append, not_or]
        exact ⟨⟨by decide, slash_not_mem_ipv6 _⟩, by decide⟩
      · cases h
    · cases h
  · cases h

theorem slash_not_mem_of_parse {text : List Char} {host : Host} (h : parse text = .ok host) :
    '/' ∉ host.toString.toList := by
  unfold parse at h
  split at h
  · rename_i hb
    rw [h] at hb
    exact slash_not_mem_of_bracketed? hb
  · split at h
    · cases h
    · cases h
    · rename_i domain _ hd
      split at h
      · split at h
        · cases h
          exact slash_not_mem_ipv4 _
        · cases h
      · cases h
        rw [toString, String.toList_ofList]
        obtain ⟨name, _, hname⟩ := Option.bind_eq_some_iff.mp hd
        exact Domain.slash_not_mem_toAscii? hname

theorem slash_not_mem_of_parseVerbatim {text : List Char} {host : Host}
    (h : parseVerbatim text = .ok host) : '/' ∉ host.toString.toList := by
  unfold parseVerbatim at h
  split at h
  · rename_i hb
    rw [h] at hb
    exact slash_not_mem_of_bracketed? hb
  · split at h
    · cases h
    · rename_i hnone
      cases h
      rw [toString, String.toList_ofList]
      refine Percent.slash_not_mem_encode ?_
      intro hmem
      exact absurd (List.any_eq_true.mpr ⟨'/', hmem, by decide⟩) hnone

end Host

/-! ## Paths -/

namespace Path

/-- What is entered by walking segments of one sort is of another: a segment as it is unless it is
followed, a drive in its normal form, and what goes on behind a drive. -/
structure Entering (raw done : String → Prop) : Prop where
  empty : done ""
  plain : ∀ {s}, raw s → isHere s = false → isParent s = false → done s
  drive : ∀ {s}, done s → done (normalDrive s)
  behind : ∀ {stem s}, done stem → isNormalDrive stem = true → raw s → isHere s = false →
    done (stem ++ s)

namespace Trail

variable {raw done : String → Prop} {kind : SchemeKind} {t : Trail} {s : String}
  {segments : List String}

def All (done : String → Prop) (t : Trail) : Prop := ∀ s ∈ t.stack, done s

theorem All.push (h : t.All done) (hs : done s) : All done { t with stack := s :: t.stack } :=
  List.forall_mem_cons.mpr ⟨hs, h⟩

theorem All.climb (h : t.All done) : t.climb.All done := by
  unfold Trail.climb
  split
  · exact h
  · rename_i heq
    split
    · exact h
    · intro s hs
      exact h s (by rw [heq]; exact List.mem_cons_of_mem _ hs)

theorem All.enter (he : Entering raw done) (h : t.All done) (hs : done s) :
    (t.enter kind s).All done := by
  unfold Trail.enter
  split
  · exact List.forall_mem_singleton.mpr (he.drive hs)
  · exact h.push hs

theorem All.pass (he : Entering raw done) (h : t.All done) (hs : raw s) :
    (t.pass kind s).All done := by
  unfold Trail.pass
  split
  · exact h.climb
  · rename_i hparent
    split
    · exact h
    · rename_i hhere
      exact h.enter he (he.plain hs (Bool.eq_false_iff.mpr hhere) (Bool.eq_false_iff.mpr hparent))

theorem All.finish (he : Entering raw done) (h : t.All done) (hs : raw s) :
    (t.finish kind s).All done := by
  unfold Trail.finish
  split
  · exact h.climb.push he.empty
  · rename_i hparent
    split
    · exact h.push he.empty
    · rename_i hhere
      exact h.enter he (he.plain hs (Bool.eq_false_iff.mpr hhere) (Bool.eq_false_iff.mpr hparent))

theorem All.walk (he : Entering raw done) (hs : ∀ s ∈ segments, raw s) :
    ∀ {t : Trail}, t.All done → (t.walk kind segments).All done := by
  induction segments with
  | nil => exact fun h => h
  | cons s rest ih =>
    intro t h
    obtain ⟨hfirst, hrest⟩ := List.forall_mem_cons.mp hs
    cases rest with
    | nil => exact h.finish he hfirst
    | cons s' rest => exact ih hrest (h.pass he hfirst)

/-- From a drive the walk goes on behind it. -/
theorem All.walkFrom {stem : String} (he : Entering raw done) (h : t.All done) (hstem : done stem)
    (hdrive : isNormalDrive stem = true) (hs : ∀ s ∈ segments, raw s) :
    (t.walkFrom kind stem segments).All done := by
  have hstay := h.push hstem
  cases segments with
  | nil => exact hstay
  | cons s rest =>
    obtain ⟨hfirst, hrest⟩ := List.forall_mem_cons.mp hs
    have hnext : ∀ {t' : Trail}, t'.All done →
        (if rest.isEmpty then t' else t'.walk kind rest).All done := by
      intro t' h'
      split
      · exact h'
      · exact All.walk he hrest h'
    simp only [Trail.walkFrom]
    refine hnext ?_
    split
    · exact hstay
    · split
      · split
        · exact hstay.push he.empty
        · exact hstay
      · rename_i hhere
        exact h.push (he.behind hstem hdrive hfirst (Bool.eq_false_iff.mpr hhere))

theorem dropEmpty_subset (segments : List String) : dropEmpty segments ⊆ segments := by
  induction segments using dropEmpty.induct with
  | case1 s rest ih =>
    rw [dropEmpty]
    exact List.subset_cons_of_subset _ ih
  | case2 segments hne =>
    rw [dropEmpty]
    · exact List.Subset.refl _
    · exact hne

theorem All.path (kind : SchemeKind) (h : t.All done) : ∃ segments, t.path kind = .rooted segments ∧
    ∀ s ∈ segments, done s := by
  refine ⟨_, rfl, fun s hs => ?_⟩
  split at hs
  · exact h s (List.mem_reverse.mp (dropEmpty_subset _ hs))
  · exact h s (List.mem_reverse.mp hs)

end Trail

/-- What can stand in a path that has been walked: free of slashes, and a way on. -/
def Proper (s : String) : Prop := '/' ∉ s.toList ∧ s ≠ "."

/-- A path of proper segments; a rootless path has none. -/
def AllProper : Path → Prop
  | .rooted segments => ∀ s ∈ segments, Proper s
  | .rootless _ => True

theorem proper_empty : Proper "" := ⟨by decide, by decide⟩

theorem slash_not_mem_segmentsOf {kind : SchemeKind} {text : List Char} {s : String}
    (h : s ∈ segmentsOf kind text) : '/' ∉ s.toList := by
  obtain ⟨f, hf, rfl⟩ := List.mem_map.mp h
  rw [String.toList_ofList]
  refine Percent.slash_not_mem_encode ?_
  intro hmem
  have hsep := sep_of_mem_fields hf '/' hmem
  simp [SchemeKind.isSlash] at hsep

theorem proper_normalDrive {s : String} (h : '/' ∉ s.toList) : Proper (normalDrive s) := by
  constructor
  · rw [normalDrive, String.toList_ofList, List.mem_append, not_or]
    exact ⟨fun hmem => h (List.mem_of_mem_take hmem), by decide⟩
  · intro heq
    have hlist := congrArg String.toList heq
    rw [normalDrive, String.toList_ofList] at hlist
    have hlast := congrArg List.getLast? hlist
    rw [List.getLast?_append] at hlast
    cases hlast

theorem proper_of_not_isHere {s : String} (hs : '/' ∉ s.toList) (hhere : isHere s = false) :
    Proper s := by
  refine ⟨hs, ?_⟩
  rintro rfl
  exact absurd hhere (by decide)

theorem proper_append {stem s : String} (hstem : Proper stem) (hs : '/' ∉ s.toList)
    (hhere : isHere s = false) : Proper (stem ++ s) := by
  constructor
  · rw [String.toList_append, List.mem_append, not_or]
    exact ⟨hstem.1, hs⟩
  · intro heq
    have hlist := congrArg String.toList heq
    rw [String.toList_append] at hlist
    rcases List.append_eq_singleton_iff.mp hlist with ⟨_, hdot⟩ | ⟨hdot, _⟩
    · exact (proper_of_not_isHere hs hhere).2 (String.toList_inj.mp hdot)
    · exact hstem.2 (String.toList_inj.mp hdot)

theorem entering_proper : Entering (fun s => '/' ∉ s.toList) Proper where
  empty := proper_empty
  plain hs hhere _ := proper_of_not_isHere hs hhere
  drive hs := proper_normalDrive hs.1
  behind hstem _ hs hhere := proper_append hstem hs hhere

/-- All that has been entered is proper. -/
def Trail.Proper (t : Trail) : Prop := ∀ s ∈ t.stack, Path.Proper s

theorem Trail.Proper.path (kind : SchemeKind) {t : Trail} (h : t.Proper) :
    (t.path kind).AllProper := by
  obtain ⟨segments, hpath, hsegments⟩ := Trail.All.path kind h
  rw [hpath]
  exact hsegments

theorem proper_follow {kind : SchemeKind} {stack : List String} (text : List Char)
    (h : ∀ s ∈ stack, Proper s) : (follow kind stack text).Proper :=
  Trail.All.walk entering_proper (fun _ hs => slash_not_mem_segmentsOf hs) h

theorem allProper_ofText (kind : SchemeKind) (text : List Char) :
    (ofText kind text).AllProper := by
  unfold ofText
  split
  · intro s hs
    cases hs
  · exact (proper_follow _ (by simp)).path kind

end Path

/-- Walking from the directory of a URL enters what a walk of a text enters. -/
theorem exists_walkFrom {raw done : String → Prop} (he : Path.Entering raw done) {b : Url}
    (h : ∀ s ∈ b.segments, done s) (text : List Char)
    (hraw : ∀ s ∈ Path.segmentsOf b.kind text, raw s) :
    ∃ t : Path.Trail, Parser.walkFrom b text = t.path b.kind ∧ t.All done := by
  have hfollow : ∀ {stack : List String}, (∀ s ∈ stack, done s) →
      (Path.follow b.kind stack text).All done :=
    fun hstack => Path.Trail.All.walk he hraw hstack
  unfold Parser.walkFrom
  dsimp only
  split
  · exact ⟨_, rfl, hfollow (by simp)⟩
  · rename_i last directory heq
    obtain ⟨hlast, hdirectory⟩ : done last ∧ ∀ s ∈ directory, done s := by
      refine List.forall_mem_cons.mp fun s hs => h s ?_
      rw [← List.mem_reverse, heq]
      exact hs
    split
    · rename_i hdrive
      rw [Bool.and_eq_true] at hdrive
      split
      · exact ⟨_, rfl, hfollow (List.forall_mem_singleton.mpr hlast)⟩
      · have hfrom : Path.Trail.All done ⟨directory, false⟩ := hdirectory
        exact ⟨_, rfl, hfrom.walkFrom he hlast hdrive.2 hraw⟩
    · exact ⟨_, rfl, hfollow hdirectory⟩

end Url
end AsyncModule
