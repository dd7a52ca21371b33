import SiteHost.Proofs.Site.Bundled
import SiteHost.Proofs.Site.Spellings

/-!
# Answers after an earlier request

Two request paths with one key are answered out of one artifact, although each may find other files. So the
answer to the second depends on whether the first was asked for before:

* `Sources.cold`, `Sources.warm` — the answer where nothing is held, and where another spelling of the unit
  was asked for before.

Principal results:

* `Sources.sameOutcome_warm_iff` — **an earlier request makes a difference if and only if** its unit could be
  built and the two find other files;
* `Sources.warm_of_oneSpelling` — which takes script and markup of the unit in different spellings;
* `Site.create_after_respelled` — the same of the answers of a site.
-/

namespace SiteHost

open Place Script

variable {src : Sources} {a b : Artifact} {u v : Identity} {root : Place}

/-- What one request for a path leaves. -/
theorem Sources.firstBuilt_askedFor {path : String} {unit : Identity}
    (h : src.locator.resolve path = .ok unit) :
    src.firstBuilt (src.askedFor [path]) unit.key = (src.leaf unit).toOption := by
  have hunits : src.askedFor [path] = [unit] := by
    rw [askedFor_cons, h]
    rfl
  rw [hunits, firstBuilt, List.findSome?_cons, if_pos rfl, List.findSome?_nil]
  cases (src.leaf unit).toOption <;> rfl

theorem typeName_ne_of_requested (ha : a.IsLinked) (hb : b.IsLinked) (hkind : a.isTemplate ≠ b.isTemplate)
    (hname : Text.asciiLower a.identity.typeName = Text.asciiLower b.identity.typeName)
    {args : List Script.Value} {h k : Handler} (hobject : a.requested args = .ok h)
    (hobject' : b.requested args = .ok k) : h.typeName ≠ k.typeName := by
  have hlength : a.identity.typeName.length = b.identity.typeName.length := by
    rw [← Text.length_asciiLower, hname, Text.length_asciiLower]
  have hwindow : ∀ name, (windowName name).length = name.length + 6 := by
    intro name
    rw [windowName, String.length_append]
    rfl
  intro hsame
  have hlengths := congrArg String.length hsame
  rw [typeName_of_instantiate ha hobject, typeName_of_instantiate hb hobject', a.ownType_eq,
    b.ownType_eq] at hlengths
  cases hta : a.isTemplate <;> cases htb : b.isTemplate <;> simp_all

section Spelled

variable {dirs dirs' : List String} {file file' : String}

/-- Paths below a root that differ in letter case only are of such names. -/
theorem Locator.lower_of_path {l : Locator} (hl : l.At root) (h : l.convention.NamesScript dirs file)
    (h' : l.convention.NamesScript dirs' file')
    (hsame : Text.asciiLower (l.unitAt (dirs' ++ [file'])).path =
      Text.asciiLower (l.unitAt (dirs ++ [file])).path) :
    lower (dirs' ++ [file']) = lower (dirs ++ [file]) := by
  rw [path_unitAt hl h.named, path_unitAt hl h'.named, path_append root (by simp),
    path_append root (by simp)] at hsame
  simp only [Text.asciiLower_append, String.append_right_inj, asciiLower_joined] at hsame
  refine path_injective h'.named.lower h.named.lower ?_
  rw [Place.path, Place.path, hsame]

/-- **Where names are distinct and two spellings of a unit find other files**, objects made of them are of
other types. -/
theorem Sources.typeName_ne_of_spelling? (hl : src.locator.At root) (hdistinct : src.disk.Distinct root)
    (h : src.locator.convention.NamesScript dirs file)
    (h' : src.locator.convention.NamesScript dirs' file')
    (hsame : lower (dirs' ++ [file']) = lower (dirs ++ [file]))
    (ha : src.ordinary (src.locator.unitAt (dirs ++ [file])) = .ok a)
    (hb : src.ordinary (src.locator.unitAt (dirs' ++ [file'])) = .ok b)
    (hne : src.spelling? (src.locator.unitAt (dirs ++ [file])) ≠
      src.spelling? (src.locator.unitAt (dirs' ++ [file'])))
    (hlinked : a.IsLinked) (hlinked' : b.IsLinked) {args : List Script.Value} {k k' : Handler}
    (hobject : a.requested args = .ok k)
    (hobject' : b.requested args = .ok k') : k.typeName ≠ k'.typeName := by
  have hfound := spelling?_of_ordinary ha
  have hfound' := spelling?_of_ordinary hb
  obtain ⟨dirs₁, file₁, h₁, hsame₁, hid₁⟩ := names_of_spelling? hl h hfound
  obtain ⟨dirs₂, file₂, h₂, hsame₂, hid₂⟩ := names_of_spelling? hl h' hfound'
  have hspelled : lower (dirs₂ ++ [file₂]) = lower (dirs₁ ++ [file₁]) := by
    rw [hsame₁, hsame₂, hsame]
  have hkind := isTemplate_ne_of_spelling? hl hdistinct h₁ h₂ hspelled ha hb (hid₁ ▸ hfound)
    (hid₂ ▸ hfound') hne
  have hname : Text.asciiLower a.identity.typeName = Text.asciiLower b.identity.typeName := by
    rw [hid₁, hid₂]
    exact (Convention.asciiLower_typeName_congr hspelled).symm
  exact typeName_ne_of_requested hlinked hlinked' hkind hname hobject hobject'

/-- Where names are distinct and the files of a unit go together, all spellings amount to the same. -/
theorem Sources.ordinary_of_oneSpelling (hl : src.locator.At root) (hdistinct : src.disk.Distinct root)
    (h : src.locator.convention.NamesScript dirs file)
    (h' : src.locator.convention.NamesScript dirs' file')
    (hsame : lower (dirs' ++ [file']) = lower (dirs ++ [file]))
    (hone : src.OneSpelling (src.locator.unitAt (dirs ++ [file])))
    (ha : src.ordinary (src.locator.unitAt (dirs ++ [file])) = .ok a) :
    src.ordinary (src.locator.unitAt (dirs' ++ [file'])) = .ok a := by
  obtain ⟨_, _, k, texts, -, -, hk, hread, -⟩ := ordinary_eq_ok_iff_spelling.1 ha
  obtain ⟨dirs₁, file₁, h₁, hsame₁, rfl⟩ := names_of_spelling? hl h hk
  obtain ⟨hscript, hmarkup⟩ := searched_congr hl h h₁ hsame₁ src.disk
  have hone₁ : src.OneSpelling (src.locator.unitAt (dirs₁ ++ [file₁])) := by
    rwa [OneSpelling, hscript, hmarkup]
  have hother := spelling?_of_readUnit hl hdistinct h₁ hread hone₁ h' (hsame.trans hsame₁.symm)
  exact (ordinary_eq_iff ha).2 (hother.trans hk.symm)

/-- Spellings that find the same files amount to the same, and so do all spellings of the global unit. -/
theorem Sources.leaf_of_spelling? (hkey : u.key = v.key) (ha : src.leaf u = .ok a)
    (hsame : src.locator.isGlobal v = true ∨ src.spelling? u = src.spelling? v) : src.leaf v = .ok a := by
  have hunit : src.locator.isGlobal u = src.locator.isGlobal v := Locator.isGlobal_congr hkey
  by_cases hglobal : src.locator.isGlobal v = true
  · exact (leaf_eq_ok_iff_globalUnit hglobal).2
      ((leaf_eq_ok_iff_globalUnit (hunit.trans hglobal)).1 ha)
  · have hother : ¬ src.locator.isGlobal u = true := by rwa [hunit]
    rw [leaf, if_neg hother] at ha
    rw [leaf, if_neg hglobal]
    exact (ordinary_eq_iff ha).2 (hsame.resolve_left hglobal).symm

/-- The answer to a request for a unit where nothing is held. -/
def Sources.cold (src : Sources) (v : Identity) (args : List Script.Value) : Except Failure Handler :=
  src.leaf v >>= (·.requested args)

/-- The answer to a request for a unit where another spelling of it was asked for before. -/
def Sources.warm (src : Sources) (u v : Identity) (args : List Script.Value) : Except Failure Handler :=
  match src.leaf u with
  | .ok a => a.requested args
  | .error _ => src.cold v args

theorem Sources.cold_of_ok (ha : src.leaf u = .ok a) (args : List Script.Value) :
    src.cold u args = a.requested args := by
  unfold cold
  rw [ha]
  rfl

theorem Sources.warm_of_ok (ha : src.leaf u = .ok a) (args : List Script.Value) :
    src.warm u v args = a.requested args := by
  unfold warm
  rw [ha]

theorem Sources.warm_of_error {e : Failure} (he : src.leaf u = .error e) (args : List Script.Value) :
    src.warm u v args = src.cold v args := by
  unfold warm
  rw [he]

theorem Sources.warm_eq_cold {args : List Script.Value}
    (hleaf : ∀ a, src.leaf u = .ok a → src.leaf v = .ok a) : src.warm u v args = src.cold v args := by
  cases hu : src.leaf u with
  | error e => exact warm_of_error hu args
  | ok a => rw [warm_of_ok hu, cold_of_ok (hleaf a hu)]

/-- **Where names are distinct an earlier request makes a difference if and only if** its unit could be built,
is not the global one, and the two find other files; unless both fail alike. -/
theorem Sources.sameOutcome_warm_iff (hl : src.locator.At root) (hdistinct : src.disk.Distinct root)
    (h : src.locator.convention.NamesScript dirs file)
    (h' : src.locator.convention.NamesScript dirs' file')
    (hsame : lower (dirs' ++ [file']) = lower (dirs ++ [file]))
    (hu : u = src.locator.unitAt (dirs ++ [file])) (hv : v = src.locator.unitAt (dirs' ++ [file']))
    (hkey : u.key = v.key) (args : List Script.Value) :
    SameOutcome (src.warm u v args) (src.cold v args) ↔
      ((∃ a, src.leaf u = .ok a) → src.locator.isGlobal v = true ∨ src.spelling? u = src.spelling? v) ∨
        ∃ kind, label (src.warm u v args) = .error kind ∧ label (src.cold v args) = .error kind := by
  constructor
  · intro houtcome
    by_cases hfail : ∃ kind, label (src.warm u v args) = .error kind ∧
        label (src.cold v args) = .error kind
    · exact .inr hfail
    refine .inl fun ⟨a, ha⟩ => ?_
    by_cases hglobal : src.locator.isGlobal v = true
    · exact .inl hglobal
    by_contra hnot
    have hunit : ¬ src.locator.isGlobal u = true := by rwa [Locator.isGlobal_congr hkey]
    have hwarm : src.warm u v args = a.requested args := warm_of_ok ha args
    have hlinked := isLinked_leaf ha
    rw [leaf, if_neg hunit, hu] at ha
    -- both answers are objects, or they would fail alike
    cases hobject : a.requested args with
    | error e =>
      rw [hobject] at hwarm
      exact hfail ⟨e.kind, by rw [hwarm]; rfl, by rw [← houtcome.label, hwarm]; rfl⟩
    | ok k =>
      rw [hobject] at hwarm
      have hlabel : label (src.cold v args) = .ok k.typeName := by
        rw [← houtcome.label, hwarm]
        rfl
      cases hcold : src.cold v args with
      | error e =>
        rw [hcold] at hlabel
        cases hlabel
      | ok k' =>
        rw [hcold] at hlabel
        obtain ⟨b, hb, hobject'⟩ := bind_eq_ok.1 hcold
        have hlinked' := isLinked_leaf hb
        rw [leaf, if_neg hglobal, hv] at hb
        rw [hu, hv] at hnot
        exact typeName_ne_of_spelling? hl hdistinct h h' hsame ha hb (fun hsp => hnot (.inr hsp)) hlinked
          hlinked' hobject hobject' (Except.ok.inj hlabel).symm
  · rintro (himp | ⟨kind, hwarm, hcold⟩)
    · rw [warm_eq_cold fun a ha => leaf_of_spelling? hkey ha (himp ⟨a, ha⟩)]
    · exact sameOutcome_of_failures hwarm hcold

/-- **Where names are distinct and the files of a unit go together** an earlier request makes no
difference. -/
theorem Sources.warm_of_oneSpelling (hl : src.locator.At root) (hdistinct : src.disk.Distinct root)
    (h : src.locator.convention.NamesScript dirs file)
    (h' : src.locator.convention.NamesScript dirs' file')
    (hsame : lower (dirs' ++ [file']) = lower (dirs ++ [file]))
    (hu : u = src.locator.unitAt (dirs ++ [file])) (hv : v = src.locator.unitAt (dirs' ++ [file']))
    (hkey : u.key = v.key) (hone : src.OneSpelling u) (args : List Script.Value) :
    src.warm u v args = src.cold v args := by
  refine warm_eq_cold fun a ha => ?_
  by_cases hglobal : src.locator.isGlobal v = true
  · exact leaf_of_spelling? hkey ha (.inl hglobal)
  · have hunit : ¬ src.locator.isGlobal u = true := by rwa [Locator.isGlobal_congr hkey]
    rw [leaf, if_neg hunit, hu] at ha
    rw [leaf, if_neg hglobal, hv]
    exact ordinary_of_oneSpelling hl hdistinct h h' hsame (hu ▸ hone) ha

end Spelled

namespace Site

variable {settings : SiteSettings} {compiler : CompilerSettings} {d : Disk} {serial : Nat}
  {metrics : Metrics} {site : Site} {p q : String}

/-- The answer of a site that has just been started. -/
theorem create_eq_cold (hlive : settings.prebuilt = none)
    (hstart : Site.start settings compiler d serial metrics = .ok site)
    (hq : site.locator.resolve q = .ok v) (args : List Script.Value) :
    (site.create d q none args).1 = (site.sources compiler d).cold v args := by
  have hcreate : (site.create d q none args).1 = (site.sources compiler d).met _ q args :=
    create_serve hlive hstart [] q args
  have hres : (site.sources compiler d).locator.resolve q = .ok v := hq
  rw [hcreate, Sources.met_of_resolve hres, Sources.recalled]
  rfl

/-- **After a request with the same key a site answers out of what was built then**, if anything was. -/
theorem create_eq_warm (hlive : settings.prebuilt = none)
    (hstart : Site.start settings compiler d serial metrics = .ok site)
    (hp : site.locator.resolve p = .ok u) (hq : site.locator.resolve q = .ok v) (hkey : u.key = v.key)
    (args₀ args : List Script.Value) : ((site.create d p none args₀).2.create d q none args).1 =
      (site.sources compiler d).warm u v args := by
  have hcreate : ((site.create d p none args₀).2.create d q none args).1 =
      (site.sources compiler d).met ((site.sources compiler d).firstBuilt
        ((site.sources compiler d).askedFor [p])) q args :=
    create_serve hlive hstart [(p, args₀)] q args
  have hfirst := Sources.firstBuilt_askedFor (show (site.sources compiler d).locator.resolve p = _ from hp)
  have hres : (site.sources compiler d).locator.resolve q = .ok v := hq
  rw [hkey] at hfirst
  rw [hcreate, Sources.met_of_resolve hres, Sources.recalled, hfirst]
  cases hu : (site.sources compiler d).leaf u with
  | ok a =>
    rw [Sources.warm_of_ok hu]
    exact (rfl : (Except.ok a : Except Failure Artifact) >>= _ = _)
  | error e =>
    rw [Sources.warm_of_error hu, Sources.cold]
    rfl

/-- A directory with a script and a markup file of one name in different letter case. -/
def scriptBesideMarkup (script markup : String) : Disk :=
  ⟨[], ((NameMap.empty.insert "/site" .directory).insert "/site/A.ks" (.file script.toUTF8)).insert
    "/site/a.ks.html" (.file markup.toUTF8)⟩

theorem distinct_scriptBesideMarkup (script markup : String) :
    (scriptBesideMarkup script markup).Distinct ["site"] := by
  refine .of_entries ?_
  have hkeys : (scriptBesideMarkup script markup).nodes.keys =
      ["/site", "/site/A.ks", "/site/a.ks.html"] := rfl
  rw [hkeys]
  decide

/-- The script alone is there in one letter case, the markup alone in the other. -/
theorem readUnit_scriptBesideMarkup (script markup : String) {src : Sources}
    (hdisk : src.disk = scriptBesideMarkup script markup)
    (hlocator : src.locator = ⟨"/site", ⟨"Site", "ks", "html"⟩⟩) :
    src.readUnit ⟨"/site/A.ks", "Site.A"⟩ = .ok (some ⟨some script, none⟩) ∧
      src.readUnit ⟨"/site/a.ks", "Site.a"⟩ = .ok (some ⟨none, some markup⟩) := by
  have hreadA : (scriptBesideMarkup script markup).read "/site/A.ks" = .ok script.toUTF8 := rfl
  have hreada : (scriptBesideMarkup script markup).read "/site/a.ks.html" = .ok markup.toUTF8 := rfl
  have hpathA : src.locator.markupPath ⟨"/site/A.ks", "Site.A"⟩ = "/site/A.ks.html" := by
    rw [hlocator]
    decide +kernel
  have hpatha : src.locator.markupPath ⟨"/site/a.ks", "Site.a"⟩ = "/site/a.ks.html" := by
    rw [hlocator]
    decide +kernel
  rw [readUnit_eq_ok_iff, readUnit_eq_ok_iff, hdisk, hpathA, hpatha]
  exact ⟨⟨some script, none, readText?_of_read hreadA, rfl, rfl⟩,
    ⟨none, some markup, rfl, readText?_of_read hreada, rfl⟩⟩

/-- **An earlier request with the same key.** The answer is that to the earlier path if its unit could be
built, and that of a fresh site otherwise. Where names are distinct and the paths differ in the case of ASCII
letters only, the outcome is the same as on a fresh site if and only if the unit could not be built, is the
global one, both paths find the same files, or both fail alike; which is so if its script and its markup go
together. -/
theorem create_after_respelled (hlive : settings.prebuilt = none)
    (hstart : Site.start settings compiler d serial metrics = .ok site)
    (hp : site.locator.resolve p = .ok u) (hq : site.locator.resolve q = .ok v) (hkey : u.key = v.key)
    (args₀ args : List Script.Value) :
    ((site.create d p none args₀).2.create d q none args).1 =
      (if ((site.sources compiler d).leaf u).isOk then (site.create d p none args).1
        else (site.create d q none args).1) ∧
    ∀ root, site.locator.At root → d.Distinct root → Text.asciiLower u.path = Text.asciiLower v.path →
      (SameOutcome ((site.create d p none args₀).2.create d q none args).1 (site.create d q none args).1 ↔
        ((∃ a, (site.sources compiler d).leaf u = .ok a) → site.locator.isGlobal v = true ∨
            (site.sources compiler d).spelling? u = (site.sources compiler d).spelling? v) ∨
          ∃ kind, label ((site.create d p none args₀).2.create d q none args).1 = .error kind ∧
            label (site.create d q none args).1 = .error kind) ∧
      ((site.sources compiler d).OneSpelling u →
        ((site.create d p none args₀).2.create d q none args).1 = (site.create d q none args).1) := by
  rw [create_eq_warm hlive hstart hp hq hkey, create_eq_cold hlive hstart hp,
    create_eq_cold hlive hstart hq]
  constructor
  · cases hu : (site.sources compiler d).leaf u with
    | ok a =>
      rw [Sources.warm_of_ok hu, Sources.cold_of_ok hu]
      exact (if_pos rfl).symm
    | error e =>
      rw [Sources.warm_of_error hu]
      exact (if_neg nofun).symm
  · intro root hl hdistinct hcase
    obtain ⟨dirs, file, h, hu⟩ := Locator.exists_names_of_resolve hl hp
    obtain ⟨dirs', file', h', hv⟩ := Locator.exists_names_of_resolve hl hq
    have hlower := Locator.lower_of_path hl h h' (hu ▸ hv ▸ hcase.symm)
    exact ⟨Sources.sameOutcome_warm_iff hl hdistinct h h' hlower hu hv hkey args,
      fun hone => Sources.warm_of_oneSpelling hl hdistinct h h' hlower hu hv hkey hone args⟩

/-- A script and a markup file of one name in different letter case: what is asked for first decides which of
them both requests are answered with. -/
theorem create_after_respelled_beside : ∃ d site, d = scriptBesideMarkup
      "namespace Site \x7b class A : Kiln.Handler \x7b \x7d \x7d" "<b>markup</b>" ∧
    Site.start { name := "main", root := "/site" } {} d 1 [] = .ok site ∧
    ¬ SameOutcome ((site.create d "A" none []).2.create d "a" none []).1
      (site.create d "a" none []).1 := by
  generalize hscript : "namespace Site \x7b class A : Kiln.Handler \x7b \x7d \x7d" = script
  generalize "<b>markup</b>" = markup
  obtain ⟨d, hd⟩ : ∃ d, d = scriptBesideMarkup script markup := ⟨_, rfl⟩
  obtain ⟨site, hstart, hlocator⟩ : ∃ site, Site.start { name := "main", root := "/site" } {} d 1 [] =
      .ok site ∧ site.locator = ⟨"/site", ⟨"Site", "ks", "html"⟩⟩ := by
    subst hd
    exact ⟨_, rfl, rfl⟩
  obtain ⟨src, hsrc⟩ : ∃ src, src = site.sources {} d := ⟨_, rfl⟩
  have hl : site.locator.At ["site"] := by
    rw [hlocator]
    refine ⟨by decide, by decide, ⟨?_, ?_, ?_, ?_, ?_⟩, ⟨?_, ?_, ?_, ?_, ?_⟩, ?_⟩ <;> decide
  have hp : site.locator.resolve "A" = .ok ⟨"/site/A.ks", "Site.A"⟩ := by rw [hlocator]; decide +kernel
  have hq : site.locator.resolve "a" = .ok ⟨"/site/a.ks", "Site.a"⟩ := by rw [hlocator]; decide +kernel
  have hordinary : ¬ site.locator.isGlobal ⟨"/site/A.ks", "Site.A"⟩ = true ∧
      ¬ site.locator.isGlobal ⟨"/site/a.ks", "Site.a"⟩ = true := by
    rw [hlocator]
    decide +kernel
  have hnone : d.exists? site.locator.globalUnit.path = false := by
    have hpath : site.locator.globalUnit.path = "/site/global.ks" := by
      rw [hlocator]
      decide +kernel
    rw [hpath, hd]
    rfl
  obtain ⟨hreadA, hreada⟩ := readUnit_scriptBesideMarkup script markup
    ((congrArg Sources.disk hsrc).trans hd) ((congrArg Sources.locator hsrc).trans hlocator)
  have hparse : parse "/site/A.ks" script = .ok ⟨"/site/A.ks", [],
      [⟨"Site.A", "Site", some "Kiln.Handler", none, [], ⟨1, 24⟩⟩]⟩ := by
    subst hscript
    decide +kernel
  obtain ⟨m, hlink, hobject⟩ : ∃ m, link [⟨"/site/A.ks", [],
      [⟨"Site.A", "Site", some "Kiln.Handler", none, [], ⟨1, 24⟩⟩]⟩] [libraryModule] = .ok m ∧
      (Artifact.requested (.mk 0 ⟨"/site/A.ks", "Site.A"⟩ .leaf .script (some m) [] []) []).isOk = true :=
    ⟨_, link_eq_ok_iff.2 ⟨by decide +kernel, by decide +kernel, by decide +kernel, by decide +kernel, rfl⟩,
      by decide +kernel⟩
  have hleaf : src.leaf ⟨"/site/A.ks", "Site.A"⟩ =
      .ok (.mk 0 ⟨"/site/A.ks", "Site.A"⟩ .leaf .script (some m) [] []) :=
    leaf_of_script (by rw [hsrc]; rfl) (by rw [hsrc]; exact hnone) (by rw [hsrc]; exact hordinary.1)
      hreadA hparse hlink
  refine ⟨d, site, hd, hstart, fun hsame => ?_⟩
  obtain ⟨hanswer, hiff⟩ := create_after_respelled rfl hstart hp hq (by decide +kernel) [] []
  have hdistinct : d.Distinct ["site"] := hd ▸ distinct_scriptBesideMarkup script markup
  rw [← hsrc] at hanswer hiff
  rcases (hiff ["site"] hl hdistinct (by decide)).1.1 hsame with hfiles | ⟨kind, hfails, -⟩
  · rcases hfiles ⟨_, hleaf⟩ with hglobal | hspelled
    · exact hordinary.2 hglobal
    · rw [Sources.spelling?_of_own hreadA, Sources.spelling?_of_own hreada] at hspelled
      exact absurd hspelled (by decide)
  · have hcold := create_eq_cold rfl hstart hp []
    rw [hleaf, if_pos (by rfl), hcold, ← hsrc, Sources.cold_of_ok hleaf] at hanswer
    rw [hanswer] at hfails
    revert hfails hobject
    cases Artifact.requested (.mk 0 ⟨"/site/A.ks", "Site.A"⟩ .leaf .script (some m) [] []) [] with
    | error e => exact nofun
    | ok k => exact fun _ => nofun

end Site

end SiteHost
