import SiteHost.Proofs.Script.Foundation
import SiteHost.Proofs.Script.Stored
import SiteHost.Proofs.Site.Assembled
import SiteHost.Proofs.Site.Transparency

/-!
# Sites that are served from a bundle

A bundle stores the modules of a whole site, and is loaded by linking all of them as one batch. On a live
site each was linked against those of the layers below it only.

* `SiteBuild.Storable` — whether every place in the sources of a build can be stored;
* `SiteBuild.Named`, `SiteBuild.Kept` — whether an artifact has every class of a build, with the names in
  it standing for the same; and whether objects of it do the same as well.

Principal results:

* `load_eq_ok_iff` — a bundle is loaded by linking the modules it was made of as one batch;
* `load_iff` — **a bundle is loaded if and only if** it can be stored, no two classes have one name, and in
  the batch every base ends and every call exists. That much follows if no name is captured;
* `kept_iff` — **a loaded bundle means what the live site means if and only if** no name is captured.
-/

namespace SiteHost

open Script

/-! ## Sites of scripts alone -/

section Scripts

variable {src : Sources} {unit : Identity} {text : String} {u : SourceUnit} {m : Module}

/-- What compiles amounts to its module. -/
theorem artifact_of_compile {kind : UnitKind} {texts : List SourceText} {references : List Artifact}
    (h : compile texts references = .ok m) :
    Sources.artifact unit kind texts references = .ok (.mk 0 unit .leaf kind (some m) [] []) := by
  rw [Sources.artifact, h]

/-- The base library without shared references is that of the program. -/
theorem foundation_of_no_shared (h : src.sharedReferences = []) :
    src.foundation = .ok (.mk 0 foundationUnit .leaf .script (some libraryModule) [] []) := by
  have hshared : src.shared = .ok [] := by
    rw [Sources.shared, h]
    rfl
  have hbind : ∀ f : List SourceText → Except Failure Artifact, (Except.ok [] >>= f) = f [] :=
    fun _ => rfl
  rw [Sources.foundation, hshared, hbind]
  exact artifact_of_compile compile_library

/-- A script without markup, on a site without a global unit, is linked against the base library. -/
theorem leaf_of_script (hshared : src.sharedReferences = [])
    (hglobal : src.disk.exists? src.locator.globalUnit.path = false)
    (hunit : ¬ src.locator.isGlobal unit = true)
    (hread : src.readUnit unit = .ok (some ⟨some text, none⟩))
    (hparse : parse unit.path text = .ok u) (hlink : link [u] [libraryModule] = .ok m) :
    src.leaf unit = .ok (.mk 0 unit .leaf .script (some m) [] []) := by
  have hfound : src.findUnit unit = .ok (unit, ⟨some text, none⟩) := by
    rw [Sources.findUnit, hread]
    rfl
  have hnone : src.globalUnit = .ok none := by
    rw [Sources.globalUnit, hglobal]
    rfl
  have hcompile : compile [⟨unit.path, text⟩]
      [.mk 0 foundationUnit .leaf .script (some libraryModule) [] []] = .ok m :=
    (compile_eq_link (unitsOf_cons hparse rfl) rfl).trans hlink
  rw [Sources.leaf, if_neg hunit, Sources.ordinary, foundation_of_no_shared hshared, hnone]
  change src.unit unit _ = _
  rw [Sources.unit, hfound]
  exact artifact_of_compile hcompile

/-- A script of a site, with what it is parsed and linked to. -/
structure PlainScript where
  unit : Identity
  text : String
  parsed : SourceUnit
  module : Module

/-- What a script amounts to. -/
def PlainScript.artifact (p : PlainScript) : Artifact :=
  .mk 0 p.unit .leaf .script (some p.module) [] []

/-- Whether a site has a script without markup, which is linked against the base library. -/
structure Sources.Has (src : Sources) (p : PlainScript) : Prop where
  asked : src.locator.Asked p.unit
  leaf : ¬ src.locator.isGlobal p.unit = true
  script : src.disk.readText? p.unit.path = .ok (some p.text)
  markup : src.disk.readText? (src.locator.markupPath p.unit) = .ok none
  parsed : parse p.unit.path p.text = .ok p.parsed
  linked : link [p.parsed] [libraryModule] = .ok p.module

/-- Such a script amounts to its module. -/
theorem Sources.Has.leaf_eq {p : PlainScript} (h : src.Has p) (hshared : src.sharedReferences = [])
    (hglobal : src.disk.exists? src.locator.globalUnit.path = false) :
    src.leaf p.unit = .ok p.artifact :=
  leaf_of_script hshared hglobal h.leaf (readUnit_eq_ok_iff.2 ⟨some p.text, none, h.script, h.markup, rfl⟩)
    h.parsed h.linked

/-- **A site of scripts alone is built of the base library and its scripts.** -/
theorem buildAll_of_scripts {root : Place} {s : LiveSite}
    (hs : Warm src [] s) (hl : src.locator.At root) (htidy : src.disk.Tidy root.path)
    (hshared : src.sharedReferences = [])
    (hglobal : src.disk.exists? src.locator.globalUnit.path = false) (scripts : List PlainScript)
    (hunits : LiveSite.discover src.disk src.locator = .ok (scripts.map PlainScript.unit))
    (hscripts : ∀ p ∈ scripts, src.Has p) :
    ∃ build s', s.run src.disk LiveSite.buildAll = (.ok build, s') ∧ build.failures = [] ∧
      build.modules = libraryModule :: scripts.map PlainScript.module := by
  have hnone : src.globalUnit = .ok none := by
    rw [Sources.globalUnit, hglobal]
    rfl
  obtain ⟨build, s', hrun, hfailures, hplain⟩ := hs.buildAll hl (consistent_of_tidy hl htidy)
    (scripts.map fun p => (p.unit, p.artifact)) (foundation_of_no_shared hshared) hnone
    (by rw [hunits, List.map_map]; rfl) fun q hq => by
      obtain ⟨p, hp, rfl⟩ := List.mem_map.1 hq
      exact ⟨(hscripts p hp).asked, (hscripts p hp).leaf_eq hshared hglobal⟩
  refine ⟨build, s', hrun, hfailures, ?_⟩
  have hmodules : build.modules = (build.artifacts.map Artifact.plain).filterMap Artifact.module? := by
    rw [SiteBuild.modules, List.filterMap_map]
    exact congrArg (List.filterMap · _) (funext fun a => a.module?_plain.symm)
  rw [hmodules, hplain]
  simp only [Option.toList_none, List.nil_append, List.map_map, List.filterMap_cons,
    List.filterMap_map, Artifact.module?]
  rw [← List.filterMap_eq_map]
  rfl

/-- A directory with two scripts. -/
def twoScripts (a b : String) : Disk :=
  ⟨[], ((NameMap.empty.insert "/site" .directory).insert "/site/a.ks" (.file a.toUTF8)).insert
    "/site/b.ks" (.file b.toUTF8)⟩

/-- The site of that directory. -/
def siteOfTwo : LiveSite := Site.liveSite ⟨"/site", ⟨"Site", "ks", "html"⟩⟩ {} 0 []

theorem arises_siteOfTwo : siteOfTwo.Arises siteOfTwo.locator := .start _ _

theorem discover_twoScripts (a b : String) : LiveSite.discover (twoScripts a b) siteOfTwo.locator =
    .ok [⟨"/site/a.ks", "Site.a"⟩, ⟨"/site/b.ks", "Site.b"⟩] := by
  have hroot : (twoScripts a b).resolve siteOfTwo.locator.root = .ok (["site"], .directory) := rfl
  have hfiles : (twoScripts a b).filesBelow ["site"] = ["/site/a.ks", "/site/b.ks"] := rfl
  have hunits : LiveSite.distinct
      ((["/site/a.ks", "/site/b.ks"].filterMap siteOfTwo.locator.unitOfFile?).filter
        fun unit => !siteOfTwo.locator.isGlobal unit) =
      [⟨"/site/a.ks", "Site.a"⟩, ⟨"/site/b.ks", "Site.b"⟩] := by
    decide +kernel
  rw [LiveSite.discover, hroot]
  simp only [bind, Except.bind, pure, Except.pure]
  rw [hfiles, hunits, if_neg (by simp [Node.isDirectory]), List.mergeSort_of_pairwise]
  decide +kernel

theorem read_twoScripts (a b : String) : (twoScripts a b).read "/site/a.ks" = .ok a.toUTF8 ∧
    (twoScripts a b).readText? "/site/a.ks.html" = .ok none ∧
    (twoScripts a b).read "/site/b.ks" = .ok b.toUTF8 ∧
    (twoScripts a b).readText? "/site/b.ks.html" = .ok none :=
  ⟨rfl, rfl, rfl, rfl⟩

theorem fromUTF8?_toUTF8 (text : String) : String.fromUTF8? text.toUTF8 = some text := by
  simp only [String.fromUTF8?, dite_eq_iff]
  exact .inl ⟨text.isValidUTF8, rfl⟩

/-- What was written as text is read as text. -/
theorem readText_of_read {d : Disk} {path text : String} (h : d.read path = .ok text.toUTF8) :
    d.readText path = .ok text := by
  rw [Disk.readText, h]
  simp only [bind, Except.bind]
  rw [fromUTF8?_toUTF8]
  rfl

theorem readText?_of_read {d : Disk} {path text : String} (h : d.read path = .ok text.toUTF8) :
    d.readText? path = .ok (some text) := by
  rw [Disk.readText?, readText_of_read h]

/-- Those scripts are all that the site has. -/
theorem has_twoScripts {a b : String} {ua ub : SourceUnit} {ma mb : Module}
    (ha : parse "/site/a.ks" a = .ok ua) (hb : parse "/site/b.ks" b = .ok ub)
    (hma : link [ua] [libraryModule] = .ok ma) (hmb : link [ub] [libraryModule] = .ok mb) :
    (twoScripts a b).exists? siteOfTwo.locator.globalUnit.path = false ∧
      ∀ p ∈ [PlainScript.mk ⟨"/site/a.ks", "Site.a"⟩ a ua ma, ⟨⟨"/site/b.ks", "Site.b"⟩, b, ub, mb⟩],
        (Sources.mk (twoScripts a b) siteOfTwo.locator []).Has p := by
  have hpath : siteOfTwo.locator.globalUnit.path = "/site/global.ks" := by decide +kernel
  have hasked : siteOfTwo.locator.Asked ⟨"/site/a.ks", "Site.a"⟩ ∧
      siteOfTwo.locator.Asked ⟨"/site/b.ks", "Site.b"⟩ :=
    ⟨⟨[], "a.ks", ⟨by decide, by decide, by decide⟩, by decide +kernel⟩,
      ⟨[], "b.ks", ⟨by decide, by decide, by decide⟩, by decide +kernel⟩⟩
  have hleaf : ¬ siteOfTwo.locator.isGlobal ⟨"/site/a.ks", "Site.a"⟩ = true ∧
      ¬ siteOfTwo.locator.isGlobal ⟨"/site/b.ks", "Site.b"⟩ = true := by decide +kernel
  have hmarkup : siteOfTwo.locator.markupPath ⟨"/site/a.ks", "Site.a"⟩ = "/site/a.ks.html" ∧
      siteOfTwo.locator.markupPath ⟨"/site/b.ks", "Site.b"⟩ = "/site/b.ks.html" := by decide +kernel
  obtain ⟨hreadA, hmarkupA, hreadB, hmarkupB⟩ := read_twoScripts a b
  rw [← hmarkup.1] at hmarkupA
  rw [← hmarkup.2] at hmarkupB
  rw [hpath, List.forall_mem_cons, List.forall_mem_singleton]
  exact ⟨rfl, ⟨hasked.1, hleaf.1, readText?_of_read hreadA, hmarkupA, ha, hma⟩,
    ⟨hasked.2, hleaf.2, readText?_of_read hreadB, hmarkupB, hb, hmb⟩⟩

/-- **Two scripts are built one by one**, each against the base library alone. -/
theorem buildAll_twoScripts {a b : String} {ua ub : SourceUnit} {ma mb : Module}
    (ha : parse "/site/a.ks" a = .ok ua) (hb : parse "/site/b.ks" b = .ok ub)
    (hma : link [ua] [libraryModule] = .ok ma) (hmb : link [ub] [libraryModule] = .ok mb) :
    ∃ build s', siteOfTwo.run (twoScripts a b) LiveSite.buildAll = (.ok build, s') ∧
      build.failures = [] ∧ build.modules = [libraryModule, ma, mb] := by
  have hl : siteOfTwo.locator.At ["site"] := by
    refine ⟨by decide, by decide, ⟨?_, ?_, ?_, ?_, ?_⟩, ⟨?_, ?_, ?_, ?_, ?_⟩, ?_⟩ <;> decide
  have htidy : (twoScripts a b).Tidy (Place.path ["site"]) := by
    refine .of_entries (by decide) ?_
    have hnodes : (twoScripts a b).nodes.toList = [("/site", .directory),
      ("/site/a.ks", .file a.toUTF8), ("/site/b.ks", .file b.toUTF8)] := rfl
    rw [hnodes, show Place.path ["site"] = "/site" from by decide, List.forall_mem_cons,
      List.forall_mem_cons, List.forall_mem_singleton]
    dsimp only
    exact ⟨rfl, rfl, rfl⟩
  have hs : Warm ⟨twoScripts a b, siteOfTwo.locator, []⟩ [] siteOfTwo := Site.warm_liveSite _ {} _ _ _
  obtain ⟨hglobal, hscripts⟩ := has_twoScripts ha hb hma hmb
  refine buildAll_of_scripts hs hl htidy rfl hglobal _ ?_ hscripts
  exact discover_twoScripts a b

end Scripts

/-- Whether every place in the sources of a build can be stored. -/
def SiteBuild.Storable (b : SiteBuild) : Prop := ∀ m ∈ b.modules, ∀ u ∈ m.units, u.fits = true

instance (b : SiteBuild) : Decidable b.Storable :=
  inferInstanceAs (Decidable (∀ m ∈ b.modules, ∀ u ∈ m.units, u.fits = true))

/-- Whether an artifact has every class of a build, with the same base and the same named types. -/
def SiteBuild.Named (b : SiteBuild) (loaded : Artifact) : Prop :=
  ∀ a ∈ b.artifacts, ∀ name c, a.classes.get? name = some c →
    ∃ c', loaded.classes.get? name = some c' ∧ c'.base = c.base ∧ c'.typeRefs = c.typeRefs

/-- Whether an artifact has every class of a build as it was, and objects of it are made alike and answer
alike whatever they are asked. -/
def SiteBuild.Kept (b : SiteBuild) (loaded : Artifact) : Prop :=
  ∀ a ∈ b.artifacts, ∀ name c, a.classes.get? name = some c → loaded.classes.get? name = some c ∧
    ∀ args calls, (loaded.instantiate name args).map (·.answers calls) =
      (a.instantiate name args).map (·.answers calls)

section Bundles

variable {s s' : LiveSite} {d : Disk} {l : Locator} {build : SiteBuild} {site path : String}
  {createdAt : Timestamp} {bundle : Bundle} {serial : Nat} {loaded : Artifact}

/-- A set has just the names it was made of. -/
theorem Bundle.get?_setOf (names : List String) (name : String) :
    (Bundle.setOf names).get? name = if name ∈ names then some () else none := by
  have hlookup : ∀ names : List String, (names.map fun n => (n, ())).lookup name =
      if name ∈ names then some () else none := by
    intro names
    induction names with
    | nil => rfl
    | cons n rest ih =>
      by_cases h : name = n
      · simp [h]
      · simp [NameMap.lookup_cons_of_ne h, h, ih]
  rw [setOf, NameMap.get?_ofList, ← List.map_reverse, hlookup]
  simp

theorem Bundle.mem_keys_setOf {names : List String} {name : String} :
    name ∈ (Bundle.setOf names).keys ↔ name ∈ names := by
  rw [NameMap.mem_keys, Bundle.get?_setOf]
  simp

/-- A bundle holds the modules of the build it was made of. -/
theorem parts_of_ofBuild (h : Bundle.ofBuild site createdAt build = .ok bundle) :
    bundle.compiler = compilerName ∧ bundle.site = site ∧ bundle.parts = build.modules.map exportUnits := by
  unfold Bundle.ofBuild at h
  split at h
  · cases h
  · cases h
    refine ⟨rfl, rfl, ?_⟩
    rw [SiteBuild.modules, List.map_filterMap]
    rfl

/-- Every build in which no unit failed has a bundle. -/
theorem exists_ofBuild (site : String) (createdAt : Timestamp) (h : build.failures = []) :
    ∃ bundle, Bundle.ofBuild site createdAt build = .ok bundle := by
  simp [Bundle.ofBuild, h]

/-- **A bundle is loaded by linking the modules it was made of as one batch.** -/
theorem load_eq_ok_iff (h : Bundle.ofBuild site createdAt build = .ok bundle) :
    bundle.load path serial = .ok loaded ↔ build.Storable ∧ ∃ k,
      link (pooled build.modules) [] = .ok k ∧
        loaded = .mk serial ⟨path, s!"{site} (prebuilt)"⟩ .leaf .script (some k) [] [] := by
  obtain ⟨hcompiler, rfl, hparts⟩ := parts_of_ofBuild h
  unfold Bundle.load
  dsimp only
  rw [if_neg (by simp [hcompiler]), hparts]
  have hiff (m : Module) : loadPrebuilt (build.modules.map exportUnits) = .ok m ↔ _ := loadPrebuilt_eq_ok_iff
  cases hload : loadPrebuilt (build.modules.map exportUnits) with
  | error diagnostics =>
    simp only [hload, reduceCtorEq, false_iff, not_and] at hiff ⊢
    rintro hfits ⟨k, hlink, -⟩
    exact hiff k hfits hlink
  | ok m =>
    obtain ⟨hfits, hlink⟩ := (hiff m).1 hload
    constructor
    · intro heq
      exact ⟨hfits, m, hlink, (Except.ok.inj heq).symm⟩
    · rintro ⟨-, k, hk, rfl⟩
      rw [pooled, hlink] at hk
      cases hk
      rfl

/-- **A bundle of a whole site is loaded if and only if** its modules can be stored, no two of their classes
have one name, and in the batch of all units bases end and calls exist. The last follows from the second if
no name is captured. -/
theorem load_iff (h : s.Arises l) (hrun : s.run d LiveSite.buildAll = (.ok build, s'))
    (hbundle : Bundle.ofBuild site createdAt build = .ok bundle) (path : String) (serial : Nat) :
    ((∃ loaded, bundle.load path serial = .ok loaded) ↔
      build.Storable ∧ Apart (pooled build.modules) ∧ Upright (pooled build.modules)) ∧
    (Uncaptured build.modules → Apart (pooled build.modules) → Upright (pooled build.modules)) := by
  have hself := (h.whole hrun).selfContained
  refine ⟨?_, fun hu hapart => hself.upright_of_uncaptured hu hapart⟩
  constructor
  · rintro ⟨loaded, hload⟩
    obtain ⟨hfits, k, hlink, -⟩ := (load_eq_ok_iff hbundle).1 hload
    obtain ⟨hapart, hupright, -⟩ := hself.link_pooled_iff.1 hlink
    exact ⟨hfits, hapart, hupright⟩
  · rintro ⟨hfits, hapart, hupright⟩
    exact ⟨_, (load_eq_ok_iff hbundle).2 ⟨hfits, _, hself.link_pooled_iff.2 ⟨hapart, hupright, rfl⟩, rfl⟩⟩

/-- Two scripts declare a class of one name each. Both are built, and their bundle is not loaded. -/
theorem load_iff_twins : ∃ build s' bundle, siteOfTwo.Arises siteOfTwo.locator ∧
    siteOfTwo.run (twoScripts "class Helper \x7b \x7d" "class Helper \x7b \x7d") LiveSite.buildAll =
      (.ok build, s') ∧
    Bundle.ofBuild "demo" default build = .ok bundle ∧
    ∀ path serial, ¬ ∃ loaded, bundle.load path serial = .ok loaded := by
  have hparseA : parse "/site/a.ks" "class Helper \x7b \x7d" =
      .ok ⟨"/site/a.ks", [], [⟨"Helper", "", none, none, [], ⟨1, 7⟩⟩]⟩ := by decide +kernel
  have hparseB : parse "/site/b.ks" "class Helper \x7b \x7d" =
      .ok ⟨"/site/b.ks", [], [⟨"Helper", "", none, none, [], ⟨1, 7⟩⟩]⟩ := by decide +kernel
  obtain ⟨build, s', hrun, hfailures, hmodules⟩ := buildAll_twoScripts hparseA hparseB
    (link_eq_ok_iff.2 ⟨by decide +kernel, by decide +kernel, by decide +kernel, by decide +kernel, rfl⟩)
    (link_eq_ok_iff.2 ⟨by decide +kernel, by decide +kernel, by decide +kernel, by decide +kernel, rfl⟩)
  obtain ⟨bundle, hbundle⟩ := exists_ofBuild "demo" default hfailures
  refine ⟨build, s', bundle, arises_siteOfTwo, hrun, hbundle, fun path serial hload => ?_⟩
  obtain ⟨-, hapart, -⟩ := (load_iff arises_siteOfTwo hrun hbundle path serial).1.1 hload
  rw [hmodules] at hapart
  revert hapart
  decide +kernel

/-- The module of an artifact of a whole build. -/
theorem SiteBuild.Whole.module_of_mem (h : build.Whole) {a : Artifact} (ha : a ∈ build.artifacts) :
    ∃ m ∈ build.modules, a.module? = some m ∧ a.classes = m.classes := by
  obtain ⟨m, hm, -⟩ := h.compiled a ha
  exact ⟨m, List.mem_filterMap.2 ⟨a, ha, hm⟩, hm, by rw [Artifact.classes, hm]⟩

/-- Objects are made of the class that a name stands for. -/
theorem instantiate_eq {a : Artifact} {m : Module} {c : ClassDef} {name : String}
    (hm : a.module? = some m) (hc : a.classes.get? name = some c) (args : List Value) :
    a.instantiate name args = match construct m c args with
      | .ok object => .ok ⟨m, object⟩
      | .error e => .error (.instantiation name e.message) := by
  cases hobject : construct m c args <;> simp only [Artifact.instantiate, hm, hc, hobject]

/-- Objects of a class that is carried are made alike and answer alike. -/
theorem answers_of_carries {a : Artifact} {m k : Module} {c : ClassDef} {name : String}
    (hcarries : Carries m k) (hfinds : m.Finds c) (hm : a.module? = some m)
    (hc : a.classes.get? name = some c) (hk : loaded.module? = some k)
    (hc' : loaded.classes.get? name = some c) (args : List Value)
    (calls : List (Option String × Request)) :
    (loaded.instantiate name args).map (·.answers calls) =
      (a.instantiate name args).map (·.answers calls) := by
  obtain ⟨hsame, hcls⟩ := construct_carried hcarries hfinds args
  rw [instantiate_eq hm hc, instantiate_eq hk hc', hsame]
  cases hobject : construct m c args with
  | error e => rfl
  | ok object =>
    have hobject : object.cls = c := hcls object hobject
    exact congrArg Except.ok (answers_carried hcarries (hobject ▸ hfinds) calls)

/-- **A loaded bundle has every class of the live site, with the names in it standing for the same, if and
only if** no name is captured. If none is, every class is what it was, and its objects do what they did. -/
theorem kept_iff (h : s.Arises l) (hrun : s.run d LiveSite.buildAll = (.ok build, s'))
    (hbundle : Bundle.ofBuild site createdAt build = .ok bundle)
    (hload : bundle.load path serial = .ok loaded) :
    (build.Named loaded ↔ Uncaptured build.modules) ∧
      (Uncaptured build.modules → build.Kept loaded) := by
  have hwhole := h.whole hrun
  have hself := hwhole.selfContained
  obtain ⟨-, k, hlink, rfl⟩ := (load_eq_ok_iff hbundle).1 hload
  refine ⟨(Iff.trans ?_ (hself.uncaptured_iff hlink)), fun hu a ha name c hc => ?_⟩
  · constructor
    · intro hnamed m hm name c hc
      obtain ⟨a, ha, hmodule⟩ := List.mem_filterMap.1 hm
      exact hnamed a ha name c (by rwa [Artifact.classes, hmodule])
    · intro hsame a ha name c hc
      obtain ⟨m, hm, -, hclasses⟩ := hwhole.module_of_mem ha
      exact hsame m hm name c (hclasses ▸ hc)
  · obtain ⟨m, hm, hmodule, hclasses⟩ := hwhole.module_of_mem ha
    have hget : m.classes.get? name = some c := hclasses ▸ hc
    have hkept := hself.get?_pooled hu hlink hm hget
    have hfinds : m.Finds c := ⟨name, by rw [findClass?_eq, hget, Option.some_or]⟩
    exact ⟨hkept, answers_of_carries (hself.carries_pooled hu hlink hm) hfinds hmodule hc rfl hkept⟩

/-- A class outside of any namespace, and one of the same short name inside: in the bundle the second
captures a name that stands for the first. -/
theorem kept_iff_captured : ∃ build s' bundle loaded, siteOfTwo.Arises siteOfTwo.locator ∧
    siteOfTwo.run (twoScripts "class Util \x7b \x7d namespace Site \x7b class A : Util \x7b \x7d \x7d"
      "namespace Site \x7b class Util \x7b \x7d \x7d") LiveSite.buildAll = (.ok build, s') ∧
    Bundle.ofBuild "demo" default build = .ok bundle ∧ bundle.load "/site.json" 0 = .ok loaded ∧
    ¬ build.Named loaded := by
  have hparseA : parse "/site/a.ks"
      "class Util \x7b \x7d namespace Site \x7b class A : Util \x7b \x7d \x7d" =
        .ok ⟨"/site/a.ks", [], [⟨"Util", "", none, none, [], ⟨1, 7⟩⟩,
          ⟨"Site.A", "Site", some "Util", none, [], ⟨1, 39⟩⟩]⟩ := by decide +kernel
  have hparseB : parse "/site/b.ks" "namespace Site \x7b class Util \x7b \x7d \x7d" =
      .ok ⟨"/site/b.ks", [], [⟨"Site.Util", "Site", none, none, [], ⟨1, 24⟩⟩]⟩ := by decide +kernel
  obtain ⟨build, s', hrun, hfailures, hmodules⟩ := buildAll_twoScripts hparseA hparseB
    (link_eq_ok_iff.2 ⟨by decide +kernel, by decide +kernel, by decide +kernel, by decide +kernel, rfl⟩)
    (link_eq_ok_iff.2 ⟨by decide +kernel, by decide +kernel, by decide +kernel, by decide +kernel, rfl⟩)
  obtain ⟨bundle, hbundle⟩ := exists_ofBuild "demo" default hfailures
  have hstorable : build.Storable := by
    rw [SiteBuild.Storable, hmodules]
    decide +kernel
  have hlink : ∃ k, link (pooled build.modules) [] = .ok k := by
    rw [hmodules]
    exact ⟨_, link_eq_ok_iff.2
      ⟨by decide +kernel, by decide +kernel, by decide +kernel, by decide +kernel, rfl⟩⟩
  obtain ⟨k, hlink⟩ := hlink
  have hload : bundle.load "/site.json" 0 = .ok _ :=
    (load_eq_ok_iff hbundle).2 ⟨hstorable, k, hlink, rfl⟩
  refine ⟨build, s', bundle, _, arises_siteOfTwo, hrun, hbundle, hload, fun hnamed => ?_⟩
  have hu := (kept_iff arises_siteOfTwo hrun hbundle hload).1.1 hnamed
  rw [hmodules] at hu
  revert hu
  decide +kernel

end Bundles

end SiteHost
