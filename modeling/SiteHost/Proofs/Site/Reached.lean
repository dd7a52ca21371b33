import SiteHost.Proofs.Site.Bundled
import SiteHost.Proofs.Site.Remembered

/-!
# What request paths reach

On a live site a request path leads to the files of a unit, and gives an object of the unit's own type. On a
site that is served from a bundle it leads to a type by its name, whichever file the type was declared in:

* `FirstName` — the first of all names with a property;
* `SiteBuild.Reaches` — what a type name, in any ASCII case, stands for in a bundle.

Principal results:

* `LiveSite.remembers_buildAll` — what a site holds after a build of all of it: for each unit an artifact of
  the build;
* `prebuiltType?_eq_some_iff` — the search in a bundle finds what is reached;
* `Site.create_prebuilt` — **a bundle answers like the live site if and only if** the own type of the unit is
  declared in it and is what its name reaches, or both fail alike.
-/

namespace SiteHost

open Script

/-! ## Sites after a build of all of them -/

namespace LiveSite

variable {src : Sources} {held : String → Option Artifact} {s s' : LiveSite} {units : List Identity}
  {build : SiteBuild}

theorem units_afterLeaves (d : Disk) (s : LiveSite) (units : List Identity) :
    (afterLeaves d s units).1.map Prod.fst = units := by
  induction units generalizing s with
  | nil => rw [afterLeaves_nil]; rfl
  | cons unit rest ih => rw [afterLeaves_cons, List.map_cons, ih]

/-- **A leaf that has been built is what is held for its key when all are done.** -/
theorem remembers_afterLeaves (hs : Remembers src held [] s)
    (hunits : ∀ unit ∈ units, unit.key ≠ foundationUnit.key) :
    Remembers src (units.foldl src.remember held) [] (afterLeaves src.disk s units).2 ∧
      ∀ unit a, (unit, .ok a) ∈ (afterLeaves src.disk s units).1 →
        units.foldl src.remember held unit.key = some a.plain := by
  induction units generalizing s held with
  | nil =>
    rw [afterLeaves_nil]
    exact ⟨hs, nofun⟩
  | cons unit rest ih =>
    obtain ⟨hunit, hrest⟩ := List.forall_mem_cons.1 hunits
    obtain ⟨hanswer, hafter⟩ := run_leaf_of_remembers hunit hs
    obtain ⟨hlast, hbuilt⟩ := ih hafter hrest
    rw [afterLeaves_cons, List.foldl_cons]
    refine ⟨hlast, fun other a hmem => ?_⟩
    rcases List.mem_cons.1 hmem with heq | hmem
    · obtain ⟨rfl, hok⟩ := Prod.mk.inj heq
      rw [← hok] at hanswer
      rw [src.foldl_remember, Sources.remember, if_pos rfl, ← hanswer]
      rfl
    · exact hbuilt other a hmem

/-- **After a build of all of a site in which no unit failed**, an artifact of the build is held for each
unit, and all that was built is what the sources amount to. -/
theorem remembers_buildAll (hs : Remembers src held [] s)
    (hrun : s.run src.disk LiveSite.buildAll = (.ok build, s')) (hok : build.failures = [])
    (hunits : discover src.disk src.locator = .ok units) :
    Remembers src (units.foldl src.remember held) [] s' ∧
      src.foundation = .ok build.foundation.plain ∧
      src.globalUnit = .ok (build.globalUnit.map Artifact.plain) ∧
      (∀ unit ∈ units, ∃ a ∈ build.leaves, units.foldl src.remember held unit.key = some a.plain) ∧
      ∀ a ∈ build.leaves, ∃ unit ∈ units, units.foldl src.remember held unit.key = some a.plain := by
  have hnone : ∀ (key : String) (g : Generation), (key, g) ∉ [] := fun _ _ => List.not_mem_nil
  obtain ⟨s₁, s₂, units', hfoundation, hglobal, hunits', hleaves, hfailures, rfl⟩ :=
    run_buildAll_eq_ok hrun
  obtain ⟨hanswer₁, hs₁⟩ := (answering_remembers src held).yields_foundation (hnone _) s hs
  rw [hfoundation] at hanswer₁ hs₁
  obtain ⟨hanswer₂, hs₂⟩ := (answering_remembers src held).yields_globalUnit (hnone _) (hnone _) s₁ hs₁
  rw [hglobal] at hanswer₂ hs₂
  dsimp only at hanswer₁ hanswer₂ hs₁ hs₂
  rw [hs₂.locator, hunits] at hunits'
  cases hunits'
  obtain ⟨hlast, hbuilt⟩ := remembers_afterLeaves hs₂ fun unit hunit => (of_mem_discover hunits hunit).1
  have hall := units_afterLeaves src.disk s₂ units
  generalize afterLeaves src.disk s₂ units = last at hleaves hfailures hlast hbuilt hall
  rw [hok] at hfailures
  rw [hleaves]
  refine ⟨hlast, hanswer₁.symm, hanswer₂.symm, fun unit hunit => ?_, fun a ha => ?_⟩
  · rw [← hall] at hunit
    obtain ⟨⟨unit, result⟩, hmem, rfl⟩ := List.mem_map.1 hunit
    cases result with
    | error e => cases List.filterMap_eq_nil_iff.1 hfailures.symm _ hmem
    | ok a => exact ⟨a, List.mem_filterMap.2 ⟨_, hmem, rfl⟩, hbuilt unit a hmem⟩
  · obtain ⟨⟨unit, result⟩, hmem, hresult⟩ := List.mem_filterMap.1 ha
    cases result with
    | error e => cases hresult
    | ok b =>
      cases hresult
      exact ⟨unit, hall ▸ List.mem_map_of_mem hmem, hbuilt unit a hmem⟩

end LiveSite

/-! ## The first name -/

/-- Whether a name is the first in order with a property. -/
def FirstName (p : String → Prop) (name : String) : Prop := p name ∧ ∀ other, p other → name ≤ other

theorem NameMap.find?_keys_eq_some_iff {α : Type} {m : NameMap α} {p : String → Bool} {name : String} :
    m.keys.find? p = some name ↔ FirstName (fun n => n ∈ m.keys ∧ p n = true) name := by
  have hascending : m.keys.Pairwise (· < ·) := List.pairwise_map.2 m.ascending
  generalize m.keys = names at hascending
  induction names with
  | nil => simp [FirstName]
  | cons first rest ih =>
    obtain ⟨hfirst, hrest⟩ := List.pairwise_cons.1 hascending
    rw [List.find?_cons]
    cases hp : p first with
    | true =>
      constructor
      · intro h
        cases h
        refine ⟨⟨List.mem_cons_self, hp⟩, fun other hother => ?_⟩
        rcases List.mem_cons.1 hother.1 with rfl | hmem
        · exact String.le_refl _
        · exact Std.le_of_lt (hfirst other hmem)
      · rintro ⟨⟨hmem, -⟩, hleast⟩
        rcases List.mem_cons.1 hmem with rfl | hmem
        · rfl
        · exact absurd (hfirst name hmem) (hleast first ⟨List.mem_cons_self, hp⟩)
    | false =>
      have hiff : ∀ n, n ∈ first :: rest ∧ p n = true ↔ n ∈ rest ∧ p n = true := by
        intro n
        rw [List.mem_cons]
        constructor
        · rintro ⟨rfl | hmem, hn⟩
          · rw [hp] at hn
            cases hn
          · exact ⟨hmem, hn⟩
        · exact fun h => ⟨.inr h.1, h.2⟩
      change rest.find? p = some name ↔ _
      simp only [FirstName, hiff]
      exact ih hrest

/-! ## What a bundle reaches -/

/-- Whether a build has a template of a type name. -/
def SiteBuild.HasTemplate (b : SiteBuild) (name : String) : Prop :=
  ∃ a ∈ b.leaves, a.isTemplate = true ∧ a.identity.typeName = name

/-- Whether a class of a name is declared in a build, in whichever file. -/
def SiteBuild.HasClass (b : SiteBuild) (name : String) : Prop := ∃ a ∈ b.artifacts, name ∈ a.typeNames

/-- What a type name stands for in a bundle, without regard to the case of ASCII letters: the window of the
first template of such a name, or without a template the first class of such a name. -/
inductive SiteBuild.Reaches (b : SiteBuild) (wanted : String) : String → Prop where
  | window {template : String} (first : FirstName (fun name =>
      b.HasTemplate name ∧ Text.eqIgnoringAsciiCase name wanted = true) template) :
      b.Reaches wanted (windowName template)
  | declared {name : String}
      (none : ∀ template, b.HasTemplate template → ¬ Text.eqIgnoringAsciiCase template wanted = true)
      (first : FirstName (fun name => b.HasClass name ∧ Text.eqIgnoringAsciiCase name wanted = true) name) :
      b.Reaches wanted name

section Bundles

variable {build : SiteBuild} {name site file : String} {createdAt : Timestamp} {bundle : Bundle}
  {number : Nat} {loaded a b : Artifact} {args : List Value} {e : Failure}

theorem failures_of_ofBuild (h : Bundle.ofBuild site createdAt build = .ok bundle) :
    build.failures = [] := by
  unfold Bundle.ofBuild at h
  split at h
  · cases h
  · rename_i hempty
    simpa using hempty

theorem mem_templateTypes (h : Bundle.ofBuild site createdAt build = .ok bundle) :
    name ∈ bundle.templateTypes.keys ↔ build.HasTemplate name := by
  unfold Bundle.ofBuild at h
  split at h
  · cases h
  · cases h
    rw [Bundle.mem_keys_setOf, List.mem_map]
    constructor
    · rintro ⟨a, ha, hname⟩
      obtain ⟨ha, htemplate⟩ := List.mem_filter.1 ha
      exact ⟨a, ha, htemplate, hname⟩
    · rintro ⟨a, ha, htemplate, hname⟩
      exact ⟨a, List.mem_filter.2 ⟨ha, htemplate⟩, hname⟩

/-- The classes of a loaded bundle are those of the build, by name. -/
theorem mem_typeNames_of_load (hself : SelfContained build.modules)
    (hbundle : Bundle.ofBuild site createdAt build = .ok bundle)
    (hload : bundle.load file number = .ok loaded) : name ∈ loaded.typeNames ↔ build.HasClass name := by
  obtain ⟨-, k, hlink, rfl⟩ := (load_eq_ok_iff hbundle).1 hload
  refine (hself.mem_keys_pooled hlink).trans ?_
  constructor
  · rintro ⟨m, hm, hname⟩
    obtain ⟨a, ha, hmodule⟩ := List.mem_filterMap.1 hm
    exact ⟨a, ha, by rwa [Artifact.typeNames, Artifact.classes, hmodule]⟩
  · rintro ⟨a, ha, hname⟩
    rw [Artifact.typeNames, Artifact.classes] at hname
    cases hmodule : a.module? with
    | none =>
      rw [hmodule] at hname
      cases hname
    | some m =>
      rw [hmodule] at hname
      exact ⟨m, List.mem_filterMap.2 ⟨a, ha, hmodule⟩, hname⟩

/-- **The search in a bundle finds what is reached.** -/
theorem prebuiltType?_eq_some_iff (hself : SelfContained build.modules)
    (hbundle : Bundle.ofBuild site createdAt build = .ok bundle)
    (hload : bundle.load file number = .ok loaded) {unit : Identity} :
    Site.prebuiltType? loaded bundle.templateTypes unit none = some name ↔
      build.Reaches unit.typeName name := by
  have hfirst : ∀ found, loaded.typeNames.find? (Text.eqIgnoringAsciiCase · unit.typeName) = some found ↔
      FirstName (fun name =>
        build.HasClass name ∧ Text.eqIgnoringAsciiCase name unit.typeName = true) found := by
    intro found
    simp only [← mem_typeNames_of_load hself hbundle hload]
    exact NameMap.find?_keys_eq_some_iff
  unfold Site.prebuiltType?
  dsimp only
  cases htemplate : bundle.templateTypes.keys.find? (Text.eqIgnoringAsciiCase · unit.typeName) with
  | some template =>
    have hsome := NameMap.find?_keys_eq_some_iff.1 htemplate
    simp only [mem_templateTypes hbundle] at hsome
    constructor
    · intro h
      cases h
      exact .window hsome
    · rintro (hother | ⟨hnone, -⟩)
      · simp only [← mem_templateTypes hbundle] at hother
        have hsame := NameMap.find?_keys_eq_some_iff.2 hother
        rw [htemplate] at hsame
        cases hsame
        rfl
      · exact absurd hsome.1.2 (hnone template hsome.1.1)
  | none =>
    have hnone : ∀ template, build.HasTemplate template →
        ¬ Text.eqIgnoringAsciiCase template unit.typeName = true :=
      fun template h => List.find?_eq_none.1 htemplate template ((mem_templateTypes hbundle).2 h)
    rw [hfirst]
    constructor
    · exact fun h => .declared hnone h
    · rintro (hother | ⟨-, h⟩)
      · exact absurd hother.1.2 (hnone _ hother.1.1)
      · exact h

theorem isLinked_of_load (hbundle : Bundle.ofBuild site createdAt build = .ok bundle)
    (hload : bundle.load file number = .ok loaded) : loaded.IsLinked := by
  obtain ⟨-, k, hlink, rfl⟩ := (load_eq_ok_iff hbundle).1 hload
  exact ⟨k, rfl, .mk (fun r (hr : r ∈ []) => absurd hr List.not_mem_nil) hlink⟩

/-- Making an object fails for other reasons than a missing file. -/
theorem label_instantiate_ne (a : Artifact) (name : String) (args : List Value) :
    label (a.instantiate name args) ≠ .error "not_found" := by
  unfold Artifact.instantiate
  split
  · cases construct _ _ args <;> simp [label, Failure.kind]
  · simp [label, Failure.kind]

theorem label_error_iff : label (.error e) = .error "not_found" ↔ ∃ path, e = .notFound path := by
  cases e <;> simp [label, Failure.kind]

/-- **Without captured names, objects of a class of the build are the same outcome in a loaded bundle.** -/
theorem sameOutcome_of_mem (hself : SelfContained build.modules) (hu : Uncaptured build.modules)
    (hbundle : Bundle.ofBuild site createdAt build = .ok bundle)
    (hload : bundle.load file number = .ok loaded) (ha : a ∈ build.artifacts)
    (hname : name ∈ a.typeNames) (args : List Value) :
    SameOutcome (loaded.instantiate name args) (a.instantiate name args) := by
  have hlinked := isLinked_of_load hbundle hload
  obtain ⟨-, k, hlink, hloaded⟩ := (load_eq_ok_iff hbundle).1 hload
  have hk : loaded.module? = some k := by rw [hloaded]; rfl
  cases hmodule : a.module? with
  | none =>
    rw [Artifact.typeNames, Artifact.classes, hmodule] at hname
    cases hname
  | some m =>
    have hclasses : a.classes = m.classes := by rw [Artifact.classes, hmodule]
    have hm : m ∈ build.modules := List.mem_filterMap.2 ⟨a, ha, hmodule⟩
    obtain ⟨c, hc⟩ := NameMap.mem_keys.1 hname
    have hget : m.classes.get? name = some c := hclasses ▸ hc
    have hkept : loaded.classes.get? name = some c := by
      rw [Artifact.classes, hk]
      exact hself.get?_pooled hu hlink hm hget
    have hfinds : m.Finds c := ⟨name, by rw [findClass?_eq, hget, Option.some_or]⟩
    refine sameOutcome_of_answers (answers_of_carries (hself.carries_pooled hu hlink hm) hfinds hmodule hc hk
      hkept args) fun h h' hx hy => ?_
    rw [typeName_of_instantiate hlinked hx,
      typeName_of_instantiate ⟨m, hmodule, hself.linked m hm⟩ hy]

/-- How the answers of a bundle and of a live site compare for a unit, for which the live site has `built`. -/
structure SiteBuild.Compares (build : SiteBuild) (loaded : Artifact) (unit : Identity)
    (built : Except Failure Artifact) (args : List Value) (stored live : Except Failure Handler) : Prop where
  /-- The live site makes an object of what it has built for the unit. -/
  made : live = built >>= (·.requested args)
  /-- So its objects are of the unit's own type. -/
  own : ∀ h, live = .ok h → ∃ a, built = .ok a ∧ h.typeName = a.ownType
  /-- It finds nothing only if the unit has no file. -/
  missing : label live = .error "not_found" ↔ ∃ path, built = .error (.notFound path)
  /-- The bundle makes an object of what the type name of the unit reaches. -/
  reached : ∀ name, build.Reaches unit.typeName name → stored = loaded.instantiate name args
  /-- It finds nothing only if nothing is reached. -/
  unreached : label stored = .error "not_found" ↔ ¬ ∃ name, build.Reaches unit.typeName name
  /-- Both answer alike for what is part of the bundle if and only if its own type is declared in it and is
  what its name reaches, or both fail alike; unless names are captured. -/
  same : Uncaptured build.modules → (∀ a, built = .ok a → ∃ b ∈ build.artifacts, b.plain = a) →
    (SameOutcome stored live ↔
      (∃ a, built = .ok a ∧ a.ownType ∈ a.typeNames ∧ build.Reaches unit.typeName a.ownType) ∨
        ∃ kind, label stored = .error kind ∧ label live = .error kind)

section Answers

variable {built : Except Failure Artifact} {stored : Except Failure Handler} {unit : Identity} {h : Handler}

/-- An object of what was built for a unit is of the unit's own type. -/
theorem typeName_of_requested (hlinked : ∀ a, built = .ok a → a.IsLinked)
    (hobject : built >>= (·.requested args) = .ok h) : ∃ a, built = .ok a ∧ h.typeName = a.ownType := by
  obtain ⟨a, ha, hobject⟩ := bind_eq_ok.1 hobject
  exact ⟨a, ha, typeName_of_instantiate (hlinked a ha) hobject⟩

theorem label_requested_iff : label (built >>= (·.requested args)) = .error "not_found" ↔
    ∃ path, built = .error (.notFound path) := by
  cases built with
  | error e =>
    change label (.error e) = _ ↔ _
    simpa using label_error_iff
  | ok a =>
    change label (a.instantiate a.ownType args) = _ ↔ _
    simpa using label_instantiate_ne a a.ownType args

variable (hself : SelfContained build.modules) (hbundle : Bundle.ofBuild site createdAt build = .ok bundle)
  (hload : bundle.load file number = .ok loaded)
  (hstored : stored = match Site.prebuiltType? loaded bundle.templateTypes unit none with
    | some name => loaded.instantiate name args
    | none => .error (.notFound unit.path))

include hself hbundle hload hstored

theorem stored_of_reaches (hreach : build.Reaches unit.typeName name) :
    stored = loaded.instantiate name args := by
  rw [hstored, (prebuiltType?_eq_some_iff hself hbundle hload).2 hreach]

theorem label_stored_iff :
    label stored = .error "not_found" ↔ ¬ ∃ name, build.Reaches unit.typeName name := by
  cases htype : Site.prebuiltType? loaded bundle.templateTypes unit none with
  | some name =>
    have hreach := (prebuiltType?_eq_some_iff hself hbundle hload).1 htype
    rw [stored_of_reaches hself hbundle hload hstored hreach]
    simpa [label_instantiate_ne] using ⟨name, hreach⟩
  | none =>
    rw [hstored, htype]
    simp only [← prebuiltType?_eq_some_iff hself hbundle hload, htype]
    simp [label, Failure.kind]

/-- What a bundle makes an object of is reached. -/
theorem reaches_of_stored (hobject : stored = .ok h) : build.Reaches unit.typeName h.typeName := by
  cases htype : Site.prebuiltType? loaded bundle.templateTypes unit none with
  | none =>
    rw [hstored, htype] at hobject
    cases hobject
  | some name =>
    have hreach := (prebuiltType?_eq_some_iff hself hbundle hload).1 htype
    rw [stored_of_reaches hself hbundle hload hstored hreach] at hobject
    rwa [typeName_of_instantiate (isLinked_of_load hbundle hload) hobject]

/-- Where a bundle makes an object like that of what was built, the type of both is declared and reached. -/
theorem reaches_of_sameOutcome (hlinked : ∀ a, built = .ok a → a.IsLinked)
    (hsame : SameOutcome stored (built >>= (·.requested args))) (hobject : stored = .ok h) :
    ∃ a, built = .ok a ∧ a.ownType ∈ a.typeNames ∧ build.Reaches unit.typeName a.ownType := by
  have hreach := reaches_of_stored hself hbundle hload hstored hobject
  have hlabel : label (built >>= (·.requested args)) = .ok h.typeName := by
    rw [← hsame.label, hobject]
    rfl
  cases hlive : built >>= (·.requested args) with
  | error e =>
    rw [hlive] at hlabel
    cases hlabel
  | ok k =>
    obtain ⟨a, ha, hname⟩ := typeName_of_requested hlinked hlive
    rw [hlive] at hlabel
    rw [ha] at hlive
    refine ⟨a, ha, mem_typeNames_of_instantiate (show a.instantiate _ args = .ok k from hlive), ?_⟩
    rwa [← hname, show k.typeName = h.typeName from Except.ok.inj hlabel]

/-- **Both answers compare like that** if what was built is linked. -/
theorem compares (hlinked : ∀ a, built = .ok a → a.IsLinked) :
    build.Compares loaded unit built args stored (built >>= (·.requested args)) where
  made := rfl
  own _ hobject := typeName_of_requested hlinked hobject
  missing := label_requested_iff
  reached _ hreach := stored_of_reaches hself hbundle hload hstored hreach
  unreached := label_stored_iff hself hbundle hload hstored
  same hu hpart := by
    refine ⟨fun hsame => ?_, ?_⟩
    · cases hobject : stored with
      | error e => exact .inr ⟨e.kind, rfl, by rw [← hsame.label, hobject]; rfl⟩
      | ok h => exact .inl (reaches_of_sameOutcome hself hbundle hload hstored hlinked hsame hobject)
    · rintro (⟨a, rfl, hname, hreach⟩ | ⟨kind, hx, hy⟩)
      · obtain ⟨b, hb, rfl⟩ := hpart a rfl
        have hmem : b.plain.ownType ∈ b.typeNames := by
          simpa [Artifact.typeNames, Artifact.classes] using hname
        have hsame := sameOutcome_of_mem hself hu hbundle hload hb hmem args
        rw [← Artifact.instantiate_plain b] at hsame
        rw [stored_of_reaches hself hbundle hload hstored hreach]
        exact hsame
      · exact sameOutcome_of_failures hx hy

end Answers

end Bundles

namespace Site

variable {settings : SiteSettings} {compiler : CompilerSettings} {d : Disk} {serial number : Nat}
  {metrics : Metrics} {site live pre : Site} {s s' : LiveSite} {build : SiteBuild} {units : List Identity}
  {bundle : Bundle} {name file q : String} {createdAt : Timestamp} {loaded : Artifact} {unit : Identity}

/-- A site that is served from a bundle makes objects of what is reached. -/
theorem create_of_prebuilt (hpre : pre.mode = .prebuilt loaded bundle.templateTypes)
    (hunit : pre.locator.resolve q = .ok unit) (args : List Value) : (pre.create d q none args).1 =
      match prebuiltType? loaded bundle.templateTypes unit none with
      | some name => loaded.instantiate name args
      | none => .error (.notFound unit.path) := by
  unfold Site.create
  rw [hunit, hpre]
  dsimp only
  cases prebuiltType? loaded bundle.templateTypes unit none <;> rfl

/-- **What a live site holds after requests, a build of all of it, and more requests**: what it would hold if
its units had been asked for one after the other. -/
theorem recalls_buildAll {src : Sources} (hsrc : src = site.sources compiler d)
    (hlive : settings.prebuilt = none)
    (hstart : Site.start settings compiler d serial metrics = .ok site)
    {before after : List (String × List Value)} (hmode : (site.serve d before).mode = .live s)
    (hrun : s.run d LiveSite.buildAll = (.ok build, s')) (hok : build.failures = [])
    (hunits : LiveSite.discover d site.locator = .ok units)
    (hafter : live = ({ site.serve d before with mode := .live s' } : Site).serve d after) :
    live.Recalls src (src.firstBuilt
      (src.askedFor (before.map Prod.fst) ++ units ++ src.askedFor (after.map Prod.fst))) ∧
    (∀ unit ∈ units, ∃ a ∈ build.leaves,
      src.firstBuilt (src.askedFor (before.map Prod.fst) ++ units) unit.key = some a.plain) ∧
    src.globalUnit = .ok (build.globalUnit.map Artifact.plain) ∧ SelfContained build.modules := by
  have hdisk : src.disk = d := by rw [hsrc]; rfl
  have hplace : src.locator = site.locator := by rw [hsrc]; rfl
  have hserve := recalls_serve hlive hstart before
  rw [← hsrc] at hserve
  obtain ⟨hlocator, s₀, hs₀, hs⟩ := hserve
  rw [hmode] at hs₀
  cases hs₀
  rw [← hdisk] at hrun
  rw [← hdisk, ← hplace] at hunits
  obtain ⟨hlast, hf, hg, hbuilt, hleaves⟩ := LiveSite.remembers_buildAll hs hrun hok hunits
  rw [Sources.foldl_remember_firstBuilt] at hlast hbuilt hleaves
  have hall : Recalls { site.serve d before with mode := .live s' } src _ := ⟨hlocator, s', rfl, hlast⟩
  have hmore := hall.serve after
  rw [Sources.foldl_remember_firstBuilt, hdisk] at hmore
  refine ⟨hafter ▸ hmore, hbuilt, hg, ?_⟩
  have hmodules : build.modules = (build.foundation.plain ::
      ((build.globalUnit.map Artifact.plain).toList ++ build.leaves.map Artifact.plain)).filterMap
        Artifact.module? := by
    rw [SiteBuild.modules, SiteBuild.artifacts]
    cases build.globalUnit <;> simp [List.filterMap_cons, List.filterMap_map]
  rw [hmodules]
  refine Sources.selfContained hf hg fun a ha => ?_
  obtain ⟨b, hb, rfl⟩ := List.mem_map.1 ha
  obtain ⟨unit, -, hheld⟩ := hleaves b hb
  obtain ⟨other, -, -, hleaf⟩ := Sources.exists_of_firstBuilt hheld
  exact ⟨other, hleaf⟩

/-- **A bundle next to the live site it was made of**, after any requests over the same sources. Paths that
are refused are refused by both. For the unit of any other the live site has `built`, which is part of the
bundle if the unit is one of the site's files or the global unit, and makes objects of the unit's own type out
of it. The bundle makes objects of whatever type the name of the unit reaches, be it that of a unit or not. So
either may find nothing where the other answers; the answers compare as `SiteBuild.Compares` says. -/
theorem create_prebuilt {src : Sources} (hsrc : src = site.sources compiler d)
    (hlive : settings.prebuilt = none)
    (hstart : Site.start settings compiler d serial metrics = .ok site)
    {before after : List (String × List Value)} (hmode : (site.serve d before).mode = .live s)
    (hrun : s.run d LiveSite.buildAll = (.ok build, s'))
    (hunits : LiveSite.discover d site.locator = .ok units)
    (hafter : live = ({ site.serve d before with mode := .live s' } : Site).serve d after)
    (hbundle : Bundle.ofBuild name createdAt build = .ok bundle)
    (hload : bundle.load file number = .ok loaded) (hlocator : pre.locator = site.locator)
    (hpre : pre.mode = .prebuilt loaded bundle.templateTypes) (q : String) (args : List Value) :
    (∀ e, site.locator.resolve q = .error e →
      (pre.create d q none args).1 = .error e ∧ (live.create d q none args).1 = .error e) ∧
    ∀ unit built, site.locator.resolve q = .ok unit →
      built = src.recalled (src.firstBuilt (src.askedFor (before.map Prod.fst) ++ units ++
        src.askedFor (after.map Prod.fst))) unit →
      ((∃ other ∈ units, other.key = unit.key) → ∃ a ∈ build.leaves, built = .ok a.plain) ∧
      (site.locator.isGlobal unit = true → ∀ a, built = .ok a → ∃ b ∈ build.globalUnit, b.plain = a) ∧
      build.Compares loaded unit built args (pre.create d q none args).1
        (live.create d q none args).1 := by
  obtain ⟨hrecalls, hbuilt, hglobal, hself⟩ := recalls_buildAll hsrc hlive hstart hmode hrun
    (failures_of_ofBuild hbundle) hunits hafter
  have hplace : src.locator = site.locator := by rw [hsrc]; rfl
  have hcreate := (hrecalls.create q args).1
  rw [show src.disk = d from hsrc ▸ rfl] at hcreate
  rw [← hplace] at hlocator ⊢
  refine ⟨fun e he => ?_, ?_⟩
  · rw [hcreate, Sources.met, he, Site.create, hlocator, he]
    exact ⟨rfl, rfl⟩
  rintro unit built hunit rfl
  refine ⟨?_, fun hisGlobal a ha => ?_, ?_⟩
  · rintro ⟨other, hother, hkey⟩
    obtain ⟨a, ha, hheld⟩ := hbuilt other hother
    exact ⟨a, ha, by rw [Sources.recalled, ← hkey, Sources.firstBuilt_append, hheld, Option.some_or]⟩
  · obtain ⟨other, hkey, hleaf⟩ := Sources.leaf_of_recalled ha
    rw [← Locator.isGlobal_congr hkey] at hisGlobal
    rw [(leaf_eq_ok_iff_globalUnit hisGlobal).1 hleaf] at hglobal
    exact Option.map_eq_some_iff.1 (Except.ok.inj hglobal).symm
  · rw [hcreate, Sources.met_of_resolve hunit]
    refine compares hself hbundle hload (create_of_prebuilt hpre (by rw [hlocator]; exact hunit) args)
      fun a ha => ?_
    obtain ⟨other, -, hleaf⟩ := Sources.leaf_of_recalled ha
    exact Sources.isLinked_leaf hleaf

/-- No script without markup is a template. -/
theorem isTemplate_twoScripts {a b : String} {ua ub : SourceUnit} {ma mb : Module}
    (ha : parse "/site/a.ks" a = .ok ua) (hb : parse "/site/b.ks" b = .ok ub)
    (hma : link [ua] [libraryModule] = .ok ma) (hmb : link [ub] [libraryModule] = .ok mb)
    {build : SiteBuild} {s' : LiveSite}
    (hrun : siteOfTwo.run (twoScripts a b) LiveSite.buildAll = (.ok build, s'))
    (hok : build.failures = []) : ∀ x ∈ build.leaves, x.isTemplate = false := by
  have hs : Remembers ⟨twoScripts a b, siteOfTwo.locator, []⟩ (fun _ => none) [] siteOfTwo :=
    remembers_liveSite _ {} _ _ _
  obtain ⟨hglobal, hscripts⟩ := has_twoScripts ha hb hma hmb
  obtain ⟨-, -, -, -, hleaves⟩ := LiveSite.remembers_buildAll hs hrun hok (discover_twoScripts a b)
  intro x hx
  obtain ⟨unit, -, hheld⟩ := hleaves x hx
  rw [Sources.foldl_remember, Option.none_or] at hheld
  obtain ⟨other, hother, -, hleaf⟩ := Sources.exists_of_firstBuilt hheld
  obtain ⟨p, hp, rfl⟩ : ∃ p ∈ [PlainScript.mk ⟨"/site/a.ks", "Site.a"⟩ a ua ma,
      ⟨⟨"/site/b.ks", "Site.b"⟩, b, ub, mb⟩], p.unit = other := by
    rcases List.mem_pair.1 hother with rfl | rfl <;> simp
  rw [(hscripts p hp).leaf_eq rfl hglobal] at hleaf
  have hkind := congrArg Artifact.isTemplate (Except.ok.inj hleaf)
  rw [Artifact.isTemplate_plain] at hkind
  exact hkind.symm

/-- A script with a class besides that of its unit. -/
def helperText : String := "namespace Site \x7b class a \x7b \x7d class Helper \x7b \x7d \x7d"

/-- The unit of that script. -/
def helperUnit : SourceUnit :=
  ⟨"/site/a.ks", [], [⟨"Site.a", "Site", none, none, [], ⟨1, 24⟩⟩,
    ⟨"Site.Helper", "Site", none, none, [], ⟨1, 36⟩⟩]⟩

/-- The unit of a script without any text. -/
def bareUnit : SourceUnit := ⟨"/site/b.ks", [], []⟩

/-- No file of that site is named as the class, in any case. -/
theorem leaf_helper {src : Sources} (hdisk : src.disk = twoScripts helperText "")
    (hlocator : src.locator = siteOfTwo.locator) (hshared : src.sharedReferences = [])
    (hglobal : src.disk.exists? src.locator.globalUnit.path = false) :
    src.leaf ⟨"/site/Helper.ks", "Site.Helper"⟩ = .error (.notFound "/site/Helper.ks") := by
  have hnone : src.globalUnit = .ok none := by
    rw [Sources.globalUnit, hglobal]
    rfl
  have hunit : ¬ src.locator.isGlobal ⟨"/site/Helper.ks", "Site.Helper"⟩ = true := by
    rw [hlocator]
    decide +kernel
  have hmarkup : src.locator.markupPath ⟨"/site/Helper.ks", "Site.Helper"⟩ = "/site/Helper.ks.html" := by
    rw [hlocator]
    decide +kernel
  have hread : src.readUnit ⟨"/site/Helper.ks", "Site.Helper"⟩ = .ok none := by
    rw [readUnit_eq_ok_iff, hdisk, hmarkup]
    exact ⟨none, none, rfl, rfl, rfl⟩
  have hspelled : LiveSite.spelledOnDisk? src.disk src.locator ⟨"/site/Helper.ks", "Site.Helper"⟩ = none := by
    rw [hdisk, hlocator]
    decide +kernel
  rw [Sources.leaf, if_neg hunit, Sources.ordinary, foundation_of_no_shared hshared, hnone]
  change src.unit _ _ = _
  rw [Sources.unit, Sources.findUnit, hread, hspelled]
  rfl

/-- A request for that class finds no file on the live site, and an object of it in the bundle. -/
theorem create_prebuilt_helper : ∃ site s' build bundle loaded,
    Site.start { name := "main", root := "/site" } {} (twoScripts helperText "") 0 [] = .ok site ∧
    siteOfTwo.run (twoScripts helperText "") LiveSite.buildAll = (.ok build, s') ∧
    Bundle.ofBuild "main" default build = .ok bundle ∧ bundle.load "/site.json" 1 = .ok loaded ∧
    label (({ site with mode := .live s' } : Site).create (twoScripts helperText "") "Helper" none []).1 =
      .error "not_found" ∧
    label (({ site with mode := .prebuilt loaded bundle.templateTypes } : Site).create
      (twoScripts helperText "") "Helper" none []).1 = .ok "Site.Helper" := by
  have hparseA : parse "/site/a.ks" helperText = .ok helperUnit := by decide +kernel
  have hparseB : parse "/site/b.ks" "" = .ok bareUnit := by decide +kernel
  have hlinkA : link [helperUnit] [libraryModule] = .ok _ := link_eq_ok_iff.2
    ⟨by decide +kernel, by decide +kernel, by decide +kernel, by decide +kernel, rfl⟩
  have hlinkB : link [bareUnit] [libraryModule] = .ok _ := link_eq_ok_iff.2
    ⟨by decide +kernel, by decide +kernel, by decide +kernel, by decide +kernel, rfl⟩
  obtain ⟨hglobal, -⟩ := has_twoScripts hparseA hparseB hlinkA hlinkB
  obtain ⟨build, s', hrun, hok, hmodules⟩ := buildAll_twoScripts hparseA hparseB hlinkA hlinkB
  have hscripts := isTemplate_twoScripts hparseA hparseB hlinkA hlinkB hrun hok
  obtain ⟨bundle, hbundle⟩ := exists_ofBuild "main" default hok
  have hself : SelfContained build.modules := (arises_siteOfTwo.whole hrun).selfContained
  have hstorable : build.Storable := by
    rw [SiteBuild.Storable, hmodules]
    decide +kernel
  obtain ⟨k, hlink, hfind, hobject⟩ : ∃ k, link (pooled build.modules) [] = .ok k ∧
      (k.classes.keys.find? (Text.eqIgnoringAsciiCase · "Site.Helper")) = some "Site.Helper" ∧
      ((Artifact.mk 1 ⟨"/site.json", "main (prebuilt)"⟩ .leaf .script (some k) [] []).instantiate
        "Site.Helper" []).isOk = true := by
    rw [hmodules]
    exact ⟨_, link_eq_ok_iff.2 ⟨by decide +kernel, by decide +kernel, by decide +kernel, by decide +kernel,
      rfl⟩, by decide +kernel, by decide +kernel⟩
  obtain ⟨loaded, hload, hfind, hobject⟩ : ∃ loaded, bundle.load "/site.json" 1 = .ok loaded ∧
      loaded.typeNames.find? (Text.eqIgnoringAsciiCase · "Site.Helper") = some "Site.Helper" ∧
      (loaded.instantiate "Site.Helper" []).isOk = true :=
    ⟨_, (load_eq_ok_iff hbundle).2 ⟨hstorable, k, hlink, rfl⟩, hfind, hobject⟩
  generalize hd : twoScripts helperText "" = d at *
  obtain ⟨site, hstart, hmode, hlocator⟩ : ∃ site, Site.start { name := "main", root := "/site" } {} d 0 [] =
      .ok site ∧ site.mode = .live siteOfTwo ∧ site.locator = siteOfTwo.locator := by
    subst hd
    exact ⟨_, rfl, rfl, rfl⟩
  obtain ⟨src, hsrc⟩ : ∃ src, src = site.sources {} d := ⟨_, rfl⟩
  have hres : site.locator.resolve "Helper" = .ok ⟨"/site/Helper.ks", "Site.Helper"⟩ := by
    rw [hlocator]
    decide +kernel
  have hunits : LiveSite.discover d site.locator =
      .ok [⟨"/site/a.ks", "Site.a"⟩, ⟨"/site/b.ks", "Site.b"⟩] := by
    rw [hlocator, ← hd]
    exact discover_twoScripts _ _
  refine ⟨site, s', build, bundle, loaded, hstart, hrun, hbundle, hload, ?_⟩
  obtain ⟨-, hcompare⟩ := create_prebuilt hsrc rfl hstart (show (site.serve d []).mode = _ from hmode) hrun
    hunits (show _ = ({ site with mode := .live s' } : Site).serve d [] from rfl) hbundle hload
    (show ({ site with mode := .prebuilt loaded bundle.templateTypes } : Site).locator = _ from rfl) rfl
    "Helper" []
  obtain ⟨-, -, hcompare⟩ := hcompare _ _ hres rfl
  have hnotemplate : bundle.templateTypes.keys.find?
      (Text.eqIgnoringAsciiCase · "Site.Helper") = none := by
    refine List.find?_eq_none.2 fun template htemplate => ?_
    obtain ⟨a, ha, hkind, -⟩ := (mem_templateTypes hbundle).1 htemplate
    rw [hscripts a ha] at hkind
    cases hkind
  have hsearch : prebuiltType? loaded bundle.templateTypes ⟨"/site/Helper.ks", "Site.Helper"⟩ none =
      some "Site.Helper" := by
    unfold prebuiltType?
    dsimp only
    rw [hnotemplate]
    exact hfind
  refine ⟨hcompare.missing.2 ⟨"/site/Helper.ks", ?_⟩, ?_⟩
  · have hplace : src.locator = siteOfTwo.locator := by
      rw [hsrc]
      exact hlocator
    have hleaf : src.leaf ⟨"/site/Helper.ks", "Site.Helper"⟩ = .error (.notFound "/site/Helper.ks") := by
      refine leaf_helper ?_ hplace ?_ ?_
      · rw [hsrc, hd]
        rfl
      · rw [hsrc]
        rfl
      · rw [hplace, hsrc]
        exact hglobal
    have hfirst : src.firstBuilt [⟨"/site/a.ks", "Site.a"⟩, ⟨"/site/b.ks", "Site.b"⟩]
        (Identity.key ⟨"/site/Helper.ks", "Site.Helper"⟩) = none := by
      refine Option.eq_none_iff_forall_ne_some.2 fun x hx => ?_
      obtain ⟨other, hother, hkey, -⟩ := Sources.exists_of_firstBuilt hx
      revert hkey
      rcases List.mem_pair.1 hother with rfl | rfl <;> decide +kernel
    change src.recalled (src.firstBuilt [⟨"/site/a.ks", "Site.a"⟩, ⟨"/site/b.ks", "Site.b"⟩]) _ = _
    rw [Sources.recalled, hfirst]
    exact hleaf
  · rw [hcompare.reached _ ((prebuiltType?_eq_some_iff hself hbundle hload).1 hsearch)]
    cases hmade : loaded.instantiate "Site.Helper" [] with
    | error e =>
      rw [hmade] at hobject
      cases hobject
    | ok h => exact congrArg Except.ok (typeName_of_instantiate (isLinked_of_load hbundle hload) hmade)

end Site

end SiteHost
