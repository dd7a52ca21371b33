import SiteHost.Proofs.Cache.Orderly
import SiteHost.Proofs.Site.Coherence
import SiteHost.Proofs.Site.Noticed

/-!
# Directories that are gone

What is gone from disk cannot be looked at any more. Whether it was a directory is told from its name, and
a directory may have the name of a file:

* `Identity.Beneath` — whether a unit lies beneath a directory;
* `Convention.knowsDirectory` — whether a directory is taken for one when it is gone;
* `LiveSite.Founded` — whether the layers below a leaf are there.

Principal results:

* `Locator.evictions_of_knowsDirectory`, `Locator.evictions_of_not_knowsDirectory` — what such a directory
  evicts;
* `LiveSite.run_leaf_of_built`, `LiveSite.run_leaf_of_missing` — how a request is answered for a unit that
  the cache holds, and for one that neither the cache nor the disk has;
* `LiveSite.forgotten_beneath` — **what lies beneath a directory that is gone is forgotten if the directory
  is taken for one, and goes on being served otherwise.**
-/

namespace SiteHost

/-! ## What lies beneath a directory -/

/-- Whether a unit's source lies beneath a directory, in any letter case. -/
def Identity.Beneath (unit : Identity) (directory : String) : Prop :=
  ∃ base rest, keyOf base = keyOf directory ∧ unit.path = Path.opening base ++ rest

namespace Identity.Beneath

variable {unit own : Identity} {directory : String}

/-- The key of such a unit goes on as that of the directory. -/
theorem key_eq (h : unit.Beneath directory) : ∃ front tail, unit.key = Text.lower front ++ "/" ++ tail ∧
    (keyOf directory = Text.lower front ++ "/" ∨ keyOf directory = Text.lower front) := by
  obtain ⟨base, rest, hbase, hpath⟩ := h
  rw [← hbase, key, hpath, keyOf, keyOf]
  unfold Path.opening
  split
  · rename_i hlast
    obtain ⟨front, hfront⟩ := List.getLast?_eq_some_iff.1 hlast
    obtain rfl : base = String.ofList front ++ "/" := by
      rw [← String.toList_inj, hfront]
      simp
    exact ⟨_, _, Text.lower_append_slash (.ofList front) rest, .inl (Text.lower_concat_slash _)⟩
  · exact ⟨_, _, Text.lower_append_slash base rest, .inr rfl⟩

/-- It starts as an eviction expects. -/
theorem startsWith_above (h : unit.Beneath directory) :
    unit.key.startsWith (Eviction.above directory) = true := by
  have hprefix : ∀ a b : String, a.toList <+: (a ++ b).toList := fun a b => by
    rw [String.toList_append]
    exact List.prefix_append _ _
  obtain ⟨front, tail, hkey, hdirectory⟩ := h.key_eq
  rw [String.startsWith_string_iff, hkey, Eviction.above]
  rcases hdirectory with hslash | hplain
  · have hends : (keyOf directory).endsWith "/" = true := by
      rw [hslash, String.endsWith_eq_endsWith_toSlice, String.Slice.endsWith_string_iff]
      simp
    rw [if_pos hends, hslash]
    exact hprefix _ tail
  · rw [hplain]
    split
    · rw [String.append_assoc]
      exact hprefix _ _
    · exact hprefix _ tail

/-- It is longer than that of the directory. -/
theorem length_lt (h : unit.Beneath directory) (hlast : directory.toList.getLast? ≠ some '/') :
    (keyOf directory).length < unit.key.length := by
  obtain ⟨front, tail, hkey, hslash | hplain⟩ := h.key_eq
  · refine absurd (Text.getLast?_of_lower ?_) hlast
    rw [← keyOf, hslash]
    simp
  · have hone : ("/" : String).length = 1 := rfl
    rw [hkey, hplain, String.length_append, String.length_append]
    omega

end Identity.Beneath

namespace Path

/-- What is put behind the last of some names is put behind the path. -/
theorem joined_concat_append (names : List String) (name rest : String) :
    Text.joined "/" (names ++ [name ++ rest]) = Text.joined "/" (names ++ [name]) ++ rest := by
  by_cases hne : names = []
  · simp [hne, Text.joined]
  · rw [Text.joined, Text.joined, String.intercalate_append_of_ne_nil hne (by simp),
      String.intercalate_append_of_ne_nil hne (by simp)]
    simp [String.append_assoc]

end Path

namespace Locator

variable {l : Locator} {base name script : String} {dirs names : List String} {unit : Identity}

/-- A directory does not have the key of a unit beneath it, not even when it is named like a source. -/
theorem key_ne_of_beneath (hroot : Path.isAbsolute l.root = true)
    (hbase : Text.asciiLower base = Text.asciiLower l.root) (hnames : Place.Named (dirs ++ [name]))
    (hscript : Place.Named (dirs ++ [script])) (hname : l.convention.IsSourceOf script name)
    (hunit : unit.Beneath ((dirs ++ [name]).foldl Path.join base)) :
    unit.key ≠ (l.unitAt (dirs ++ [script])).key := by
  obtain ⟨rest, rfl⟩ : ∃ rest, name = script ++ rest := by
    rcases hname.2 with rfl | ⟨suffix, -, rfl⟩
    · exact ⟨"", by simp⟩
    · exact ⟨"." ++ suffix, by rw [String.append_assoc]⟩
  have hne := Path.ne_empty_of_isAbsolute (Path.under?_foldl_join_of_same hroot hbase hnames).1
  -- the directory is written as the script, with more behind it
  have hpath : (dirs ++ [script ++ rest]).foldl Path.join base =
      (dirs ++ [script]).foldl Path.join base ++ rest := by
    rw [Path.foldl_join hne (by simp) hnames, Path.foldl_join hne (by simp) hscript,
      Path.joined_concat_append, String.append_assoc]
  have hkey : (l.unitAt (dirs ++ [script])).key = Text.lower ((dirs ++ [script]).foldl Path.join base) :=
    Text.lower_congr (Path.asciiLower_foldl_join hroot hbase hscript rfl).symm
  have hlast : ((dirs ++ [script ++ rest]).foldl Path.join base).toList.getLast? ≠ some '/' := by
    have hisName : Path.IsName (script ++ rest) := hnames _ (by simp)
    rw [Path.getLast?_foldl_join base dirs hisName.ne_empty]
    exact fun hslash => hisName.noSlash (List.mem_of_getLast? hslash)
  have hlonger := hunit.length_lt hlast
  rw [hpath, keyOf, Text.length_lower_append, ← hkey] at hlonger
  intro hsame
  rw [hsame] at hlonger
  omega

end Locator

/-! ## What is taken for a directory -/

namespace Convention

/-- Whether a directory is taken for one by its name alone: the name has no extension. The root, which
belongs to no unit, is taken for one with the name of a source as well. -/
def knowsDirectory (c : Convention) (base : String) (names : List String) : Bool :=
  match names.getLast? with
  | some name => !Path.hasExtension name
  | none => (Path.fileName? base).all fun name => !Path.hasExtension name || c.isSourceName name

/-- A path that is gone counts by its name. -/
theorem gone?_eq (c : Convention) (path : String) : c.gone? path =
    if (Path.fileName? path).all fun name => !Path.hasExtension name || c.isSourceName name then
      some ⟨path, .renamed⟩ else none := by
  unfold gone? accepts
  cases Path.fileName? path with
  | none => rfl
  | some name =>
    dsimp only [Option.all_some]
    rw [Bool.or_comm]

/-- The name of a source has an extension. -/
theorem hasExtension_of_isSourceName {c : Convention} {name : String} (h : c.isSourceName name = true) :
    Path.hasExtension name = true := by
  have hdot : ∀ stem tail : String, stem ≠ "" → Path.hasExtension (stem ++ "." ++ tail) = true := by
    intro stem tail hne
    obtain ⟨first, rest, hstem⟩ := List.exists_cons_of_ne_nil (by simpa using hne : stem.toList ≠ [])
    simp [Path.hasExtension, hstem]
  rcases Bool.or_eq_true_iff.1 h with hleaf | hmarkup
  · obtain ⟨stem, tail, hne, rfl, -⟩ := isLeafName_iff.1 hleaf
    exact hdot stem tail hne
  · obtain ⟨stem, tail, hne, rfl, -⟩ := endsWithExtension_iff.1 hmarkup
    exact hdot stem tail hne

end Convention

namespace Path

theorem fileName?_foldl_join {base name : String} {dirs : List String} (habs : isAbsolute base = true)
    (hnames : Place.Named (dirs ++ [name])) : fileName? ((dirs ++ [name]).foldl join base) = some name := by
  rw [fileName?, components_foldl_join habs (by simp) hnames]
  simp

end Path

namespace Locator

variable {l : Locator} {base name : String} {dirs names : List String}

theorem unitOfFile?_root (hroot : Path.isAbsolute l.root = true)
    (hbase : Text.asciiLower base = Text.asciiLower l.root) : l.unitOfFile? base = none := by
  have hnamed : Place.Named [] := by simp [Place.Named]
  have hunder : Path.under? l.root ([].foldl Path.join base) = some ([].map .name) :=
    (Path.under?_foldl_join_of_same hroot hbase hnamed).2
  rw [List.foldl_nil, List.map_nil] at hunder
  simp [unitOfFile?, hunder]

/-- **A directory that is taken for one evicts all that lies beneath it.** -/
theorem evictions_of_knowsDirectory (hroot : Path.isAbsolute l.root = true)
    (hbase : Text.asciiLower base = Text.asciiLower l.root) (hnames : Place.Named names)
    (hknows : l.convention.knowsDirectory base names = true) :
    l.convention.gone? (names.foldl Path.join base) = some ⟨names.foldl Path.join base, .renamed⟩ ∧
      l.evictions ⟨names.foldl Path.join base, .renamed⟩ = [.under (names.foldl Path.join base)] := by
  have hunits : l.unitOfFile? (names.foldl Path.join base) = none →
      l.evictions ⟨names.foldl Path.join base, .renamed⟩ = [.under (names.foldl Path.join base)] := by
    intro hnone
    unfold evictions
    rw [hnone]
  rcases List.eq_nil_or_concat names with rfl | ⟨dirs, name, rfl⟩
  · exact ⟨(Convention.gone?_eq l.convention base).trans (if_pos hknows),
      hunits (unitOfFile?_root hroot hbase)⟩
  · rw [List.concat_eq_append] at *
    obtain ⟨habs, hunder⟩ := Path.under?_foldl_join_of_same hroot hbase hnames
    have hplain : Path.hasExtension name = false := by
      simpa [Convention.knowsDirectory] using hknows
    have hsource : l.convention.isSourceName name = false := by
      rw [← Bool.not_eq_true]
      intro hsource
      rw [Convention.hasExtension_of_isSourceName hsource] at hplain
      cases hplain
    refine ⟨?_, hunits ?_⟩
    · rw [Convention.gone?_eq, Path.fileName?_foldl_join habs hnames]
      simp [hplain]
    · rw [unitOfFile?_of_under? hunder, hsource]
      rfl

/-- **A directory that is not taken for one evicts no more than the unit that it is named like**, if it is
named like a source at all. -/
theorem evictions_of_not_knowsDirectory (hroot : Path.isAbsolute l.root = true)
    (hbase : Text.asciiLower base = Text.asciiLower l.root) (hnames : Place.Named names)
    (hknows : l.convention.knowsDirectory base names = false) :
    l.convention.gone? (names.foldl Path.join base) = none ∨
      ∃ dirs name, names = dirs ++ [name] ∧ l.convention.isSourceName name = true ∧
        l.convention.gone? (names.foldl Path.join base) = some ⟨names.foldl Path.join base, .renamed⟩ ∧
        l.unitOfFile? (names.foldl Path.join base) =
          some (l.unitAt (dirs ++ [l.convention.scriptName name])) := by
  rcases List.eq_nil_or_concat names with rfl | ⟨dirs, name, rfl⟩
  · exact .inl ((Convention.gone?_eq l.convention base).trans (if_neg (ne_true_of_eq_false hknows)))
  · rw [List.concat_eq_append] at *
    obtain ⟨habs, hunder⟩ := Path.under?_foldl_join_of_same hroot hbase hnames
    have hname := Path.fileName?_foldl_join habs hnames
    have hextension : Path.hasExtension name = true := by
      simpa [Convention.knowsDirectory] using hknows
    cases hsource : l.convention.isSourceName name with
    | false =>
      left
      rw [Convention.gone?_eq, hname]
      simp [hsource, hextension]
    | true =>
      refine .inr ⟨dirs, name, rfl, hsource, ?_, ?_⟩
      · rw [Convention.gone?_eq, hname]
        simp [hsource]
      · rw [unitOfFile?_of_under? hunder, if_pos hsource]

variable {r : Report}

/-- What a directory evicts is among what its report evicts. -/
theorem mem_heard_of_knowsDirectory (hroot : Path.isAbsolute l.root = true)
    (hbase : Text.asciiLower base = Text.asciiLower l.root) (hnames : Place.Named names)
    (hknows : l.convention.knowsDirectory base names = true) (hraw : r.raw = .removed ∨ r.raw = .renamed)
    (hpath : names.foldl Path.join base ∈ r.paths) : .under (names.foldl Path.join base) ∈ l.heard [r] := by
  obtain ⟨hgone, hevictions⟩ := evictions_of_knowsDirectory hroot hbase hnames hknows
  have hchange := Convention.mem_changes_of_gone (List.mem_singleton_self r) hraw hpath hgone
  exact List.mem_flatMap.2 ⟨_, hchange, by simp [hevictions]⟩

/-- What a report of a single path evicts. -/
theorem heard_of_single {path : String} (hraw : r.raw = .removed ∨ r.raw = .renamed)
    (hpaths : r.paths = [path]) :
    l.heard [r] = (l.convention.gone? path).toList.flatMap l.evictions := by
  have hclassify : l.convention.classify r.raw r.paths = [path].filterMap l.convention.gone? := by
    rw [hpaths]
    rcases hraw with h | h <;> rw [h] <;> rfl
  rw [heard, Convention.changes, List.flatMap_singleton, hclassify, List.filterMap_cons]
  cases l.convention.gone? path <;> rfl

end Locator

/-! ## Requests -/

/-- What a call leaves that finds an artifact: at other keys the cache shows what it showed, and the builds
that run go on. -/
structure Cache.Visited {α : Type} (c c' : Cache α) (key : String) : Prop where
  sound : c'.Sound
  others : ∀ k, k ≠ key → c'.at? k = c.at? k
  running : ∀ g, c.isRunning g = true → c'.isRunning g = true

theorem Cache.visited_get {α : Type} {c : Cache α} (hc : c.Sound) (unit : Identity) (tier : Tier) :
    c.Visited (c.get unit tier).2 unit.key :=
  have hcases := get_cases hc unit tier
  ⟨(moves_get hc unit tier).sound hc, hcases.1, hcases.2.2.1⟩

namespace LiveSite

variable {s : LiveSite} {d : Disk} {unit : Identity} {a : Artifact}

/-- Who asks for what is held gets it. -/
theorem run_getOrBuild_of_built (tier : Tier) (build : Build Artifact)
    (h : s.cache.at? unit.key = some (.built a)) : s.run d (getOrBuild unit tier build) =
      (.ok a, { s with cache := (s.cache.get unit tier).2 }) :=
  run_getOrBuild_of_hit s d (Cache.get_of_built tier h) build

theorem run_globalUnit_of_built (h : s.cache.at? s.locator.globalUnit.key = some (.built a)) :
    s.run d globalUnit =
      (.ok (some a), { s with cache := (s.cache.get s.locator.globalUnit .siteGlobal).2 }) := by
  rw [run_globalUnit, Cache.status?_eq_built_iff.2 ⟨a, h⟩, run_getOrBuild_of_built .siteGlobal _ h]
  rfl

/-- **A request for a unit that is held is met out of the cache**, whatever has become of its files. -/
theorem run_leaf_of_built (h : s.cache.at? unit.key = some (.built a)) : (s.run d (leaf unit)).1 = .ok a := by
  by_cases hglobal : s.locator.isGlobal unit = true
  · have hget : s.run d (get : Build LiveSite) = (.ok s, s) := rfl
    rw [Locator.isGlobal_iff.1 hglobal] at h
    rw [leaf, run_bind, hget]
    dsimp only
    rw [if_pos hglobal, run_bind, run_globalUnit_of_built h]
    rfl
  · rw [run_leaf s d hglobal, run_getOrBuild_of_built .leaf _ h]

/-- Whether all is there that a leaf is linked against: the base library is held, and so is the global
unit, or it is not on disk. -/
structure Founded (s : LiveSite) (d : Disk) : Prop where
  foundation : ∃ a, s.cache.at? foundationUnit.key = some (.built a)
  globalUnit : (∃ a, s.cache.at? s.locator.globalUnit.key = some (.built a)) ∨
    d.exists? s.locator.globalUnit.path = false

/-- The global unit is held, or nowhere: a call for it builds nothing. -/
theorem run_globalUnit_of_visited (hs : s.cache.Sound)
    (h : (∃ a, s.cache.at? s.locator.globalUnit.key = some (.built a)) ∨
      d.exists? s.locator.globalUnit.path = false) :
    ∃ found c, s.run d globalUnit = (.ok found, { s with cache := c }) ∧
      s.cache.Visited c s.locator.globalUnit.key := by
  by_cases hbuilt : ∃ a, s.cache.at? s.locator.globalUnit.key = some (.built a)
  · obtain ⟨a, hat⟩ := hbuilt
    exact ⟨_, _, run_globalUnit_of_built hat, Cache.visited_get hs _ _⟩
  · have hstatus := mt Cache.status?_eq_built_iff.1 hbuilt
    refine ⟨none, s.cache, ?_, hs, fun _ _ => rfl, fun _ hrun => hrun⟩
    rw [run_globalUnit, h.resolve_left hbuilt]
    simp [hstatus]

/-- A build that finds no files leaves the cache alone. -/
theorem run_buildUnit_of_missing (tier : Tier) (references : List Artifact)
    (hmissing : Sources.findUnit ⟨d, s.locator, s.sharedReferences⟩ unit = .error (.notFound unit.path)) :
    ∃ s' : LiveSite, s.run d (buildUnit unit tier references) = (.error (.notFound unit.path), s') ∧
      s'.cache = s.cache := by
  have hsettled : Settled ⟨d, s.locator, s.sharedReferences⟩ fun t : LiveSite =>
      (t.locator = s.locator ∧ t.sharedReferences = s.sharedReferences) ∧ t.cache = s.cache :=
    ⟨fun _ h => h.1.1, fun _ h => h.1.2, fun _ _ h => h⟩
  obtain ⟨hanswer, -, hcache⟩ := yields_buildUnit hsettled unit tier references s ⟨⟨rfl, rfl⟩, rfl⟩
  rw [Sources.unit, hmissing] at hanswer
  dsimp only at hanswer hcache
  generalize s.run d (buildUnit unit tier references) = ran at hanswer hcache ⊢
  obtain ⟨r, s'⟩ := ran
  cases r with
  | error e => exact ⟨s', congrArg (·, s') hanswer, hcache⟩
  | ok a => cases hanswer

/-- So does a build that finds the layers below, but no files. -/
theorem run_buildLeaf_of_missing (hs : s.cache.Sound) (hfounded : s.Founded d)
    (hmissing : Sources.findUnit ⟨d, s.locator, s.sharedReferences⟩ unit = .error (.notFound unit.path)) :
    ∃ s' : LiveSite, s.run d (buildLeaf unit) = (.error (.notFound unit.path), s') ∧ s'.cache.Sound ∧
      (∀ key, key ≠ foundationUnit.key → key ≠ s.locator.globalUnit.key →
        s'.cache.at? key = s.cache.at? key) ∧
      ∀ g, s.cache.isRunning g = true → s'.cache.isRunning g = true := by
  obtain ⟨⟨f, hfoundation⟩, hglobal⟩ := hfounded
  have hfirst := Cache.visited_get hs foundationUnit .foundation
  have hbuilt : s.run d foundation = (.ok f, { s with cache := (s.cache.get foundationUnit .foundation).2 }) :=
    run_getOrBuild_of_built .foundation _ hfoundation
  generalize (s.cache.get foundationUnit .foundation).2 = c₁ at hfirst hbuilt
  have hglobal₁ : (∃ a, c₁.at? s.locator.globalUnit.key = some (.built a)) ∨
      d.exists? s.locator.globalUnit.path = false := by
    rwa [hfirst.others _ s.locator.key_globalUnit_ne]
  obtain ⟨found, c₂, hfound, hsecond⟩ :=
    run_globalUnit_of_visited (s := { s with cache := c₁ }) hfirst.sound hglobal₁
  obtain ⟨s', hbuild, hcache⟩ :=
    run_buildUnit_of_missing (s := { s with cache := c₂ }) .leaf (f :: found.toList) hmissing
  refine ⟨s', ?_, ?_⟩
  · rw [buildLeaf, run_bind, hbuilt]
    dsimp only
    rw [run_bind, hfound]
    exact hbuild
  · rw [hcache]
    exact ⟨hsecond.sound, fun key hf hg => (hsecond.others key hg).trans (hfirst.others key hf),
      fun g hrun => hsecond.running g (hfirst.running g hrun)⟩

/-- **A request for a unit without files is answered that it is not found**, if nothing is kept for it and
the layers below are there. -/
theorem run_leaf_of_missing (hs : s.cache.Sound) (hnone : s.cache.at? unit.key = none)
    (hfounded : s.Founded d)
    (hmissing : Sources.findUnit ⟨d, s.locator, s.sharedReferences⟩ unit = .error (.notFound unit.path)) :
    (s.run d (leaf unit)).1 = .error (.notFound unit.path) := by
  obtain ⟨⟨f, hfoundation⟩, hglobal⟩ := hfounded
  by_cases hunit : s.locator.isGlobal unit = true
  · have hget : s.run d (get : Build LiveSite) = (.ok s, s) := rfl
    rw [Locator.isGlobal_iff.1 hunit] at hnone
    have habsent : d.exists? s.locator.globalUnit.path = false := by
      refine hglobal.resolve_left ?_
      rintro ⟨a, hat⟩
      rw [hnone] at hat
      cases hat
    have hglobalUnit : s.run d globalUnit = (.ok none, s) := by
      rw [run_globalUnit, Cache.status?_eq, hnone, habsent]
      rfl
    rw [leaf, run_bind, hget]
    dsimp only
    rw [if_pos hunit, run_bind, hglobalUnit]
    rfl
  · have hnef : unit.key ≠ foundationUnit.key := by
      intro heq
      rw [heq, hfoundation] at hnone
      cases hnone
    have hneg : unit.key ≠ s.locator.globalUnit.key := fun heq => hunit (Locator.isGlobal_iff.2 heq)
    obtain ⟨hothers, -, -, hcases⟩ := Cache.get_cases hs unit .leaf
    -- nothing is held and nobody is waited for, so the call starts a build
    rw [hnone] at hcases
    obtain ⟨a, hbuilt, -⟩ | ⟨g, hbuilding, -⟩ | ⟨hstart, hat, hrun⟩ := hcases
    · cases hbuilt
    · cases hbuilding
    have hsound := (Cache.moves_get hs unit .leaf).sound hs
    have hfounded₁ : Founded { s with cache := (s.cache.get unit .leaf).2 } d :=
      ⟨⟨f, (hothers _ hnef.symm).trans hfoundation⟩, (hothers _ hneg.symm).symm ▸ hglobal⟩
    obtain ⟨s', hbuild, hsound', hkept, hgoing⟩ := run_buildLeaf_of_missing
      (s := { s with cache := (s.cache.get unit .leaf).2 }) hsound hfounded₁ hmissing
    obtain ⟨c, hsettle, -⟩ := Cache.settle_finish hsound' ((hkept _ hnef hneg).trans hat) (hgoing _ hrun)
      (.error (.notFound unit.path))
    rw [run_leaf s d hunit, run_getOrBuild_of_started s d hstart hbuild hsettle]

/-! ## Reports of directories -/

/-- **Nothing beneath a directory is forgotten that is not taken for one.** What is kept stays as it is,
unless the directory is named like the global unit. -/
theorem kept_beneath {l : Locator} (hc : l.convention.Accepted) (hroot : Path.isAbsolute l.root = true)
    {base : String} (hbase : Text.asciiLower base = Text.asciiLower l.root) {names : List String}
    (hnames : Place.Named names) (hknows : l.convention.knowsDirectory base names = false) {r : Report}
    (hraw : r.raw = .removed ∨ r.raw = .renamed) (hpaths : r.paths = [names.foldl Path.join base])
    (hunit : unit.Beneath (names.foldl Path.join base)) {c : Cache Artifact} (hsound : c.Sound)
    (htiered : c.Tiered l) :
    ((l.heard [r]).foldl Cache.evicted c).index.get? unit.key = c.index.get? unit.key ∧
      ((∀ own, l.unitOfFile? (names.foldl Path.join base) = some own → l.isGlobal own = false) →
        ((l.heard [r]).foldl Cache.evicted c).at? unit.key = c.at? unit.key) := by
  rw [Locator.heard_of_single hraw hpaths]
  rcases Locator.evictions_of_not_knowsDirectory hroot hbase hnames hknows with
    hgone | ⟨dirs, name, rfl, hsource, hgone, hown⟩
  · rw [hgone]
    exact ⟨rfl, fun _ => rfl⟩
  · have hscript : Path.IsName (l.convention.scriptName name) :=
      Convention.isName_scriptName hc.leaf.ne_empty hc.leaf.noSlash (hnames name (by simp))
    have hne : unit.key ≠ (l.unitAt (dirs ++ [l.convention.scriptName name])).key :=
      Locator.key_ne_of_beneath hroot hbase hnames (hnames.left.append (Place.named_singleton hscript))
        (Convention.isSourceOf_scriptName hc.apart hsource) hunit
    generalize l.unitAt (dirs ++ [l.convention.scriptName name]) = own at hown hne
    have hevictions : (l.convention.gone? ((dirs ++ [name]).foldl Path.join base)).toList.flatMap l.evictions =
        .remove own.key :: if l.isGlobal own then [.tier .leaf] else [] := by
      rw [hgone, Option.toList_some, List.flatMap_singleton, Locator.evictions, hown]
      rfl
    rw [hevictions]
    constructor
    · rw [Cache.get?_index_foldl, if_neg]
      rintro ⟨e, he, hforgets⟩
      rcases List.mem_cons.1 he with rfl | he
      · exact hne hforgets
      · split at he
        · rw [List.mem_singleton.1 he] at hforgets
          exact hforgets
        · cases he
    · intro hplain
      rw [if_neg (ne_true_of_eq_false (hplain own hown))]
      refine Cache.at?_remove_of_ne hsound hne fun id entry hid hentry htier => ?_
      rw [htiered.of_indexed hsound hid hentry] at htier
      have hglobal := Locator.isGlobal_iff.2 (Locator.eq_of_tierOf_eq_siteGlobal htier)
      rw [hplain own hown] at hglobal
      cases hglobal

/-- **What lies beneath a directory that is gone is forgotten if the directory is taken for one, and stays
otherwise.** Whatever the cache has come to hold and build, and for all naming rules that are accepted, let
a directory at the root or below it be reported to be removed or renamed, and a unit lie beneath it, both
in any letter case:

* if the directory is taken for one, the unit is not in the map any more and is out of date, and whoever
  asks for it is told that it is not found, if its files are not and the layers below are there;
* if it is not, a report of nothing else leaves the unit in the map, and unless the directory is named like
  the global unit, whoever asks for the unit gets the artifact of before, whatever is on disk. -/
theorem forgotten_beneath {sys : LayeredSystem} (hsys : sys.Reachable) {site : LiveSite}
    (hlocator : site.locator = sys.locator) (hcache : site.cache = sys.system.cache)
    (hc : site.locator.convention.Accepted) (hroot : Path.isAbsolute site.locator.root = true)
    {base : String} (hbase : Text.eqIgnoringAsciiCase base site.locator.root = true)
    {names : List String} (hnames : Place.Named names) {directory : String}
    (hdirectory : directory = names.foldl Path.join base) {r : Report}
    (hraw : r.raw = .removed ∨ r.raw = .renamed) (hpath : directory ∈ r.paths) {unit : Identity}
    (hunit : unit.Beneath directory) :
    (site.locator.convention.knowsDirectory base names = true →
      (site.hear [r]).cache.index.get? unit.key = none ∧
      sys.system.Outdated { sys.system with cache := (site.hear [r]).cache } unit.key ∧
      ∀ d, (site.hear [r]).Founded d →
        Sources.findUnit ⟨d, site.locator, site.sharedReferences⟩ unit = .error (.notFound unit.path) →
        ((site.hear [r]).run d (leaf unit)).1 = .error (.notFound unit.path)) ∧
    (site.locator.convention.knowsDirectory base names = false → r.paths = [directory] →
      (site.hear [r]).cache.index.get? unit.key = site.cache.index.get? unit.key ∧
      ((∀ own, site.locator.unitOfFile? directory = some own → site.locator.isGlobal own = false) →
        (site.hear [r]).cache.at? unit.key = site.cache.at? unit.key ∧
        ∀ a d, site.cache.at? unit.key = some (.built a) →
          ((site.hear [r]).run d (leaf unit)).1 = .ok a)) := by
  subst hdirectory
  rw [Text.eqIgnoringAsciiCase_iff] at hbase
  have hsound := hsys.coherent.tiered.reachable.sound
  have hafter : (site.hear [r]).cache = (site.locator.heard [r]).foldl Cache.evicted sys.system.cache := by
    rw [hear_eq, hcache]
  constructor
  · intro hknows
    have hmem := Locator.mem_heard_of_knowsDirectory hroot hbase hnames hknows hraw hpath
    have hforgets : Eviction.Forgets (.under (names.foldl Path.join base)) unit.key :=
      hunit.startsWith_above
    have hgone : (site.hear [r]).cache.index.get? unit.key = none := by
      rw [hafter, Cache.get?_index_foldl, if_pos ⟨_, hmem, hforgets⟩]
    refine ⟨hgone, ?_, fun d hfounded hmissing => ?_⟩
    · rw [hafter]
      exact System.outdated_evicted hsound hmem fun entry hkey => by
        rw [Eviction.Covers, hkey]
        exact hunit.startsWith_above
    · have hnone : (site.hear [r]).cache.at? unit.key = none := by
        rw [Cache.at?, hgone]
        rfl
      refine run_leaf_of_missing ?_ hnone hfounded ?_
      · rw [hafter]
        exact (hsound.evicted _).cache
      · rw [hear_eq]
        exact hmissing
  · intro hknows hpaths
    obtain ⟨hindex, hstays⟩ := kept_beneath hc hroot hbase hnames hknows hraw hpaths hunit hsound.cache
      (hlocator ▸ hsys.coherent.tiered.entries)
    rw [← hafter, ← hcache] at hindex hstays
    refine ⟨hindex, fun hplain => ⟨hstays hplain, fun a d hbuilt => ?_⟩⟩
    exact run_leaf_of_built ((hstays hplain).trans hbuilt)

/-- A site with one page in each of two directories, of which one is named like a script. -/
def shelved : LayeredSystem :=
  let page : Identity := ⟨"/srv/site/dir.ks/page.ks", "Site.page"⟩
  let other : Identity := ⟨"/srv/site/sub/page.ks", "Site.page"⟩
  (LayeredSystem.start ⟨"/srv/site", .default⟩ 1000).run [
    .leaf page, .look 0, .ask 0, .look 1, .compile 1 foundationUnit .script [], .answer 1, .take 0,
    .skip 0, .compile 0 page .script [],
    .leaf other, .look 2, .ask 2, .look 3, .take 2, .skip 2, .compile 2 other .script []]

/-- The site as one after the other asks it. -/
def shelvedSite : LiveSite := ⟨shelved.locator, [], shelved.system.cache, shelved.nextSerial⟩

/-- When both directories are renamed, one page goes on being served. -/
theorem forgotten_beneath_dotted : ∃ (page other : Identity) (a : Artifact),
    page.Beneath "/srv/site/dir.ks" ∧ other.Beneath "/srv/site/sub" ∧
    shelvedSite.cache.at? page.key = some (.built a) ∧
    (∀ d, ((shelvedSite.hear [⟨.renamed, ["/srv/site/dir.ks"]⟩]).run d (leaf page)).1 = .ok a) ∧
    shelvedSite.cache.status? other.key = some .built ∧
    ((shelvedSite.hear [⟨.renamed, ["/srv/site/sub"]⟩]).run {} (leaf other)).1 =
      .error (.notFound other.path) := by
  have hreachable : shelved.Reachable := ⟨_, _, _, rfl⟩
  have hlocator : shelvedSite.locator = shelved.locator := by rw [shelvedSite]
  have hcache : shelvedSite.cache = shelved.system.cache := by rw [shelvedSite]
  have hsite : shelvedSite.locator = ⟨"/srv/site", .default⟩ := by decide +kernel
  have hconvention : shelvedSite.locator.convention.Accepted := hsite ▸ Convention.accepted_default
  have hroot : Path.isAbsolute shelvedSite.locator.root = true := by
    rw [hsite]
    decide
  have hbase : Text.eqIgnoringAsciiCase "/srv/site" shelvedSite.locator.root = true := by
    rw [hsite]
    decide +kernel
  have hstatus : shelvedSite.cache.status? (keyOf "/srv/site/dir.ks/page.ks") = some .built := by
    decide +kernel
  obtain ⟨a, ha⟩ := Cache.status?_eq_built_iff.1 hstatus
  have hpage : Identity.Beneath ⟨"/srv/site/dir.ks/page.ks", "Site.page"⟩ "/srv/site/dir.ks" :=
    ⟨"/srv/site/dir.ks", "page.ks", rfl, by decide +kernel⟩
  have hother : Identity.Beneath ⟨"/srv/site/sub/page.ks", "Site.page"⟩ "/srv/site/sub" :=
    ⟨"/srv/site/sub", "page.ks", rfl, by decide +kernel⟩
  refine ⟨_, _, a, hpage, hother, ha, fun d => ?_, by decide +kernel, ?_⟩
  · have hnames : Place.Named ["dir.ks"] := by decide +kernel
    have hdirectory : "/srv/site/dir.ks" = ["dir.ks"].foldl Path.join "/srv/site" := by decide +kernel
    have hknows : shelvedSite.locator.convention.knowsDirectory "/srv/site" ["dir.ks"] = false := by
      rw [hsite]
      decide +kernel
    have hplain : (shelvedSite.locator.unitOfFile? "/srv/site/dir.ks").all
        (fun own => !shelvedSite.locator.isGlobal own) = true := by
      rw [hsite]
      decide +kernel
    have hstays := (forgotten_beneath (r := ⟨.renamed, ["/srv/site/dir.ks"]⟩) hreachable hlocator hcache
      hconvention hroot hbase hnames hdirectory (.inr rfl) (by simp) hpage).2 hknows rfl
    refine (hstays.2 fun own hown => ?_).2 a d ha
    rw [hown] at hplain
    simpa using hplain
  · have hnames : Place.Named ["sub"] := by decide +kernel
    have hdirectory : "/srv/site/sub" = ["sub"].foldl Path.join "/srv/site" := by decide +kernel
    have hknows : shelvedSite.locator.convention.knowsDirectory "/srv/site" ["sub"] = true := by
      rw [hsite]
      decide +kernel
    have hgone := (forgotten_beneath (r := ⟨.renamed, ["/srv/site/sub"]⟩) hreachable hlocator hcache
      hconvention hroot hbase hnames hdirectory (.inr rfl) (by simp) hother).1 hknows
    have hfoundation : (shelvedSite.hear [⟨.renamed, ["/srv/site/sub"]⟩]).cache.status?
        foundationUnit.key = some .built := by decide +kernel
    have hmissing : Sources.findUnit ⟨{}, shelvedSite.locator, shelvedSite.sharedReferences⟩
        ⟨"/srv/site/sub/page.ks", "Site.page"⟩ = .error (.notFound "/srv/site/sub/page.ks") := by
      rw [hsite]
      rfl
    exact hgone.2.2 {}
      ⟨Cache.status?_eq_built_iff.1 hfoundation, .inr (by decide +kernel)⟩ hmissing

end LiveSite

end SiteHost
