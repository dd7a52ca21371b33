import SiteHost.Proofs.Site.Discovered
import SiteHost.Proofs.Site.Reached

/-!
# Files that a build of a whole site accounts for

A build of a whole site gives one artifact or one failure for each unit that is discovered, and one artifact
for the global unit, if its script is there. What is discovered leaves out the global unit by its key, which
is the same in all letter cases, but the script is looked for under its one path:

* `SiteBuild.keys` — the keys that a build accounts for, as often as it does;
* `Locator.Holds.key_spelling?` — a unit keeps its key when it is found under another spelling.

Principal results:

* `Sources.key_of_leaf` — an artifact of a unit has the unit's key;
* `count_outcomes` — every outcome is an artifact or a failure, and not both;
* `LiveSite.buildAll_accounts` — **a build of a whole site accounts for each source file once**, unless the
  file belongs to the global unit and nothing stands at the path of its script.
-/

namespace SiteHost

/-- The keys of all that was built or failed, but for the base library. -/
def SiteBuild.keys (b : SiteBuild) : List String :=
  b.globalUnit.toList.map (·.identity.key) ++ (b.leaves.map (·.identity.key) ++ b.failures.map (·.1.key))

/-! ## Keys of artifacts -/

section Keys

open LiveSite

variable {src : Sources} {root : Place} {unit spelled : Identity} {a : Artifact}

/-- A search for a path leads to one that differs in letter case only. -/
theorem asciiLower_of_searched? {d : Disk} {l : Locator} {names : List String} (hroot : root.Named)
    (hl : l.root = root.path) (hnames : Place.Named names) {found : String}
    (h : searched? d l (names.foldl Path.join l.root) = some found) :
    Text.asciiLower found = Text.asciiLower (names.foldl Path.join l.root) := by
  rw [hl, Place.foldl_join_path hroot hnames] at h ⊢
  rw [searched?_path hroot hl hnames] at h
  obtain ⟨spelled, hspelled, hlower, rfl⟩ := spelled_of_findIgnoringCase hroot hnames h
  rw [← Place.foldl_join_path hroot hnames, ← Place.foldl_join_path hroot hspelled]
  exact Path.asciiLower_foldl_join (Place.isAbsolute_path root) rfl hnames hlower

/-- A unit keeps its key when it is found under another spelling. -/
theorem Locator.Holds.key_spelling? (hc : src.locator.convention.Accepted) (hroot : root.Named)
    (hl : src.locator.root = root.path) (h : src.locator.Holds unit)
    (hfound : src.spelling? unit = some spelled) : spelled.key = unit.key := by
  obtain ⟨dirs, file, hscript, rfl⟩ := h
  unfold Sources.spelling? at hfound
  split at hfound
  · have habs : Path.isAbsolute src.locator.root = true := hl ▸ Place.isAbsolute_path root
    have hmarkup := hscript.named_markup hc.markup.noSlash
    rw [spelledOnDisk?_eq_searched, Locator.markupPath_eq hc.markup.noSlash hscript.file_isName] at hfound
    obtain ⟨path, hpath, hunit⟩ := Option.bind_eq_some_iff.1 hfound
    obtain ⟨name, hname, hsame⟩ : ∃ name, (name = file ∨ name = src.locator.convention.markupName file) ∧
        Text.asciiLower path = Text.asciiLower ((dirs ++ [name]).foldl Path.join src.locator.root) := by
      rcases Option.or_eq_some_iff.1 hpath with hpath | ⟨-, hpath⟩
      · exact ⟨file, .inl rfl, asciiLower_of_searched? hroot hl hscript.named hpath⟩
      · exact ⟨_, .inr rfl, asciiLower_of_searched? hroot hl hmarkup hpath⟩
    obtain ⟨other, hother, hkey⟩ := Locator.unitOfFile?_respelled hc habs hscript hname hsame
    rw [hunit] at hother
    cases hother
    exact hkey
  · cases hfound
    rfl

theorem Sources.spelling?_of_unit {references : List Artifact} (h : src.unit unit references = .ok a) :
    src.spelling? unit = some a.identity := by
  obtain ⟨⟨spelled, texts⟩, hfound, hassemble⟩ := bind_eq_ok.1 h
  rw [(Sources.findUnit_eq_ok_iff_spelling.1 hfound).1, (Sources.assemble_eq_ok hassemble).1]

/-- There is no global unit if and only if nothing stands at the path of its script. -/
theorem Sources.globalUnit_eq_none_iff (src : Sources) :
    src.globalUnit = .ok none ↔ src.disk.exists? src.locator.globalUnit.path = false := by
  constructor
  · intro h
    rw [← Bool.not_eq_true]
    intro hexists
    rw [globalUnit_of_exists hexists] at h
    have hfound : Found src.globalArtifact :=
      .bind src.found_foundation fun _ _ => src.found_unit hexists _
    split at h
    · cases h
    · rename_i path hartifact
      exact hfound path hartifact
    · cases h
  · intro h
    rw [Sources.globalUnit, h]
    rfl

/-- The artifact of the global unit has its key. -/
theorem Sources.key_of_globalUnit (src : Sources) (hc : src.locator.convention.Accepted) (hroot : root.Named)
    (hl : src.locator.root = root.path) (h : src.globalUnit = .ok (some a)) :
    a.identity.key = src.locator.globalUnit.key := by
  have hholds : src.locator.Holds src.locator.globalUnit :=
    ⟨[], _, Locator.namesScript_globalName hc.leaf.ne_empty hc.leaf.noSlash, src.locator.globalUnit_eq⟩
  obtain ⟨f, hartifact⟩ : ∃ f, src.unit src.locator.globalUnit [f] = .ok a := by
    unfold Sources.globalUnit at h
    split at h
    · split at h
      · rename_i hartifact
        cases h
        obtain ⟨f, -, hunit⟩ := bind_eq_ok.1 hartifact
        exact ⟨f, hunit⟩
      · cases h
      · cases h
    · cases h
  exact hholds.key_spelling? hc hroot hl (spelling?_of_unit hartifact)

/-- **An artifact of a unit has the unit's key.** -/
theorem Sources.key_of_leaf (src : Sources) (hc : src.locator.convention.Accepted) (hroot : root.Named)
    (hl : src.locator.root = root.path) (hunit : src.locator.Holds unit) (h : src.leaf unit = .ok a) :
    a.identity.key = unit.key := by
  by_cases hglobal : src.locator.isGlobal unit = true
  · rw [Locator.isGlobal_iff.1 hglobal]
    exact key_of_globalUnit src hc hroot hl ((leaf_eq_ok_iff_globalUnit hglobal).1 h)
  · rw [Sources.leaf, if_neg hglobal] at h
    exact hunit.key_spelling? hc hroot hl (spelling?_of_ordinary h)

end Keys

/-! ## Outcomes -/

/-- **Every outcome is an artifact or a failure**, and not both. -/
theorem count_outcomes {results : List (Identity × Except Failure Artifact)}
    (h : ∀ unit a, (unit, .ok a) ∈ results → a.identity.key = unit.key) (key : String) :
    ((results.filterMap fun p => p.2.toOption).map (·.identity.key) ++
      (results.filterMap fun p => match p.2 with
        | .ok _ => none
        | .error failure => some (p.1, failure)).map (·.1.key)).count key =
      ((results.map Prod.fst).map Identity.key).count key := by
  induction results with
  | nil => rfl
  | cons first rest ih =>
    obtain ⟨unit, result⟩ := first
    have hrest := ih fun u a hmem => h u a (List.mem_cons_of_mem _ hmem)
    simp only [List.count_append] at hrest ⊢
    cases result with
    | ok a =>
      have hkey : a.identity.key = unit.key := h unit a List.mem_cons_self
      simp only [List.filterMap_cons, Except.toOption, List.map_cons, List.count_cons, hkey, ← hrest]
      omega
    | error e =>
      simp only [List.filterMap_cons, Except.toOption, List.map_cons, List.count_cons, ← hrest]
      omega

/-! ## The whole site -/

namespace LiveSite

variable {d : Disk} {l : Locator} {root : Place} {shared : List String} {asked : List Identity}
  {s s' : LiveSite} {build : SiteBuild} {file : String} {unit : Identity}

/-- What a build of a whole site accounts for: the global unit, if there is one, and what is discovered. -/
theorem count_keys (hc : l.convention.Accepted) (hroot : root.Named) (hl : l.root = root.path)
    (hasked : ∀ u ∈ asked, l.Holds u)
    (hs : Remembers ⟨d, l, shared⟩ (Sources.firstBuilt ⟨d, l, shared⟩ asked) [] s)
    (hrun : s.run d buildAll = (.ok build, s')) :
    Sources.globalUnit ⟨d, l, shared⟩ = .ok (build.globalUnit.map Artifact.plain) ∧
      ∃ units, discover d l = .ok units ∧ ∀ key, build.keys.count key =
        (build.globalUnit.toList.map (·.identity.key)).count key + (units.map Identity.key).count key := by
  have hnone : ∀ (key : String) (g : Generation), (key, g) ∉ [] := fun _ _ => List.not_mem_nil
  obtain ⟨s₁, s₂, units, hfoundation, hglobal, hunits, hleaves, hfailures, -⟩ := run_buildAll_eq_ok hrun
  obtain ⟨-, hs₁⟩ := (answering_remembers ⟨d, l, shared⟩ _).yields_foundation (hnone _) s hs
  rw [hfoundation] at hs₁
  obtain ⟨hanswer, hs₂⟩ := (answering_remembers ⟨d, l, shared⟩ _).yields_globalUnit (hnone _) (hnone _) s₁ hs₁
  rw [hglobal] at hanswer hs₂
  dsimp only at hanswer hs₂
  rw [show s₂.locator = l from hs₂.locator] at hunits
  refine ⟨hanswer.symm, units, hunits, fun key => ?_⟩
  have hdiscovered := discovered hroot hl hunits
  have hholds : ∀ u ∈ asked ++ units, l.Holds u := by
    intro u hu
    rcases List.mem_append.1 hu with hu | hu
    · exact hasked u hu
    · obtain ⟨file, -, hfile⟩ := hdiscovered.file u hu
      exact Locator.holds_of_unitOfFile? hc hfile
  obtain ⟨-, hbuilt⟩ := remembers_afterLeaves hs₂ fun u hu => (of_mem_discover hunits hu).1
  -- what was built for a unit is what the first request for its key amounts to, so that it has that key
  have hkeys : ∀ u a, (u, .ok a) ∈ (afterLeaves d s₂ units).1 → a.identity.key = u.key := by
    intro u a hmem
    have hheld := hbuilt u a hmem
    rw [Sources.foldl_remember_firstBuilt] at hheld
    obtain ⟨other, hother, hkey, hleaf⟩ := Sources.exists_of_firstBuilt hheld
    rw [← a.identity_plain, Sources.key_of_leaf ⟨d, l, shared⟩ hc hroot hl (hholds other hother) hleaf, hkey]
  have hcount := count_outcomes hkeys key
  rw [units_afterLeaves] at hcount
  rw [SiteBuild.keys, List.count_append, hleaves, hfailures]
  exact congrArg (_ + ·) hcount

/-- **A build of a whole site accounts for each source file once**, if there is one, on a site that may have
been asked for any units before. The only files it leaves out are those of the global unit, in any letter
case, where nothing stands at the path of the global unit's script. -/
theorem buildAll_accounts (hc : l.convention.Accepted) (hroot : root.Named) (hl : l.root = root.path)
    (hasked : ∀ u ∈ asked, l.Holds u)
    (hs : Remembers ⟨d, l, shared⟩ (Sources.firstBuilt ⟨d, l, shared⟩ asked) [] s)
    (hrun : s.run d buildAll = (.ok build, s')) (hfile : file ∈ d.filesBelow root)
    (hunit : l.unitOfFile? file = some unit) :
    build.keys.count unit.key =
      if l.isGlobal unit = true ∧ d.exists? l.globalUnit.path = false then 0 else 1 := by
  obtain ⟨hglobalUnit, units, hunits, hcount⟩ := count_keys hc hroot hl hasked hs hrun
  have hdiscovered := discovered hroot hl hunits
  have hkey : ∀ g, build.globalUnit = some g → g.identity.key = l.globalUnit.key := by
    intro g hg
    rw [hg] at hglobalUnit
    rw [← g.identity_plain]
    exact Sources.key_of_globalUnit ⟨d, l, shared⟩ hc hroot hl hglobalUnit
  rw [hcount]
  by_cases hglobal : l.isGlobal unit = true
  · have hrest : (units.map Identity.key).count unit.key = 0 := by
      rw [List.count_eq_zero]
      intro hmem
      obtain ⟨other, hother, hsame⟩ := List.mem_map.1 hmem
      exact hdiscovered.ordinary other hother ((Locator.isGlobal_congr hsame).trans hglobal)
    have hthere := Sources.globalUnit_eq_none_iff ⟨d, l, shared⟩
    rw [hglobalUnit] at hthere
    rw [hrest, Locator.isGlobal_iff.1 hglobal]
    cases hg : build.globalUnit with
    | none =>
      rw [hg] at hthere
      rw [if_pos ⟨hglobal, hthere.1 rfl⟩]
      rfl
    | some g =>
      rw [hg] at hthere
      rw [if_neg fun h => by cases hthere.2 h.2]
      simp [hkey g hg]
  · have hfirst : (build.globalUnit.toList.map (·.identity.key)).count unit.key = 0 := by
      rw [List.count_eq_zero]
      intro hmem
      obtain ⟨g, hg, hsame⟩ := List.mem_map.1 hmem
      rw [hkey g (Option.mem_toList.1 hg)] at hsame
      exact hglobal (Locator.isGlobal_iff.2 hsame.symm)
    obtain ⟨other, hother, hsame⟩ := hdiscovered.all file hfile unit hunit hglobal
    rw [hfirst, if_neg fun h => hglobal h.1, Nat.zero_add]
    exact List.count_eq_one_of_mem hdiscovered.nodup (hsame ▸ List.mem_map_of_mem hother)

/-- A build of a whole site gives a result where both layers below the leaves are there. -/
theorem exists_buildAll {src : Sources} {held : String → Option Artifact} {f : Artifact}
    {g : Option Artifact} {units : List Identity} (hs : Remembers src held [] s)
    (hf : src.foundation = .ok f) (hg : src.globalUnit = .ok g)
    (hunits : discover src.disk src.locator = .ok units) :
    ∃ build s', s.run src.disk buildAll = (.ok build, s') := by
  have hnone : ∀ (key : String) (g : Generation), (key, g) ∉ [] := fun _ _ => List.not_mem_nil
  obtain ⟨hanswer₁, hs₁⟩ := (answering_remembers src held).yields_foundation (hnone _) s hs
  rcases hrun₁ : s.run src.disk LiveSite.foundation with ⟨e | f', s₁⟩
  · rw [hrun₁, hf] at hanswer₁
    cases hanswer₁
  rw [hrun₁] at hs₁
  obtain ⟨hanswer₂, hs₂⟩ := (answering_remembers src held).yields_globalUnit (hnone _) (hnone _) s₁ hs₁
  rcases hrun₂ : s₁.run src.disk LiveSite.globalUnit with ⟨e | g', s₂⟩
  · rw [hrun₂, hg] at hanswer₂
    cases hanswer₂
  rw [hrun₂] at hs₂
  rw [← show s₂.locator = src.locator from hs₂.locator] at hunits
  exact ⟨_, _, run_buildAll hrun₁ hrun₂ hunits⟩

/-- A directory with the script of the global unit, whose name is written with a capital. -/
def capitalGlobal (script : String) : Disk :=
  ⟨[], (NameMap.empty.insert "/site" .directory).insert "/site/Global.ks" (.file script.toUTF8)⟩

/-- A build of that site leaves the script out. -/
theorem buildAll_accounts_capital : ∃ build s',
    Convention.default.Accepted ∧ Place.Named ["site"] ∧
    Remembers ⟨capitalGlobal "", ⟨"/site", .default⟩, []⟩
      (Sources.firstBuilt ⟨capitalGlobal "", ⟨"/site", .default⟩, []⟩ []) []
      (Site.liveSite ⟨"/site", .default⟩ {} 0 []) ∧
    (Site.liveSite ⟨"/site", .default⟩ {} 0 []).run (capitalGlobal "") buildAll = (.ok build, s') ∧
    "/site/Global.ks" ∈ (capitalGlobal "").filesBelow ["site"] ∧
    Locator.unitOfFile? ⟨"/site", .default⟩ "/site/Global.ks" = some ⟨"/site/Global.ks", "Site.Global"⟩ ∧
    build.keys.count (Identity.key ⟨"/site/Global.ks", "Site.Global"⟩) = 0 := by
  have hroot : (capitalGlobal "").resolve "/site" = .ok (["site"], .directory) := rfl
  have hfiles : (capitalGlobal "").filesBelow ["site"] = ["/site/Global.ks"] := rfl
  have hasked : ∀ u ∈ ([] : List Identity), Locator.Holds ⟨"/site", .default⟩ u := nofun
  have hunits : discover (capitalGlobal "") ⟨"/site", .default⟩ = .ok [] := by
    rw [discover_of_files hroot hfiles]
    decide +kernel
  have hfresh := remembers_liveSite ⟨"/site", .default⟩ {} (capitalGlobal "") 0 []
  have hfile : "/site/Global.ks" ∈ (capitalGlobal "").filesBelow ["site"] := by
    rw [hfiles]
    exact List.mem_cons_self
  have hunit : Locator.unitOfFile? ⟨"/site", .default⟩ "/site/Global.ks" =
      some ⟨"/site/Global.ks", "Site.Global"⟩ := by decide +kernel
  obtain ⟨build, s', hrun⟩ := exists_buildAll hfresh (foundation_of_no_shared rfl) rfl hunits
  have hcount := buildAll_accounts Convention.accepted_default (by decide) rfl hasked hfresh hrun
    hfile hunit
  rw [if_pos ⟨by decide +kernel, rfl⟩] at hcount
  exact ⟨build, s', Convention.accepted_default, by decide, hfresh, hrun, hfile, hunit, hcount⟩

end LiveSite

end SiteHost
