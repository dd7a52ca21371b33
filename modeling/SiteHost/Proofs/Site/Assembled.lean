import SiteHost.Proofs.Script.Pooled
import SiteHost.Proofs.Site.Tended

/-!
# What a whole site is built of

The artifacts of a build of a whole site belong together: each was compiled against others of the same
build, though any of them may have been in the cache for long.

* `SiteBuild.artifacts`, `SiteBuild.modules` — all that was built;
* `SiteBuild.Whole` — whether every artifact was compiled from its sources against others of the build;
* `LiveSite.afterLeaves` — the leaves of a whole site, one after the other.

Principal results:

* `LiveSite.Arises.held` — what an artifact was linked against is held under the keys of the two layers;
* `LiveSite.Arises.whole` — **a build of a whole site is whole**, after any requests and changes;
* `SiteBuild.Whole.selfContained` — so that each of its modules was linked against others of them.
-/

namespace SiteHost

/-! ## All that was built -/

/-- Every artifact of a build. -/
def SiteBuild.artifacts (b : SiteBuild) : List Artifact :=
  b.foundation :: (b.globalUnit.toList ++ b.leaves)

/-- Every module of a build. -/
def SiteBuild.modules (b : SiteBuild) : List Script.Module := b.artifacts.filterMap Artifact.module?

/-- Whether every artifact of a build was compiled from its sources against others of the build. -/
structure SiteBuild.Whole (b : SiteBuild) : Prop where
  compiled : ∀ a ∈ b.artifacts, ∃ m, a.module? = some m ∧ compile a.sources a.references = .ok m
  references : ∀ a ∈ b.artifacts, ∀ r ∈ a.references, r ∈ b.artifacts

theorem modulesOf_snd (references : List Artifact) :
    (modulesOf references).2 = references.filterMap Artifact.module? := by
  induction references with
  | nil => rfl
  | cons a rest ih =>
    rw [modulesOf, List.filterMap_cons]
    cases a.module? with
    | none => exact ih
    | some m => exact congrArg (m :: ·) ih

/-- What is compiled is linked. -/
theorem link_of_compile {sources : List SourceText} {references : List Artifact} {m : Script.Module}
    (h : compile sources references = .ok m) :
    Script.link m.units m.references = .ok m ∧
      m.references = references.filterMap Artifact.module? := by
  unfold compile at h
  dsimp only at h
  split at h
  · cases h
  · obtain ⟨-, hm⟩ := Script.faultless_of_link h
    have hunits : m.units = (unitsOf sources).2 := by rw [hm]; rfl
    have hreferences : m.references = (modulesOf references).2 := by rw [hm]; rfl
    rw [← modulesOf_snd, ← hreferences, hunits]
    exact ⟨hreferences ▸ h, rfl⟩

/-- Every source of what is compiled is one of its units. -/
theorem exists_unit_of_compile {sources : List SourceText} {references : List Artifact} {m : Script.Module}
    (h : compile sources references = .ok m) {s : SourceText} (hs : s ∈ sources) :
    ∃ u ∈ m.units, Script.parse s.path s.text = .ok u := by
  have hunits : ∀ found : List SourceText, (unitsOf found).1 = [] → ∀ s ∈ found,
      ∃ u ∈ (unitsOf found).2, Script.parse s.path s.text = .ok u := by
    intro found
    induction found with
    | nil => exact fun _ => List.forall_mem_nil _
    | cons first rest ih =>
      intro hnone
      rw [unitsOf] at hnone ⊢
      cases hparse : Script.parse first.path first.text with
      | error e =>
        rw [hparse] at hnone
        cases hnone
      | ok u =>
        rw [hparse] at hnone
        refine List.forall_mem_cons.2 ⟨⟨u, List.mem_cons_self, hparse⟩, fun s hs => ?_⟩
        obtain ⟨v, hv, hother⟩ := ih hnone s hs
        exact ⟨v, List.mem_cons_of_mem u hv, hother⟩
  unfold compile at h
  dsimp only at h
  split at h
  · cases h
  · rename_i herrors
    have hnone : (unitsOf sources).1 ++ (modulesOf references).1 = [] := by simpa using herrors
    obtain ⟨-, rfl⟩ := Script.faultless_of_link h
    exact hunits sources (List.append_eq_nil_iff.1 hnone).1 s hs

/-- **Each module of a whole build was linked against others of them.** -/
theorem SiteBuild.Whole.selfContained {b : SiteBuild} (h : b.Whole) :
    Script.SelfContained b.modules := by
  intro m hm
  obtain ⟨a, ha, hmodule⟩ := List.mem_filterMap.1 hm
  obtain ⟨m', hmodule', hcompile⟩ := h.compiled a ha
  rw [hmodule] at hmodule'
  cases hmodule'
  obtain ⟨hlink, hreferences⟩ := link_of_compile hcompile
  refine ⟨hlink, fun r hr => ?_⟩
  rw [hreferences] at hr
  obtain ⟨other, hother, hr⟩ := List.mem_filterMap.1 hr
  exact List.mem_filterMap.2 ⟨other, h.references a ha other hother, hr⟩

/-! ## Builds of a whole site -/

namespace LiveSite

variable {s s' : LiveSite} {d : Disk} {l : Locator} {build : SiteBuild} {units : List Identity}

/-- The outcomes of leaves that are built one after the other, and the site that this leaves. -/
def afterLeaves (d : Disk) : LiveSite → List Identity →
    List (Identity × Except Failure Artifact) × LiveSite
  | s, [] => ([], s)
  | s, unit :: rest =>
    let (result, s) := s.run d (leaf unit)
    let (results, s) := afterLeaves d s rest
    ((unit, result) :: results, s)

theorem afterLeaves_nil (d : Disk) (s : LiveSite) : afterLeaves d s [] = ([], s) := by
  rw [afterLeaves]

theorem afterLeaves_cons (d : Disk) (s : LiveSite) (unit : Identity) (rest : List Identity) :
    afterLeaves d s (unit :: rest) =
      ((unit, (s.run d (leaf unit)).1) :: (afterLeaves d (s.run d (leaf unit)).2 rest).1,
        (afterLeaves d (s.run d (leaf unit)).2 rest).2) := by
  rw [afterLeaves]

/-- No leaf keeps the others from being built. -/
theorem run_mapM_leaf (s : LiveSite) (d : Disk) (units : List Identity) :
    s.run d (units.mapM fun unit => do return (unit, ← outcome (leaf unit))) =
      (.ok (afterLeaves d s units).1, (afterLeaves d s units).2) := by
  induction units generalizing s with
  | nil =>
    rw [List.mapM_nil, afterLeaves_nil]
    rfl
  | cons unit rest ih =>
    have hfirst : s.run d (do return (unit, ← outcome (leaf unit))) =
        (.ok (unit, (s.run d (leaf unit)).1), (s.run d (leaf unit)).2) := by
      rw [run_bind, run_outcome]
      rfl
    rw [List.mapM_cons, run_bind, hfirst]
    dsimp only
    rw [run_bind, ih, afterLeaves_cons]
    rfl

/-- What a build of a whole site is made of. -/
theorem run_buildAll {s₁ s₂ : LiveSite} {f : Artifact} {g : Option Artifact}
    (hf : s.run d foundation = (.ok f, s₁)) (hg : s₁.run d globalUnit = (.ok g, s₂))
    (hunits : discover d s₂.locator = .ok units) : s.run d buildAll =
      (.ok ⟨f, g, (afterLeaves d s₂ units).1.filterMap fun p => p.2.toOption,
        (afterLeaves d s₂ units).1.filterMap fun p => match p.2 with
          | .ok _ => none
          | .error failure => some (p.1, failure)⟩, (afterLeaves d s₂ units).2) := by
  have hget : ∀ s : LiveSite, s.run d (get : Build LiveSite) = (.ok s, s) := fun _ => rfl
  have hread : ∀ s : LiveSite, s.run d (read : Build Disk) = (.ok d, s) := fun _ => rfl
  simp only [buildAll, run_bind, hget, hread, hf, hg, hunits]
  rw [run_mapM_leaf]
  rfl

/-- A build of a whole site comes about in no other way. -/
theorem run_buildAll_eq_ok (h : s.run d buildAll = (.ok build, s')) :
    ∃ s₁ s₂ units, s.run d foundation = (.ok build.foundation, s₁) ∧
      s₁.run d globalUnit = (.ok build.globalUnit, s₂) ∧ discover d s₂.locator = .ok units ∧
      build.leaves = (afterLeaves d s₂ units).1.filterMap (fun p => p.2.toOption) ∧
      build.failures = (afterLeaves d s₂ units).1.filterMap (fun p => match p.2 with
        | .ok _ => none
        | .error failure => some (p.1, failure)) ∧ s' = (afterLeaves d s₂ units).2 := by
  have hget : ∀ s : LiveSite, s.run d (get : Build LiveSite) = (.ok s, s) := fun _ => rfl
  have hread : ∀ s : LiveSite, s.run d (read : Build Disk) = (.ok d, s) := fun _ => rfl
  have hsteps := h
  simp only [buildAll, run_bind, hget, hread] at hsteps
  rcases hf : s.run d foundation with ⟨e | f, s₁⟩
  · rw [hf] at hsteps
    cases hsteps
  rw [hf] at hsteps
  dsimp only at hsteps
  rcases hg : s₁.run d globalUnit with ⟨e | g, s₂⟩
  · rw [hg] at hsteps
    cases hsteps
  rw [hg] at hsteps
  dsimp only at hsteps
  cases hunits : discover d s₂.locator with
  | error e =>
    rw [hunits] at hsteps
    cases hsteps
  | ok units =>
    rw [run_buildAll hf hg hunits] at h
    cases h
    exact ⟨s₁, s₂, units, rfl, hg, hunits, rfl, rfl, rfl⟩

/-- Of units with one key the first is kept. -/
theorem mem_of_mem_distinct {us : List Identity} {u : Identity} (h : u ∈ distinct us) : u ∈ us := by
  induction us with
  | nil => exact h
  | cons v rest ih =>
    rcases List.mem_cons.1 h with rfl | h
    · exact List.mem_cons_self
    · exact List.mem_cons_of_mem v (ih (List.mem_of_mem_filter h))

/-- The units of a whole site are those of the files below its root, each key once. -/
theorem discover_eq_ok (h : discover d l = .ok units) : ∃ place, d.resolve l.root = .ok (place, .directory) ∧
    units.Perm (distinct (((d.filesBelow place).filterMap l.unitOfFile?).filter fun u => !l.isGlobal u)) := by
  unfold discover at h
  cases hresolve : d.resolve l.root with
  | error e =>
    rw [hresolve] at h
    cases h
  | ok found =>
    obtain ⟨place, node⟩ := found
    rw [hresolve] at h
    cases node with
    | file content => cases h
    | directory =>
      cases h
      exact ⟨place, rfl, List.mergeSort_perm _ _⟩

/-- The units of a whole site are files, and none is the global unit. -/
theorem of_mem_discover (h : discover d l = .ok units) {unit : Identity} (hunit : unit ∈ units) :
    unit.key ≠ foundationUnit.key ∧ ¬ l.isGlobal unit = true := by
  obtain ⟨place, -, hunits⟩ := discover_eq_ok h
  obtain ⟨hmem, hglobal⟩ := List.mem_filter.1 (mem_of_mem_distinct (hunits.mem_iff.1 hunit))
  obtain ⟨path, -, hfile⟩ := List.mem_filterMap.1 hmem
  exact ⟨Locator.key_ne_of_unitOfFile? hfile, by simpa using hglobal⟩

/-- Leaves are requests one after the other. -/
theorem Arises.leaves (h : s.Arises l) (d : Disk)
    (hunits : ∀ unit ∈ units, unit.key ≠ foundationUnit.key) :
    (afterLeaves d s units).2.Arises l := by
  induction units generalizing s with
  | nil => rwa [afterLeaves_nil]
  | cons unit rest ih =>
    obtain ⟨hunit, hrest⟩ := List.forall_mem_cons.1 hunits
    rw [afterLeaves_cons]
    exact ih (h.leaf d unit hunit) hrest

/-- **Each leaf that has been built is held when all are done.** -/
theorem tends_afterLeaves {src : Sources} {absent : Prop} (hs : Tended src absent [] s)
    (hgone : absent → src.disk.exists? src.locator.globalUnit.path = false)
    (hunits : ∀ unit ∈ units, unit.key ≠ foundationUnit.key ∧ ¬ src.locator.isGlobal unit = true) :
    Tended src absent [] (afterLeaves src.disk s units).2 ∧
      s.cache.Keeps (afterLeaves src.disk s units).2.cache ∧
      ∀ unit a, (unit, .ok a) ∈ (afterLeaves src.disk s units).1 → unit ∈ units ∧
        (afterLeaves src.disk s units).2.cache.at? unit.key = some (.built a) := by
  induction units generalizing s with
  | nil =>
    rw [afterLeaves_nil]
    exact ⟨hs, .refl _, nofun⟩
  | cons unit rest ih =>
    obtain ⟨⟨hunit, hglobal⟩, hrest⟩ := List.forall_mem_cons.1 hunits
    obtain ⟨htended, hkeeps, hends⟩ := tends_leaf hgone hunit s hs
    obtain ⟨hlast, hkept, hheld⟩ := ih htended hrest
    rw [afterLeaves_cons]
    refine ⟨hlast, hkeeps.trans hkept, fun other a hmem => ?_⟩
    rcases List.mem_cons.1 hmem with heq | hmem
    · obtain ⟨rfl, hok⟩ := Prod.mk.inj heq
      exact ⟨List.mem_cons_self, hkept _ a ((hends hglobal a).2 hok.symm)⟩
    · obtain ⟨hother, hat⟩ := hheld other a hmem
      exact ⟨List.mem_cons_of_mem unit hother, hat⟩

/-- **What an artifact was linked against is held** under the keys of the two layers below. -/
theorem Arises.held (h : s.Arises l) {key : String} {a : Artifact}
    (hat : s.cache.at? key = some (.built a)) {r : Artifact} (hr : r ∈ a.references) :
    s.cache.at? foundationUnit.key = some (.built r) ∨
      s.cache.at? l.globalUnit.key = some (.built r) := by
  have htended := h.tended default
  obtain ⟨id, hid, hstate⟩ := Cache.at?_eq_some_iff.1 hat
  obtain ⟨e, he, -⟩ := htended.orderly.sound.index key id hid
  have hbuilt : e.state = .built a := by
    rw [Cache.state?, he] at hstate
    exact Option.some.inj hstate
  have htier : e.tier = l.tierOf key := htended.orderly.tiers key id hid e he
  have hlinked := fun hne => h.references ⟨key, hid⟩ he hne hbuilt
  rw [htier, show s.locator = l from htended.locator] at hlinked
  have hmade : Made (l.tierOf key) a := (htended.orderly.built key a hat).made
  generalize l.tierOf key = tier at hmade hlinked
  have hagainst := hmade.against
  generalize a.references = references at hagainst hlinked hr
  cases hagainst with
  | foundation => cases hr
  | siteGlobal hfoundation =>
    obtain ⟨⟨f, hhead, hf⟩, -⟩ := hlinked (by decide)
    cases hhead
    rw [List.mem_singleton.1 hr]
    exact .inl hf
  | leaf hfoundation hglobal =>
    obtain ⟨⟨f, hhead, hf⟩, hglobals⟩ := hlinked (by decide)
    cases hhead
    rcases List.mem_cons.1 hr with rfl | hr
    · exact .inl hf
    · exact .inr (hglobals r (List.mem_cons_of_mem _ hr) (hglobal r (Option.mem_toList.1 hr)))

/-- A build of a whole site is a sequence of requests. -/
theorem Arises.buildAll (h : s.Arises l) (hrun : s.run d LiveSite.buildAll = (.ok build, s')) :
    s'.Arises l := by
  obtain ⟨s₁, s₂, units, hfoundation, hglobal, hunits, -, -, rfl⟩ := run_buildAll_eq_ok hrun
  have h₁ := h.foundation d
  rw [show s.run d LiveSite.foundation = _ from hfoundation] at h₁
  have h₂ := h₁.globalUnit d
  rw [show s₁.run d LiveSite.globalUnit = _ from hglobal] at h₂
  exact h₂.leaves d fun unit hunit => (of_mem_discover hunits hunit).1

/-- **What a build of a whole site leaves.** All of it is held then, and no global unit but its own. -/
theorem held_buildAll {src : Sources} (hs : Tended src False [] s)
    (hrun : s.run src.disk buildAll = (.ok build, s')) :
    s'.cache.at? foundationUnit.key = some (.built build.foundation) ∧
      (∀ g, s'.cache.at? src.locator.globalUnit.key = some (.built g) ↔ build.globalUnit = some g) ∧
      ∀ a ∈ build.artifacts, ∃ key, s'.cache.at? key = some (.built a) := by
  have hnone : ∀ (key : String) (g : Generation), (key, g) ∉ [] := fun _ _ => List.not_mem_nil
  obtain ⟨s₁, s₂, units, hfoundation, hglobal, hunits, hleaves, -, rfl⟩ := run_buildAll_eq_ok hrun
  have hcall₁ := tends_foundation (hnone _) s hs
  rw [hfoundation] at hcall₁
  obtain ⟨h₁, -, hat₁, -⟩ := hcall₁
  have hcall₂ := tends_globalUnit nofun (hnone _) (hnone _) s₁ h₁
  rw [hglobal] at hcall₂
  obtain ⟨h₂, hkeeps₂, hat₂, hgone⟩ := hcall₂
  dsimp only at h₂ hkeeps₂ hat₁ hat₂ hgone
  -- if there is no global unit now, there will be none until all leaves are built
  have hwithout : Tended src (build.globalUnit = none) [] s₂ := h₂.without fun hn a hat => by
    have hsame := (hat₂ a).1 hat
    rw [hn] at hsame
    cases hsame
  rw [h₂.locator] at hunits
  obtain ⟨h₃, hkeeps₃, hheld⟩ := tends_afterLeaves hwithout (fun hn => hgone (congrArg _ hn))
    fun unit hunit => of_mem_discover hunits hunit
  generalize afterLeaves src.disk s₂ units = last at hleaves h₃ hkeeps₃ hheld ⊢
  have hf := hkeeps₃ _ _ (hkeeps₂ _ _ ((hat₁ build.foundation).2 rfl))
  have hg : ∀ g, build.globalUnit = some g →
      last.2.cache.at? src.locator.globalUnit.key = some (.built g) :=
    fun g hbuilt => hkeeps₃ _ _ ((hat₂ g).2 (congrArg _ hbuilt))
  refine ⟨hf, fun g => ⟨fun hat => ?_, hg g⟩, fun a ha => ?_⟩
  · cases hbuilt : build.globalUnit with
    | none => exact absurd rfl ((h₃.orderly.built _ g hat).present hbuilt)
    | some g' =>
      rw [hg g' hbuilt] at hat
      cases hat
      rfl
  · rcases List.mem_cons.1 ha with rfl | ha
    · exact ⟨_, hf⟩
    · rcases List.mem_append.1 ha with ha | ha
      · exact ⟨_, hg a (Option.mem_toList.1 ha)⟩
      · rw [hleaves] at ha
        obtain ⟨⟨unit, result⟩, hmem, hresult⟩ := List.mem_filterMap.1 ha
        cases result with
        | error e => cases hresult
        | ok b =>
          cases hresult
          exact ⟨_, (hheld unit a hmem).2⟩

/-- **A build of a whole site is whole**, after any requests and changes. -/
theorem Arises.whole (h : s.Arises l) (hrun : s.run d LiveSite.buildAll = (.ok build, s')) :
    build.Whole := by
  have harises := h.buildAll hrun
  obtain ⟨hf, hg, hall⟩ := held_buildAll (h.tended d) hrun
  refine ⟨fun a ha => ?_, fun a ha r hr => ?_⟩
  · obtain ⟨key, hat⟩ := hall a ha
    exact ((harises.tended d).orderly.built key a hat).made.compiled
  · obtain ⟨key, hat⟩ := hall a ha
    rcases harises.held hat hr with hat | hat
    · rw [hf] at hat
      cases hat
      exact List.mem_cons_self
    · have hr := Option.mem_toList.2 ((hg r).1 hat)
      exact List.mem_cons_of_mem _ (List.mem_append_left _ hr)

end LiveSite

/-! ## What a whole site amounts to -/

section Warm

open LiveSite

variable {src : Sources} {root : Place} {s : LiveSite} {units : List Identity}

/-- If every leaf amounts to something, so do the leaves that are built one after the other. -/
theorem Warm.leaves (hs : Warm src [] s) (hl : src.locator.At root) (hsame : src.Consistent)
    {leaves : List (Identity × Artifact)}
    (hleaves : ∀ p ∈ leaves, src.locator.Asked p.1 ∧ src.leaf p.1 = .ok p.2) :
    ∃ built : List (Identity × Artifact), built.map (fun p => p.2.plain) = leaves.map Prod.snd ∧
      (afterLeaves src.disk s (leaves.map Prod.fst)).1 = built.map fun p => (p.1, .ok p.2) := by
  induction leaves generalizing s with
  | nil => exact ⟨[], rfl, by rw [List.map_nil, afterLeaves_nil]; rfl⟩
  | cons first rest ih =>
    obtain ⟨⟨hunit, hleaf⟩, hrest⟩ := List.forall_mem_cons.1 hleaves
    obtain ⟨hanswer, hwarm⟩ := yields_leaf hl hsame hunit s hs
    obtain ⟨built, hbuilt, hafter⟩ := ih hwarm hrest
    rw [hleaf] at hanswer
    rw [List.map_cons, List.map_cons, afterLeaves_cons, hafter]
    cases hresult : (s.run src.disk (leaf first.1)).1 with
    | error e =>
      rw [hresult] at hanswer
      cases hanswer
    | ok a =>
      rw [hresult] at hanswer
      exact ⟨(first.1, a) :: built, congrArg₂ List.cons (Except.ok.inj hanswer) hbuilt, rfl⟩

/-- **A build of a whole site gives what its sources amount to**, if every leaf amounts to something. -/
theorem Warm.buildAll (hs : Warm src [] s) (hl : src.locator.At root) (hsame : src.Consistent)
    {f : Artifact} {g : Option Artifact} (leaves : List (Identity × Artifact))
    (hf : src.foundation = .ok f) (hg : src.globalUnit = .ok g)
    (hunits : discover src.disk src.locator = .ok (leaves.map Prod.fst))
    (hleaves : ∀ p ∈ leaves, src.locator.Asked p.1 ∧ src.leaf p.1 = .ok p.2) :
    ∃ build s', s.run src.disk LiveSite.buildAll = (.ok build, s') ∧ build.failures = [] ∧
      build.artifacts.map Artifact.plain = f :: (g.toList ++ leaves.map Prod.snd) := by
  have hnone : ∀ (key : String) (g : Generation), (key, g) ∉ [] := fun _ _ => List.not_mem_nil
  obtain ⟨hanswer₁, hs₁⟩ := (answering_warm hl).yields_foundation (hnone _) s hs
  rcases hrun₁ : s.run src.disk LiveSite.foundation with ⟨e | f', s₁⟩
  · rw [hrun₁, hf] at hanswer₁
    cases hanswer₁
  rw [hrun₁, hf] at hanswer₁
  rw [hrun₁] at hs₁
  obtain ⟨hanswer₂, hs₂⟩ := (answering_warm hl).yields_globalUnit (hnone _) (hnone _) s₁ hs₁
  rcases hrun₂ : s₁.run src.disk LiveSite.globalUnit with ⟨e | g', s₂⟩
  · rw [hrun₂, hg] at hanswer₂
    cases hanswer₂
  rw [hrun₂, hg] at hanswer₂
  rw [hrun₂] at hs₂
  have hlocator : s₂.locator = src.locator := hs₂.locator
  obtain ⟨built, hbuilt, hafter⟩ := hs₂.leaves hl hsame hleaves
  rw [← hlocator] at hunits
  refine ⟨_, _, run_buildAll hrun₁ hrun₂ hunits, ?_, ?_⟩
  · change ((afterLeaves src.disk s₂ (leaves.map Prod.fst)).1.filterMap _) = []
    rw [hafter, List.filterMap_map]
    exact List.filterMap_eq_nil_iff.2 fun _ _ => rfl
  · have hfoundation : f'.plain = f := Except.ok.inj hanswer₁
    have hglobal : g'.map Artifact.plain = g := Except.ok.inj hanswer₂
    have htoOption : (afterLeaves src.disk s₂ (leaves.map Prod.fst)).1.filterMap (fun p => p.2.toOption) =
        built.map Prod.snd := by
      rw [hafter, List.filterMap_map, ← List.filterMap_eq_map]
      rfl
    rw [SiteBuild.artifacts]
    dsimp only
    rw [htoOption, List.map_cons, List.map_append, List.map_map, ← hfoundation, ← hglobal, ← hbuilt]
    cases g' <;> rfl

end Warm

end SiteHost
