import SiteHost.Proofs.Cache.Keys
import SiteHost.Proofs.Site.Sources

/-!
# What builds yield

A build reads the disk and changes the site it runs on. It is compared with a function of the disk
alone:

* `LiveSite.run_bind`, `LiveSite.run_tryCatch` — how a build is run, step by step;
* `LiveSite.run_getOrBuild_of_hit`, `LiveSite.run_getOrBuild_of_started` — how a call is run, whose unit is
  held or has to be built;
* `Yields` — on every site of some kind, a build gives a certain answer and leaves the site of that
  kind;
* `Settled` — a kind of sites with the same place, naming rules and shared references;
* `Answering` — kinds of sites on which calls for the two shared layers give what their builds do.

Principal results:

* `yields_buildUnit`, `yields_buildFoundation` — a build gives what the sources amount to;
* `Answering.yields_foundation`, `Answering.yields_globalUnit`, `Answering.yields_ordinary` — so does each
  layer, where calls give what their builds do.
-/

namespace SiteHost

/-! ## Running builds -/

namespace LiveSite

variable {α β : Type} (s : LiveSite) (d : Disk)

/-- One build after another: the second runs on what the first leaves, unless that fails. -/
theorem run_bind (x : Build α) (f : α → Build β) :
    s.run d (x >>= f) = match s.run d x with
      | (.ok a, s) => s.run d (f a)
      | (.error e, s) => (.error e, s) := by
  simp only [run, bind, ExceptT.bind, ExceptT.mk, ExceptT.bindCont, ReaderT.bind, ReaderT.run,
    StateT.bind, StateT.run, ExceptT.run, Id.run]
  rcases x d s with ⟨result | result, s⟩ <;> rfl

/-- A build that fails is followed by another, on the site that it leaves. -/
theorem run_tryCatch (x : Build α) (f : Failure → Build α) :
    s.run d (tryCatch x f) = match s.run d x with
      | (.ok a, s) => (.ok a, s)
      | (.error e, s) => s.run d (f e) := by
  simp only [run, tryCatch, tryCatchThe, MonadExceptOf.tryCatch, ExceptT.tryCatch, ExceptT.mk,
    bind, ReaderT.bind, ReaderT.run, StateT.bind, StateT.run, ExceptT.run, Id.run]
  rcases x d s with ⟨result | result, s⟩ <;> rfl

theorem run_map (f : α → β) (x : Build α) :
    s.run d (f <$> x) = ((s.run d x).1.map f, (s.run d x).2) := by
  rw [map_eq_pure_bind, run_bind]
  rcases s.run d x with ⟨result | result, s⟩ <;> rfl

/-- The outcome of a build is there even if the build fails. -/
theorem run_outcome (x : Build α) :
    s.run d (outcome x) = (.ok (s.run d x).1, (s.run d x).2) := by
  unfold outcome
  rw [run_tryCatch, run_map]
  rcases s.run d x with ⟨result | result, s⟩ <;> rfl

theorem run_onCache (step : Cache Artifact → α × Cache Artifact) :
    s.run d (onCache step) = (.ok (step s.cache).1, { s with cache := (step s.cache).2 }) := rfl

/-- Who ends a build is told its result. -/
theorem run_conclude {g : Generation} {ending : Ending Artifact} {r : Except Failure Artifact}
    {c : Cache Artifact} (h : (s.cache.finish g ending).settle g = some (r, c)) :
    s.run d (conclude g ending) = (r, { s with cache := c }) := by
  unfold conclude
  rw [run_bind, run_onCache]
  dsimp only
  rw [h]
  cases r <;> rfl

/-- Who starts a build ends it with its outcome. -/
theorem getOrBuild_eq (unit : Identity) (tier : Tier) (build : Build Artifact) :
    getOrBuild unit tier build = (do
      match ← onCache fun c => c.get unit tier with
      | .hit artifact => return artifact
      | .joined g => conclude g .timedOut
      | .started g => conclude g (.returned (← outcome build))) := rfl

/-- Who finds an artifact is given it. -/
theorem run_getOrBuild_of_hit {unit : Identity} {tier : Tier} {a : Artifact}
    (h : (s.cache.get unit tier).1 = .hit a) (build : Build Artifact) :
    s.run d (getOrBuild unit tier build) = (.ok a, { s with cache := (s.cache.get unit tier).2 }) := by
  rw [getOrBuild_eq, run_bind, run_onCache]
  dsimp only
  rw [h]
  rfl

/-- Who has to build does so, and is told the result. -/
theorem run_getOrBuild_of_started {unit : Identity} {tier : Tier} {g : Generation} {build : Build Artifact}
    {r told : Except Failure Artifact} {s' : LiveSite} {c : Cache Artifact}
    (h : (s.cache.get unit tier).1 = .started g)
    (hrun : ({ s with cache := (s.cache.get unit tier).2 } : LiveSite).run d build = (r, s'))
    (hsettle : (s'.cache.finish g (.returned r)).settle g = some (told, c)) :
    s.run d (getOrBuild unit tier build) = (told, { s' with cache := c }) := by
  rw [getOrBuild_eq, run_bind, run_onCache]
  dsimp only
  rw [h]
  dsimp only
  rw [run_bind, run_outcome, hrun]
  dsimp only
  rw [run_conclude s' d hsettle]

/-- The global unit is not asked for if its script is neither built nor on disk. -/
theorem run_globalUnit : s.run d globalUnit =
    if s.cache.status? s.locator.globalUnit.key ≠ some .built &&
        !d.exists? s.locator.globalUnit.path then (.ok none, s)
    else match s.run d (getOrBuild s.locator.globalUnit .siteGlobal do
        buildUnit s.locator.globalUnit .siteGlobal [← foundation]) with
      | (.ok a, s) => (.ok (some a), s)
      | (.error (.notFound _), s) => (.ok none, s)
      | (.error failure, s) => (.error failure, s) := by
  have hget : s.run d (get : Build LiveSite) = (.ok s, s) := rfl
  have hread : s.run d (read : Build Disk) = (.ok d, s) := rfl
  simp only [globalUnit, run_bind, hget, hread]
  split
  · rfl
  · simp only [run_bind, run_tryCatch, run_map]
    rcases s.run d (getOrBuild _ _ _) with ⟨e | a, s'⟩
    · cases e <;> rfl
    · rfl

/-- The build of a unit that is not the global one. It asks for the layers below. -/
def buildLeaf (unit : Identity) : Build Artifact := do
  let foundation ← foundation
  let globalUnit ← globalUnit
  buildUnit unit .leaf (foundation :: globalUnit.toList)

theorem run_leaf {unit : Identity} (h : ¬ s.locator.isGlobal unit = true) :
    s.run d (leaf unit) = s.run d (getOrBuild unit .leaf (buildLeaf unit)) := by
  have hget : s.run d (get : Build LiveSite) = (.ok s, s) := rfl
  rw [leaf, run_bind, hget]
  dsimp only
  rw [if_neg h]
  rfl

end LiveSite

/-! ## Answers of builds -/

/-- On every site of a kind, a build gives an answer of which only `view` counts, and leaves the
site of that kind. -/
def Yields {α β : Type} (d : Disk) (kind : LiveSite → Prop) (x : Build α) (view : α → β)
    (answer : Except Failure β) : Prop :=
  ∀ s, kind s → (s.run d x).1.map view = answer ∧ kind (s.run d x).2

/-- A kind of sites that lie in one place, with the same naming rules and shared references. -/
structure Settled (src : Sources) (kind : LiveSite → Prop) : Prop where
  locator : ∀ s, kind s → s.locator = src.locator
  shared : ∀ s, kind s → s.sharedReferences = src.sharedReferences
  serial : ∀ s n, kind s → kind { s with nextSerial := n }

namespace Yields

variable {α β γ δ : Type} {d : Disk} {kind : LiveSite → Prop} {view : α → β}

theorem pure (a : α) : Yields d kind (pure a) view (.ok (view a)) := fun _ h => ⟨rfl, h⟩

theorem throw (e : Failure) : Yields d kind (throw e) view (.error e) := fun _ h => ⟨rfl, h⟩

theorem bind {x : Build α} {f : α → Build γ} {view' : γ → δ} {answer : Except Failure β}
    {after : β → Except Failure δ} (hx : Yields d kind x view answer)
    (hf : ∀ a, answer = .ok (view a) → Yields d kind (f a) view' (after (view a))) :
    Yields d kind (x >>= f) view' (answer >>= after) := by
  intro s hs
  obtain ⟨hanswer, hkind⟩ := hx s hs
  rw [LiveSite.run_bind]
  rcases hrun : s.run d x with ⟨e | a, s'⟩
  · rw [hrun] at hanswer hkind
    subst hanswer
    exact ⟨rfl, hkind⟩
  · rw [hrun] at hanswer hkind
    subst hanswer
    exact hf a rfl s' hkind

theorem get_bind {f : LiveSite → Build α} {answer : Except Failure β}
    (h : ∀ s, kind s → Yields d kind (f s) view answer) :
    Yields d kind (get >>= f) view answer := fun s hs => h s hs s hs

theorem read_bind {f : Disk → Build α} {answer : Except Failure β}
    (h : Yields d kind (f d) view answer) : Yields d kind (read >>= f) view answer :=
  fun s hs => h s hs

theorem mapM {f : α → Build γ} {g : α → Except Failure γ}
    (h : ∀ a, Yields d kind (f a) id (g a)) (xs : List α) :
    Yields d kind (xs.mapM f) id (xs.mapM g) := by
  induction xs with
  | nil => exact pure []
  | cons a rest ih =>
    rw [List.mapM_cons, List.mapM_cons]
    exact bind (h a) fun b _ => bind ih fun bs _ => pure (b :: bs)

end Yields

/-! ## Builds of units -/

section Units

open LiveSite

variable {src : Sources} {kind : LiveSite → Prop}

theorem yields_readOptional (unit : Identity) (path : String) :
    Yields src.disk kind (readOptional unit path) id (src.readOptional unit path) := by
  refine .read_bind ?_
  unfold Sources.readOptional
  cases src.disk.readText? path with
  | ok text => exact .pure text
  | error e => exact .throw _

theorem yields_readUnit (hkind : Settled src kind) (unit : Identity) :
    Yields src.disk kind (readUnit unit) id (src.readUnit unit) := by
  refine .bind (yields_readOptional unit unit.path) fun script _ => .get_bind fun s hs => ?_
  rw [hkind.locator s hs]
  refine .bind (yields_readOptional unit _) fun markup _ => ?_
  dsimp only [id]
  split
  · exact .pure none
  · exact .pure _

theorem yields_findUnit (hkind : Settled src kind) (unit : Identity) :
    Yields src.disk kind (findUnit unit) id (src.findUnit unit) := by
  refine .bind (yields_readUnit hkind unit) fun texts? _ => ?_
  cases texts? with
  | some texts => exact .pure _
  | none =>
    refine .read_bind (.get_bind fun s hs => ?_)
    rw [hkind.locator s hs]
    dsimp only [id]
    cases spelledOnDisk? src.disk src.locator unit with
    | none => exact .throw _
    | some spelled =>
      refine .bind (yields_readUnit hkind spelled) fun texts? _ => ?_
      cases texts? with
      | some texts => exact .pure _
      | none => exact .throw _

theorem yields_compileUnit (hkind : Settled src kind) (unit : Identity) (tier : Tier)
    (unitKind : UnitKind) (texts : List SourceText) (references : List Artifact) :
    Yields src.disk kind (compileUnit unit tier unitKind texts references) Artifact.plain
      (Sources.artifact unit unitKind texts references) := by
  unfold compileUnit Sources.artifact
  cases compile texts references with
  | error diagnostics => exact .throw _
  | ok module => exact fun s hs => ⟨rfl, hkind.serial s _ hs⟩

theorem yields_buildUnit (hkind : Settled src kind) (unit : Identity) (tier : Tier)
    (references : List Artifact) :
    Yields src.disk kind (buildUnit unit tier references) Artifact.plain
      (src.unit unit references) := by
  refine .bind (yields_findUnit hkind unit) fun found _ => .get_bind fun s hs => ?_
  obtain ⟨unit, texts⟩ := found
  rw [hkind.locator s hs]
  dsimp only [id, Sources.assemble]
  cases texts.markup with
  | none => exact yields_compileUnit hkind _ _ _ _ _
  | some markup =>
    dsimp only
    cases Template.script ⟨unit.typeName, src.locator.markupPath unit, markup,
      texts.script.isSome⟩ with
    | error diagnostic => exact .throw _
    | ok generated => exact yields_compileUnit hkind _ _ _ _ _

theorem yields_buildFoundation (hkind : Settled src kind) :
    Yields src.disk kind buildFoundation Artifact.plain src.foundation := by
  refine .get_bind fun s hs => ?_
  rw [hkind.shared s hs]
  refine .bind (.mapM (fun path => .read_bind ?_) _) fun shared _ => yields_compileUnit hkind _ _ _ _ _
  cases src.disk.readText path with
  | ok text => exact .pure _
  | error e => exact .throw _

end Units

/-! ## Layers -/

/-- Kinds of sites in the course of a request, by the keys whose builds are on their way. A call for one of
the two layers that all units share gives what its build does. -/
structure Answering (src : Sources) (kind : List (String × Generation) → LiveSite → Prop) : Prop where
  settled : ∀ busy, Settled src (kind busy)
  apart : src.locator.globalUnit.key ≠ foundationUnit.key
  foundation : ∀ busy build, (∀ g, (foundationUnit.key, g) ∉ busy) →
    (∀ g, Yields src.disk (kind ((foundationUnit.key, g) :: busy)) build Artifact.plain src.foundation) →
    Yields src.disk (kind busy) (LiveSite.getOrBuild foundationUnit .foundation build) Artifact.plain
      src.foundation
  globalUnit : ∀ busy build, (∀ g, (src.locator.globalUnit.key, g) ∉ busy) →
    src.disk.exists? src.locator.globalUnit.path = true →
    (∀ g, Yields src.disk (kind ((src.locator.globalUnit.key, g) :: busy)) build Artifact.plain
      src.globalArtifact) →
    Yields src.disk (kind busy) (LiveSite.getOrBuild src.locator.globalUnit .siteGlobal build)
      Artifact.plain src.globalArtifact
  /-- What the global unit's key holds is what the global unit amounts to. -/
  tells : ∀ busy s, kind busy s → ∀ a, s.cache.at? src.locator.globalUnit.key = some (.built a) →
    src.globalUnit = .ok (some a.plain)

theorem not_busy_cons {busy : List (String × Generation)} {key k : String} {g : Generation}
    (hne : k ≠ key) (hfree : ∀ g, (k, g) ∉ busy) (g' : Generation) : (k, g') ∉ (key, g) :: busy := by
  intro hmem
  rcases List.mem_cons.1 hmem with heq | hmem
  · exact hne (congrArg Prod.fst heq)
  · exact hfree g' hmem

/-- What the global unit amounts to if its script is there. -/
theorem globalUnit_of_exists {src : Sources}
    (h : src.disk.exists? src.locator.globalUnit.path = true) :
    src.globalUnit = match src.globalArtifact with
      | .ok artifact => .ok (some artifact)
      | .error (.notFound _) => .ok none
      | .error failure => .error failure := by
  unfold Sources.globalUnit
  exact if_pos h

/-- A request for the global unit is met by what it amounts to. -/
theorem leaf_eq_ok_iff_globalUnit {src : Sources} {unit : Identity} {a : Artifact}
    (hunit : src.locator.isGlobal unit = true) :
    src.leaf unit = .ok a ↔ src.globalUnit = .ok (some a) := by
  rw [Sources.leaf, if_pos hunit, bind_eq_ok]
  constructor
  · rintro ⟨found, hfound, h⟩
    cases found with
    | none => cases h
    | some b =>
      cases h
      exact hfound
  · exact fun hfound => ⟨some a, hfound, rfl⟩

namespace Answering

open LiveSite

variable {src : Sources} {kind : List (String × Generation) → LiveSite → Prop}
  {busy : List (String × Generation)}

theorem yields_foundation (h : Answering src kind) (hfree : ∀ g, (foundationUnit.key, g) ∉ busy) :
    Yields src.disk (kind busy) LiveSite.foundation Artifact.plain src.foundation :=
  h.foundation busy _ hfree fun _ => yields_buildFoundation (h.settled _)

/-- An artifact of the global unit tells that its script is on disk. -/
theorem exists_of_built (h : Answering src kind) {s : LiveSite} (hs : kind busy s)
    (hbuilt : s.cache.status? src.locator.globalUnit.key = some .built) :
    src.disk.exists? src.locator.globalUnit.path = true := by
  rw [← Bool.not_eq_false]
  intro habsent
  obtain ⟨a, hat⟩ := Cache.status?_eq_built_iff.1 hbuilt
  have htells := h.tells busy s hs a hat
  simp [Sources.globalUnit, habsent] at htells

/-- The artifact of the global unit is linked against the base library alone. -/
theorem yields_globalArtifact (h : Answering src kind)
    (hfoundation : ∀ g, (foundationUnit.key, g) ∉ busy)
    (hfree : ∀ g, (src.locator.globalUnit.key, g) ∉ busy)
    (hexists : src.disk.exists? src.locator.globalUnit.path = true) :
    Yields src.disk (kind busy)
      (getOrBuild src.locator.globalUnit .siteGlobal do
        buildUnit src.locator.globalUnit .siteGlobal [← LiveSite.foundation])
      Artifact.plain src.globalArtifact := by
  refine h.globalUnit busy _ hfree hexists fun g => ?_
  refine .bind (h.yields_foundation (not_busy_cons h.apart.symm hfoundation)) fun foundation _ => ?_
  have href : [foundation.plain].map Artifact.plain = [foundation].map Artifact.plain := by simp
  rw [src.unit_congr _ href]
  exact yields_buildUnit (h.settled _) _ _ _

/-- The global unit counts only if its script is there. -/
theorem yields_globalUnit (h : Answering src kind) (hfoundation : ∀ g, (foundationUnit.key, g) ∉ busy)
    (hfree : ∀ g, (src.locator.globalUnit.key, g) ∉ busy) :
    Yields src.disk (kind busy) LiveSite.globalUnit (Option.map Artifact.plain) src.globalUnit := by
  intro s hs
  rw [run_globalUnit, (h.settled busy).locator s hs]
  split
  · rename_i habsent
    simp only [Bool.and_eq_true, Bool.not_eq_true'] at habsent
    rw [Sources.globalUnit, habsent.2]
    exact ⟨rfl, hs⟩
  · rename_i hthere
    have hexists : src.disk.exists? src.locator.globalUnit.path = true := by
      cases habsent : src.disk.exists? src.locator.globalUnit.path with
      | true => rfl
      | false =>
        simp only [habsent, Bool.not_false, Bool.and_true, decide_eq_true_eq, Decidable.not_not] at hthere
        rw [h.exists_of_built hs hthere] at habsent
        cases habsent
    obtain ⟨hanswer, hkind⟩ := h.yields_globalArtifact hfoundation hfree hexists s hs
    generalize s.run src.disk (getOrBuild _ _ _) = ran at hanswer hkind ⊢
    obtain ⟨result, s'⟩ := ran
    rw [globalUnit_of_exists hexists, ← hanswer]
    rcases result with e | a
    · cases e <;> exact ⟨rfl, hkind⟩
    · exact ⟨rfl, hkind⟩

/-- The global unit is found in its own layer. -/
theorem yields_leaf_of_globalUnit (h : Answering src kind) {unit : Identity}
    (hunit : src.locator.isGlobal unit = true) :
    Yields src.disk (kind []) (leaf unit) Artifact.plain (src.leaf unit) := by
  refine .get_bind fun s hs => ?_
  rw [(h.settled []).locator s hs, Sources.leaf, if_pos hunit, if_pos hunit]
  refine .bind (h.yields_globalUnit (by simp) (by simp)) fun found _ => ?_
  cases found with
  | some artifact => exact .pure artifact
  | none => exact .throw _

/-- **The build of a unit gives what its sources amount to**, against the layers that it asks for. -/
theorem yields_ordinary (h : Answering src kind) (unit : Identity)
    (hfoundation : ∀ g, (foundationUnit.key, g) ∉ busy)
    (hfree : ∀ g, (src.locator.globalUnit.key, g) ∉ busy) :
    Yields src.disk (kind busy) (buildLeaf unit) Artifact.plain (src.ordinary unit) := by
  refine .bind (h.yields_foundation hfoundation) fun foundation _ => ?_
  refine .bind (h.yields_globalUnit hfoundation hfree) fun globalUnit _ => ?_
  have href : (foundation.plain :: (globalUnit.map Artifact.plain).toList).map Artifact.plain =
      (foundation :: globalUnit.toList).map Artifact.plain := by
    cases globalUnit <;> simp
  rw [src.unit_congr _ href]
  exact yields_buildUnit (h.settled _) _ _ _

end Answering

end SiteHost
