import SiteHost.Proofs.Cache.Orderly
import SiteHost.Proofs.Site.Keys
import SiteHost.Proofs.Site.Outcomes
import SiteHost.Proofs.Site.Transparency

/-!
# What a site remembers

A unit is kept under its key, which is the same for every spelling of its path, but it was built from the
files that are found under one of them. So a site whose sources stay as they are remembers, for each key, the
first request for it that could be met, and answers every later one out of it:

* `Sources.recalled`, `Sources.remember` — what a request gives where artifacts are held, and what is held
  then;
* `Remembers` — the state of a site between the steps of a request: what it holds is just what it should;
* `Sources.Learns` — how what is held changes when a call has been answered;
* `Site.serve` — a site after requests;
* `Sources.firstBuilt` — what they leave: for each key, what the first of them that could be met was built to.

Principal results:

* `run_leaf_of_remembers` — a request for a unit gives what the site remembers, and else what the sources
  amount to, which the site remembers from then on;
* `remembers_liveSite` — a site that has just been started remembers nothing;
* `Site.Recalls.create`, `Site.Recalls.serve` — the same for the answer to a request, and after many;
* `Site.create_serve` — **after requests a site answers one more out of the first that could be met.**
-/

namespace SiteHost

namespace Sources

/-- What a request for a unit gives, where `held` tells the artifacts that keys hold. -/
def recalled (src : Sources) (held : String → Option Artifact) (unit : Identity) :
    Except Failure Artifact :=
  match held unit.key with
  | some a => .ok a
  | none => src.leaf unit

/-- What is held after a request for a unit. A failure leaves nothing behind. -/
def remember (src : Sources) (held : String → Option Artifact) (unit : Identity) (key : String) :
    Option Artifact :=
  if key = unit.key then (src.recalled held unit).toOption else held key

/-- Whether an artifact may be held for a key, where `held` tells the artifacts that the keys of leaves
hold. -/
structure Recalls (src : Sources) (held : String → Option Artifact) (key : String) (a : Artifact) :
    Prop where
  foundation : src.locator.tierOf key = .foundation → src.foundation = .ok a.plain
  globalUnit : src.locator.tierOf key = .siteGlobal → src.globalUnit = .ok (some a.plain)
  leaf : src.locator.tierOf key = .leaf → held key = some a.plain

end Sources

/-- A site in the course of a request, with just those leaves held that `held` tells. -/
structure Remembers (src : Sources) (held : String → Option Artifact) (busy : List (String × Generation))
    (s : LiveSite) : Prop where
  locator : s.locator = src.locator
  shared : s.sharedReferences = src.sharedReferences
  orderly : s.cache.Orderly src.locator.tierOf (src.Recalls held) busy
  holds : ∀ key a, src.locator.tierOf key = .leaf → held key = some a →
    ∃ b, s.cache.at? key = some (.built b)
  /-- The global unit is no leaf, and may be asked for like one. -/
  globalUnit : ∀ a, held src.locator.globalUnit.key = some a → src.globalUnit = .ok (some a)

section Remembers

open LiveSite

variable {src : Sources} {held held' : String → Option Artifact} {busy : List (String × Generation)}

theorem settled_remembers (src : Sources) (held : String → Option Artifact)
    (busy : List (String × Generation)) : Settled src (Remembers src held busy) :=
  ⟨fun _ h => h.locator, fun _ h => h.shared, fun _ _ h =>
    ⟨h.locator, h.shared, h.orderly, h.holds, h.globalUnit⟩⟩

/-- What is held for other keys may be held whatever is to be held for one. -/
theorem Sources.Recalls.of_ne {key k : String} {a : Artifact} (h : src.Recalls held k a) (hne : k ≠ key)
    (hother : ∀ k, k ≠ key → held' k = held k) : src.Recalls held' k a :=
  ⟨h.foundation, h.globalUnit, fun htier => (hother k hne).trans (h.leaf htier)⟩

/-- What is held after a call that was answered, where `held` is what was held before. It is the same for
all keys but that of the call, which holds the answer if there is one. -/
structure Sources.Learns (src : Sources) (key : String) (answer : Except Failure Artifact)
    (held held' : String → Option Artifact) : Prop where
  other : ∀ k, k ≠ key → held' k = held k
  recalled : ∀ a, src.Recalls held key a → answer = .ok a.plain
  kept : ∀ a, answer = .ok a.plain → src.Recalls held' key a
  leaf : src.locator.tierOf key = .leaf → ∀ a, held' key = some a → answer = .ok a
  globalUnit : ∀ a, held' src.locator.globalUnit.key = some a → src.globalUnit = .ok (some a)

section Learns

variable {key : String} {answer : Except Failure Artifact} {s : LiveSite}

/-- What the key of a call holds is the answer. -/
theorem Remembers.learn_built (hs : Remembers src held busy s) (hl : src.Learns key answer held held')
    {a : Artifact} (hat : s.cache.at? key = some (.built a)) :
    answer = .ok a.plain ∧ Remembers src held' busy s := by
  have hanswer := hl.recalled a (hs.orderly.built _ a hat)
  refine ⟨hanswer, hs.locator, hs.shared, hs.orderly.mono fun k b hb hgood => ?_, fun k b htier hb => ?_,
    hl.globalUnit⟩
  · by_cases hk : k = key
    · rw [hk, hat] at hb
      cases hb
      exact hk ▸ hl.kept a hanswer
    · exact hgood.of_ne hk hl.other
  · by_cases hk : k = key
    · exact ⟨a, hk ▸ hat⟩
    · exact hs.holds k b htier (hl.other k hk ▸ hb)

/-- What the build of a call has given is the answer, and is kept for its key. -/
theorem Remembers.learn_finished {g : Generation} {r : Except Failure Artifact}
    (hs : Remembers src held ((key, g) :: busy) s) (hfree : ∀ g, (key, g) ∉ busy)
    (hl : src.Learns key (r.map Artifact.plain) held held') :
    ∃ c, (s.cache.finish g (.returned r)).settle g = some (r, c) ∧
      Remembers src held' busy { s with cache := c } := by
  -- the key of the build holds nothing yet, so what it may hold can be exchanged
  have horderly : s.cache.Orderly src.locator.tierOf (src.Recalls held') ((key, g) :: busy) := by
    refine hs.orderly.mono fun k b hb hgood => hgood.of_ne (fun hk => ?_) hl.other
    rw [hk, (hs.orderly.running _ g List.mem_cons_self).1] at hb
    cases hb
  obtain ⟨c, hsettle, hdone, hkeeps, hat⟩ := horderly.finish hfree (r := r) fun a ha => by
    subst ha
    exact hl.kept a rfl
  refine ⟨c, hsettle, hs.locator, hs.shared, hdone, fun k a htier ha => ?_, hl.globalUnit⟩
  by_cases hk : k = key
  · subst hk
    have hok := hl.leaf htier a ha
    cases r with
    | error e => cases hok
    | ok b => exact ⟨b, hat⟩
  · obtain ⟨b, hb⟩ := hs.holds k a htier (hl.other k hk ▸ ha)
    exact ⟨b, hkeeps k b hb⟩

/-- **A call gives what its key holds, and else what its build gives**, which the key holds then. -/
theorem getOrBuild_of_remembers (unit : Identity) {build : Build Artifact}
    (hfree : ∀ g, (unit.key, g) ∉ busy)
    (hbuild : (src.locator.tierOf unit.key = .leaf → held unit.key = none) →
      ∀ g, Yields src.disk (Remembers src held ((unit.key, g) :: busy)) build Artifact.plain answer)
    (hl : src.Learns unit.key answer held held') (hs : Remembers src held busy s) :
    (s.run src.disk (getOrBuild unit (src.locator.tierOf unit.key) build)).1.map Artifact.plain = answer ∧
      Remembers src held' busy
        (s.run src.disk (getOrBuild unit (src.locator.tierOf unit.key) build)).2 := by
  obtain ⟨hkeeps, hcases⟩ := hs.orderly.get unit hfree
  have hremembers : ∀ {busy'},
      (s.cache.get unit (src.locator.tierOf unit.key)).2.Orderly src.locator.tierOf (src.Recalls held) busy' →
      Remembers src held busy' { s with cache := (s.cache.get unit (src.locator.tierOf unit.key)).2 } :=
    fun horderly => ⟨hs.locator, hs.shared, horderly, fun key a htier ha =>
      (hs.holds key a htier ha).imp fun b hb => hkeeps key b hb, hs.globalUnit⟩
  rcases hcases with ⟨a, hhit, hat, horderly⟩ | ⟨g, hstart, horderly⟩
  · obtain ⟨hanswer, hafter⟩ := (hremembers horderly).learn_built hl hat
    rw [run_getOrBuild_of_hit s src.disk hhit]
    exact ⟨hanswer.symm, hafter⟩
  · have hnone : src.locator.tierOf unit.key = .leaf → held unit.key = none := by
      intro htier
      cases ha : held unit.key with
      | none => rfl
      | some a =>
        obtain ⟨b, hb⟩ := hs.holds _ a htier ha
        rw [Cache.get_of_built _ hb] at hstart
        cases hstart
    obtain ⟨hanswer, hafter⟩ := hbuild hnone g _ (hremembers horderly)
    generalize hran : LiveSite.run _ src.disk build = ran at hanswer hafter
    obtain ⟨r, s'⟩ := ran
    obtain ⟨c, hsettle, hdone⟩ := hafter.learn_finished hfree (hanswer ▸ hl)
    rw [run_getOrBuild_of_started s src.disk hstart hran hsettle]
    exact ⟨hanswer, hdone⟩

end Learns

/-! ## Layers -/

theorem recalls_foundation {a : Artifact} :
    src.Recalls held foundationUnit.key a ↔ src.foundation = .ok a.plain := by
  have htier := tierOf_foundation src.locator
  refine ⟨fun h => h.foundation htier, fun h => ⟨fun _ => h, fun hglobal => ?_, fun hleaf => ?_⟩⟩
  · rw [htier] at hglobal
    cases hglobal
  · rw [htier] at hleaf
    cases hleaf

theorem recalls_globalUnit {a : Artifact} :
    src.Recalls held src.locator.globalUnit.key a ↔ src.globalUnit = .ok (some a.plain) := by
  have htier := src.locator.tierOf_globalUnit_key
  refine ⟨fun h => h.globalUnit htier, fun h => ⟨fun hfoundation => ?_, fun _ => h, fun hleaf => ?_⟩⟩
  · rw [htier] at hfoundation
    cases hfoundation
  · rw [htier] at hleaf
    cases hleaf

/-- **Sites answer calls for the shared layers as the sources tell**, whatever leaves they hold. -/
theorem answering_remembers (src : Sources) (held : String → Option Artifact) :
    Answering src (Remembers src held) where
  settled := settled_remembers src held
  apart := src.locator.key_globalUnit_ne
  foundation busy build hfree hbuild s hs := by
    have htier := tierOf_foundation src.locator
    have hlearns : src.Learns foundationUnit.key src.foundation held held :=
      { other := fun _ _ => rfl
        recalled := fun _ => recalls_foundation.1
        kept := fun _ => recalls_foundation.2
        leaf := fun hleaf => by rw [htier] at hleaf; cases hleaf
        globalUnit := hs.globalUnit }
    have h := getOrBuild_of_remembers foundationUnit hfree (fun _ => hbuild) hlearns hs
    rwa [htier] at h
  globalUnit busy build hfree hexists hbuild s hs := by
    have htier := src.locator.tierOf_globalUnit_key
    have hiff : ∀ a, src.Recalls held src.locator.globalUnit.key a ↔ src.globalArtifact = .ok a.plain := by
      intro a
      rw [recalls_globalUnit, globalUnit_of_exists hexists]
      rcases src.globalArtifact with e | b
      · cases e <;> simp
      · simp
    have hlearns : src.Learns src.locator.globalUnit.key src.globalArtifact held held :=
      { other := fun _ _ => rfl
        recalled := fun a => (hiff a).1
        kept := fun a => (hiff a).2
        leaf := fun hleaf => by rw [htier] at hleaf; cases hleaf
        globalUnit := hs.globalUnit }
    have h := getOrBuild_of_remembers src.locator.globalUnit hfree (fun _ => hbuild) hlearns hs
    rwa [htier] at h
  tells busy s hs a hat := recalls_globalUnit.1 (hs.orderly.built _ a hat)

/-- What is told of keys that are no leaves makes no difference. -/
theorem Remembers.of_leaves {s : LiveSite} (h : Remembers src held busy s)
    (hleaves : ∀ key, src.locator.tierOf key = .leaf → held' key = held key)
    (hglobal : ∀ a, held' src.locator.globalUnit.key = some a → src.globalUnit = .ok (some a)) :
    Remembers src held' busy s :=
  ⟨h.locator, h.shared, h.orderly.mono fun key _ _ hgood => ⟨hgood.foundation, hgood.globalUnit,
    fun htier => (hleaves key htier).trans (hgood.leaf htier)⟩,
    fun key a htier ha => h.holds key a htier (hleaves key htier ▸ ha), hglobal⟩

/-- A request that is met out of the memory gives the same when it is made of the global unit. -/
theorem recalled_of_globalUnit {s : LiveSite} (hs : Remembers src held busy s) {unit : Identity}
    (hunit : src.locator.isGlobal unit = true) : src.recalled held unit = src.leaf unit := by
  unfold Sources.recalled
  cases hheld : held unit.key with
  | none => rfl
  | some a =>
    rw [Locator.isGlobal_iff.1 hunit] at hheld
    exact ((leaf_eq_ok_iff_globalUnit hunit).2 (hs.globalUnit a hheld)).symm

/-- What is held after a request is what the request gave. -/
theorem recalled_of_remember {unit : Identity} {a : Artifact}
    (h : src.remember held unit unit.key = some a) : src.recalled held unit = .ok a := by
  rw [Sources.remember, if_pos rfl] at h
  cases hanswer : src.recalled held unit with
  | error e =>
    rw [hanswer] at h
    cases h
  | ok b =>
    rw [hanswer] at h
    cases h
    rfl

/-- **A request for a unit gives what the site remembers**, and else what the sources amount to, which the
site remembers from then on. -/
theorem run_leaf_of_remembers {unit : Identity} (hunit : unit.key ≠ foundationUnit.key) {s : LiveSite}
    (hs : Remembers src held [] s) :
    (s.run src.disk (LiveSite.leaf unit)).1.map Artifact.plain = src.recalled held unit ∧
      Remembers src (src.remember held unit) [] (s.run src.disk (LiveSite.leaf unit)).2 := by
  have hother : ∀ key, key ≠ unit.key → src.remember held unit key = held key :=
    fun key hkey => if_neg hkey
  by_cases hglobal : src.locator.isGlobal unit = true
  · have hkey := Locator.isGlobal_iff.1 hglobal
    have hrecall := recalled_of_globalUnit hs hglobal
    obtain ⟨hanswer, hafter⟩ := (answering_remembers src held).yields_leaf_of_globalUnit hglobal s hs
    refine ⟨hanswer.trans hrecall.symm, hafter.of_leaves (fun key htier => hother key ?_) fun a ha => ?_⟩
    · rintro rfl
      rw [hkey, src.locator.tierOf_globalUnit_key] at htier
      cases htier
    · rw [← hkey] at ha
      exact (leaf_eq_ok_iff_globalUnit hglobal).1 (hrecall ▸ recalled_of_remember ha)
  · have htier := Locator.tierOf_leaf hunit hglobal
    have hne : src.locator.globalUnit.key ≠ unit.key :=
      fun h => hglobal (Locator.isGlobal_iff.2 h.symm)
    have hleaf : src.leaf unit = src.ordinary unit := if_neg hglobal
    rw [run_leaf s src.disk (hs.locator ▸ hglobal), ← htier]
    refine getOrBuild_of_remembers unit (by simp) (fun hnone g => ?_) ⟨hother, fun a ha => ?_, fun a ha => ?_,
      fun _ a ha => recalled_of_remember ha, fun a ha => ?_⟩ hs
    · have hrecall : src.recalled held unit = src.ordinary unit := by
        rw [Sources.recalled, hnone htier, ← hleaf]
      rw [hrecall]
      exact (answering_remembers src held).yields_ordinary unit (not_busy_cons hunit.symm (by simp))
        (not_busy_cons hne (by simp))
    · rw [Sources.recalled, ha.leaf htier]
    · refine ⟨fun hfoundation => ?_, fun hglobal => ?_, fun _ => ?_⟩
      · rw [htier] at hfoundation
        cases hfoundation
      · rw [htier] at hglobal
        cases hglobal
      · rw [Sources.remember, if_pos rfl, ha]
        rfl
    · rw [hother _ hne] at ha
      exact hs.globalUnit a ha

/-- **A site that has just been started remembers nothing.** -/
theorem remembers_liveSite (l : Locator) (compiler : CompilerSettings) (d : Disk) (serial : Nat)
    (metrics : Metrics) : Remembers ⟨d, l, compiler.sharedReferences⟩ (fun _ => none) []
      (Site.liveSite l compiler serial metrics) := by
  refine ⟨rfl, rfl, .empty _ _ _ metrics, fun key a _ hnone => ?_, fun a hnone => ?_⟩
  · cases hnone
  · cases hnone

end Remembers

/-! ## Requests one after another -/

namespace Sources

/-- What a request amounts to, where `held` tells the artifacts that keys hold. -/
def met (src : Sources) (held : String → Option Artifact) (path : String) (args : List Script.Value) :
    Except Failure Handler := do
  let unit ← src.locator.resolve path
  let a ← src.recalled held unit
  a.requested args

theorem met_of_resolve {src : Sources} {held : String → Option Artifact} {path : String} {unit : Identity}
    (h : src.locator.resolve path = .ok unit) (args : List Script.Value) :
    src.met held path args = src.recalled held unit >>= (·.requested args) := by
  rw [met, h]
  rfl

/-- What is held after a request for a path. -/
def afterwards (src : Sources) (held : String → Option Artifact) (path : String) :
    String → Option Artifact :=
  match src.locator.resolve path with
  | .ok unit => src.remember held unit
  | .error _ => held

/-- The units that request paths lead to. -/
def askedFor (src : Sources) (paths : List String) : List Identity :=
  paths.filterMap fun path => (src.locator.resolve path).toOption

theorem askedFor_cons (src : Sources) (path : String) (rest : List String) :
    src.askedFor (path :: rest) =
      (src.locator.resolve path).toOption.toList ++ src.askedFor rest := by
  simp only [askedFor, List.filterMap_cons]
  cases src.locator.resolve path <;> rfl

/-- What the first of several units with a key that could be built was built to. -/
def firstBuilt (src : Sources) (units : List Identity) (key : String) : Option Artifact :=
  units.findSome? fun unit => if unit.key = key then (src.leaf unit).toOption else none

theorem exists_of_firstBuilt {src : Sources} {units : List Identity} {key : String} {a : Artifact}
    (h : src.firstBuilt units key = some a) : ∃ unit ∈ units, unit.key = key ∧ src.leaf unit = .ok a := by
  obtain ⟨unit, hunit, h⟩ := List.exists_of_findSome?_eq_some h
  split at h
  · rename_i hkey
    refine ⟨unit, hunit, hkey, ?_⟩
    cases hleaf : src.leaf unit with
    | error e =>
      rw [hleaf] at h
      cases h
    | ok b =>
      rw [hleaf] at h
      cases h
      rfl
  · cases h

/-- What is recalled of such a history is what a unit with the key amounts to. -/
theorem leaf_of_recalled {src : Sources} {units : List Identity} {unit : Identity} {a : Artifact}
    (h : src.recalled (src.firstBuilt units) unit = .ok a) :
    ∃ other : Identity, other.key = unit.key ∧ src.leaf other = .ok a := by
  unfold recalled at h
  cases hheld : src.firstBuilt units unit.key with
  | none =>
    rw [hheld] at h
    exact ⟨unit, rfl, h⟩
  | some b =>
    rw [hheld] at h
    cases h
    obtain ⟨other, -, hkey, hleaf⟩ := exists_of_firstBuilt hheld
    exact ⟨other, hkey, hleaf⟩

theorem recalled_toOption (src : Sources) (held : String → Option Artifact) (unit : Identity) :
    (src.recalled held unit).toOption = (held unit.key).or (src.leaf unit).toOption := by
  unfold recalled
  cases held unit.key with
  | none => exact Option.none_or.symm
  | some a => rfl

/-- **After requests for units, what the first of them was built to is held**, unless something was held
before. -/
theorem foldl_remember (src : Sources) (units : List Identity) (held : String → Option Artifact)
    (key : String) :
    units.foldl src.remember held key = (held key).or (src.firstBuilt units key) := by
  induction units generalizing held with
  | nil => simp [firstBuilt]
  | cons unit rest ih =>
    rw [List.foldl_cons, ih]
    conv_rhs => rw [firstBuilt, List.findSome?_cons]
    by_cases hkey : key = unit.key
    · subst hkey
      rw [if_pos rfl, remember, if_pos rfl, recalled_toOption, Option.or_assoc]
      cases (src.leaf unit).toOption <;> rfl
    · rw [if_neg (Ne.symm hkey), remember, if_neg hkey]
      rfl

theorem firstBuilt_append (src : Sources) (units more : List Identity) (key : String) :
    src.firstBuilt (units ++ more) key = (src.firstBuilt units key).or (src.firstBuilt more key) :=
  List.findSome?_append

theorem foldl_remember_firstBuilt (src : Sources) (units more : List Identity) :
    more.foldl src.remember (src.firstBuilt units) = src.firstBuilt (units ++ more) := by
  funext key
  rw [foldl_remember, firstBuilt_append]

theorem foldl_afterwards (src : Sources) (paths : List String) (held : String → Option Artifact) :
    paths.foldl src.afterwards held = (src.askedFor paths).foldl src.remember held := by
  induction paths generalizing held with
  | nil => rfl
  | cons path rest ih =>
    rw [List.foldl_cons, ih, afterwards, askedFor_cons, List.foldl_append]
    cases src.locator.resolve path <;> rfl

end Sources

namespace Site

variable {s : Site} {src : Sources} {held : String → Option Artifact}

/-- Whether a live site holds just those leaves that `held` tells. -/
structure Recalls (s : Site) (src : Sources) (held : String → Option Artifact) : Prop where
  locator : s.locator = src.locator
  live : ∃ live, s.mode = .live live ∧ Remembers src held [] live

/-- A site after requests, each a path with arguments. -/
def serve (s : Site) (d : Disk) (requests : List (String × List Script.Value)) : Site :=
  requests.foldl (fun s request => (s.create d request.1 none request.2).2) s

theorem serve_cons (s : Site) (d : Disk) (request : String × List Script.Value)
    (rest : List (String × List Script.Value)) : s.serve d (request :: rest) =
      (s.create d request.1 none request.2).2.serve d rest := by
  rw [serve, List.foldl_cons]
  rfl

namespace Recalls

/-- **A request is answered with what it amounts to where the site's artifacts are held.** -/
theorem create (h : s.Recalls src held) (path : String) (args : List Script.Value) :
    (s.create src.disk path none args).1 = src.met held path args ∧
      (s.create src.disk path none args).2.Recalls src (src.afterwards held path) := by
  obtain ⟨live, hmode, hlive⟩ := h.live
  unfold Sources.afterwards
  cases hres : src.locator.resolve path with
  | error failure =>
    unfold Site.create Sources.met
    rw [h.locator, hres]
    exact ⟨rfl, h⟩
  | ok unit =>
    obtain ⟨hanswer, hafter⟩ := run_leaf_of_remembers (Locator.key_ne_of_resolve hres) hlive
    rw [create_live hmode (h.locator ▸ hres), hanswer, Sources.met_of_resolve hres]
    exact ⟨rfl, h.locator, _, rfl, hafter⟩

theorem serve (h : s.Recalls src held) (requests : List (String × List Script.Value)) :
    (s.serve src.disk requests).Recalls src
      ((src.askedFor (requests.map Prod.fst)).foldl src.remember held) := by
  rw [← src.foldl_afterwards]
  induction requests generalizing s held with
  | nil => exact h
  | cons request rest ih =>
    rw [serve_cons, List.map_cons, List.foldl_cons]
    exact ih (h.create request.1 request.2).2

end Recalls

variable {settings : SiteSettings} {compiler : CompilerSettings} {d : Disk} {serial : Nat}
  {metrics : Metrics} {site : Site}

/-- The sources of a site that has been started on a disk. -/
def sources (site : Site) (compiler : CompilerSettings) (d : Disk) : Sources :=
  ⟨d, site.locator, compiler.sharedReferences⟩

/-- A site that has just been started holds nothing. -/
theorem recalls_start (hlive : settings.prebuilt = none)
    (h : Site.start settings compiler d serial metrics = .ok site) :
    site.Recalls (site.sources compiler d) fun _ => none := by
  obtain ⟨found, -, rfl⟩ := (start_eq_ok_iff hlive).1 h
  exact ⟨rfl, _, rfl, remembers_liveSite _ compiler d serial metrics⟩

/-- **After any requests a site holds, for each key, what the first of them that could be met was built
to.** -/
theorem recalls_serve (hlive : settings.prebuilt = none)
    (h : Site.start settings compiler d serial metrics = .ok site)
    (requests : List (String × List Script.Value)) :
    (site.serve d requests).Recalls (site.sources compiler d) ((site.sources compiler d).firstBuilt
      ((site.sources compiler d).askedFor (requests.map Prod.fst))) := by
  have hserve := (recalls_start hlive h).serve requests
  rwa [show (fun _ => none) = (site.sources compiler d).firstBuilt [] from rfl,
    Sources.foldl_remember_firstBuilt, List.nil_append] at hserve

/-- **After requests a site answers one more out of the first that could be met**, if that is one for the
same key. -/
theorem create_serve (hlive : settings.prebuilt = none)
    (h : Site.start settings compiler d serial metrics = .ok site)
    (requests : List (String × List Script.Value)) (path : String) (args : List Script.Value) :
    ((site.serve d requests).create d path none args).1 =
      (site.sources compiler d).met ((site.sources compiler d).firstBuilt
        ((site.sources compiler d).askedFor (requests.map Prod.fst))) path args :=
  ((recalls_serve hlive h requests).create path args).1

end Site

end SiteHost
