import SiteHost.Proofs.Cache.Orderly
import SiteHost.Proofs.Site.Builds
import SiteHost.Proofs.Site.Naming

/-!
# Warm sites

A site whose cache holds nothing but what its sources amount to answers every request as its sources
do, and stays so:

* `Locator.tierOf` — the layer of a key;
* `Sources.Tells` — an artifact is what the sources amount to, for every unit of a key;
* `Sources.Consistent` — units of one key amount to the same;
* `Warm` — the state of a site between the steps of a request: every artifact in its cache is what the
  sources tell, and the builds on their way are those of the request.

Principal results:

* `yields_getOrBuild` — a call gives what its build would give;
* `answering_warm`, `yields_leaf` — so does every layer.
-/

namespace SiteHost

/-- The layer of a key. -/
def Locator.tierOf (l : Locator) (key : String) : Tier :=
  if key = foundationUnit.key then .foundation
  else if key = l.globalUnit.key then .siteGlobal
  else .leaf

theorem Locator.eq_of_tierOf_eq_siteGlobal {l : Locator} {key : String}
    (h : l.tierOf key = .siteGlobal) : key = l.globalUnit.key := by
  unfold tierOf at h
  split at h
  · cases h
  · split at h
    · assumption
    · cases h

/-- Whether an artifact is what the sources amount to, for every unit of a key. -/
structure Sources.Tells (src : Sources) (key : String) (a : Artifact) : Prop where
  foundation : src.locator.tierOf key = .foundation → src.foundation = .ok a.plain
  globalUnit : src.locator.tierOf key = .siteGlobal → src.globalUnit = .ok (some a.plain)
  leaf : src.locator.tierOf key = .leaf →
    ∀ unit, src.locator.Asked unit → unit.key = key → src.ordinary unit = .ok a.plain

/-- Units of one key amount to the same. -/
def Sources.Consistent (src : Sources) : Prop :=
  ∀ unit other, src.locator.Asked unit → src.locator.Asked other → unit.key = other.key →
    ∀ a, src.ordinary unit = .ok a → src.ordinary other = .ok a

/-- A site in the course of a request. `busy` are the keys whose builds are on their way. -/
structure Warm (src : Sources) (busy : List (String × Generation)) (s : LiveSite) : Prop where
  locator : s.locator = src.locator
  shared : s.sharedReferences = src.sharedReferences
  sound : s.cache.Sound
  tiers : ∀ key id, s.cache.index.get? key = some id → ∀ e : Entry Artifact,
    s.cache.entries[id]? = some e → e.tier = src.locator.tierOf key
  running : ∀ key g, (key, g) ∈ busy →
    s.cache.at? key = some (.building g) ∧ s.cache.isRunning g = true
  building : ∀ key g, s.cache.at? key = some (.building g) → (key, g) ∈ busy
  built : ∀ key a, s.cache.at? key = some (.built a) → src.Tells key a

namespace Warm

variable {src : Sources} {busy : List (String × Generation)} {s : LiveSite} {key : String}
  {g : Generation}

theorem orderly (h : Warm src busy s) : s.cache.Orderly src.locator.tierOf src.Tells busy :=
  ⟨h.sound, h.tiers, h.running, h.building, h.built⟩

/-- A site is warm if its cache is in order and holds nothing but what the sources tell. -/
theorem of_orderly (hlocator : s.locator = src.locator) (hshared : s.sharedReferences = src.sharedReferences)
    (h : s.cache.Orderly src.locator.tierOf src.Tells busy) : Warm src busy s :=
  ⟨hlocator, hshared, h.sound, h.tiers, h.running, h.building, h.built⟩

theorem settled (src : Sources) (busy : List (String × Generation)) :
    Settled src (Warm src busy) :=
  ⟨fun _ h => h.locator, fun _ h => h.shared, fun _ _ h => .of_orderly h.locator h.shared h.orderly⟩

/-- An artifact that a key holds is what the sources tell; a call for the key yields it. -/
theorem get (h : Warm src busy s) (unit : Identity) (hfree : ∀ g, (unit.key, g) ∉ busy) :
    (∃ a, (s.cache.get unit (src.locator.tierOf unit.key)).1 = .hit a ∧ src.Tells unit.key a ∧
        Warm src busy { s with
          cache := (s.cache.get unit (src.locator.tierOf unit.key)).2 }) ∨
      ∃ g, (s.cache.get unit (src.locator.tierOf unit.key)).1 = .started g ∧
        Warm src ((unit.key, g) :: busy) { s with
          cache := (s.cache.get unit (src.locator.tierOf unit.key)).2 } := by
  obtain ⟨-, hcases⟩ := h.orderly.get unit hfree
  rcases hcases with ⟨a, hhit, hat, horderly⟩ | ⟨g, hstart, horderly⟩
  · exact .inl ⟨a, hhit, horderly.built _ a hat, .of_orderly h.locator h.shared horderly⟩
  · exact .inr ⟨g, hstart, .of_orderly h.locator h.shared horderly⟩

/-- The build of a key ends, and the key holds what the sources tell. -/
theorem finish (h : Warm src ((key, g) :: busy) s) (hfree : ∀ g, (key, g) ∉ busy)
    {r : Except Failure Artifact} (hr : ∀ a, r = .ok a → src.Tells key a) :
    ∃ c, (s.cache.finish g (.returned r)).settle g = some (r, c) ∧
      Warm src busy { s with cache := c } := by
  obtain ⟨c, hsettle, horderly, -⟩ := h.orderly.finish hfree hr
  exact ⟨c, hsettle, .of_orderly h.locator h.shared horderly⟩

end Warm

/-! ## Calls -/

section Layers

open LiveSite

variable {src : Sources} {busy : List (String × Generation)}

/-- **A call gives what its build would give.** -/
theorem yields_getOrBuild {unit : Identity} {build : Build Artifact}
    {answer : Except Failure Artifact} (hfree : ∀ g, (unit.key, g) ∉ busy)
    (hbuild : ∀ g, Yields src.disk (Warm src ((unit.key, g) :: busy)) build Artifact.plain answer)
    (htells : ∀ a, src.Tells unit.key a ↔ answer = .ok a.plain) :
    Yields src.disk (Warm src busy) (getOrBuild unit (src.locator.tierOf unit.key) build)
      Artifact.plain answer := by
  intro s hs
  rcases hs.get unit hfree with ⟨a, hhit, hgood, hwarm⟩ | ⟨g, hstart, hwarm⟩
  · rw [run_getOrBuild_of_hit s src.disk hhit]
    exact ⟨((htells a).1 hgood).symm, hwarm⟩
  · obtain ⟨hanswer, hafter⟩ := hbuild g _ hwarm
    generalize hran : LiveSite.run _ src.disk build = ran at hanswer hafter
    obtain ⟨r, s'⟩ := ran
    obtain ⟨c, hsettle, hdone⟩ := hafter.finish hfree (r := r) fun a ha => by
      subst ha
      exact (htells a).2 hanswer.symm
    rw [run_getOrBuild_of_started s src.disk hstart hran hsettle]
    exact ⟨hanswer, hdone⟩

variable {root : Place}

theorem tierOf_foundation (l : Locator) : l.tierOf foundationUnit.key = .foundation := if_pos rfl

theorem tierOf_globalUnit {l : Locator} (hl : l.At root) :
    l.tierOf l.globalUnit.key = .siteGlobal := by
  rw [Locator.tierOf, if_neg (Locator.globalUnit_ne_foundation hl), if_pos rfl]

theorem tierOf_asked {l : Locator} (hl : l.At root) {unit : Identity} (hunit : l.Asked unit)
    (hglobal : unit.key ≠ l.globalUnit.key) : l.tierOf unit.key = .leaf := by
  obtain ⟨dirs, file, hscript, rfl⟩ := hunit
  rw [Locator.tierOf, if_neg (Locator.key_ne_foundation hl hscript.named), if_neg hglobal]

theorem tells_foundation {a : Artifact} :
    src.Tells foundationUnit.key a ↔ src.foundation = .ok a.plain := by
  have htier := tierOf_foundation src.locator
  constructor
  · exact fun h => h.foundation htier
  · refine fun h => ⟨fun _ => h, fun hglobal => ?_, fun hleaf => ?_⟩
    · rw [htier] at hglobal
      cases hglobal
    · rw [htier] at hleaf
      cases hleaf

theorem tells_globalUnit (hl : src.locator.At root) {a : Artifact} :
    src.Tells src.locator.globalUnit.key a ↔ src.globalUnit = .ok (some a.plain) := by
  have htier := tierOf_globalUnit hl
  constructor
  · exact fun h => h.globalUnit htier
  · refine fun h => ⟨fun hfoundation => ?_, fun _ => h, fun hleaf => ?_⟩
    · rw [htier] at hfoundation
      cases hfoundation
    · rw [htier] at hleaf
      cases hleaf

theorem tells_leaf (hsame : src.Consistent) {unit : Identity} (hunit : src.locator.Asked unit)
    (htier : src.locator.tierOf unit.key = .leaf) {a : Artifact} :
    src.Tells unit.key a ↔ src.ordinary unit = .ok a.plain := by
  constructor
  · exact fun h => h.leaf htier unit hunit rfl
  · refine fun h => ⟨fun hfoundation => ?_, fun hglobal => ?_, fun _ other hother hkey =>
      hsame unit other hunit hother hkey.symm _ h⟩
    · rw [htier] at hfoundation
      cases hfoundation
    · rw [htier] at hglobal
      cases hglobal

/-- **Warm sites answer calls for the shared layers as the sources tell.** -/
theorem answering_warm (hl : src.locator.At root) : Answering src (Warm src) where
  settled := Warm.settled src
  apart := Locator.globalUnit_ne_foundation hl
  foundation busy build hfree hbuild := by
    have h := yields_getOrBuild hfree hbuild fun a => tells_foundation
    rwa [tierOf_foundation] at h
  globalUnit busy build hfree hexists hbuild := by
    have h := yields_getOrBuild hfree hbuild fun a => by
      rw [tells_globalUnit hl, globalUnit_of_exists hexists]
      rcases src.globalArtifact with e | b
      · cases e <;> simp
      · simp
    rwa [tierOf_globalUnit hl] at h
  tells busy s hs a hat := (tells_globalUnit hl).1 (hs.built _ a hat)

/-- **A warm site gives what its sources amount to, and stays warm.** -/
theorem yields_leaf (hl : src.locator.At root) (hsame : src.Consistent) {unit : Identity}
    (hunit : src.locator.Asked unit) :
    Yields src.disk (Warm src []) (LiveSite.leaf unit) Artifact.plain (src.leaf unit) := by
  intro s hs
  have hanswering := answering_warm hl
  by_cases hglobal : src.locator.isGlobal unit = true
  · exact hanswering.yields_leaf_of_globalUnit hglobal s hs
  · have hkey : unit.key ≠ src.locator.globalUnit.key := by
      simpa [Locator.isGlobal] using hglobal
    have hne : foundationUnit.key ≠ unit.key := by
      obtain ⟨dirs, file, hscript, rfl⟩ := hunit
      exact (Locator.key_ne_foundation hl hscript.named).symm
    have htier := tierOf_asked hl hunit hkey
    rw [run_leaf s src.disk (hs.locator ▸ hglobal), ← htier, Sources.leaf, if_neg hglobal]
    exact yields_getOrBuild (by simp) (fun g => hanswering.yields_ordinary unit
      (not_busy_cons hne (by simp)) (not_busy_cons hkey.symm (by simp)))
      (fun a => tells_leaf hsame hunit htier) s hs

end Layers

end SiteHost
