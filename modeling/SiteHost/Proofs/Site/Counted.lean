import SiteHost.Proofs.Cache.Reported
import SiteHost.Proofs.Site.Coherence

/-!
# What a change reports

A change on disk says how many entries it changed. Which keys changed is said by `Cache.changedKeys`; here
the two are compared:

* `Locator.takes` — the keys that a change is meant for: that of its file, or those below a directory;
* `LiveSite.unreported` — the leaves that go with the global unit without being counted.

Principal result:

* `apply_reports` — a change reports every key that it changed but the unreported leaves, so that what it
  reports is right if and only if there are none.
-/

namespace SiteHost

/-- Two kinds of items that have nothing in common are counted one after the other. -/
theorem countP_or {β : Type} {l : List β} {p q : β → Bool} (h : ∀ b ∈ l, p b = true → q b = false) :
    (l.countP fun b => p b || q b) = l.countP p + l.countP q := by
  induction l with
  | nil => rfl
  | cons b rest ih =>
    obtain ⟨hb, hrest⟩ := List.forall_mem_cons.1 h
    rw [List.countP_cons, List.countP_cons, List.countP_cons, ih hrest]
    cases hp : p b with
    | true =>
      rw [hb hp]
      exact Nat.add_right_comm _ _ _
    | false => exact Nat.add_assoc _ _ _

/-- One name is counted once, if it is there. -/
theorem countP_name {l : List String} (h : l.Nodup) (name : String) (p : String → Bool) :
    (l.countP fun other => other == name && p other) = (l.contains name && p name).toNat := by
  have hsame : ∀ other ∈ l, (other == name && p other) = (other == name && p name) := by
    intro other _
    by_cases hother : other = name
    · rw [hother]
    · rw [beq_eq_false_iff_ne.2 hother]
      rfl
  rw [List.countP_congr fun other hmem => by rw [hsame other hmem]]
  cases p name with
  | true =>
    have hcount : l.countP (fun other => other == name && true) = l.count name :=
      List.countP_congr fun other _ => by rw [Bool.and_true]
    rw [hcount, h.count]
    by_cases hmem : name ∈ l <;> simp [hmem]
  | false => simp

namespace Locator

/-- Whether a change is meant for the entry of a key: that of its file, or one below its directory. -/
def takes (l : Locator) (change : Change) (key : String) : Bool :=
  match l.unitOfFile? change.path with
  | some unit => key == unit.key
  | none => change.kind == .renamed && key.startsWith (Eviction.above change.path)

end Locator

namespace LiveSite

/-- The leaves that a change invalidates without reporting it: if the change takes the entry of the global
unit, all that hold anything and stay in the map. -/
def unreported (s : LiveSite) (change : Change) : List String :=
  let globalKey := s.locator.globalUnit.key
  if s.locator.takes change globalKey && s.cache.index.contains globalKey then
    s.cache.index.keys.filter fun key =>
      s.locator.tierOf key == .leaf && s.cache.holds key && !s.locator.takes change key
  else []

end LiveSite

namespace Cache

variable {c c' : Cache Artifact} {l : Locator} {key : String} {gone given : String → Bool}

/-- The entry of a key has the layer of the key. -/
theorem tier?_of_tiered (hc : c.Sound) (ht : c.Tiered l) (key : String) :
    c.tier? key = if c.index.contains key then some (l.tierOf key) else none := by
  unfold tier? find? NameMap.contains
  cases hid : c.index.get? key with
  | none => rfl
  | some id =>
    obtain ⟨e, he, -⟩ := hc.index key id hid
    rw [Option.bind_some, he, Option.map_some, ht.of_indexed hc hid he]
    rfl

/-- A key of the map has an entry of its own layer. -/
theorem tier?_beq_of_mem (hc : c.Sound) (ht : c.Tiered l) (hkey : key ∈ c.index.keys) (tier : Tier) :
    (c.tier? key == some tier) = (l.tierOf key == tier) := by
  rw [tier?_of_tiered hc ht, NameMap.contains_iff.2 hkey, if_pos rfl]
  rfl

/-- The global unit is the one of its layer. -/
theorem tier?_beq_siteGlobal (hc : c.Sound) (ht : c.Tiered l) (key : String) :
    (c.tier? key == some .siteGlobal) =
      (key == l.globalUnit.key && c.index.contains l.globalUnit.key) := by
  rw [tier?_of_tiered hc ht]
  by_cases hkey : key = l.globalUnit.key
  · subst hkey
    rw [l.tierOf_globalUnit_key]
    cases c.index.contains l.globalUnit.key <;> simp
  · have hother : l.tierOf key ≠ .siteGlobal := fun h => hkey (Locator.eq_of_tierOf_eq_siteGlobal h)
    rw [beq_eq_false_iff_ne.2 hkey, Bool.false_and, beq_eq_false_iff_ne]
    split
    · exact fun h => hother (Option.some.inj h)
    · simp

/-- What holds anything is in the map. -/
theorem contains_of_holds (h : c.holds key = true) : c.index.contains key = true := by
  unfold holds find? at h
  unfold NameMap.contains
  cases hid : c.index.get? key with
  | none => rw [hid] at h; cases h
  | some id => rfl

/-- How many keys changed. -/
theorem Takes.length_changedKeys (h : Takes c c' gone given) (hc : c.Sound) :
    (c.changedKeys c').length = c.index.keys.countP fun key => gone key || given key && c.holds key := by
  rw [h.changedKeys_eq hc, List.countP_eq_length_filter]

/-- What the invalidation of the leaves reports after something was taken. -/
theorem Takes.fst_invalidateTier (h : Takes c c' gone given) (hc : c.Sound) (hc' : c'.Sound)
    (tier : Tier) : (c'.invalidateTier tier).1 = c.index.keys.countP fun key =>
      !gone key && (c.tier? key == some tier && (!given key && c.holds key)) := by
  rw [Cache.fst_invalidateTier hc', (h.keys_perm hc hc').countP_eq, List.countP_filter]
  refine List.countP_congr fun key _ => ?_
  rw [h.tier? key, h.holds key]
  cases gone key <;> simp

end Cache

/-- The eviction of one key that goes with a kind of change. -/
def ChangeKind.evictKey (kind : ChangeKind) (c : Cache Artifact) (k : String) : Bool × Cache Artifact :=
  match kind with
  | .modified => c.invalidate k
  | .renamed => c.remove k

namespace ChangeKind

variable {c : Cache Artifact} {l : Locator}

theorem sound_evictKey (hc : c.Sound) (kind : ChangeKind) (k : String) : (kind.evictKey c k).2.Sound := by
  cases kind with
  | modified => exact (Cache.thinned_evicted c (.invalidate k)).moves.sound hc
  | renamed => exact (Cache.thinned_evicted c (.remove k)).moves.sound hc

theorem takes_evictKey (hc : c.Sound) (ht : c.Tiered l) (kind : ChangeKind) (k : String) :
    c.Takes (kind.evictKey c k).2 (fun key => kind == .renamed && key == k) fun key =>
      kind == .modified && key == k ||
        k == l.globalUnit.key && c.index.contains l.globalUnit.key && c.tier? key == some .leaf := by
  rw [← Cache.tier?_beq_siteGlobal hc ht]
  cases kind with
  | modified => exact Cache.takes_invalidate hc k
  | renamed => exact Cache.takes_remove hc k

theorem toNat_fst_evictKey (c : Cache Artifact) (kind : ChangeKind) (k : String) :
    (kind.evictKey c k).1.toNat =
      c.index.keys.countP fun key => key == k && (kind == .renamed || c.holds key) := by
  have hkeys : c.index.keys.contains k = c.index.contains k := by
    rw [Bool.eq_iff_iff, List.contains_iff_mem, NameMap.contains_iff]
  rw [countP_name c.index.nodup_keys, hkeys]
  cases kind with
  | modified =>
    show (c.invalidate k).1.toNat = (c.index.contains k && c.holds k).toNat
    rw [Cache.fst_invalidate]
    cases hheld : c.holds k with
    | true => rw [Cache.contains_of_holds hheld, Bool.true_and]
    | false => rw [Bool.and_false]
  | renamed =>
    show (c.remove k).1.toNat = (c.index.contains k && true).toNat
    rw [Cache.fst_remove, Bool.and_true]

end ChangeKind

namespace LiveSite

variable {s : LiveSite} {change : Change} {unit : Identity}

theorem apply_of_leaf (hunit : s.locator.unitOfFile? change.path = some unit)
    (hglobal : ¬ s.locator.isGlobal unit = true) : s.apply change =
    ((change.kind.evictKey s.cache unit.key).1.toNat,
      { s with cache := (change.kind.evictKey s.cache unit.key).2 }) := by
  cases hkind : change.kind with
  | modified => simp only [apply, ChangeKind.evictKey, hunit, hkind, if_neg hglobal, Nat.add_zero]
  | renamed => simp only [apply, ChangeKind.evictKey, hunit, hkind, if_neg hglobal, Nat.add_zero]

theorem apply_of_global (hunit : s.locator.unitOfFile? change.path = some unit)
    (hglobal : s.locator.isGlobal unit = true) : s.apply change =
    ((change.kind.evictKey s.cache unit.key).1.toNat +
        ((change.kind.evictKey s.cache unit.key).2.invalidateTier .leaf).1,
      { s with cache := ((change.kind.evictKey s.cache unit.key).2.invalidateTier .leaf).2 }) := by
  cases hkind : change.kind with
  | modified => simp only [apply, ChangeKind.evictKey, hunit, hkind, if_pos hglobal]
  | renamed => simp only [apply, ChangeKind.evictKey, hunit, hkind, if_pos hglobal]

/-- Whether a change reports every key that it changed but the unreported leaves. -/
structure Counted (s : LiveSite) (change : Change) : Prop where
  none : ∀ key, s.cache.status? key = none → (s.apply change).2.cache.status? key = none
  changed : (s.cache.changedKeys (s.apply change).2.cache).length =
    (s.apply change).1 + (s.unreported change).length

theorem length_unreported (hc : s.cache.Sound) (ht : s.cache.Tiered s.locator) (change : Change) :
    (s.unreported change).length = s.cache.index.keys.countP fun key =>
      s.locator.takes change s.locator.globalUnit.key &&
          s.cache.index.contains s.locator.globalUnit.key &&
        (s.cache.tier? key == some .leaf && s.cache.holds key && !s.locator.takes change key) := by
  unfold unreported
  dsimp only
  cases s.locator.takes change s.locator.globalUnit.key &&
      s.cache.index.contains s.locator.globalUnit.key with
  | true =>
    rw [if_pos rfl, ← List.countP_eq_length_filter]
    refine List.countP_congr fun key hkey => ?_
    rw [Cache.tier?_beq_of_mem hc ht hkey, Bool.true_and]
  | false => simp

/-- A change of a file that is not that of the global unit. -/
theorem counted_of_leaf (hc : s.cache.Sound) (ht : s.cache.Tiered s.locator)
    (hunit : s.locator.unitOfFile? change.path = some unit)
    (hglobal : ¬ s.locator.isGlobal unit = true) : s.Counted change := by
  have htakes := change.kind.takes_evictKey hc ht unit.key
  have hkey : (unit.key == s.locator.globalUnit.key) = false :=
    beq_eq_false_iff_ne.2 fun h => hglobal (Locator.isGlobal_iff.2 h)
  have hnone : s.unreported change = [] := by
    have hmeant : s.locator.takes change s.locator.globalUnit.key = false := by
      rw [Locator.takes, hunit]
      exact BEq.comm.trans hkey
    rw [unreported, hmeant]
    rfl
  have happly := apply_of_leaf hunit hglobal
  refine ⟨fun key => ?_, ?_⟩
  · rw [happly]
    exact htakes.status?_eq_none
  · rw [happly, hnone]
    show (s.cache.changedKeys (change.kind.evictKey s.cache unit.key).2).length =
      (change.kind.evictKey s.cache unit.key).1.toNat
    rw [htakes.length_changedKeys hc, ChangeKind.toNat_fst_evictKey, hkey]
    refine List.countP_congr fun key _ => ?_
    cases change.kind <;> cases key == unit.key <;> simp

/-- A change of the global unit: the leaves that go with its entry are not there to be invalidated once
more. -/
theorem counted_of_global (hc : s.cache.Sound) (ht : s.cache.Tiered s.locator)
    (hunit : s.locator.unitOfFile? change.path = some unit)
    (hglobal : s.locator.isGlobal unit = true) : s.Counted change := by
  have hfirst := change.kind.takes_evictKey hc ht unit.key
  have htakes := hfirst.trans (Cache.takes_invalidateTier _ .leaf)
  have hkey : unit.key = s.locator.globalUnit.key := Locator.isGlobal_iff.1 hglobal
  have happly := apply_of_global hunit hglobal
  refine ⟨fun key => ?_, ?_⟩
  · rw [happly]
    exact htakes.status?_eq_none
  have hmeant : ∀ key, s.locator.takes change key = (key == unit.key) := by
    intro key
    rw [Locator.takes, hunit]
  have hmodified : (change.kind == .modified) = !(change.kind == .renamed) := by
    cases change.kind <;> rfl
  have hapart : ∀ key ∈ s.cache.index.keys, (key == unit.key) = true →
      (s.cache.tier? key == some .leaf) = false := by
    intro key hmem heq
    rw [Cache.tier?_beq_of_mem hc ht hmem, beq_iff_eq.1 heq, hkey, s.locator.tierOf_globalUnit_key]
    rfl
  rw [happly, length_unreported hc ht]
  show (s.cache.changedKeys ((change.kind.evictKey s.cache unit.key).2.invalidateTier .leaf).2).length =
    (change.kind.evictKey s.cache unit.key).1.toNat +
      ((change.kind.evictKey s.cache unit.key).2.invalidateTier .leaf).1 + _
  rw [htakes.length_changedKeys hc, ChangeKind.toNat_fst_evictKey,
    hfirst.fst_invalidateTier hc (change.kind.sound_evictKey hc unit.key), Nat.add_assoc]
  -- a leaf is counted by the second eviction or not reported, as the first one met the entry or not
  rw [← countP_or, ← countP_or]
  · refine List.countP_congr fun key hmem => ?_
    have hbool : ∀ r k l g h : Bool, (k = true → l = false) →
        (r && k || false || (!r && k || true && g && l || !(r && k) && l) && h) =
          (k && (r || h) || (!(r && k) && (l && (!(!r && k || true && g && l) && h)) ||
            true && g && (l && h && !k))) := by decide
    rw [hfirst.tier?_beq, hmodified, hmeant, hmeant, beq_iff_eq.2 hkey, beq_iff_eq.2 hkey.symm,
      hbool _ _ _ _ _ (hapart key hmem)]
  · intro key hmem
    have hbool : ∀ r k l g h : Bool, (k = true → l = false) → (k && (r || h)) = true →
        (!(r && k) && (l && (!(!r && k || true && g && l) && h)) || true && g && (l && h && !k)) =
          false := by decide
    rw [hmodified, hmeant, hmeant, beq_iff_eq.2 hkey, beq_iff_eq.2 hkey.symm]
    exact hbool _ _ _ _ _ (hapart key hmem)
  · intro key _
    have hbool : ∀ r k l g h : Bool, (!(r && k) && (l && (!(!r && k || true && g && l) && h))) = true →
        (true && g && (l && h && !k)) = false := by decide
    rw [hmodified, hmeant, hmeant, beq_iff_eq.2 hkey, beq_iff_eq.2 hkey.symm]
    exact hbool _ _ _ _ _

/-- The keys below a directory are those that its change is meant for. -/
theorem keysUnder_eq (hunit : s.locator.unitOfFile? change.path = none) (hkind : change.kind = .renamed) :
    s.cache.keysUnder change.path = s.cache.index.keys.filter fun key => s.locator.takes change key := by
  unfold Cache.keysUnder Locator.takes
  rw [hunit, hkind]
  rfl

theorem contains_keysUnder (hunit : s.locator.unitOfFile? change.path = none)
    (hkind : change.kind = .renamed) {key : String} (hmem : key ∈ s.cache.index.keys) :
    (s.cache.keysUnder change.path).contains key = s.locator.takes change key := by
  rw [keysUnder_eq hunit hkind, Bool.eq_iff_iff, List.contains_iff_mem, List.mem_filter]
  exact and_iff_right hmem

/-- A directory has the global unit's entry below it if the change is meant for it and it is there. -/
theorem any_siteGlobal_keysUnder (hc : s.cache.Sound) (ht : s.cache.Tiered s.locator)
    (hunit : s.locator.unitOfFile? change.path = none) (hkind : change.kind = .renamed) :
    ((s.cache.keysUnder change.path).any fun k => s.cache.tier? k == some .siteGlobal) =
      (s.locator.takes change s.locator.globalUnit.key &&
        s.cache.index.contains s.locator.globalUnit.key) := by
  rw [keysUnder_eq hunit hkind, Bool.eq_iff_iff, List.any_eq_true, Bool.and_eq_true, NameMap.contains_iff]
  constructor
  · rintro ⟨key, hmem, htier⟩
    rw [Cache.tier?_beq_siteGlobal hc ht, Bool.and_eq_true, beq_iff_eq] at htier
    obtain ⟨rfl, -⟩ := htier
    exact (List.mem_filter.1 hmem).symm
  · rintro ⟨hmeant, hmem⟩
    refine ⟨_, List.mem_filter.2 ⟨hmem, hmeant⟩, ?_⟩
    rw [Cache.tier?_beq_siteGlobal hc ht, NameMap.contains_iff.2 hmem, BEq.rfl, Bool.and_true]

/-- A change of a directory. -/
theorem counted_of_directory (hc : s.cache.Sound) (ht : s.cache.Tiered s.locator)
    (hunit : s.locator.unitOfFile? change.path = none) : s.Counted change := by
  cases hkind : change.kind with
  | modified =>
    have happly : s.apply change = (0, s) := by
      unfold apply
      rw [hunit, hkind]
    have hnone : s.unreported change = [] := by
      have hmeant : s.locator.takes change s.locator.globalUnit.key = false := by
        rw [Locator.takes, hunit, hkind]
        rfl
      rw [unreported, hmeant]
      rfl
    refine ⟨fun key hkey => ?_, ?_⟩
    · rw [happly]
      exact hkey
    · rw [happly, hnone, (Cache.Takes.refl s.cache).length_changedKeys hc]
      simp
  | renamed =>
    have happly : s.apply change = ((s.cache.removeUnder change.path).1,
        { s with cache := (s.cache.removeUnder change.path).2 }) := by
      unfold apply
      rw [hunit, hkind]
    have htakes := Cache.takes_removeUnder hc change.path
    refine ⟨fun key => ?_, ?_⟩
    · rw [happly]
      exact htakes.status?_eq_none
    · rw [happly, length_unreported hc ht]
      show (s.cache.changedKeys (s.cache.removeUnder change.path).2).length =
        (s.cache.removeUnder change.path).1 + _
      rw [htakes.length_changedKeys hc, Cache.fst_removeUnder, keysUnder_eq hunit hkind,
        ← List.countP_eq_length_filter, ← countP_or]
      · refine List.countP_congr fun key hmem => ?_
        have hbool : ∀ t g l h : Bool, (t || g && l && h) = (t || g && (l && h && !t)) := by decide
        rw [← keysUnder_eq hunit hkind, contains_keysUnder hunit hkind hmem,
          any_siteGlobal_keysUnder hc ht hunit hkind, hbool]
      · intro key _ hmeant
        rw [hmeant]
        simp

/-- **What a change reports.** Whatever the cache has come to hold and build, a change of a file or a
directory makes no key known, and it reports how many keys changed their status or are gone, but for the
leaves that it invalidates together with the entry of the global unit. So the number is right if and only
if there are no such leaves. -/
theorem apply_reports {sys : LayeredSystem} (hsys : sys.Reachable) {site : LiveSite}
    (hlocator : site.locator = sys.locator) (hcache : site.cache = sys.system.cache) (change : Change) :
    (∀ key, site.cache.status? key = none → (site.apply change).2.cache.status? key = none) ∧
      (site.cache.changedKeys (site.apply change).2.cache).length =
        (site.apply change).1 + (site.unreported change).length ∧
      ((site.apply change).1 = (site.cache.changedKeys (site.apply change).2.cache).length ↔
        site.unreported change = []) := by
  have htiered := hsys.coherent.tiered
  have hc : site.cache.Sound := hcache ▸ htiered.reachable.sound.cache
  have ht : site.cache.Tiered site.locator := hcache ▸ hlocator ▸ htiered.entries
  have hcounted : site.Counted change := by
    cases hunit : site.locator.unitOfFile? change.path with
    | none => exact counted_of_directory hc ht hunit
    | some unit =>
      by_cases hglobal : site.locator.isGlobal unit = true
      · exact counted_of_global hc ht hunit hglobal
      · exact counted_of_leaf hc ht hunit hglobal
  refine ⟨hcounted.none, hcounted.changed, ?_⟩
  rw [hcounted.changed, ← List.length_eq_zero_iff]
  omega

/-- A site whose global unit and one page are built. -/
def editedSite : LiveSite :=
  ⟨LayeredSystem.edited.locator, [], LayeredSystem.edited.system.cache, LayeredSystem.edited.nextSerial⟩

/-- When the global unit is written, two keys change and one is reported. -/
theorem apply_reports_edited : (editedSite.apply ⟨"/site/global.ks", .modified⟩).1 = 1 ∧
    editedSite.cache.changedKeys (editedSite.apply ⟨"/site/global.ks", .modified⟩).2.cache =
      ["/site/a.ks", "/site/global.ks"] ∧
    editedSite.unreported ⟨"/site/global.ks", .modified⟩ = ["/site/a.ks"] ∧
    (editedSite.apply ⟨"/site/global.ks", .modified⟩).1 ≠
      (editedSite.cache.changedKeys (editedSite.apply ⟨"/site/global.ks", .modified⟩).2.cache).length := by
  have hreachable : LayeredSystem.edited.Reachable := ⟨_, _, _, rfl⟩
  have hunreported : editedSite.unreported ⟨"/site/global.ks", .modified⟩ = ["/site/a.ks"] := by
    decide +kernel
  have hlocator : editedSite.locator = LayeredSystem.edited.locator := by rw [editedSite]
  have hcache : editedSite.cache = LayeredSystem.edited.system.cache := by rw [editedSite]
  have hreports := apply_reports hreachable hlocator hcache ⟨"/site/global.ks", .modified⟩
  refine ⟨by decide +kernel, by decide +kernel, hunreported, fun heq => ?_⟩
  have hnone := hreports.2.2.1 heq
  rw [hunreported] at hnone
  cases hnone

end LiveSite

end SiteHost
