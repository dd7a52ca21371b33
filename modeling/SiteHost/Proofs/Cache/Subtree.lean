import SiteHost.Proofs.Cache.Reported
import SiteHost.Proofs.Disk.Ancestors

/-!
# A directory that is forgotten

Forgetting a directory takes keys from the map one by one, and with the site-global unit the leaves that are
left. What becomes of the cache as a whole:

* `Cache.lostKeys` — the keys whose entry has left the map;
* `Cache.ForgetsGlobal` — whether a site-global entry is among them;
* `Cache.Stranded` — a build that brings nothing to any entry.

Principal results:

* `Cache.lostKeys_removeUnder` — the lost keys are those that begin like the keys below the directory;
* `Cache.find?_removeUnder` — what is left of the other entries;
* `System.stranded_removeUnder` — no build for a lost entry brings anything, and no key leads to it again;
* `System.removeUnder_subtree` — **the entries of just the sources below a directory are forgotten.**
-/

namespace SiteHost

namespace Cache

variable {α : Type} {c c' : Cache α} {key directory : String} {g : Generation} {id : Nat}

/-! ## Entries that have left the map -/

/-- The keys whose entry has left the map. -/
def lostKeys (c c' : Cache α) : List String := c.index.keys.filter fun key => (c'.find? key).isNone

/-- Whether a site-global entry has left the map. -/
def ForgetsGlobal (c c' : Cache α) : Prop := ∃ key ∈ c.lostKeys c', c.tier? key = some .siteGlobal

instance (c c' : Cache α) : Decidable (c.ForgetsGlobal c') :=
  List.decidableBEx (fun key => c.tier? key = some .siteGlobal) (c.lostKeys c')

/-- **The keys below a directory leave the map, and no others.** -/
theorem lostKeys_removeUnder (hc : c.Sound) (directory : String) :
    c.lostKeys (c.removeUnder directory).2 = c.keysUnder directory := by
  have htakes := takes_removeUnder hc directory
  refine List.filter_congr fun key hkey => ?_
  obtain ⟨e, he⟩ := hc.mem_keys.1 hkey
  have hunder : (c.keysUnder directory).contains key = key.startsWith (Eviction.above directory) := by
    rw [Bool.eq_iff_iff, List.contains_iff_mem, mem_keysUnder, and_iff_right (NameMap.mem_keys.1 hkey)]
  rw [htakes key, he, hunder]
  change _ = key.startsWith (Eviction.above directory)
  cases key.startsWith (Eviction.above directory) with
  | true => rfl
  | false =>
    rw [if_neg Bool.false_ne_true]
    split <;> rfl

theorem forgetsGlobal_removeUnder (hc : c.Sound) (directory : String) :
    c.ForgetsGlobal (c.removeUnder directory).2 ↔
      ((c.keysUnder directory).any fun k => c.tier? k == some .siteGlobal) = true := by
  rw [ForgetsGlobal, lostKeys_removeUnder hc, List.any_eq_true]
  simp only [beq_iff_eq]

/-- **What is left of the other entries**: a leaf gives up what it holds if the site-global entry is lost, and
everything else stays as it was. -/
theorem find?_removeUnder (hc : c.Sound) {e : Entry α} (he : c.find? key = some e)
    (hkept : key ∉ c.lostKeys (c.removeUnder directory).2) :
    (c.removeUnder directory).2.find? key = some
      (if c.ForgetsGlobal (c.removeUnder directory).2 ∧ e.tier = .leaf then e.givenUp else e) := by
  have hunder : (c.keysUnder directory).contains key = false := by
    rwa [lostKeys_removeUnder hc, ← List.contains_iff_mem, Bool.not_eq_true] at hkept
  have htier : c.tier? key = some e.tier := by rw [tier?, he, Option.map_some]
  have hglobal := forgetsGlobal_removeUnder hc directory
  rw [takes_removeUnder hc directory key, hunder, if_neg Bool.false_ne_true, he]
  simp only [htier]
  cases hany : (c.keysUnder directory).any fun k => c.tier? k == some .siteGlobal with
  | true =>
    rw [hany, iff_true_right rfl] at hglobal
    by_cases hleaf : e.tier = .leaf <;> simp [hglobal, hleaf]
  | false =>
    rw [hany, iff_false_right Bool.false_ne_true] at hglobal
    simp [hglobal]

/-! ## Builds that bring nothing -/

/-- A build that brings nothing to any entry: neither when it ends nor when its result is stored. -/
structure Stranded (c : Cache α) (g : Generation) : Prop where
  publish : c.publish g = c
  entries : ∀ ending, (c.finish g ending).entries = c.entries
  index : ∀ ending, (c.finish g ending).index = c.index

theorem publish_eq_self (h : ∀ f, c.flights[g]? = some f → c.state? f.entry ≠ some (.building g)) :
    c.publish g = c := by
  rcases publish_cases c g with hsame | ⟨f, r, hf, hstate, -, -⟩
  · exact hsame
  · exact absurd hstate (h f hf)

/-- A build is stranded if its entry does not wait for it. -/
theorem stranded_of_ne {f : Flight α} (hf : c.flights[g]? = some f)
    (h : c.state? f.entry ≠ some (.building g)) : c.Stranded g := by
  have hended (ending : Ending α) : (c.ended g ending).publish g = c.ended g ending := by
    refine publish_eq_self fun f' hf' => ?_
    rw [getElem?_flights_ended, if_pos rfl, hf, Option.map_some] at hf'
    rw [← Option.some.inj hf']
    exact h
  have hfinish (ending : Ending α) :
      (c.finish g ending).entries = c.entries ∧ (c.finish g ending).index = c.index := by
    by_cases hrun : c.isRunning g = true
    · by_cases hpanic : ending = .panicked
      · rw [hpanic, finish_panicked hrun]
        exact ⟨rfl, rfl⟩
      · rcases finish_of_ne_panicked hrun hpanic with heq | ⟨tier, r, heq⟩
        · rw [heq, hended]
          exact ⟨rfl, rfl⟩
        · rw [heq, hended, entries_countBuild, index_countBuild]
          exact ⟨rfl, rfl⟩
    · rw [finish, if_neg hrun]
      exact ⟨rfl, rfl⟩
  refine ⟨publish_eq_self fun f' hf' => ?_, fun ending => (hfinish ending).1,
    fun ending => (hfinish ending).2⟩
  rw [hf] at hf'
  rw [← Option.some.inj hf']
  exact h

end Cache

namespace System

variable {α : Type} {s : System α} {directory key : String} {id : Nat}

/-- A system in which nobody disturbs the removal of a directory. -/
def removedUnder (s : System α) (directory : String) : System α :=
  { s with cache := (s.cache.removeUnder directory).2 }

/-- **No build for a lost entry brings anything any more, and no key leads to the entry again.** -/
theorem stranded_removeUnder (hs : s.Sound)
    (hlost : key ∈ s.cache.lostKeys (s.removedUnder directory).cache)
    (hid : s.cache.index.get? key = some id) (later : List (Action α)) :
    ¬ ((s.removedUnder directory).run later).cache.Indexed id ∧
      ∀ g f, s.cache.flights[g]? = some f → f.entry = id →
        ((s.removedUnder directory).run later).cache.Stranded g := by
  have hforgets : Eviction.Forgets (.under directory) key := by
    rw [removedUnder, Cache.lostKeys_removeUnder hs.cache] at hlost
    exact (Cache.mem_keysUnder.1 hlost).2
  have hthin := Cache.thinned_evicted s.cache (.under directory)
  have hs' : (s.removedUnder directory).Sound := hs.evicted [.under directory]
  have hmoves := run_moves hs' later
  have hlt : id < s.cache.entries.length := hs.cache.index_lt ⟨key, hid⟩
  constructor
  · intro hindexed
    have hlater := Nat.lt_of_lt_of_le hlt hthin.moves.extends.length_entries
    obtain ⟨k, hk⟩ := hmoves.extends.unindexed id hlater hindexed
    have hgone := Cache.get?_index_evicted s.cache (.under directory) key
    rw [if_pos hforgets] at hgone
    have hsame : k = key := hs.cache.key_eq hid (hthin.index k id hk)
    rw [hsame] at hk
    exact absurd (hgone.symm.trans hk) nofun
  · rintro g f hf rfl
    have hbase : g < s.cache.flights.length := (List.getElem?_eq_some_iff.1 hf).1
    have hfresh : (s.removedUnder directory).cache.Fresh s.cache.flights.length f.entry :=
      Cache.fresh_of_forgets hforgets hid (Nat.le_refl _)
    have hfresh' := hmoves.fresh (Nat.le_of_eq (congrArg List.length hthin.flights).symm) hfresh
    obtain ⟨f', hf', hentry, -⟩ := (hthin.moves.extends.trans hmoves.extends).flights g f hf
    refine Cache.stranded_of_ne hf' fun hwaits => ?_
    rw [hentry] at hwaits
    exact absurd (hfresh'.building g hwaits).1 (Nat.not_le.2 hbase)

/-- **Forgetting a directory forgets just the subtree below it.** An entry whose path is that of a source
leaves the map if and only if the directory is a proper ancestor of it, both in full lower case; no entry is
new. As many entries are reported as are lost; no build for any of them brings anything afterwards, whatever is
done, and no key leads to them again. Every entry that remains is as it was, but for the leaves, which give up
what they hold if the site-global entry is lost. -/
theorem removeUnder_subtree (hs : s.Reachable) (hdirectory : Path.IsDirectory directory) :
    (∀ key e, s.cache.find? key = some e → Path.IsSource e.identity.path →
      (key ∈ s.cache.lostKeys (s.removedUnder directory).cache ↔
        Path.ProperlyAbove directory e.identity.path)) ∧
    (∀ key, s.cache.find? key = none → (s.removedUnder directory).cache.find? key = none) ∧
    (s.cache.removeUnder directory).1 = (s.cache.lostKeys (s.removedUnder directory).cache).length ∧
    (∀ key ∈ s.cache.lostKeys (s.removedUnder directory).cache, ∀ id,
      s.cache.index.get? key = some id → ∀ later : List (Action α),
        ¬ ((s.removedUnder directory).run later).cache.Indexed id ∧
        ∀ g f, s.cache.flights[g]? = some f → f.entry = id →
          ((s.removedUnder directory).run later).cache.Stranded g) ∧
    ∀ key e, s.cache.find? key = some e → key ∉ s.cache.lostKeys (s.removedUnder directory).cache →
      (s.removedUnder directory).cache.find? key = some
        (if s.cache.ForgetsGlobal (s.removedUnder directory).cache ∧ e.tier = .leaf
          then e.givenUp else e) := by
  have hsound := hs.sound
  refine ⟨?_, ?_, ?_, fun key hlost id hid later => stranded_removeUnder hsound hlost hid later,
    fun key e he hkept => Cache.find?_removeUnder hsound.cache he hkept⟩
  · intro key e he hsource
    obtain ⟨id, hid, hentry⟩ := Option.bind_eq_some_iff.1 he
    obtain ⟨e', he', hkey⟩ := hsound.cache.index key id hid
    rw [hentry] at he'
    cases he'
    rw [removedUnder, Cache.lostKeys_removeUnder hsound.cache, Cache.mem_keysUnder,
      and_iff_right ⟨id, hid⟩, ← Path.startsWith_above_iff hsource hdirectory, ← hkey, Identity.key]
  · intro key hnone
    rw [removedUnder, Cache.takes_removeUnder hsound.cache directory key, hnone]
    split
    · rfl
    · split <;> rfl
  · rw [removedUnder, Cache.lostKeys_removeUnder hsound.cache, Cache.fst_removeUnder]

/-- A directory whose name ends in a capital sigma, with a build on its way and the site-global unit in it, and
a file beside it whose name begins like that of the directory. -/
def sigmaSystem : System Nat := (start 1000).run [
  .enter ⟨"/Site/ΟΔΟΣ/a.ks", "Site.a"⟩ .leaf, .look 0,
  .enter ⟨"/Site/ΟΔΟΣ.ks", "Site.b"⟩ .leaf, .look 1, .finish 1 (.returned (.ok 1)),
  .enter ⟨"/Site/οδος/global.ks", "Site.global"⟩ .siteGlobal, .look 2]

/-- What lies in the directory is forgotten in any letter case, and the file beside it is invalidated. -/
theorem removeUnder_subtree_sigma :
    Path.ProperlyAbove "/SITE/Οδος/" "/Site/ΟΔΟΣ/a.ks" ∧
    ¬ Path.ProperlyAbove "/SITE/Οδος/" "/Site/ΟΔΟΣ.ks" ∧
    (sigmaSystem.cache.removeUnder "/SITE/Οδος/").1 = 2 ∧
    (∀ later, ((sigmaSystem.removedUnder "/SITE/Οδος/").run later).cache.Stranded 0) ∧
    (sigmaSystem.removedUnder "/SITE/Οδος/").cache.status? "/site/οδοσ.ks" = some .invalidated := by
  have hdirectory : Path.IsDirectory "/SITE/Οδος/" :=
    ⟨["SITE", "Οδος"], by decide +kernel, .inr ⟨by decide, by decide +kernel⟩⟩
  have hinside : Path.IsSource "/Site/ΟΔΟΣ/a.ks" := ⟨["Site", "ΟΔΟΣ"], "a.ks", by decide +kernel, rfl⟩
  have hbeside : Path.IsSource "/Site/ΟΔΟΣ.ks" := ⟨["Site"], "ΟΔΟΣ.ks", by decide +kernel, rfl⟩
  have hkeys : sigmaSystem.cache.lostKeys (sigmaSystem.removedUnder "/SITE/Οδος/").cache =
      ["/site/οδος/a.ks", "/site/οδος/global.ks"] := by decide +kernel
  obtain ⟨hlost, -, hcount, hbuilds, hrest⟩ :=
    removeUnder_subtree (s := sigmaSystem) ⟨1000, _, rfl⟩ hdirectory
  have habove := hlost "/site/οδος/a.ks" ⟨⟨"/Site/ΟΔΟΣ/a.ks", "Site.a"⟩, .leaf, .building 0⟩ rfl hinside
  have hapart := hlost "/site/οδοσ.ks" ⟨⟨"/Site/ΟΔΟΣ.ks", "Site.b"⟩, .leaf, .built 1⟩ rfl hbeside
  have hleft := hrest "/site/οδοσ.ks" ⟨⟨"/Site/ΟΔΟΣ.ks", "Site.b"⟩, .leaf, .built 1⟩ rfl
  rw [hkeys] at habove hapart hcount hbuilds hleft
  refine ⟨habove.1 (by decide), fun h => absurd (hapart.2 h) (by decide), hcount, fun later => ?_, ?_⟩
  · exact (hbuilds "/site/οδος/a.ks" (by decide) 0 rfl later).2 0 ⟨0, none⟩ rfl rfl
  · have hglobal : sigmaSystem.cache.ForgetsGlobal (sigmaSystem.removedUnder "/SITE/Οδος/").cache :=
      ⟨"/site/οδος/global.ks", by rw [hkeys]; decide, by decide +kernel⟩
    rw [Cache.status?, hleft (by decide), if_pos ⟨hglobal, rfl⟩]
    rfl

end System

end SiteHost
