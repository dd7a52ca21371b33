import SiteHost.Proofs.Cache.Evicted

/-!
# Leaves and the site-global unit

Leaves are linked against the site-global unit, so an eviction that takes it away has the leaves to
take away as well. The entries of a tier are dropped one by one, without a look at what they are, and
that is the one way to lose the site-global unit alone:

* `Cache.HoldsLeaf` — whether a leaf of the map holds an artifact or a build;
* `Cache.LosesGlobal` — whether a site-global entry of the map loses what it holds;
* `Chore.Cascades` — whether a chore drops no site-global entry but one by one.

Principal results:

* `Cache.Drains.renewed_of_loses` — with such chores no site-global entry is lost alone;
* `System.holdsLeaf_iff_of_losesGlobal` — after an eviction that took a site-global entry a leaf holds
  something if and only if the eviction was that of the site-global tier and a leaf held something
  before.
-/

namespace SiteHost

/-- Whether the only entries that a chore drops together are no site-global ones. -/
def Chore.Cascades {α : Type} (c : Cache α) : Chore → Prop
  | .evict (.tier tier) => tier ≠ .siteGlobal
  | .evict .reset | .clear _ | .reset _ _ => False
  | .drop ids _ => ∀ id ∈ ids, ∃ entry : Entry α, c.entries[id]? = some entry ∧
      entry.tier ≠ .siteGlobal
  | .evict (.invalidate _) | .evict (.remove _) | .evict (.under _) | .invalidate _ | .remove _ => True

/-- What a chore drops at once it was called for, or is one of the entries that it drops together. -/
theorem Chore.Takes.drops_or_mem {chore : Chore} {id : Nat} (h : chore.Takes id) :
    chore.Drops id ∨ ∃ ids n, (chore = .drop ids n ∨ chore = .reset ids n) ∧ id ∈ ids := by
  cases chore with
  | invalidate j => exact .inl (.inl (congrArg Chore.invalidate h))
  | remove j => exact .inl (.inr (congrArg Chore.remove h))
  | drop ids n => exact .inr ⟨ids, n, .inl rfl, List.mem_of_head? h⟩
  | reset ids n => exact .inr ⟨ids, n, .inr rfl, List.mem_of_head? h⟩
  | _ => exact h.elim

namespace Cache

variable {α : Type} {c c' : Cache α} {base : Generation} {id j : Nat}

/-- Whether a leaf of the map holds an artifact or a build. -/
def HoldsLeaf (c : Cache α) : Prop :=
  ∃ id entry, c.Indexed id ∧ c.entries[id]? = some entry ∧ entry.tier = .leaf ∧
    entry.state.isHeld = true

/-- Whether a site-global entry of the map loses what it holds: it is invalidated or leaves the map. -/
def LosesGlobal (c c' : Cache α) : Prop :=
  ∃ id entry, c.Indexed id ∧ c.entries[id]? = some entry ∧ entry.tier = .siteGlobal ∧
    entry.state.isHeld = true ∧ (c'.state? id = some .invalidated ∨ ¬ c'.Indexed id)

/-- What is renewed since the last build was started holds nothing. -/
theorem Renewed.isHeld_eq_false (h : c.Renewed c.flights.length id) (hind : c.Indexed id)
    {entry : Entry α} (hentry : c.entries[id]? = some entry) : entry.state.isHeld = false := by
  have hfresh := h.resolve_right (not_not_intro hind)
  have hstate : c.state? id = some entry.state := by rw [state?, hentry, Option.map_some]
  cases hs : entry.state with
  | empty => rfl
  | invalidated => rfl
  | building g =>
    obtain ⟨hle, f, hf, -⟩ := hfresh.building g (by rw [hstate, hs])
    exact absurd (List.getElem?_eq_some_iff.1 hf).1 (Nat.not_lt.2 hle)
  | built a =>
    obtain ⟨g, hle, hf⟩ := hfresh.built a (by rw [hstate, hs])
    exact absurd (List.getElem?_eq_some_iff.1 hf).1 (Nat.not_lt.2 hle)

/-! ## Chores that drop a site-global entry -/

theorem cascades_mono {chore : Chore} (h : chore.Cascades c) (he : Extends c c') :
    chore.Cascades c' := by
  cases chore with
  | evict e => cases e <;> exact h
  | drop ids n =>
    intro id hid
    obtain ⟨entry, hentry, htier⟩ := h id hid
    obtain ⟨entry', hentry', -, ht⟩ := he.entries id entry hentry
    exact ⟨entry', hentry', ht ▸ htier⟩
  | _ => exact h

/-- What is left to do by a chore that cascades cascades as well. -/
theorem cascades_perform {chore next : Chore} (h : chore.Cascades c)
    (hnext : next ∈ (c.perform chore).1) : next.Cascades (c.perform chore).2 := by
  refine cascades_mono ?_ (moves_perform c chore).extends
  cases mem_perform.1 hnext with
  | invalidate | remove | under => trivial
  | tier t =>
    intro id hid
    obtain ⟨-, entry, hentry, htier⟩ := mem_entriesOf.1 hid
    exact ⟨entry, hentry, htier ▸ h⟩
  | cascade => exact Tier.noConfusion
  | drop j => exact fun id hid => h id (List.mem_cons_of_mem j hid)
  | reset | clear | dropReset => exact h.elim

/-- An entry of the map is left alone by a chore, unless the chore drops it, leaves it to be dropped
or forgets every key. -/
theorem perform_indexed_cases (c : Cache α) (chore : Chore) (hind : c.Indexed id) :
    ((c.perform chore).2.Indexed id ∧ (c.perform chore).2.state? id = c.state? id) ∨
      chore.Drops id ∨ (∃ next ∈ (c.perform chore).1, next.Drops id) ∨
      (∃ ids n, (chore = .drop ids n ∨ chore = .reset ids n) ∧ id ∈ ids) ∨
      ∃ ids, chore = .clear ids := by
  have hworked := worked_perform c chore
  generalize (c.perform chore).2 = c' at hworked ⊢
  induction hworked with
  | asked => exact .inl ⟨hind, rfl⟩
  | forgot key hchore =>
    obtain ⟨k, hk⟩ := hind
    by_cases heq : k = key
    · subst heq hchore
      exact .inr (.inr (.inl ⟨.remove id, mem_perform.2 (.remove hk), .inr rfl⟩))
    · exact .inl ⟨⟨k, (NameMap.get?_erase_of_ne _ heq).trans hk⟩, rfl⟩
  | cleared ids hchore => exact .inr (.inr (.inr (.inr ⟨ids, hchore⟩)))
  | dropped j htakes =>
    rcases state?_dropEntry_cases c j id with hstate | ⟨rfl, -⟩
    · obtain ⟨key, hkey⟩ := hind
      exact .inl ⟨⟨key, by rwa [index_dropEntry]⟩, hstate⟩
    · rcases htakes.drops_or_mem with hdrops | hmem
      · exact .inr (.inl hdrops)
      · exact .inr (.inr (.inr (.inl hmem)))
  | counted _ _ _ ih => exact ih

/-- A site-global entry is left alone by a chore that cascades, unless the chore drops it or leaves it
to be dropped. -/
theorem perform_siteGlobal_cases {chore : Chore} (h : chore.Cascades c) (hind : c.Indexed id)
    {entry : Entry α} (hentry : c.entries[id]? = some entry) (htier : entry.tier = .siteGlobal) :
    ((c.perform chore).2.Indexed id ∧ (c.perform chore).2.state? id = c.state? id) ∨
      chore.Drops id ∨ ∃ next ∈ (c.perform chore).1, next.Drops id := by
  rcases perform_indexed_cases c chore hind with
    hkept | hdrops | hnext | ⟨ids, n, rfl | rfl, hmem⟩ | ⟨ids, rfl⟩
  · exact .inl hkept
  · exact .inr (.inl hdrops)
  · exact .inr (.inr hnext)
  · obtain ⟨entry', hentry', hother⟩ := h id hmem
    rw [hentry] at hentry'
    cases hentry'
    exact absurd htier hother
  · exact h.elim
  · exact h.elim

namespace Drains

variable {chores : List Chore} {entry leaf : Entry α}

/-- Once a site-global entry is to be dropped, every leaf will be renewed. -/
theorem renewed_of_drops (h : Drains c chores c') (hc : c.Sound) (hbase : base ≤ c.flights.length)
    {chore : Chore} (hmem : chore ∈ chores) (hdrops : chore.Drops j)
    (hentry : c.entries[j]? = some entry) (htier : entry.tier = .siteGlobal)
    (hleaf : c.entries[id]? = some leaf) (hleaftier : leaf.tier = .leaf) : c'.Renewed base id := by
  induction h generalizing entry leaf with
  | done c => cases hmem
  | @next c c' first rest hrest ih =>
    have hmoves := moves_perform c first
    obtain ⟨entry₁, hentry₁, -, ht₁⟩ := hmoves.extends.entries j entry hentry
    obtain ⟨leaf₁, hleaf₁, -, hl₁⟩ := hmoves.extends.entries id leaf hleaf
    have hbase₁ : base ≤ (c.perform first).2.flights.length := by rwa [flights_perform]
    rcases List.mem_cons.1 hmem with rfl | hlater
    · have hleaves := cascade_perform hdrops hentry₁ (ht₁.trans htier)
      exact hrest.renewed (hmoves.sound hc) hbase₁
        (.inr ⟨_, List.mem_append_left rest hleaves, leaf₁, hleaf₁, hl₁.trans hleaftier⟩)
    · exact ih (hmoves.sound hc) hbase₁ (List.mem_append_right _ hlater) hentry₁ (ht₁.trans htier)
        hleaf₁ (hl₁.trans hleaftier)

/-- **With chores that cascade no site-global entry is lost alone.** -/
theorem renewed_of_loses (h : Drains c chores c') (hc : c.Sound) (hbase : base ≤ c.flights.length)
    (hcascades : ∀ chore ∈ chores, chore.Cascades c) (hind : c.Indexed j)
    (hentry : c.entries[j]? = some entry) (htier : entry.tier = .siteGlobal)
    (hheld : ∃ st, c.state? j = some st ∧ st.isHeld = true)
    (hlost : c'.state? j = some .invalidated ∨ ¬ c'.Indexed j)
    (hleaf : c.entries[id]? = some leaf) (hleaftier : leaf.tier = .leaf) : c'.Renewed base id := by
  induction h generalizing entry leaf with
  | done c =>
    -- nothing was done, so nothing was lost
    obtain ⟨st, hst, hheld⟩ := hheld
    rcases hlost with hinv | hgone
    · rw [hst] at hinv
      cases hinv
      cases hheld
    · exact absurd hind hgone
  | @next c c' first rest hrest ih =>
    have hmoves := moves_perform c first
    obtain ⟨entry₁, hentry₁, -, ht₁⟩ := hmoves.extends.entries j entry hentry
    obtain ⟨leaf₁, hleaf₁, -, hl₁⟩ := hmoves.extends.entries id leaf hleaf
    have hbase₁ : base ≤ (c.perform first).2.flights.length := by rwa [flights_perform]
    have hfirst := hcascades first List.mem_cons_self
    rcases perform_siteGlobal_cases hfirst hind hentry htier with
      ⟨hind₁, hsame⟩ | hdrops | ⟨next, hnext, hdrops⟩
    · refine ih (hmoves.sound hc) hbase₁ ?_ hind₁ hentry₁ (ht₁.trans htier) (by rwa [hsame]) hlost
        hleaf₁ (hl₁.trans hleaftier)
      intro chore hchore
      rcases List.mem_append.1 hchore with hnew | hold
      · exact cascades_perform hfirst hnew
      · exact cascades_mono (hcascades chore (List.mem_cons_of_mem first hold)) hmoves.extends
    · exact (Drains.next hrest).renewed_of_drops hc hbase List.mem_cons_self hdrops hentry htier
        hleaf hleaftier
    · exact hrest.renewed_of_drops (hmoves.sound hc) hbase₁ (List.mem_append_left rest hnext) hdrops
        hentry₁ (ht₁.trans htier) hleaf₁ (hl₁.trans hleaftier)

end Drains

/-! ## The eviction of a tier, and the reset -/

theorem entry?_dropEntry_of_ne (c : Cache α) (h : j ≠ id) :
    (c.dropEntry j).2.entries[id]? = c.entries[id]? := by
  unfold dropEntry
  split
  · split
    · dsimp only
      rw [getElem?_entries_setState, if_neg h]
    · rfl
  · rfl

theorem entry?_dropAll_of_notMem (c : Cache α) {ids : List Nat} (h : id ∉ ids) :
    (c.dropAll ids).2.entries[id]? = c.entries[id]? := by
  induction ids generalizing c with
  | nil => rfl
  | cons j rest ih =>
    rw [List.mem_cons, not_or] at h
    exact (ih (c.dropEntry j).2 h.2).trans (entry?_dropEntry_of_ne c (Ne.symm h.1))

@[simp] theorem index_dropAll (c : Cache α) (ids : List Nat) : (c.dropAll ids).2.index = c.index := by
  induction ids generalizing c with
  | nil => rfl
  | cons j rest ih => exact (ih (c.dropEntry j).2).trans (index_dropEntry c j)

theorem index_invalidateTier (c : Cache α) (tier : Tier) :
    (c.invalidateTier tier).2.index = c.index := by
  unfold invalidateTier
  dsimp only
  split <;> simp

/-- The eviction of a tier leaves the entries of every other tier as they are. -/
theorem entry?_invalidateTier {tier : Tier} {entry : Entry α} (hentry : c.entries[id]? = some entry)
    (htier : entry.tier ≠ tier) : (c.invalidateTier tier).2.entries[id]? = some entry := by
  have hother : id ∉ c.entriesOf tier := by
    intro hmem
    obtain ⟨-, entry', hentry', rfl⟩ := mem_entriesOf.1 hmem
    rw [hentry] at hentry'
    cases hentry'
    exact htier rfl
  unfold invalidateTier
  dsimp only
  split <;> exact (entry?_dropAll_of_notMem c hother).trans hentry

theorem not_indexed_reset (c : Cache α) (id : Nat) : ¬ c.reset.Indexed id := by
  rintro ⟨key, hkey⟩
  simp [reset] at hkey

/-- After an eviction that took a site-global entry, and was not that of the site-global tier, no leaf
holds anything. -/
theorem not_holdsLeaf_of_losesGlobal (hc : c.Sound) {e : Eviction} (he : e ≠ .tier .siteGlobal)
    (hlost : c.LosesGlobal (c.evicted e)) : ¬ (c.evicted e).HoldsLeaf := by
  rintro ⟨id, leaf, hind, hleaf, hleaftier, hheld⟩
  have hdrains := drains_evict c e
  have hthin := hdrains.thinned
  obtain ⟨leaf₀, hleaf₀⟩ : ∃ leaf₀, c.entries[id]? = some leaf₀ ∧ leaf.tier = leaf₀.tier := by
    obtain ⟨key, hkey⟩ := hind
    obtain ⟨leaf₀, -, hleaf₀, -, htier⟩ := hthin.entry hc hkey hleaf
    exact ⟨leaf₀, hleaf₀, htier⟩
  obtain ⟨j, entry, hj, hentry, htier, hheldj, hlostj⟩ := hlost
  have hcascades : (Chore.evict e).Cascades c := by
    cases e with
    | tier tier => exact fun h => he (by rw [h])
    | reset => exact not_indexed_reset c id hind
    | _ => trivial
  have hrenewed := hdrains.renewed_of_loses hc (Nat.le_refl _)
    (fun chore hchore => List.mem_singleton.1 hchore ▸ hcascades) hj hentry htier
    ⟨entry.state, by rw [state?, hentry, Option.map_some], hheldj⟩ hlostj hleaf₀.1
    (hleaf₀.2 ▸ hleaftier)
  rw [← hthin.flights] at hrenewed
  rw [hrenewed.isHeld_eq_false hind hleaf] at hheld
  cases hheld

end Cache

namespace System

/-- **Which evictions take the leaves away with the site-global unit.** If an eviction that nobody
disturbs takes from a site-global entry of the map what it holds, no leaf of the map holds an artifact
or a build afterwards. The one exception is the eviction of the site-global tier, which leaves every
leaf as it was. -/
theorem holdsLeaf_iff_of_losesGlobal {α : Type} {s : System α} (hs : s.Reachable) (e : Eviction)
    (hlost : s.cache.LosesGlobal (s.cache.evicted e)) :
    (s.cache.evicted e).HoldsLeaf ↔ e = .tier .siteGlobal ∧ s.cache.HoldsLeaf := by
  constructor
  · intro hholds
    have he : e = .tier .siteGlobal := Decidable.byContradiction fun hother =>
      Cache.not_holdsLeaf_of_losesGlobal hs.sound.cache hother hlost hholds
    refine ⟨he, ?_⟩
    obtain ⟨id, leaf, ⟨key, hkey⟩, hleaf, htier, hheld⟩ := hholds
    have hthin := Cache.thinned_evicted s.cache e
    have hat := hthin.at? hheld (Cache.at?_eq_some_iff.2
      ⟨id, hkey, Cache.state?_of_entry hleaf⟩)
    obtain ⟨leaf₀, hkey₀, hleaf₀, -, htier₀⟩ := hthin.entry hs.sound.cache hkey hleaf
    obtain ⟨j, hj, hstate⟩ := Cache.at?_eq_some_iff.1 hat
    rw [hkey₀] at hj
    cases hj
    rw [Cache.state?_of_entry hleaf₀, Option.some.injEq] at hstate
    exact ⟨id, leaf₀, ⟨key, hkey₀⟩, hleaf₀, htier₀ ▸ htier, by rw [hstate, hheld]⟩
  · rintro ⟨rfl, id, leaf, ⟨key, hkey⟩, hleaf, htier, hheld⟩
    have hother : leaf.tier ≠ .siteGlobal := by simp [htier]
    exact ⟨id, leaf, ⟨key, by simpa only [Cache.evicted, Cache.index_invalidateTier] using hkey⟩,
      Cache.entry?_invalidateTier hleaf hother, htier, hheld⟩

/-- The global unit and a leaf are built, and the site-global tier is evicted: the leaf still holds
its artifact. -/
theorem holdsLeaf_of_siteGlobal_tier : ∃ s : System Nat,
    s = (start 1000).run [.enter ⟨"/site/global.ks", "Site.global"⟩ .siteGlobal, .look 0,
      .finish 0 (.returned (.ok 1)), .enter ⟨"/site/a.ks", "Site.a"⟩ .leaf, .look 1,
      .finish 1 (.returned (.ok 2))] ∧
    s.cache.LosesGlobal (s.cache.evicted (.tier .siteGlobal)) ∧
    (s.cache.evicted (.tier .siteGlobal)).HoldsLeaf := by
  refine ⟨_, rfl, ?_, ?_⟩
  · exact ⟨0, _, ⟨"/site/global.ks", rfl⟩, rfl, rfl, rfl, .inl rfl⟩
  · refine (holdsLeaf_iff_of_losesGlobal ⟨1000, _, rfl⟩ (.tier .siteGlobal) ?_).2 ⟨rfl, ?_⟩
    · exact ⟨0, _, ⟨"/site/global.ks", rfl⟩, rfl, rfl, rfl, .inl rfl⟩
    · exact ⟨1, _, ⟨"/site/a.ks", rfl⟩, rfl, rfl, rfl⟩

end System

end SiteHost
