import SiteHost.Proofs.Cache.Cascade

/-!
# What evictions take from the map

* `Eviction.Forgets` — whether an eviction takes what is kept for a key from the map.

Principal results:

* `get?_index_evicted`, `get?_index_foldl` — evictions take just these keys from the map, and leave
  every other key with the entry that it had;
* `indexed_or_fresh_foldl` — what leaves the map holds nothing afterwards;
* `fresh_foldl` — neither does what they are meant for, so no build that was started before them
  brings anything to it (`Fresh.finish_publish`), nor to an entry that takes its place
  (`fresh_of_get?_index`);
* `System.outdated_evicted` — both in one: evictions put what they are meant for out of date;
* `System.not_holdsLeaf_evicted` — with the leaves evicted no leaf holds anything.
-/

namespace SiteHost

/-- Whether an eviction takes what is kept for a key from the map. -/
def Eviction.Forgets (e : Eviction) (key : String) : Prop :=
  match e with
  | .remove k => key = k
  | .under directory => key.startsWith (above directory) = true
  | .reset => True
  | .invalidate _ | .tier _ => False

instance (e : Eviction) (key : String) : Decidable (e.Forgets key) := by
  cases e <;> simp only [Eviction.Forgets] <;> infer_instance

namespace Cache

variable {α : Type} {c c' : Cache α} {e : Eviction} {es : List Eviction} {key : String} {id : Nat}
  {base g : Generation}

/-! ## The keys that are left -/

theorem index_cascade (c : Cache α) (id : Nat) : (c.cascade id).index = c.index := by
  unfold cascade
  split
  · exact index_invalidateTier c .leaf
  · rfl

theorem index_invalidate (c : Cache α) (key : String) : (c.invalidate key).2.index = c.index := by
  unfold invalidate
  split
  · rfl
  · dsimp only
    split <;> simp [index_cascade]

theorem get?_index_remove (c : Cache α) (k key : String) :
    (c.remove k).2.index.get? key = if key = k then none else c.index.get? key := by
  by_cases hkey : key = k
  · subst hkey
    unfold remove
    split
    · rename_i hnone
      simpa using hnone
    · simp [index_cascade]
  · unfold remove
    rw [if_neg hkey]
    split
    · rfl
    · simp [index_cascade, NameMap.get?_erase_of_ne _ hkey]

theorem get?_index_removeAll (c : Cache α) (keys : List String) (key : String) :
    (c.removeAll keys).2.index.get? key = if key ∈ keys then none else c.index.get? key := by
  induction keys generalizing c with
  | nil => rfl
  | cons k rest ih =>
    refine (ih (c.remove k).2).trans ?_
    rw [get?_index_remove]
    by_cases hrest : key ∈ rest <;> simp [hrest]

/-- **An eviction takes just the keys that it forgets from the map.** -/
theorem get?_index_evicted (c : Cache α) (e : Eviction) (key : String) :
    (c.evicted e).index.get? key = if e.Forgets key then none else c.index.get? key := by
  cases e with
  | invalidate k => exact congrArg (·.get? key) (index_invalidate c k)
  | tier tier => exact congrArg (·.get? key) (index_invalidateTier c tier)
  | remove k => exact get?_index_remove c k key
  | under directory =>
    refine (get?_index_removeAll c _ key).trans ?_
    cases hget : c.index.get? key with
    | none => simp
    | some id =>
      have hmem : key ∈ c.keysUnder directory ↔ key.startsWith (Eviction.above directory) = true := by
        rw [mem_keysUnder, hget]
        simp
      simp only [hmem, Eviction.Forgets]
  | reset =>
    rw [if_pos (show Eviction.reset.Forgets key from trivial)]
    exact congrArg (·.get? key) (index_dropAll { c with index := .empty } _)

theorem get?_index_foldl (c : Cache α) (es : List Eviction) (key : String) :
    (es.foldl evicted c).index.get? key =
      if ∃ e ∈ es, e.Forgets key then none else c.index.get? key := by
  induction es generalizing c with
  | nil => simp
  | cons e rest ih =>
    rw [List.foldl_cons, ih, get?_index_evicted]
    by_cases hrest : ∃ e ∈ rest, e.Forgets key <;> by_cases he : e.Forgets key <;> simp [hrest, he]

/-! ## What leaves the map -/

/-- What an eviction is meant for is renewed by it, whatever came before it or comes after. -/
theorem renewed_foldl (hc : c.Sound) (hmem : e ∈ es) {entry : Entry α}
    (hentry : c.entries[id]? = some entry) (hcov : e.Covers entry) :
    (es.foldl evicted c).Renewed c.flights.length id := by
  obtain ⟨before, after, rfl⟩ := List.append_of_mem hmem
  rw [List.foldl_append, List.foldl_cons]
  have hfirst := thinned_foldl c before
  obtain ⟨entry', hentry', hidentity, htier⟩ := hfirst.moves.extends.entries id entry hentry
  have hchore : (Chore.evict e).Covers (before.foldl evicted c) id :=
    ⟨entry', hentry', hcov.congr hidentity htier⟩
  have hrenewed := (drains_evict (before.foldl evicted c) e).renewed (hfirst.moves.sound hc)
    (Nat.le_of_eq (congrArg List.length hfirst.flights).symm)
    (.inr ⟨_, List.mem_singleton_self _, hchore⟩)
  refine hrenewed.moves (thinned_foldl _ after).moves (Nat.le_of_eq ?_)
  rw [(thinned_evicted _ e).flights, hfirst.flights]

/-- Who is taken from the map gives up what it holds. -/
theorem fresh_remove (hid : c.index.get? key = some id) (hbase : base ≤ c.flights.length) :
    Fresh (c.remove key).2 base id := by
  unfold remove
  rw [hid]
  dsimp only
  refine (drains_cascade _ id).thinned.moves.fresh ?_ ((fresh_dropEntry _ id base).count _ 1)
  rwa [flights_count, flights_dropEntry]

theorem fresh_removeAll {keys : List String} (hmem : key ∈ keys) (hid : c.index.get? key = some id)
    (hbase : base ≤ c.flights.length) : Fresh (c.removeAll keys).2 base id := by
  induction keys generalizing c with
  | nil => cases hmem
  | cons k rest ih =>
    have hthin := thinned_evicted c (.remove k)
    have hflights : base ≤ (c.remove k).2.flights.length := by
      rwa [show (c.remove k).2.flights = c.flights from hthin.flights]
    by_cases hk : key = k
    · subst hk
      exact (drains_removeAll _ rest).thinned.moves.fresh hflights (fresh_remove hid hbase)
    · have hkept : (c.remove k).2.index.get? key = some id := by rw [get?_index_remove, if_neg hk, hid]
      exact ih ((List.mem_cons.1 hmem).resolve_left hk) hkept hflights

theorem moves_dropAll (c : Cache α) (ids : List Nat) : Moves c (c.dropAll ids).2 := by
  induction ids generalizing c with
  | nil => exact .refl
  | cons id rest ih => exact (moves_dropEntry c id).trans (ih (c.dropEntry id).2)

theorem fresh_dropAll {ids : List Nat} (hmem : id ∈ ids) (hbase : base ≤ c.flights.length) :
    Fresh (c.dropAll ids).2 base id := by
  induction ids generalizing c with
  | nil => cases hmem
  | cons j rest ih =>
    have hflights : base ≤ (c.dropEntry j).2.flights.length := by rwa [flights_dropEntry]
    rcases List.mem_cons.1 hmem with rfl | hrest
    · exact (moves_dropAll _ rest).fresh hflights (fresh_dropEntry c id base)
    · exact ih hrest hflights

/-- What an eviction takes from the map holds nothing. -/
theorem fresh_of_forgets (he : e.Forgets key) (hid : c.index.get? key = some id)
    (hbase : base ≤ c.flights.length) : Fresh (c.evicted e) base id := by
  cases e with
  | remove k =>
    obtain rfl : key = k := he
    exact fresh_remove hid hbase
  | under directory => exact fresh_removeAll (mem_keysUnder.2 ⟨⟨id, hid⟩, he⟩) hid hbase
  | reset =>
    have hvalue : id ∈ c.index.values := NameMap.mem_values.2 ⟨key, hid⟩
    exact (fresh_dropAll (c := { c with index := .empty }) hvalue hbase).count _ _
  | invalidate k => exact he.elim
  | tier tier => exact he.elim

/-- **What leaves the map holds nothing afterwards.** -/
theorem indexed_or_fresh_foldl (c : Cache α) (es : List Eviction) (hind : c.Indexed id) :
    (es.foldl evicted c).Indexed id ∨ Fresh (es.foldl evicted c) c.flights.length id := by
  induction es generalizing c with
  | nil => exact .inl hind
  | cons e rest ih =>
    obtain ⟨key, hid⟩ := hind
    have hthin := thinned_evicted c e
    by_cases he : e.Forgets key
    · have hflights : c.flights.length ≤ (c.evicted e).flights.length :=
        Nat.le_of_eq (congrArg List.length hthin.flights).symm
      exact .inr ((thinned_foldl (c.evicted e) rest).moves.fresh hflights
        (fresh_of_forgets he hid (Nat.le_refl _)))
    · have hkept := ih (c.evicted e) ⟨key, by rw [get?_index_evicted, if_neg he, hid]⟩
      rwa [hthin.flights] at hkept

/-- What is taken from the map does not show at another key, if it is not the site-global unit. -/
theorem at?_remove_of_ne (hc : c.Sound) {k : String} (hkey : key ≠ k)
    (htier : ∀ id (entry : Entry α), c.index.get? k = some id → c.entries[id]? = some entry →
      entry.tier ≠ .siteGlobal) : (c.remove k).2.at? key = c.at? key := by
  unfold remove
  cases hk : c.index.get? k with
  | none => rfl
  | some id =>
    obtain ⟨entry, hentry, -⟩ := hc.index k id hk
    obtain ⟨entry', hentry', -, hsame⟩ :=
      (moves_dropEntry { c with index := c.index.erase k } id).extends.entries id entry hentry
    have hplain : (entry'.tier == .siteGlobal) = false :=
      beq_false_of_ne (hsame ▸ htier id entry hk hentry)
    dsimp only
    rw [cascade, entries_count, hentry', Option.any_some, hplain, if_neg Bool.false_ne_true]
    unfold at?
    rw [index_count, index_dropEntry, NameMap.get?_erase_of_ne _ hkey]
    cases hother : c.index.get? key with
    | none => rfl
    | some j =>
      have hne : id ≠ j := fun heq => hkey (hc.key_eq hk (heq ▸ hother))
      exact (state?_dropEntry_cases { c with index := c.index.erase k } id j).resolve_right
        fun hdrop => hne hdrop.1

/-- **What evictions are meant for holds nothing of before**, whether it stays in the map or not. -/
theorem fresh_foldl (hc : c.Sound) (hind : c.Indexed id) (hmem : e ∈ es) {entry : Entry α}
    (hentry : c.entries[id]? = some entry) (hcov : e.Covers entry) :
    Fresh (es.foldl evicted c) c.flights.length id := by
  rcases renewed_foldl hc hmem hentry hcov with hfresh | hgone
  · exact hfresh
  · exact (indexed_or_fresh_foldl c es hind).resolve_left hgone

/-! ## Builds of before -/

/-- A build that was started too early brings nothing to a fresh entry. -/
theorem Fresh.finish_publish (h : Fresh c base id) (hg : g < base) (ending : Ending α) :
    (c.finish g ending).state? id = c.state? id ∧ (c.publish g).state? id = c.state? id := by
  have hne : c.state? id ≠ some (.building g) :=
    fun hbuilding => absurd (h.building g hbuilding).1 (Nat.not_le.2 hg)
  exact ⟨state?_finish_of_ne hne ending, state?_publish_of_ne hne⟩

/-- Whatever takes the place of fresh entries in the map is fresh as well. -/
theorem fresh_of_get?_index (hc : c.Sound) (hm : Moves c c') (hbase : base ≤ c.flights.length)
    (h : ∀ id, c.index.get? key = some id → Fresh c base id) (hid : c'.index.get? key = some id) :
    Fresh c' base id := by
  by_cases hlt : id < c.entries.length
  · obtain ⟨k, hk⟩ : c.Indexed id := hm.extends.unindexed id hlt ⟨key, hid⟩
    obtain ⟨entry, hentry, hkey⟩ := hc.index k id hk
    obtain ⟨entry', hentry', hidentity, -⟩ := hm.extends.entries id entry hentry
    obtain ⟨entry'', hentry'', hkey'⟩ := (hm.sound hc).index key id hid
    rw [hentry'] at hentry''
    cases hentry''
    have hsame : k = key := by rw [← hkey, ← hkey', hidentity]
    exact hm.fresh hbase (h id (hsame ▸ hk))
  · exact hm.fresh hbase (fresh_of_getElem?_eq_none (List.getElem?_eq_none (Nat.le_of_not_lt hlt)))

/-- A key whose entry is as late as the last build holds nothing. -/
theorem status?_of_fresh (h : ∀ id, c.index.get? key = some id → Fresh c c.flights.length id) :
    c.status? key ≠ some .built ∧ c.status? key ≠ some .building := by
  rw [status?_eq]
  have hnot : ∀ st : EntryState α, c.at? key = some st → st.isHeld = false := by
    intro st hat
    obtain ⟨id, hid, hstate⟩ := at?_eq_some_iff.1 hat
    obtain ⟨entry, hentry, rfl⟩ := Option.map_eq_some_iff.1 hstate
    exact Renewed.isHeld_eq_false (.inl (h id hid)) ⟨key, hid⟩ hentry
  cases hat : c.at? key with
  | none => simp
  | some st =>
    have hheld := hnot st hat
    cases st <;> simp_all [EntryState.isHeld, EntryState.status]

end Cache

namespace System

variable {α : Type} {s : System α} {e : Eviction} {es : List Eviction} {key : String}

/-- Whether all that was kept or was being built for a key in one state is out of date in another: the
key holds nothing there, and nothing that is done later lets a build of the first state bring anything
to the entry that the key had, nor to one that it has then. -/
structure Outdated (s s' : System α) (key : String) : Prop where
  status : s'.cache.status? key ≠ some .built ∧ s'.cache.status? key ≠ some .building
  builds : ∀ (later : List (Action α)) (g : Generation) (ending : Ending α) (id : Nat),
    g < s.cache.flights.length →
    s.cache.index.get? key = some id ∨ (s'.run later).cache.index.get? key = some id →
    ((s'.run later).cache.finish g ending).state? id = (s'.run later).cache.state? id ∧
      ((s'.run later).cache.publish g).state? id = (s'.run later).cache.state? id

/-- Evictions that nobody disturbs leave a system that fits together. -/
theorem Sound.evicted (hs : s.Sound) (es : List Eviction) :
    Sound { s with cache := es.foldl Cache.evicted s.cache } :=
  have hmoves := (Cache.thinned_foldl s.cache es).moves
  ⟨hmoves.sound hs.cache, fun n call hcall => (hs.calls n call hcall).mono hmoves.extends⟩

/-- **Evictions put what they are meant for out of date.** -/
theorem outdated_evicted (hs : s.Sound) (hmem : e ∈ es)
    (hcov : ∀ entry : Entry α, entry.identity.key = key → e.Covers entry) :
    s.Outdated { s with cache := es.foldl Cache.evicted s.cache } key := by
  have hthin := Cache.thinned_foldl s.cache es
  have hs' := hs.evicted es
  have hbase : s.cache.flights.length ≤ (es.foldl Cache.evicted s.cache).flights.length :=
    Nat.le_of_eq (congrArg List.length hthin.flights).symm
  have hfresh : ∀ id, s.cache.index.get? key = some id →
      (es.foldl Cache.evicted s.cache).Fresh s.cache.flights.length id := by
    intro id hid
    obtain ⟨entry, hentry, hkey⟩ := hs.cache.index key id hid
    exact Cache.fresh_foldl hs.cache ⟨key, hid⟩ hmem hentry (hcov entry hkey)
  refine ⟨Cache.status?_of_fresh fun id hid => ?_, fun later g ending id hg hid => ?_⟩
  · rw [hthin.flights]
    exact hfresh id (hthin.index key id hid)
  · have hmoves := run_moves hs' later
    refine Cache.Fresh.finish_publish ?_ hg ending
    rcases hid with hbefore | hthen
    · exact hmoves.fresh hbase (hfresh id hbefore)
    · exact Cache.fresh_of_get?_index hs'.cache hmoves hbase
        (fun j hj => hfresh j (hthin.index key j hj)) hthen

/-- **After the eviction of the leaves no leaf holds anything**, whatever else is evicted. -/
theorem not_holdsLeaf_evicted (hs : s.Sound) (hmem : .tier .leaf ∈ es) :
    ¬ (es.foldl Cache.evicted s.cache).HoldsLeaf := by
  rintro ⟨id, leaf, ⟨key, hid⟩, hleaf, htier, hheld⟩
  have hthin := Cache.thinned_foldl s.cache es
  obtain ⟨leaf₀, -, hleaf₀, -, htier₀⟩ := hthin.entry hs.cache hid hleaf
  have hrenewed := Cache.renewed_foldl hs.cache hmem hleaf₀ (htier₀.symm.trans htier)
  rw [← hthin.flights] at hrenewed
  rw [hrenewed.isHeld_eq_false ⟨key, hid⟩ hleaf] at hheld
  cases hheld

end System

end SiteHost
