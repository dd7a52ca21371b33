import SiteHost.Proofs.Cache.Freshness
import SiteHost.Proofs.Cache.Keys

/-!
# What evictions leave

Evictions that nobody disturbs take artifacts away and bring none:

* `Cache.Thinned` — a cache holds nothing that another did not hold for the same key.

Principal results:

* `thinned_evicted` — an eviction thins a cache;
* `spared_of_built` — an artifact that is there after evictions was there before them, and none of
  them was meant for it.
-/

namespace SiteHost.Cache

variable {α : Type} {c c' c'' : Cache α} {key : String} {id : Nat} {base : Generation} {a : α}

/-- Whether a cache holds nothing that another did not hold for the same key. -/
structure Thinned (c c' : Cache α) : Prop where
  moves : Moves c c'
  index : ∀ key id, c'.index.get? key = some id → c.index.get? key = some id
  flights : c'.flights = c.flights
  state : ∀ id, c'.state? id = c.state? id ∨ c'.state? id = some .invalidated

theorem Thinned.refl (c : Cache α) : Thinned c c :=
  ⟨.refl, fun _ _ h => h, rfl, fun _ => .inl rfl⟩

theorem Thinned.trans (h : Thinned c c') (h' : Thinned c' c'') : Thinned c c'' := by
  refine ⟨h.moves.trans h'.moves, fun key id hid => h.index key id (h'.index key id hid),
    h'.flights.trans h.flights, fun id => ?_⟩
  rcases h'.state id with hsame | hinv
  · rw [hsame]
    exact h.state id
  · exact .inr hinv

/-- What is held for a key was held for it before. -/
theorem Thinned.at? (h : Thinned c c') {st : EntryState α} (hst : st.isHeld = true)
    (hat : c'.at? key = some st) : c.at? key = some st := by
  obtain ⟨id, hid, hstate⟩ := at?_eq_some_iff.1 hat
  refine at?_eq_some_iff.2 ⟨id, h.index key id hid, ?_⟩
  rcases h.state id with hsame | hinv
  · rw [← hsame, hstate]
  · rw [hinv] at hstate
    cases hstate
    cases hst

/-- No key comes to have an entry of another tier. -/
theorem Thinned.entry (h : Thinned c c') (hc : c.Sound) (hid : c'.index.get? key = some id)
    {e : Entry α} (he : c'.entries[id]? = some e) :
    ∃ e₀ : Entry α, c.index.get? key = some id ∧ c.entries[id]? = some e₀ ∧
      e.identity = e₀.identity ∧ e.tier = e₀.tier := by
  obtain ⟨e₀, he₀, -⟩ := hc.index key id (h.index key id hid)
  obtain ⟨e', he', hidentity, htier⟩ := h.moves.extends.entries id e₀ he₀
  rw [he] at he'
  cases he'
  exact ⟨e₀, h.index key id hid, he₀, hidentity, htier⟩

theorem Worked.get?_index {chore : Chore} (h : Worked c chore c') (hid : c'.index.get? key = some id) :
    c.index.get? key = some id := by
  induction h with
  | asked => exact hid
  | forgot other =>
    by_cases hk : key = other
    · rw [hk, NameMap.get?_erase_self] at hid
      cases hid
    · rwa [NameMap.get?_erase_of_ne _ hk] at hid
  | cleared => simp at hid
  | dropped j => rwa [index_dropEntry] at hid
  | counted _ _ _ ih => exact ih hid

theorem thinned_perform (c : Cache α) (chore : Chore) : Thinned c (c.perform chore).2 :=
  ⟨moves_perform c chore, fun _ _ h => (worked_perform c chore).get?_index h, flights_perform c chore,
    state?_perform_cases c chore⟩

theorem Drains.thinned {chores : List Chore} (h : Drains c chores c') : Thinned c c' := by
  induction h with
  | done c => exact .refl c
  | next _ ih => exact (thinned_perform _ _).trans ih

/-- **An eviction brings nothing.** -/
theorem thinned_evicted (c : Cache α) (e : Eviction) : Thinned c (c.evicted e) :=
  (drains_evict c e).thinned

/-- The entries of chores are renewed when all is done. -/
theorem Drains.renewed {chores : List Chore} (h : Drains c chores c') (hc : c.Sound)
    (hbase : base ≤ c.flights.length)
    (hid : c.Renewed base id ∨ ∃ chore ∈ chores, chore.Covers c id) : c'.Renewed base id := by
  induction h with
  | done c => exact hid.resolve_right (by simp)
  | @next c c' chore rest _ ih =>
    have hmoves := moves_perform c chore
    refine ih (hmoves.sound hc) (by rwa [flights_perform]) ?_
    have hrest : c.Renewed base id ∨ (∃ other ∈ rest, other.Covers c id) →
        (c.perform chore).2.Renewed base id ∨
          ∃ other ∈ (c.perform chore).1 ++ rest, other.Covers (c.perform chore).2 id := by
      intro h
      rcases System.renewed_or_covered hmoves hbase h with hren | ⟨other, hmem, hcov⟩
      · exact .inl hren
      · exact .inr ⟨other, List.mem_append_right _ hmem, hcov⟩
    rcases hid with hren | ⟨other, hmem, hcov⟩
    · exact hrest (.inl hren)
    · rcases List.mem_cons.1 hmem with rfl | hmem
      · rcases covers_perform hc hcov hbase with hren | ⟨next, hnext, hcov'⟩
        · exact .inl hren
        · exact .inr ⟨next, List.mem_append_left _ hnext, hcov'⟩
      · exact hrest (.inr ⟨other, hmem, hcov⟩)

/-- What an eviction is meant for is gone when it is done. -/
theorem not_covers_of_built (hc : c.Sound) {e : Eviction}
    (h : (c.evicted e).at? key = some (.built a)) (hid : c.index.get? key = some id)
    {entry : Entry α} (hentry : c.entries[id]? = some entry) : ¬ e.Covers entry := by
  intro hcov
  have hthin := thinned_evicted c e
  obtain ⟨j, hj, hstate⟩ := at?_eq_some_iff.1 h
  have hsame := hthin.index key j hj
  rw [hid] at hsame
  cases hsame
  have hchore : (Chore.evict e).Covers c id := ⟨entry, hentry, hcov⟩
  rcases (drains_evict c e).renewed hc (Nat.le_refl _)
    (.inr ⟨_, List.mem_singleton_self _, hchore⟩) with hfresh | hgone
  · -- an artifact of a build as late as that would be of one that was never started
    obtain ⟨g, hle, hflight⟩ := hfresh.built a hstate
    have hlt := (List.getElem?_eq_some_iff.1 hflight).1
    rw [hthin.flights] at hlt
    exact absurd hlt (Nat.not_lt.2 hle)
  · exact hgone ⟨key, hj⟩

theorem thinned_foldl (c : Cache α) (es : List Eviction) : Thinned c (es.foldl evicted c) := by
  induction es generalizing c with
  | nil => exact .refl c
  | cons e rest ih => exact (thinned_evicted c e).trans (ih (c.evicted e))

/-- **An artifact that is there after evictions was there before them, and none of them was meant for
it.** -/
theorem spared_of_built (hc : c.Sound) {es : List Eviction}
    (h : (es.foldl evicted c).at? key = some (.built a)) : c.at? key = some (.built a) ∧
      ∃ id entry, c.index.get? key = some id ∧ c.entries[id]? = some entry ∧
        entry.identity.key = key ∧ ∀ e ∈ es, ¬ e.Covers entry := by
  induction es generalizing c with
  | nil =>
    obtain ⟨id, hid, -⟩ := at?_eq_some_iff.1 h
    obtain ⟨entry, hentry, hkey⟩ := hc.index key id hid
    exact ⟨h, id, entry, hid, hentry, hkey, by simp⟩
  | cons e rest ih =>
    have hthin := thinned_evicted c e
    obtain ⟨hat, id, entry, hid, hentry, hkey, hspared⟩ := ih (hthin.moves.sound hc) h
    obtain ⟨entry₀, hid₀, hentry₀, hidentity, htier⟩ := hthin.entry hc hid hentry
    refine ⟨hthin.at? rfl hat, id, entry₀, hid₀, hentry₀, hidentity ▸ hkey, fun e' hmem => ?_⟩
    rcases List.mem_cons.1 hmem with rfl | hmem
    · exact not_covers_of_built hc hat hid₀ hentry₀
    · exact fun hcov => hspared e' hmem (hcov.congr hidentity htier)

end SiteHost.Cache
