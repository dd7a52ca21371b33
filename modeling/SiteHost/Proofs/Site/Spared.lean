import SiteHost.Proofs.Cache.Promised
import SiteHost.Proofs.Site.Keys
import SiteHost.Proofs.Site.Watching

/-!
# What the evictions of a site spare

The evictions of a site never drop the base library: it loses its key with all others or not at all.
Whoever drops the global unit has the leaves to drop as well. So an entry that is left in the map
with what it holds can rely on the base library, and a leaf on the global unit, unless an eviction
that is half way has yet to come upon the leaf:

* `Eviction.Spares`, `Chore.Spares` — evictions and chores that spare the base library;
* `Chore.Reaches` — whether a chore will come upon an entry, itself or by the leaves that follow the
  global unit;
* `Locator.Anchors` — the keys that entries of a layer rely on;
* `System.Tiered` — calls and entries have the layers of their keys, and chores spare the base library.
  `tiered_step`: always.

Principal results:

* `anchored_perform` — a chore leaves the entry of a key that is relied on as it is, or has the entry
  to come upon that relies on it;
* `System.Keeps`, `System.keeps_step` — what an entry relies on stays what it is, unless an eviction
  comes upon the entry.
-/

namespace SiteHost

/-- Whether an eviction does not single out the base library. -/
def Eviction.Spares : Eviction → Prop
  | .invalidate key | .remove key => key ≠ foundationUnit.key
  | .tier t => t = .leaf
  | .under _ | .reset => True

/-- Whether a chore does not drop the base library as long as it is in the map. -/
def Chore.Spares {α : Type} (c : Cache α) : Chore → Prop
  | .evict e => e.Spares
  | .invalidate id | .remove id => ∃ entry : Entry α, c.entries[id]? = some entry ∧
      entry.tier ≠ .foundation
  | .drop ids _ => ∀ id ∈ ids, ∃ entry : Entry α, c.entries[id]? = some entry ∧ entry.tier = .leaf
  | .clear ids => ∀ id ∈ ids, id < c.entries.length
  | .reset ids _ => ∀ id ∈ ids, id < c.entries.length ∧ ¬ c.Indexed id

/-- Whether a chore will come upon an entry, itself or by the leaves that follow the global unit. -/
def Chore.Reaches {α : Type} (c : Cache α) (id : Nat) (chore : Chore) : Prop :=
  chore.Covers c id ∨ (∃ entry : Entry α, c.entries[id]? = some entry ∧ entry.tier = .leaf) ∧
    ∃ (j : Nat) (entry : Entry α), chore.Drops j ∧ c.entries[j]? = some entry ∧
      entry.tier = .siteGlobal

/-- Whether an eviction has begun and has not come to its end. -/
def Sweep.HalfWay (sweep : Sweep) : Prop := sweep.did ≠ [] ∧ sweep.todo ≠ []

instance (sweep : Sweep) : Decidable sweep.HalfWay :=
  inferInstanceAs (Decidable (sweep.did ≠ [] ∧ sweep.todo ≠ []))

namespace Locator

/-- Whether the evictions of a site spare the base library. -/
theorem spares_of_mem_evictions {l : Locator} {change : Change} {e : Eviction}
    (h : e ∈ l.evictions change) : e.Spares := by
  unfold evictions at h
  split at h
  · split at h
    · cases h
    · cases List.mem_singleton.1 h
      trivial
  · rename_i unit hunit
    have hkey := key_ne_of_unitOfFile? hunit
    rcases List.mem_cons.1 h with rfl | hleaf
    · cases change.kind <;> exact hkey
    · split at hleaf
      · cases List.mem_singleton.1 hleaf
        rfl
      · cases hleaf

theorem tierOf_eq_foundation_iff {l : Locator} {key : String} :
    l.tierOf key = .foundation ↔ key = foundationUnit.key := by
  unfold tierOf
  split
  · rename_i heq
    exact ⟨fun _ => heq, fun _ => rfl⟩
  · rename_i hne
    split <;> exact ⟨fun h => (by cases h), fun heq => absurd heq hne⟩

/-- Whether entries of a layer rely on a key: all of them on the base library, and leaves on the
global unit. -/
def Anchors (l : Locator) (tier : Tier) (key : String) : Prop :=
  key = foundationUnit.key ∨ tier = .leaf ∧ key = l.globalUnit.key

end Locator

namespace Cache

variable {α : Type} {c c' : Cache α} {l : Locator} {id j : Nat} {key : String}

/-- Whether every entry has the layer of its key. -/
def Tiered (l : Locator) (c : Cache α) : Prop :=
  ∀ (id : Nat) (entry : Entry α), c.entries[id]? = some entry →
    entry.tier = l.tierOf entry.identity.key

theorem Tiered.of_indexed (ht : c.Tiered l) (hc : c.Sound) (hkey : c.index.get? key = some id)
    {entry : Entry α} (hentry : c.entries[id]? = some entry) : entry.tier = l.tierOf key := by
  obtain ⟨entry', hentry', rfl⟩ := hc.index key id hkey
  rw [hentry] at hentry'
  cases hentry'
  exact ht id entry hentry

/-! ## Chores that spare the base library -/

theorem spares_mono {chore : Chore} (h : chore.Spares c) (he : Extends c c') : chore.Spares c' := by
  cases chore with
  | evict e => exact h
  | invalidate id =>
    obtain ⟨entry, hentry, htier⟩ := h
    obtain ⟨entry', hentry', -, ht⟩ := he.entries id entry hentry
    exact ⟨entry', hentry', ht ▸ htier⟩
  | remove id =>
    obtain ⟨entry, hentry, htier⟩ := h
    obtain ⟨entry', hentry', -, ht⟩ := he.entries id entry hentry
    exact ⟨entry', hentry', ht ▸ htier⟩
  | drop ids n =>
    intro id hid
    obtain ⟨entry, hentry, htier⟩ := h id hid
    obtain ⟨entry', hentry', -, ht⟩ := he.entries id entry hentry
    exact ⟨entry', hentry', ht ▸ htier⟩
  | clear ids => exact fun id hid => Nat.lt_of_lt_of_le (h id hid) he.length_entries
  | reset ids n =>
    intro id hid
    obtain ⟨hlt, hgone⟩ := h id hid
    exact ⟨Nat.lt_of_lt_of_le hlt he.length_entries, fun hind => hgone (he.unindexed id hlt hind)⟩

/-- What a chore leaves to do spares the base library as well. -/
theorem spares_perform (hc : c.Sound) (ht : c.Tiered l) {chore next : Chore} (h : chore.Spares c)
    (hnext : next ∈ (c.perform chore).1) : next.Spares (c.perform chore).2 := by
  have hother : ∀ key id, key ≠ foundationUnit.key → c.index.get? key = some id →
      ∃ entry : Entry α, c.entries[id]? = some entry ∧ entry.tier ≠ .foundation := by
    intro key id hne hkey
    obtain ⟨entry, hentry, -⟩ := hc.index key id hkey
    refine ⟨entry, hentry, fun htier => hne ?_⟩
    rw [ht.of_indexed hc hkey hentry] at htier
    exact Locator.tierOf_eq_foundation_iff.1 htier
  cases mem_perform.1 hnext with
  | invalidate hkey | remove hkey => exact hother _ _ h hkey
  | tier t =>
    obtain rfl : t = .leaf := h
    exact fun id hid => (mem_entriesOf.1 hid).2
  | under hkey =>
    have hstart := (mem_keysUnder.1 hkey).2
    rintro rfl
    exact not_startsWith_above _ hstart
  | reset => exact fun id hid => hc.index_lt (NameMap.mem_values.1 hid)
  | cascade => rfl
  | drop j | dropReset j =>
    refine spares_mono ?_ (moves_perform c _).extends
    exact fun id hid => h id (List.mem_cons_of_mem j hid)
  | clear ids =>
    intro id hid
    refine ⟨h id hid, ?_⟩
    rintro ⟨key, hkey⟩
    simp [perform] at hkey

/-! ## Chores that come upon an entry -/

theorem reaches_mono {chore : Chore} (h : chore.Reaches c id) (he : Extends c c') :
    chore.Reaches c' id := by
  rcases h with hcov | ⟨⟨leaf, hleaf, htier⟩, j, entry, hdrops, hentry, hglobal⟩
  · exact .inl (covers_mono hcov he)
  · obtain ⟨leaf', hleaf', -, ht⟩ := he.entries id leaf hleaf
    obtain ⟨entry', hentry', -, hg⟩ := he.entries j entry hentry
    exact .inr ⟨⟨leaf', hleaf', ht.trans htier⟩, j, entry', hdrops, hentry', hg.trans hglobal⟩

/-- A chore that comes upon an entry leaves it in the map with what it holds only if it leaves a chore
that comes upon it. -/
theorem reaches_perform (hc : c.Sound) {chore : Chore} (h : chore.Reaches c id)
    (hind : (c.perform chore).2.Indexed id) {entry : Entry α}
    (hentry : (c.perform chore).2.entries[id]? = some entry) (hheld : entry.state.isHeld = true) :
    ∃ next ∈ (c.perform chore).1, next.Reaches (c.perform chore).2 id := by
  have hext := (moves_perform c chore).extends
  rcases h with hcov | ⟨⟨leaf, hleaf, htier⟩, j, other, hdrops, hother, hglobal⟩
  · rcases covers_perform hc hcov (Nat.le_refl _) with hrenewed | ⟨next, hnext, hcov'⟩
    · rw [← flights_perform c chore] at hrenewed
      rw [hrenewed.isHeld_eq_false hind hentry] at hheld
      cases hheld
    · exact ⟨next, hnext, .inl hcov'⟩
  · obtain ⟨leaf', hleaf', -, ht⟩ := hext.entries id leaf hleaf
    obtain ⟨other', hother', -, hg⟩ := hext.entries j other hother
    exact ⟨_, cascade_perform hdrops hother' (hg.trans hglobal), .inl ⟨leaf', hleaf',
      ht.trans htier⟩⟩

/-- **A chore leaves alone what is relied on, or it has the entry to come upon that relies on it.** -/
theorem anchored_perform (hc : c.Sound) (ht : c.Tiered l) {chore : Chore} (h : chore.Spares c)
    (hkey : c.index.get? key = some j) {entry : Entry α}
    (hanchors : l.Anchors entry.tier key) (hind : (c.perform chore).2.Indexed id)
    (hentry : (c.perform chore).2.entries[id]? = some entry) :
    ((c.perform chore).2.index.get? key = some j ∧ (c.perform chore).2.state? j = c.state? j) ∨
      ∃ next ∈ (c.perform chore).1, next.Reaches (c.perform chore).2 id := by
  have hmoves := moves_perform c chore
  obtain ⟨anchor, hanchor, hsame⟩ := hc.index key j hkey
  obtain ⟨anchor', hanchor', hi, htier'⟩ := hmoves.extends.entries j anchor hanchor
  have htier : anchor.tier = l.tierOf key := ht.of_indexed hc hkey hanchor
  -- what is relied on and may be dropped is the global unit, and a leaf relies on it
  have hglobal : (∃ entry : Entry α, c.entries[j]? = some entry ∧ entry.tier ≠ .foundation) →
      anchor.tier = .siteGlobal ∧ entry.tier = .leaf := by
    rintro ⟨anchor₀, hanchor₀, hne⟩
    rw [hanchor] at hanchor₀
    cases hanchor₀
    rcases hanchors with rfl | ⟨hleaf, rfl⟩
    · exact absurd (htier.trans (tierOf_foundation l)) hne
    · exact ⟨htier.trans l.tierOf_globalUnit_key, hleaf⟩
  have hnotleaf : anchor.tier ≠ .leaf := by
    rw [htier]
    rcases hanchors with rfl | ⟨-, rfl⟩
    · rw [tierOf_foundation]
      exact Tier.noConfusion
    · rw [l.tierOf_globalUnit_key]
      exact Tier.noConfusion
  have hlookup : (c.perform chore).2.Indexed j →
      (c.perform chore).2.index.get? key = some j := by
    intro hstill
    rw [← hsame, ← hi]
    exact (hmoves.sound hc).get?_key hstill hanchor'
  rcases perform_indexed_cases c chore ⟨key, hkey⟩ with
    ⟨hstill, hstate⟩ | hdrops | ⟨next, hnext, hdrops⟩ | ⟨ids, n, rfl | rfl, hmem⟩ | ⟨ids, rfl⟩
  · exact .inl ⟨hlookup hstill, hstate⟩
  · obtain ⟨hg, hleaf⟩ := hglobal (by rcases hdrops with rfl | rfl <;> exact h)
    exact .inr ⟨_, cascade_perform hdrops hanchor' (htier'.trans hg), .inl ⟨entry, hentry, hleaf⟩⟩
  · have hspared := spares_perform hc ht h hnext
    have hother : ∃ entry : Entry α, (c.perform chore).2.entries[j]? = some entry ∧
        entry.tier ≠ .foundation := by
      rcases hdrops with rfl | rfl <;> exact hspared
    obtain ⟨anchor₀, hanchor₀, hne⟩ := hother
    rw [hanchor'] at hanchor₀
    cases hanchor₀
    obtain ⟨hg, hleaf⟩ := hglobal ⟨anchor, hanchor, htier' ▸ hne⟩
    exact .inr ⟨next, hnext, .inr ⟨⟨entry, hentry, hleaf⟩, j, anchor', hdrops, hanchor',
      htier'.trans hg⟩⟩
  · obtain ⟨anchor₀, hanchor₀, hleaf⟩ := h j hmem
    rw [hanchor] at hanchor₀
    cases hanchor₀
    exact absurd hleaf hnotleaf
  · exact absurd ⟨key, hkey⟩ (h j hmem).2
  · obtain ⟨k, hk⟩ := hind
    simp [perform] at hk

end Cache

/-! ## What entries rely on -/

/-- Whether an action calls for a key in its layer, and evicts nothing but what may be evicted. -/
def Action.Tiered {α : Type} (l : Locator) : Action α → Prop
  | .enter unit tier => tier = l.tierOf unit.key
  | .evict e => e.Spares
  | .look _ | .finish _ _ | .answer _ | .leave _ | .sweep _ => True

namespace System

variable {α : Type} {l : Locator} {s s' : System α} {a : Action α} {id n : Nat} {key : String}

/-- A cache that is called for keys in their layers, and whose evictions spare the base library. -/
structure Tiered (l : Locator) (s : System α) : Prop where
  reachable : s.Reachable
  entries : s.cache.Tiered l
  calls : ∀ (n : Nat) (call : Call α), s.calls[n]? = some call → call.tier = l.tierOf call.unit.key
  chores : ∀ (m : Nat) (sweep : Sweep), s.sweeps[m]? = some sweep →
    ∀ chore ∈ sweep.todo, chore.Spares s.cache

theorem tiered_start (l : Locator) (timeLimit : Nat) : (start timeLimit : System α).Tiered l :=
  ⟨⟨timeLimit, [], rfl⟩, fun _ _ h => by simp [start] at h, fun _ _ h => by simp [start] at h,
    fun _ _ h => by simp [start] at h⟩

/-- **Calls and entries have the layers of their keys, and evictions spare the base library.** -/
theorem tiered_step (h : s.Tiered l) (ha : a.Tiered l) (hstep : s.step a = some s') :
    s'.Tiered l := by
  have hsound := h.reachable.sound
  have hext := (step_moves hsound hstep).extends
  refine ⟨h.reachable.step hstep, ?_, ?_, ?_⟩
  · intro id entry hentry
    rcases entry_step_cases hsound hstep hentry with ⟨before, hbefore, hi, ht⟩ | rfl
    · rw [ht, hi]
      exact h.entries id before hbefore
    · exact ha
  · intro n call hcall
    rcases call_step hstep hcall with ⟨before, hbefore, hkept, -⟩ |
      ⟨unit, tier, rfl, -, -, rfl⟩ | ⟨before, -, hbefore, -, -, rfl⟩
    · rw [hkept.tier, hkept.unit]
      exact h.calls n before hbefore
    · exact ha
    · exact h.calls n before hbefore
  · intro m sweep hsweep chore hchore
    rcases sweep_step_cases hstep hsweep with hsame | ⟨rfl, htodo⟩ |
      ⟨before, first, rest, hbefore, -, htodo, hcache, hafter⟩
    · exact Cache.spares_mono (h.chores m sweep hsame chore hchore) hext
    · rw [htodo, List.mem_singleton] at hchore
      rw [hchore]
      exact ha
    · have hold := h.chores m before hbefore
      rw [htodo] at hold
      rw [hafter] at hchore
      rcases List.mem_append.1 hchore with hnew | hrest
      · rw [hcache]
        exact Cache.spares_perform hsound.cache h.entries (hold first List.mem_cons_self) hnew
      · exact Cache.spares_mono (hold chore (List.mem_cons_of_mem first hrest)) hext

/-- A call has the layer of its entry. -/
theorem Tiered.call_tier (h : s.Tiered l) {call : Call α} (hcall : s.calls[n]? = some call)
    {entry : Entry α} (hentry : s.cache.entries[call.entry]? = some entry) :
    call.tier = entry.tier := by
  obtain ⟨entry', hentry', hkey⟩ := (h.reachable.sound.calls n call hcall).entry
  rw [hentry] at hentry'
  cases hentry'
  rw [h.calls n call hcall, h.entries _ entry hentry, hkey]

/-- Whether an eviction that is half way has yet to come upon an entry. -/
def Reached (s : System α) (id : Nat) : Prop :=
  ∃ (m : Nat) (sweep : Sweep), s.sweeps[m]? = some sweep ∧ sweep.did ≠ [] ∧
    ∃ chore ∈ sweep.todo, chore.Reaches s.cache id

/-- Whether a key holds an artifact, as far as an entry is concerned that relies on it. -/
def Holds (s : System α) (id : Nat) (key : String) (x : α) : Prop :=
  s.cache.at? key = some (.built x) ∨ s.Reached id

/-- Whether a call is promised a key, as far as an entry is concerned that relies on it. -/
def Awaits (s : System α) (id : Nat) (key : String) (n : Nat) : Prop :=
  (∃ call, s.calls[n]? = some call ∧ call.Promised s.cache key) ∨ s.Reached id

/-- Whether all that an entry of a layer relies on is as it was. -/
structure Keeps (l : Locator) (s s' : System α) (id : Nat) (tier : Tier) : Prop where
  holds : ∀ key x, l.Anchors tier key → s.Holds id key x → s'.Holds id key x
  awaits : ∀ key n, l.Anchors tier key → s.Awaits id key n → s'.Awaits id key n

section Keeping

variable {entry : Entry α}

/-- An eviction that has yet to come upon an entry has so until the entry is dropped. -/
theorem reached_step (h : s.Tiered l) (hstep : s.step a = some s') (hind : s'.cache.Indexed id)
    (hentry : s'.cache.entries[id]? = some entry) (hheld : entry.state.isHeld = true)
    (hreached : s.Reached id) : s'.Reached id := by
  have hsound := h.reachable.sound
  have hext := (step_moves hsound hstep).extends
  obtain ⟨m, sweep, hsweep, hbegun, chore, hchore, hreaches⟩ := hreached
  rcases getElem?_sweeps_step hstep hsweep with hsame | rfl
  · exact ⟨m, sweep, hsame, hbegun, chore, hchore, Cache.reaches_mono hreaches hext⟩
  · obtain ⟨sweep₀, first, rest, hsweep₀, htodo, rfl⟩ := step_sweep hstep
    rw [hsweep] at hsweep₀
    cases hsweep₀
    have hm : m < s.sweeps.length := (List.getElem?_eq_some_iff.1 hsweep).1
    refine ⟨m, _, List.getElem?_set_self hm, List.cons_ne_nil _ _, ?_⟩
    rw [htodo] at hchore
    rcases List.mem_cons.1 hchore with rfl | hrest
    · obtain ⟨next, hnext, hreaches'⟩ :=
        Cache.reaches_perform hsound.cache hreaches hind hentry hheld
      exact ⟨next, List.mem_append_left _ hnext, hreaches'⟩
    · exact ⟨chore, List.mem_append_right _ hrest, Cache.reaches_mono hreaches hext⟩

/-- A step of an eviction leaves the entry of a key that is relied on as it is, or has the entry to
come upon that relies on it. -/
theorem anchored_step (h : s.Tiered l) {m j : Nat} (hstep : s.step (.sweep m) = some s')
    (hanchors : l.Anchors entry.tier key) (hind : s'.cache.Indexed id)
    (hentry : s'.cache.entries[id]? = some entry) (hkey : s.cache.index.get? key = some j) :
    (s'.cache.index.get? key = some j ∧ s'.cache.state? j = s.cache.state? j) ∨ s'.Reached id := by
  obtain ⟨sweep, chore, rest, hsweep, htodo, rfl⟩ := step_sweep hstep
  have hm : m < s.sweeps.length := (List.getElem?_eq_some_iff.1 hsweep).1
  have hspares := h.chores m sweep hsweep chore (htodo ▸ List.mem_cons_self)
  rcases Cache.anchored_perform h.reachable.sound.cache h.entries hspares hkey hanchors hind hentry
    with hkept | ⟨next, hnext, hreaches⟩
  · exact .inl hkept
  · exact .inr ⟨m, _, List.getElem?_set_self hm, List.cons_ne_nil _ _, next,
      List.mem_append_left _ hnext, hreaches⟩

/-- **What an entry relies on stays what it is, unless an eviction comes upon the entry.** -/
theorem keeps_step (h : s.Tiered l) (hstep : s.step a = some s') (hind : s'.cache.Indexed id)
    (hentry : s'.cache.entries[id]? = some entry) (hheld : entry.state.isHeld = true) :
    Keeps l s s' id entry.tier := by
  have hsound := h.reachable.sound
  have hext := (step_moves hsound hstep).extends
  have hreached := reached_step h hstep hind hentry hheld
  constructor
  · rintro key x hanchors (hat | hold)
    · by_cases hsweep : ∃ m, a = .sweep m
      · obtain ⟨m, rfl⟩ := hsweep
        obtain ⟨j, hj, hst⟩ := Cache.at?_eq_some_iff.1 hat
        rcases anchored_step h hstep hanchors hind hentry hj with ⟨hj', hst'⟩ | hnow
        · exact .inl (Cache.at?_eq_some_iff.2 ⟨j, hj', hst'.trans hst⟩)
        · exact .inr hnow
      · exact .inl (at?_built_step hsound hstep (fun m hm => hsweep ⟨m, hm⟩) hat)
    · exact .inr (hreached hold)
  · rintro key n hanchors (⟨call, hcall, hp⟩ | hold)
    · by_cases hsweep : ∃ m, a = .sweep m
      · obtain ⟨m, rfl⟩ := hsweep
        rcases anchored_step h hstep hanchors hind hentry hp.index with ⟨hj', hst'⟩ | hnow
        · have hcalls : s'.calls = s.calls := by
            obtain ⟨sweep, chore, rest, -, -, rfl⟩ := step_sweep hstep
            rfl
          exact .inl ⟨call, hcalls ▸ hcall, hp.congr hj' hst' hext⟩
        · exact .inr hnow
      · exact .inl (promised_step h.reachable hstep (fun m hm => hsweep ⟨m, hm⟩) hcall hp)
    · exact .inr (hreached hold)

end Keeping

end System

end SiteHost
