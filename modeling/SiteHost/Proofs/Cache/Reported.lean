import Mathlib.Data.List.Nodup
import SiteHost.Proofs.Cache.Forgotten

/-!
# What evictions report

An eviction says how many entries it was meant for. What it leaves of every entry is said here key by
key, so that the two can be compared:

* `Entry.givenUp` — an entry that has given up what it holds;
* `Cache.Takes` — one cache comes from another by keys that leave the map and entries that give up what
  they hold;
* `Cache.changedKeys` — the keys whose entry has another status than before, or is gone.

Principal results:

* `Takes.changedKeys_eq` — the keys that changed, in terms of what was taken;
* `takes_invalidate`, `takes_remove`, `takes_removeUnder`, `takes_invalidateTier` — what each eviction
  takes: with the site-global entry the leaves;
* `fst_invalidate`, `fst_remove`, `fst_removeUnder`, `fst_invalidateTier` — what each eviction reports:
  nothing of the leaves that went with the site-global entry.
-/

namespace SiteHost

variable {α : Type}

/-- An entry that has given up what it holds. -/
def Entry.givenUp (e : Entry α) : Entry α := if e.state.isHeld then { e with state := .invalidated } else e

theorem Entry.tier_givenUp (e : Entry α) : e.givenUp.tier = e.tier := by
  unfold givenUp
  split <;> rfl

theorem Entry.isHeld_givenUp (e : Entry α) : e.givenUp.state.isHeld = false := by
  unfold givenUp
  split
  · rfl
  · rename_i h
    simpa using h

theorem Entry.givenUp_givenUp (e : Entry α) : e.givenUp.givenUp = e.givenUp := by
  rw [givenUp, if_neg (by rw [e.isHeld_givenUp]; exact Bool.false_ne_true)]

/-- It shows that an entry has given up what it held. -/
theorem Entry.status_givenUp_ne_iff (e : Entry α) :
    e.givenUp.state.status ≠ e.state.status ↔ e.state.isHeld = true := by
  unfold givenUp
  cases h : e.state <;> simp [h, EntryState.isHeld, EntryState.status]

namespace Cache

variable {c c' c'' : Cache α} {key k directory : String} {id : Nat} {tier : Tier}
  {gone given gone' given' : String → Bool}

/-- The tier of the entry of a key. -/
def tier? (c : Cache α) (key : String) : Option Tier := (c.find? key).map Entry.tier

/-- Whether the entry of a key holds an artifact or a build. -/
def holds (c : Cache α) (key : String) : Bool := (c.find? key).any fun e => e.state.isHeld

/-- The keys whose entry has another status in a later cache, or is gone. -/
def changedKeys (c c' : Cache α) : List String := c.index.keys.filter fun key => c'.status? key ≠ c.status? key

/-- Whether one cache comes from another by keys that leave the map and, at other keys, by entries that
give up what they hold. -/
def Takes (c c' : Cache α) (gone given : String → Bool) : Prop :=
  ∀ key, c'.find? key =
    if gone key then none else if given key then (c.find? key).map Entry.givenUp else c.find? key

/-- Whether a key is kept for, in terms of its entry. -/
theorem Sound.mem_keys (hc : c.Sound) : key ∈ c.index.keys ↔ ∃ e, c.find? key = some e := by
  rw [NameMap.mem_keys]
  constructor
  · rintro ⟨id, hid⟩
    obtain ⟨e, he, -⟩ := hc.index key id hid
    exact ⟨e, by rw [find?, hid, Option.bind_some, he]⟩
  · rintro ⟨e, he⟩
    obtain ⟨id, hid, -⟩ := Option.bind_eq_some_iff.1 he
    exact ⟨id, hid⟩

namespace Takes

theorem refl (c : Cache α) : Takes c c (fun _ => false) fun _ => false := fun _ => rfl

theorem trans (h : Takes c c' gone given) (h' : Takes c' c'' gone' given') :
    Takes c c'' (fun key => gone key || gone' key) fun key => given key || given' key := by
  intro key
  rw [h' key, h key]
  cases hgone : gone key <;> cases hgone' : gone' key <;> cases hgiven : given key <;>
    cases hgiven' : given' key <;> simp [*, Function.comp_def, Entry.givenUp_givenUp]

theorem congr (h : Takes c c' gone given) (hgone : ∀ key, gone' key = gone key)
    (hgiven : ∀ key, gone key = false → given' key = given key) : Takes c c' gone' given' := by
  intro key
  rw [h key, hgone]
  cases hkey : gone key with
  | true => rfl
  | false => rw [hgiven key hkey]

theorem count (h : Takes c c' gone given) (s : Series) (n : Nat) : Takes c (c'.count s n) gone given := h

theorem tier? (h : Takes c c' gone given) (key : String) :
    c'.tier? key = if gone key then none else c.tier? key := by
  unfold Cache.tier?
  rw [h key]
  cases gone key <;> cases given key <;> simp [Function.comp_def, Entry.tier_givenUp]

theorem tier?_beq (h : Takes c c' gone given) (key : String) (tier : Tier) :
    (c'.tier? key == some tier) = (!gone key && c.tier? key == some tier) := by
  rw [h.tier? key]
  cases gone key <;> rfl

theorem holds (h : Takes c c' gone given) (key : String) :
    c'.holds key = (!gone key && !given key && c.holds key) := by
  unfold Cache.holds
  rw [h key]
  cases c.find? key <;> cases gone key <;> cases given key <;> simp [Entry.isHeld_givenUp]

/-- No key is new. -/
theorem status?_eq_none (h : Takes c c' gone given) (hnone : c.status? key = none) :
    c'.status? key = none := by
  have hfind : c.find? key = none := Option.map_eq_none_iff.1 hnone
  rw [status?, h key, hfind]
  cases gone key <;> cases given key <;> rfl

/-- The keys that stay in the map. -/
theorem keys_perm (h : Takes c c' gone given) (hc : c.Sound) (hc' : c'.Sound) :
    c'.index.keys.Perm (c.index.keys.filter fun key => !gone key) := by
  rw [List.perm_ext_iff_of_nodup c'.index.nodup_keys (c.index.nodup_keys.filter _)]
  intro key
  rw [List.mem_filter, hc.mem_keys, hc'.mem_keys, h key]
  cases c.find? key <;> cases gone key <;> cases given key <;> simp

/-- **The keys that changed** have left the map, or have given up what they held. -/
theorem changedKeys_eq (h : Takes c c' gone given) (hc : c.Sound) :
    c.changedKeys c' = c.index.keys.filter fun key => gone key || given key && c.holds key := by
  unfold changedKeys
  refine List.filter_congr fun key hkey => ?_
  obtain ⟨e, he⟩ := hc.mem_keys.1 hkey
  rw [status?, status?, Cache.holds, h key, he]
  cases gone key with
  | true => simp
  | false =>
    cases given key with
    | false => simp
    | true =>
      have hshows := e.status_givenUp_ne_iff
      cases hheld : e.state.isHeld <;> simp_all

end Takes

/-! ## Entries that give up what they hold -/

theorem getElem?_entries_dropEntry (c : Cache α) (id j : Nat) :
    (c.dropEntry id).2.entries[j]? =
      if id = j then (c.entries[j]?).map Entry.givenUp else c.entries[j]? := by
  unfold dropEntry
  cases he : c.entries[id]? with
  | none =>
    by_cases hj : id = j
    · subst hj
      simp [he]
    · simp [hj]
  | some e =>
    dsimp only
    split
    · rename_i hheld
      dsimp only
      rw [getElem?_entries_setState]
      by_cases hj : id = j
      · subst hj
        simp [he, Entry.givenUp, hheld]
      · simp [hj]
    · rename_i hheld
      by_cases hj : id = j
      · subst hj
        simp [he, Entry.givenUp, hheld]
      · simp [hj]

theorem takes_dropEntry (c : Cache α) (id : Nat) :
    Takes c (c.dropEntry id).2 (fun _ => false) fun key => c.index.get? key == some id := by
  intro key
  unfold find?
  rw [index_dropEntry]
  cases hkey : c.index.get? key with
  | none => simp
  | some j =>
    rw [Option.bind_some, getElem?_entries_dropEntry]
    by_cases hj : id = j
    · simp [hj, hkey]
    · simp [hj, hkey, Ne.symm hj]

theorem fst_dropEntry (c : Cache α) (id : Nat) :
    (c.dropEntry id).1 = (c.entries[id]?).any fun e => e.state.isHeld := by
  unfold dropEntry
  cases c.entries[id]? with
  | none => rfl
  | some e => cases hheld : e.state.isHeld <;> simp [hheld]

theorem takes_dropAll (c : Cache α) (ids : List Nat) :
    Takes c (c.dropAll ids).2 (fun _ => false) fun key => (c.index.get? key).any ids.contains := by
  induction ids generalizing c with
  | nil => exact (Takes.refl c).congr (fun _ => rfl) fun key _ => by cases c.index.get? key <;> rfl
  | cons id rest ih =>
    refine ((takes_dropEntry c id).trans (ih _)).congr (fun _ => rfl) fun key _ => ?_
    rw [index_dropEntry]
    cases c.index.get? key with
    | none => rfl
    | some j => exact List.contains_cons

/-! ## What each eviction takes -/

/-- The entries of a tier are those of the keys that have one of the tier. -/
theorem any_contains_entriesOf (c : Cache α) (tier : Tier) (key : String) :
    (c.index.get? key).any (c.entriesOf tier).contains = (c.tier? key == some tier) := by
  rw [Bool.eq_iff_iff, Option.any_eq_true, beq_iff_eq, tier?, Option.map_eq_some_iff]
  constructor
  · rintro ⟨id, hid, hmem⟩
    obtain ⟨-, e, he, htier⟩ := mem_entriesOf.1 (List.contains_iff_mem.1 hmem)
    exact ⟨e, by rw [find?, hid, Option.bind_some, he], htier⟩
  · rintro ⟨e, hfind, htier⟩
    obtain ⟨id, hid, he⟩ := Option.bind_eq_some_iff.1 hfind
    exact ⟨id, hid, List.contains_iff_mem.2 (mem_entriesOf.2 ⟨⟨key, hid⟩, e, he, htier⟩)⟩

theorem takes_invalidateTier (c : Cache α) (tier : Tier) :
    Takes c (c.invalidateTier tier).2 (fun _ => false) fun key => c.tier? key == some tier := by
  have hall := (takes_dropAll c (c.entriesOf tier)).congr (fun _ => rfl) fun key _ =>
    (any_contains_entriesOf c tier key).symm
  unfold invalidateTier
  dsimp only
  split
  · exact hall.count _ _
  · exact hall

theorem takes_cascade (c : Cache α) (id : Nat) : Takes c (c.cascade id) (fun _ => false) fun key =>
    ((c.entries[id]?).any fun e => e.tier == .siteGlobal) && c.tier? key == some .leaf := by
  unfold cascade
  cases (c.entries[id]?).any fun e => e.tier == .siteGlobal with
  | true => exact takes_invalidateTier c .leaf
  | false => exact Takes.refl c

/-- Only one key leads to an entry. -/
theorem Sound.get?_beq_eq (hc : c.Sound) (hid : c.index.get? k = some id) (key : String) :
    (c.index.get? key == some id) = (key == k) := by
  rw [Bool.eq_iff_iff, beq_iff_eq, beq_iff_eq]
  constructor
  · intro h
    exact hc.key_eq hid h
  · rintro rfl
    exact hid

/-- Entries that give up what they hold keep their tier. -/
theorem any_siteGlobal_dropEntry {c₀ : Cache α} (hid : c.index.get? k = some id)
    (hentries : c₀.entries = c.entries) (j : Nat) :
    (((c₀.dropEntry j).2.entries[id]?).any fun e => e.tier == .siteGlobal) =
      (c.tier? k == some .siteGlobal) := by
  rw [getElem?_entries_dropEntry, hentries, tier?, find?, hid, Option.bind_some]
  cases c.entries[id]? with
  | none => split <;> rfl
  | some e => split <;> simp [Entry.tier_givenUp]

/-- **What invalidating a key takes**: its entry, and with the site-global entry the leaves. -/
theorem takes_invalidate (hc : c.Sound) (k : String) :
    Takes c (c.invalidate k).2 (fun _ => false) fun key =>
      key == k || (c.tier? k == some .siteGlobal && c.tier? key == some .leaf) := by
  unfold invalidate
  cases hid : c.index.get? k with
  | none =>
    have hnone : c.find? k = none := by rw [find?, hid, Option.bind_none]
    intro key
    by_cases hkey : key = k
    · simp [hkey, hnone]
    · simp [hkey, tier?, hnone]
  | some id =>
    have hdrop := takes_dropEntry c id
    have hglobal := any_siteGlobal_dropEntry hid rfl id
    -- counting the eviction shows at no entry
    have hcounted : ∀ c₁ : Cache α, (∀ key, c₁.find? key = (c.dropEntry id).2.find? key) →
        c₁.entries = (c.dropEntry id).2.entries → Takes c (c₁.cascade id) (fun _ => false) fun key =>
          key == k || (c.tier? k == some .siteGlobal && c.tier? key == some .leaf) := by
      intro c₁ hfind hentries
      have hfirst : Takes c c₁ (fun _ => false) fun key => c.index.get? key == some id :=
        fun key => (hfind key).trans (hdrop key)
      refine (hfirst.trans (takes_cascade c₁ id)).congr (fun _ => rfl) fun key _ => ?_
      rw [hentries, hglobal, hc.get?_beq_eq hid, hfirst.tier? key, if_neg Bool.false_ne_true]
    dsimp only
    split
    · exact hcounted _ (fun _ => rfl) rfl
    · exact hcounted _ (fun _ => rfl) rfl

/-- **What removing a key takes**: its entry, and with the site-global entry the leaves. -/
theorem takes_remove (hc : c.Sound) (k : String) :
    Takes c (c.remove k).2 (fun key => key == k) fun key =>
      c.tier? k == some .siteGlobal && c.tier? key == some .leaf := by
  unfold remove
  cases hid : c.index.get? k with
  | none =>
    have hnone : c.find? k = none := by rw [find?, hid, Option.bind_none]
    intro key
    by_cases hkey : key = k
    · simp [hkey, hnone]
    · simp [hkey, tier?, hnone]
  | some id =>
    dsimp only
    have herase : Takes c { c with index := c.index.erase k } (fun key => key == k) fun _ => false := by
      intro key
      by_cases hkey : key = k
      · simp [hkey, find?]
      · simp [hkey, find?, NameMap.get?_erase_of_ne _ hkey]
    have hkept : ∀ key, key ≠ k →
        ({ c with index := c.index.erase k } : Cache α).index.get? key = c.index.get? key :=
      fun key hkey => NameMap.get?_erase_of_ne _ hkey
    have hentries : ({ c with index := c.index.erase k } : Cache α).entries = c.entries := rfl
    generalize ({ c with index := c.index.erase k } : Cache α) = c₀ at herase hkept hentries ⊢
    -- the entry that left the map is nobody's any more, so dropping it shows at no key
    have hfirst : Takes c (c₀.dropEntry id).2 (fun key => key == k) fun _ => false := by
      refine (herase.trans (takes_dropEntry c₀ id)).congr (fun key => by simp) fun key hkey => ?_
      have hne : key ≠ k := by simpa using hkey
      rw [hkept key hne, hc.get?_beq_eq hid key]
      simpa using hne
    refine ((hfirst.count _ _).trans (takes_cascade _ id)).congr (fun key => by simp) fun key hkey => ?_
    have hne : (key == k) = false := by simpa using hkey
    rw [entries_count, any_siteGlobal_dropEntry hid hentries, (hfirst.count _ _).tier? key, hne]
    simp

/-- **What removing keys takes**: their entries, and with the site-global entry the leaves. -/
theorem takes_removeAll (hc : c.Sound) (keys : List String) :
    Takes c (c.removeAll keys).2 keys.contains fun key =>
      (keys.any fun k => c.tier? k == some .siteGlobal) && c.tier? key == some .leaf := by
  induction keys generalizing c with
  | nil => exact Takes.refl c
  | cons k rest ih =>
    have hfirst := takes_remove hc k
    have hsound : (c.remove k).2.Sound := (thinned_evicted c (.remove k)).moves.sound hc
    refine (hfirst.trans (ih hsound)).congr (fun key => List.contains_cons) fun key hkey => ?_
    have hne : (key == k) = false := (Bool.or_eq_false_iff.1 hkey).1
    -- a key that left the map with the first removal is not met again
    have hany : (c.tier? k == some .siteGlobal ||
        rest.any fun j => (c.remove k).2.tier? j == some .siteGlobal) =
        (c.tier? k == some .siteGlobal || rest.any fun j => c.tier? j == some .siteGlobal) := by
      cases hglobal : c.tier? k == some .siteGlobal with
      | true => rfl
      | false =>
        have hsame : ∀ j, ((c.remove k).2.tier? j == some .siteGlobal) =
            (c.tier? j == some .siteGlobal) := by
          intro j
          rw [hfirst.tier? j]
          by_cases hj : j = k
          · simpa [hj] using hglobal
          · simp [hj]
        simp only [hsame]
    rw [List.any_cons, ← hany, hfirst.tier? key, hne, Bool.and_or_distrib_right]
    rfl

/-- **What removing a directory takes**: the entries below it, and with the site-global entry the leaves. -/
theorem takes_removeUnder (hc : c.Sound) (directory : String) :
    Takes c (c.removeUnder directory).2 (c.keysUnder directory).contains fun key =>
      ((c.keysUnder directory).any fun k => c.tier? k == some .siteGlobal) &&
        c.tier? key == some .leaf :=
  takes_removeAll hc _

/-! ## What each eviction reports -/

theorem fst_invalidate (c : Cache α) (k : String) : (c.invalidate k).1 = c.holds k := by
  unfold invalidate
  cases hid : c.index.get? k with
  | none => rw [holds, find?, hid, Option.bind_none, Option.any_none]
  | some id =>
    rw [holds, find?, hid, Option.bind_some]
    exact fst_dropEntry c id

theorem fst_remove (c : Cache α) (k : String) : (c.remove k).1 = c.index.contains k := by
  unfold remove NameMap.contains
  cases c.index.get? k <;> rfl

/-- Removing keys of the map reports all of them. -/
theorem fst_removeAll {keys : List String} (hnodup : keys.Nodup)
    (hthere : ∀ k ∈ keys, c.index.contains k = true) : (c.removeAll keys).1 = keys.length := by
  induction keys generalizing c with
  | nil => rfl
  | cons k rest ih =>
    obtain ⟨hnew, hnodup⟩ := List.nodup_cons.1 hnodup
    obtain ⟨hk, hrest⟩ := List.forall_mem_cons.1 hthere
    have hkept : ∀ j ∈ rest, (c.remove k).2.index.contains j = true := by
      intro j hj
      have hne : j ≠ k := fun heq => hnew (heq ▸ hj)
      rw [NameMap.contains, get?_index_remove, if_neg hne]
      exact hrest j hj
    show ((c.remove k).2.removeAll rest).1 + (c.remove k).1.toNat = rest.length + 1
    rw [ih hnodup hkept, fst_remove, hk]
    rfl

theorem fst_removeUnder (c : Cache α) (directory : String) :
    (c.removeUnder directory).1 = (c.keysUnder directory).length := by
  refine fst_removeAll (c.index.nodup_keys.filter _) fun k hk => ?_
  exact NameMap.contains_iff.2 (List.mem_filter.1 hk).1

/-- Dropping entries reports those that held anything. -/
theorem fst_dropAll {ids : List Nat} (hnodup : ids.Nodup) :
    (c.dropAll ids).1 = ids.countP fun id => (c.entries[id]?).any fun e => e.state.isHeld := by
  induction ids generalizing c with
  | nil => rfl
  | cons id rest ih =>
    obtain ⟨hnew, hnodup⟩ := List.nodup_cons.1 hnodup
    have hrest : ∀ j ∈ rest, (((c.dropEntry id).2.entries[j]?).any fun e => e.state.isHeld) =
        (c.entries[j]?).any fun e => e.state.isHeld := by
      intro j hj
      have hne : id ≠ j := fun heq => hnew (heq ▸ hj)
      rw [getElem?_entries_dropEntry, if_neg hne]
    show ((c.dropEntry id).2.dropAll rest).1 + (c.dropEntry id).1.toNat = _
    rw [ih hnodup, List.countP_cons, List.countP_congr fun j hj => by rw [hrest j hj], fst_dropEntry]
    cases (c.entries[id]?).any fun e => e.state.isHeld <;> rfl

/-- **Invalidating a tier reports every entry of the tier that held anything.** -/
theorem fst_invalidateTier (hc : c.Sound) (tier : Tier) : (c.invalidateTier tier).1 =
    c.index.keys.countP fun key => c.tier? key == some tier && c.holds key := by
  have hvalues : c.index.values.Nodup := by
    refine List.Nodup.map_on ?_ (List.Nodup.of_map _ c.index.nodup_keys)
    rintro ⟨key, id⟩ hmem ⟨key', id'⟩ hmem' rfl
    have hid := NameMap.get?_eq_some_iff.2 hmem
    have hid' := NameMap.get?_eq_some_iff.2 hmem'
    rw [hc.key_eq hid hid']
  have hentries : (c.entriesOf tier).Nodup := hvalues.filter _
  show (c.dropAll (c.entriesOf tier)).1 = _
  rw [fst_dropAll hentries, entriesOf, List.countP_filter, NameMap.values, NameMap.keys,
    List.countP_map, List.countP_map]
  refine List.countP_congr fun e hmem => ?_
  have hid := NameMap.get?_eq_some_iff.2 hmem
  simp only [Function.comp_apply, tier?, holds, find?, hid, Option.bind_some]
  cases c.entries[e.2]? <;> simp [and_comm]

end Cache

end SiteHost
