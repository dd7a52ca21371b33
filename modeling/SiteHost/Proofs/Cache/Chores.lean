import SiteHost.Proofs.Cache.Moves

/-!
# Evictions in steps

An eviction is not done at once. It asks the map what it is about, drops one entry after the other, and
others may do something in between:

* `Eviction`, `Chore` — an eviction, and something an eviction has yet to do. `Cache.perform` does one
  chore, which may leave others;
* `Cache.Drains` — doing chores until none is left;
* `Cache.Worked`, `Cache.Leaves` — all that a chore can do to the cache, and all that it can leave to do.

Principal results:

* `drains_evict` — an eviction that nobody disturbs is `Cache.invalidate`, `Cache.invalidateTier`,
  `Cache.remove`, `Cache.removeUnder` or `Cache.reset`;
* `worked_perform`, `mem_perform` — what a chore does and what it leaves. What holds of every chore is
  read off them: `flights_perform`, `moves_perform`, `state?_perform_cases`.
-/

namespace SiteHost

/-- An eviction. -/
inductive Eviction where
  | invalidate (key : String)
  | tier (tier : Tier)
  | remove (key : String)
  | under (directory : String)
  | reset
  deriving Repr, DecidableEq, Inhabited

/-- Something an eviction has yet to do. -/
inductive Chore where
  /-- Ask the map what the eviction is about. -/
  | evict (eviction : Eviction)
  /-- Drop an entry that is to be invalidated. -/
  | invalidate (id : Nat)
  /-- Drop an entry whose key was forgotten. -/
  | remove (id : Nat)
  /-- Drop entries of a tier, of which some held anything. -/
  | drop (ids : List Nat) (held : Nat)
  /-- Forget every key and drop these entries. -/
  | clear (ids : List Nat)
  /-- Drop the entries that are left of a number of forgotten ones. -/
  | reset (ids : List Nat) (forgotten : Nat)
  deriving Repr, DecidableEq, Inhabited

/-- Whether a chore is to drop an entry that its eviction was called for. -/
def Chore.Drops (chore : Chore) (id : Nat) : Prop := chore = .invalidate id ∨ chore = .remove id

/-- Whether a chore drops an entry at once. -/
def Chore.Takes (id : Nat) : Chore → Prop
  | .invalidate j | .remove j => j = id
  | .drop ids _ | .reset ids _ => ids.head? = some id
  | _ => False

namespace Cache

variable {α : Type}

/-- What is left to do when an entry was dropped. -/
def cascadeChores (c : Cache α) (id : Nat) : List Chore :=
  if (c.entries[id]?).any fun e => e.tier == .siteGlobal then [.evict (.tier .leaf)] else []

/-- Does one chore; what it leaves to do. -/
def perform (c : Cache α) : Chore → List Chore × Cache α
  | .evict (.invalidate key) => (((c.index.get? key).map Chore.invalidate).toList, c)
  | .evict (.tier tier) => ([.drop (c.entriesOf tier) 0], c)
  | .evict (.remove key) =>
    (((c.index.get? key).map Chore.remove).toList, { c with index := c.index.erase key })
  | .evict (.under directory) => ((c.keysUnder directory).map fun key => .evict (.remove key), c)
  | .evict .reset => ([.clear c.index.values], c)
  | .invalidate id =>
    let (held, c) := c.dropEntry id
    let c := if held then c.count (.evicted .invalidate) 1 else c
    (c.cascadeChores id, c)
  | .remove id =>
    let c := (c.dropEntry id).2.count (.evicted .remove) 1
    (c.cascadeChores id, c)
  | .drop [] n => ([], if 0 < n then c.count (.evicted .tier) n else c)
  | .drop (id :: rest) n =>
    let (held, c) := c.dropEntry id
    ([.drop rest (n + held.toNat)], c)
  | .clear ids => ([.reset ids ids.length], { c with index := .empty })
  | .reset [] n => ([], c.count (.evicted .reset) n)
  | .reset (id :: rest) n => ([.reset rest n], (c.dropEntry id).2)

/-- The cache after an eviction that nobody disturbed. -/
def evicted (c : Cache α) : Eviction → Cache α
  | .invalidate key => (c.invalidate key).2
  | .tier tier => (c.invalidateTier tier).2
  | .remove key => (c.remove key).2
  | .under directory => (c.removeUnder directory).2
  | .reset => c.reset

/-! ## Evictions that nobody disturbs -/

/-- Doing chores, and what they leave, until nothing is left. -/
inductive Drains : Cache α → List Chore → Cache α → Prop where
  | done (c : Cache α) : Drains c [] c
  | next {c c' : Cache α} {chore : Chore} {rest : List Chore} :
    Drains (c.perform chore).2 ((c.perform chore).1 ++ rest) c' → Drains c (chore :: rest) c'

theorem Drains.append {c c' c'' : Cache α} {xs ys : List Chore} (h : Drains c xs c')
    (h' : Drains c' ys c'') : Drains c (xs ++ ys) c'' := by
  induction h with
  | done c => exact h'
  | next _ ih =>
    rw [List.cons_append]
    refine .next ?_
    rw [← List.append_assoc]
    exact ih h'

theorem Drains.single {c c' : Cache α} {chore : Chore}
    (h : Drains (c.perform chore).2 (c.perform chore).1 c') : Drains c [chore] c' := by
  refine .next ?_
  rw [List.append_nil]
  exact h

theorem drains_drop (c : Cache α) (ids : List Nat) (n : Nat) :
    Drains c [.drop ids n] (if 0 < n + (c.dropAll ids).1
      then (c.dropAll ids).2.count (.evicted .tier) (n + (c.dropAll ids).1)
      else (c.dropAll ids).2) := by
  induction ids generalizing c n with
  | nil => exact .single (.done _)
  | cons id rest ih =>
    refine .single ?_
    have h := ih (c.dropEntry id).2 (n + (c.dropEntry id).1.toNat)
    rw [Nat.add_assoc, Nat.add_comm (c.dropEntry id).1.toNat] at h
    exact h

theorem drains_tier (c : Cache α) (tier : Tier) :
    Drains c [.evict (.tier tier)] (c.invalidateTier tier).2 := by
  refine .single ?_
  have h := drains_drop c (c.entriesOf tier) 0
  rw [Nat.zero_add] at h
  exact h

theorem drains_cascade (c : Cache α) (id : Nat) : Drains c (c.cascadeChores id) (c.cascade id) := by
  unfold cascadeChores cascade
  split
  · exact drains_tier c .leaf
  · exact .done c

theorem drains_invalidate (c : Cache α) (key : String) :
    Drains c [.evict (.invalidate key)] (c.invalidate key).2 := by
  refine .single ?_
  unfold invalidate
  simp only [perform]
  cases c.index.get? key with
  | none => exact .done c
  | some id => exact .single (drains_cascade _ id)

theorem drains_remove (c : Cache α) (key : String) :
    Drains c [.evict (.remove key)] (c.remove key).2 := by
  refine .single ?_
  unfold remove
  simp only [perform]
  cases h : c.index.get? key with
  | none =>
    have hsame : c.index.erase key = c.index := by
      refine NameMap.ext_get? fun k => ?_
      by_cases hk : k = key
      · rw [hk, NameMap.get?_erase_self, h]
      · rw [NameMap.get?_erase_of_ne _ hk]
    rw [hsame]
    exact .done c
  | some id => exact .single (drains_cascade _ id)

theorem drains_removeAll (c : Cache α) (keys : List String) :
    Drains c (keys.map fun key => .evict (.remove key)) (c.removeAll keys).2 := by
  induction keys generalizing c with
  | nil => exact .done c
  | cons key rest ih => exact (drains_remove c key).append (ih (c.remove key).2)

theorem drains_dropReset (c : Cache α) (ids : List Nat) (n : Nat) :
    Drains c [.reset ids n] ((c.dropAll ids).2.count (.evicted .reset) n) := by
  induction ids generalizing c with
  | nil => exact .single (.done _)
  | cons id rest ih => exact .single (ih (c.dropEntry id).2)

/-- **An eviction that nobody disturbs does what the cache's own operation does.** -/
theorem drains_evict (c : Cache α) (e : Eviction) : Drains c [.evict e] (c.evicted e) := by
  cases e with
  | invalidate key => exact drains_invalidate c key
  | tier tier => exact drains_tier c tier
  | remove key => exact drains_remove c key
  | under directory => exact .single (drains_removeAll c _)
  | reset => exact .single (.single (drains_dropReset _ _ _))

/-! ## An entry that is dropped -/

@[simp] theorem flights_dropEntry (c : Cache α) (id : Nat) :
    (c.dropEntry id).2.flights = c.flights := by
  unfold dropEntry
  split
  · split <;> rfl
  · rfl

@[simp] theorem index_dropEntry (c : Cache α) (id : Nat) : (c.dropEntry id).2.index = c.index := by
  unfold dropEntry
  split
  · split <;> rfl
  · rfl

theorem state?_dropEntry_cases (c : Cache α) (j id : Nat) :
    (c.dropEntry j).2.state? id = c.state? id ∨
      (j = id ∧ (c.dropEntry j).2.state? id = some .invalidated) := by
  unfold dropEntry
  cases he : c.entries[j]? with
  | none => exact .inl rfl
  | some e =>
    have hs : c.state? j = some e.state := by rw [state?, he, Option.map_some]
    dsimp only
    split
    · by_cases hid : j = id
      · subst hid
        exact .inr ⟨rfl, state?_setState_self c j _ hs⟩
      · exact .inl (state?_setState_of_ne c _ hid)
    · exact .inl rfl

@[simp] theorem length_entries_dropEntry (c : Cache α) (id : Nat) :
    (c.dropEntry id).2.entries.length = c.entries.length := by
  unfold dropEntry
  split
  · split <;> simp
  · rfl

/-! ## What a chore does -/

section Worked

variable {c c' : Cache α} {chore : Chore}

/-- What a chore may do to a cache: it forgets a key, forgets all keys, drops an entry or does none of
these, and it may count what it did. -/
inductive Worked (c : Cache α) (chore : Chore) : Cache α → Prop where
  /-- The map is only asked. -/
  | asked : Worked c chore c
  | forgot (key : String) (h : chore = .evict (.remove key)) :
    Worked c chore { c with index := c.index.erase key }
  | cleared (ids : List Nat) (h : chore = .clear ids) : Worked c chore { c with index := .empty }
  | dropped (id : Nat) (h : chore.Takes id) : Worked c chore (c.dropEntry id).2
  | counted {c' : Cache α} (h : Worked c chore c') (reason : EvictionReason) (n : Nat) :
    Worked c chore (c'.count (.evicted reason) n)

/-- **A chore does nothing else.** -/
theorem worked_perform (c : Cache α) (chore : Chore) : Worked c chore (c.perform chore).2 := by
  cases chore with
  | evict e =>
    cases e with
    | remove key => exact .forgot key rfl
    | _ => exact .asked
  | invalidate id =>
    have hdrop : Worked c (.invalidate id) (c.dropEntry id).2 := .dropped id rfl
    simp only [perform]
    split
    · exact .counted hdrop _ _
    · exact hdrop
  | remove id =>
    have hdrop : Worked c (.remove id) (c.dropEntry id).2 := .dropped id rfl
    exact .counted hdrop _ _
  | drop ids n =>
    cases ids with
    | nil =>
      simp only [perform]
      split
      · exact .counted .asked _ _
      · exact .asked
    | cons id rest => exact .dropped id rfl
  | clear ids => exact .cleared ids rfl
  | reset ids n =>
    cases ids with
    | nil => exact .counted .asked _ _
    | cons id rest => exact .dropped id rfl

theorem Worked.flights (h : Worked c chore c') : c'.flights = c.flights := by
  induction h with
  | dropped id => exact flights_dropEntry c id
  | counted _ _ _ ih => exact ih
  | _ => rfl

theorem Worked.state?_cases (h : Worked c chore c') (id : Nat) :
    c'.state? id = c.state? id ∨ (chore.Takes id ∧ c'.state? id = some .invalidated) := by
  induction h with
  | dropped j hj =>
    rcases state?_dropEntry_cases c j id with hsame | ⟨rfl, hinv⟩
    · exact .inl hsame
    · exact .inr ⟨hj, hinv⟩
  | counted _ _ _ ih => exact ih
  | _ => exact .inl rfl

theorem Worked.moves (h : Worked c chore c') : Moves c c' := by
  induction h with
  | asked => exact .refl
  | forgot key => exact .single (.forget c key)
  | cleared => exact .single (.clear c)
  | dropped id => exact moves_dropEntry c id
  | counted _ _ _ ih => exact ih.tail (.count _ _ _)

theorem Worked.length_entries (h : Worked c chore c') : c'.entries.length = c.entries.length := by
  induction h with
  | dropped id => exact length_entries_dropEntry c id
  | counted _ _ _ ih => exact ih
  | _ => rfl

end Worked

/-- An eviction starts and ends no builds. -/
theorem flights_perform (c : Cache α) (chore : Chore) : (c.perform chore).2.flights = c.flights :=
  (worked_perform c chore).flights

/-- An eviction leaves the state of an entry alone or invalidates the entry. -/
theorem state?_perform_cases (c : Cache α) (chore : Chore) (id : Nat) :
    (c.perform chore).2.state? id = c.state? id ∨
      (c.perform chore).2.state? id = some .invalidated :=
  ((worked_perform c chore).state?_cases id).imp_right And.right

theorem moves_perform (c : Cache α) (chore : Chore) : Moves c (c.perform chore).2 :=
  (worked_perform c chore).moves

theorem length_entries_perform (c : Cache α) (chore : Chore) :
    (c.perform chore).2.entries.length = c.entries.length :=
  (worked_perform c chore).length_entries

/-! ## What a chore leaves to do -/

section Leaves

variable {c : Cache α} {chore next : Chore}

theorem mem_cascadeChores {id : Nat} : chore ∈ c.cascadeChores id ↔
    chore = .evict (.tier .leaf) ∧
      ∃ entry : Entry α, c.entries[id]? = some entry ∧ entry.tier = .siteGlobal := by
  unfold cascadeChores
  cases c.entries[id]? with
  | none => simp
  | some entry => by_cases h : entry.tier = .siteGlobal <;> simp [h]

/-- What a chore leaves to do. -/
inductive Leaves (c : Cache α) : Chore → Chore → Prop where
  | invalidate {key : String} {id : Nat} (h : c.index.get? key = some id) :
    Leaves c (.evict (.invalidate key)) (.invalidate id)
  | tier (tier : Tier) : Leaves c (.evict (.tier tier)) (.drop (c.entriesOf tier) 0)
  | remove {key : String} {id : Nat} (h : c.index.get? key = some id) :
    Leaves c (.evict (.remove key)) (.remove id)
  | under {directory key : String} (h : key ∈ c.keysUnder directory) :
    Leaves c (.evict (.under directory)) (.evict (.remove key))
  | reset : Leaves c (.evict .reset) (.clear c.index.values)
  /-- The leaves follow the site-global unit. -/
  | cascade {chore : Chore} {id : Nat} {entry : Entry α} (h : chore.Drops id)
    (hentry : (c.perform chore).2.entries[id]? = some entry) (htier : entry.tier = .siteGlobal) :
    Leaves c chore (.evict (.tier .leaf))
  | drop (id : Nat) (rest : List Nat) (n : Nat) :
    Leaves c (.drop (id :: rest) n) (.drop rest (n + (c.dropEntry id).1.toNat))
  | clear (ids : List Nat) : Leaves c (.clear ids) (.reset ids ids.length)
  | dropReset (id : Nat) (rest : List Nat) (n : Nat) :
    Leaves c (.reset (id :: rest) n) (.reset rest n)

theorem leaves_of_mem (h : next ∈ (c.perform chore).1) : Leaves c chore next := by
  cases chore with
  | evict e =>
    cases e with
    | invalidate key =>
      obtain ⟨id, hkey, rfl⟩ := Option.map_eq_some_iff.1 (Option.mem_toList.1 h)
      exact .invalidate hkey
    | tier t =>
      cases List.mem_singleton.1 h
      exact .tier t
    | remove key =>
      obtain ⟨id, hkey, rfl⟩ := Option.map_eq_some_iff.1 (Option.mem_toList.1 h)
      exact .remove hkey
    | under directory =>
      obtain ⟨key, hkey, rfl⟩ := List.mem_map.1 h
      exact .under hkey
    | reset =>
      cases List.mem_singleton.1 h
      exact .reset
  | invalidate id =>
    obtain ⟨rfl, entry, hentry, htier⟩ := mem_cascadeChores.1 h
    exact .cascade (.inl rfl) hentry htier
  | remove id =>
    obtain ⟨rfl, entry, hentry, htier⟩ := mem_cascadeChores.1 h
    exact .cascade (.inr rfl) hentry htier
  | drop ids n =>
    cases ids with
    | nil => cases h
    | cons id rest =>
      cases List.mem_singleton.1 h
      exact .drop id rest n
  | clear ids =>
    cases List.mem_singleton.1 h
    exact .clear ids
  | reset ids n =>
    cases ids with
    | nil => cases h
    | cons id rest =>
      cases List.mem_singleton.1 h
      exact .dropReset id rest n

theorem Leaves.mem (h : Leaves c chore next) : next ∈ (c.perform chore).1 := by
  cases h with
  | invalidate hkey | remove hkey =>
    exact Option.mem_toList.2 (Option.map_eq_some_iff.2 ⟨_, hkey, rfl⟩)
  | under hkey => exact List.mem_map_of_mem hkey
  | cascade hdrops hentry htier =>
    rcases hdrops with rfl | rfl
    · exact mem_cascadeChores.2 ⟨rfl, _, hentry, htier⟩
    · exact mem_cascadeChores.2 ⟨rfl, _, hentry, htier⟩
  | _ => exact List.mem_singleton_self _

/-- **Just that is left to do by a chore.** -/
theorem mem_perform : next ∈ (c.perform chore).1 ↔ Leaves c chore next :=
  ⟨leaves_of_mem, Leaves.mem⟩

end Leaves

end Cache

end SiteHost
