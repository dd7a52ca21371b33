import Mathlib.Logic.Relation
import SiteHost.Cache.Eviction

/-!
# What a cache can do

Every step of a cache is made of a few moves, and what is true of a cache after every history is
shown for one move at a time:

* `Cache.Move` — one move: an entry is made; a build starts, ends or panics; a result is stored; an
  entry gives up what it holds; a key, or every key, is forgotten; something is counted;
* `Cache.Moves` — any number of moves. `moves_enter`, `moves_look`, `moves_finish` and
  `moves_dropEntry` say that the steps of a cache are made of them;
* `Cache.Sound` — the index, the entries and the builds fit together. `Moves.sound`: always;
* `Cache.Extends` — what no move takes back: entries, builds and endings are never forgotten, and an
  entry that has left the index never comes back. `Moves.extends`: always.
-/

namespace SiteHost

/-- The state that an entry takes from the result of its build. A failure is not kept. -/
def EntryState.ofResult {α : Type} : Except Failure α → EntryState α
  | .ok artifact => .built artifact
  | .error _ => .empty

/-- Only a build that returned an artifact has one as its result. -/
theorem Ending.result_eq_ok {α : Type} {unit : String} {timeLimit : Nat} {ending : Ending α} {a : α}
    (h : ending.result unit timeLimit = .ok a) : ending = .returned (.ok a) := by
  cases ending with
  | returned r => simpa [Ending.result] using h
  | timedOut => simp [Ending.result] at h
  | panicked => simp [Ending.result] at h

namespace Cache

variable {α : Type}

/-- The state of an entry. -/
def state? (c : Cache α) (id : Nat) : Option (EntryState α) := (c.entries[id]?).map Entry.state

/-- Whether an entry is the one of some key. -/
def Indexed (c : Cache α) (id : Nat) : Prop := ∃ key, c.index.get? key = some id

/-- The cache in which a build was started for an entry. -/
def launched (c : Cache α) (id : Nat) : Cache α :=
  ({ c with flights := c.flights ++ [{ entry := id }] } : Cache α).setState id
    (.building c.flights.length)

/-- The cache in which a build has ended. -/
def ended (c : Cache α) (g : Generation) (ending : Ending α) : Cache α :=
  { c with flights := c.flights.modify g fun f => { f with ending := some ending } }

/-! ## The parts of a cache after each change -/

theorem state?_of_entry {c : Cache α} {id : Nat} {e : Entry α} (he : c.entries[id]? = some e) :
    c.state? id = some e.state := by
  rw [state?, he, Option.map_some]

section Parts

variable (c : Cache α) (id j : Nat) (g k : Generation) (st : EntryState α)

@[simp] theorem entries_count (s : Series) (n : Nat) : (c.count s n).entries = c.entries := rfl
@[simp] theorem index_count (s : Series) (n : Nat) : (c.count s n).index = c.index := rfl
@[simp] theorem flights_count (s : Series) (n : Nat) : (c.count s n).flights = c.flights := rfl
@[simp] theorem index_setState : (c.setState id st).index = c.index := rfl
@[simp] theorem flights_setState : (c.setState id st).flights = c.flights := rfl
@[simp] theorem entries_ended (e : Ending α) : (c.ended g e).entries = c.entries := rfl

theorem getElem?_entries_setState : (c.setState id st).entries[j]? =
    if id = j then (c.entries[j]?).map fun e => { e with state := st } else c.entries[j]? := by
  simp only [setState, List.getElem?_modify]
  split <;> simp_all

@[simp] theorem length_entries_setState (c : Cache α) (id : Nat) (st : EntryState α) :
    (c.setState id st).entries.length = c.entries.length := by
  simp [setState]

theorem state?_setState_self {s : EntryState α} (h : c.state? id = some s) :
    (c.setState id st).state? id = some st := by
  simp only [state?, Option.map_eq_some_iff] at h ⊢
  obtain ⟨e, he, -⟩ := h
  exact ⟨{ e with state := st }, by simp [getElem?_entries_setState, he], rfl⟩

theorem state?_setState_of_ne {id j : Nat} (h : id ≠ j) :
    (c.setState id st).state? j = c.state? j := by
  simp only [state?, getElem?_entries_setState, if_neg h]

@[simp] theorem flights_launched :
    (c.launched id).flights = c.flights ++ [{ entry := id }] := rfl

theorem state?_launched_self {s : EntryState α} (h : c.state? id = some s) :
    (c.launched id).state? id = some (.building c.flights.length) :=
  state?_setState_self { c with flights := c.flights ++ [{ entry := id }] } id _ h

theorem state?_launched_of_ne {id j : Nat} (h : id ≠ j) : (c.launched id).state? j = c.state? j :=
  state?_setState_of_ne { c with flights := c.flights ++ [{ entry := id }] } _ h

theorem getElem?_flights_ended (e : Ending α) : (c.ended g e).flights[k]? =
    if g = k then (c.flights[k]?).map fun f => { f with ending := some e } else c.flights[k]? := by
  simp only [ended, List.getElem?_modify]
  split <;> simp_all

theorem isRunning_iff : c.isRunning g = true ↔
    ∃ f, c.flights[g]? = some f ∧ f.ending = none := by
  unfold isRunning
  cases h : c.flights[g]? with
  | none => simp
  | some f => simp

end Parts

/-- What the result of a build consists of. -/
theorem result?_eq_some_iff {c : Cache α} {g : Generation} {r : Except Failure α} :
    c.result? g = some r ↔ ∃ f e ending, c.flights[g]? = some f ∧ c.entries[f.entry]? = some e ∧
      f.ending = some ending ∧ r = ending.result e.identity.typeName c.timeLimit := by
  unfold result?
  cases hf : c.flights[g]? with
  | none => simp
  | some f =>
    cases he : c.entries[f.entry]? with
    | none => simp [he]
    | some e => cases hend : f.ending <;> simp [he, hend, eq_comm]

/-- A build stores its result only if its entry still waits for it. -/
theorem publish_cases (c : Cache α) (g : Generation) :
    c.publish g = c ∨ ∃ f r, c.flights[g]? = some f ∧ c.state? f.entry = some (.building g) ∧
      c.result? g = some r ∧ c.publish g = c.setState f.entry (.ofResult r) := by
  unfold publish entryOf?
  cases hf : c.flights[g]? with
  | none => exact .inl rfl
  | some f =>
    simp only [Option.bind_some]
    cases he : c.entries[f.entry]? with
    | none => exact .inl rfl
    | some e =>
      cases hr : c.result? g with
      | none => exact .inl rfl
      | some r =>
        cases hs : e.state with
        | empty => exact .inl (by simp [hs])
        | invalidated => exact .inl (by simp [hs])
        | built a => exact .inl (by simp [hs])
        | building current =>
          by_cases hg : current = g
          · subst hg
            refine .inr ⟨f, r, rfl, by simp [state?, he, hs], rfl, ?_⟩
            cases r <;> simp [hs, EntryState.ofResult]
          · exact .inl (by simp [hs, hg])

@[simp] theorem index_publish (c : Cache α) (g : Generation) :
    (c.publish g).index = c.index := by
  rcases publish_cases c g with hp | ⟨f, r, -, -, -, hp⟩
  · rw [hp]
  · rw [hp]
    rfl

@[simp] theorem flights_publish (c : Cache α) (g : Generation) :
    (c.publish g).flights = c.flights := by
  rcases publish_cases c g with hp | ⟨f, r, -, -, -, hp⟩
  · rw [hp]
  · rw [hp]
    rfl

/-- If an entry waits for a build that has ended, the result of the build is stored. -/
theorem publish_of_building {c : Cache α} {g : Generation} {f : Flight α} {r : Except Failure α}
    (hf : c.flights[g]? = some f) (hs : c.state? f.entry = some (.building g))
    (hr : c.result? g = some r) : c.publish g = c.setState f.entry (.ofResult r) := by
  obtain ⟨e, he, hes⟩ := Option.map_eq_some_iff.1 hs
  unfold publish entryOf?
  rw [hf, hr]
  simp only [Option.bind_some, he, hes, if_true]
  cases r <;> rfl

/-- An entry that does not wait for a build does not hear of its end. -/
theorem state?_publish_of_ne {c : Cache α} {g : Generation} {id : Nat}
    (h : c.state? id ≠ some (.building g)) : (c.publish g).state? id = c.state? id := by
  rcases publish_cases c g with hp | ⟨f, r, -, hs, -, hp⟩
  · rw [hp]
  · rw [hp]
    exact state?_setState_of_ne c _ fun hid => h (hid ▸ hs)

theorem publish_count (c : Cache α) (s : Series) (n : Nat) (g : Generation) :
    (c.count s n).publish g = (c.publish g).count s n := by
  have hr : (c.count s n).result? g = c.result? g := rfl
  have he : (c.count s n).entryOf? g = c.entryOf? g := rfl
  unfold publish
  rw [hr, he, flights_count]
  split
  · split
    · split <;> rfl
    · rfl
  · rfl

/-! ## Moves -/

/-- One move of a cache. -/
inductive Move : Cache α → Cache α → Prop where
  /-- Something is counted. -/
  | count (c : Cache α) (s : Series) (n : Nat) : Move c (c.count s n)
  /-- An entry is made for a key that has none. -/
  | add (c : Cache α) (unit : Identity) (tier : Tier) : c.index.get? unit.key = none →
      Move c { c with
        entries := c.entries ++ [{ identity := unit, tier }]
        index := c.index.insert unit.key c.entries.length }
  /-- A build is started for an entry that holds nothing. -/
  | start (c : Cache α) (id : Nat) (s : EntryState α) : c.state? id = some s → s.isHeld = false →
      Move c (c.launched id)
  /-- A build ends by itself or by the clock, and its result is stored. -/
  | finish (c : Cache α) (g : Generation) (ending : Ending α) : c.isRunning g = true →
      ending ≠ .panicked → Move c ((c.ended g ending).publish g)
  /-- A build panics. -/
  | panic (c : Cache α) (g : Generation) : c.isRunning g = true → Move c (c.ended g .panicked)
  /-- The result of a build that has ended is stored once more. -/
  | settle (c : Cache α) (g : Generation) : Move c (c.publish g)
  /-- An entry gives up what it holds. -/
  | drop (c : Cache α) (id : Nat) (s : EntryState α) : c.state? id = some s → s.isHeld = true →
      Move c (c.setState id .invalidated)
  /-- A key is forgotten. -/
  | forget (c : Cache α) (key : String) : Move c { c with index := c.index.erase key }
  /-- Every key is forgotten. -/
  | clear (c : Cache α) : Move c { c with index := .empty }

/-- Any number of moves. -/
abbrev Moves : Cache α → Cache α → Prop := Relation.ReflTransGen Move

theorem moves_enter (c : Cache α) (unit : Identity) (tier : Tier) :
    Moves c (c.enter unit tier).2 := by
  unfold enter
  split
  · exact .refl
  · rename_i h
    exact .single (.add c unit tier h)

/-- What a caller finds at an entry: its artifact, its build, or nothing. -/
theorem look_cases {c : Cache α} {id : Nat} {s : EntryState α} (hs : c.state? id = some s)
    (tier : Tier) :
    (∃ a, s = .built a ∧ c.look id tier = (.hit a, c.count (.hit tier) 1)) ∨
    (∃ g, s = .building g ∧ c.look id tier = (.joined g, c)) ∨
    (s.isHeld = false ∧
      c.look id tier = (.started c.flights.length, (c.launched id).count (.miss tier) 1)) := by
  unfold look
  rw [show (c.entries[id]?).map Entry.state = some s from hs]
  cases s with
  | built a => exact .inl ⟨a, rfl, rfl⟩
  | building g => exact .inr (.inl ⟨g, rfl, rfl⟩)
  | empty => exact .inr (.inr ⟨rfl, rfl⟩)
  | invalidated => exact .inr (.inr ⟨rfl, rfl⟩)

theorem moves_look {c : Cache α} {id : Nat} (hid : id < c.entries.length) (tier : Tier) :
    Moves c (c.look id tier).2 := by
  have hs : c.state? id = some c.entries[id].state := by simp [state?, hid]
  rcases look_cases hs tier with ⟨a, -, h⟩ | ⟨g, -, h⟩ | ⟨hheld, h⟩
  · rw [h]
    exact .single (.count _ _ _)
  · rw [h]
  · rw [h]
    exact .tail (.single (.start c id _ hs hheld)) (.count _ _ _)

/-- The entries that are there stay as they are when one is made. -/
theorem state?_enter {c : Cache α} (unit : Identity) (tier : Tier) {id : Nat}
    (hid : id < c.entries.length) : (c.enter unit tier).2.state? id = c.state? id := by
  unfold enter
  split
  · rfl
  · simp [state?, List.getElem?_append_left hid]

/-- Nobody who looks takes the place of a build. -/
theorem state?_look_of_building {c : Cache α} {id j : Nat} {s : EntryState α} {g : Generation}
    (hs : c.state? id = some s) (tier : Tier) (h : c.state? j = some (.building g)) :
    (c.look id tier).2.state? j = some (.building g) := by
  rcases look_cases hs tier with ⟨a, -, hlook⟩ | ⟨k, -, hlook⟩ | ⟨hheld, hlook⟩
  · rw [hlook]
    exact h
  · rw [hlook]
    exact h
  · rw [hlook]
    have hne : id ≠ j := by
      rintro rfl
      rw [hs] at h
      cases h
      cases hheld
    exact (state?_launched_of_ne c hne).trans h

theorem moves_countBuild (c : Cache α) (tier : Tier) (r : Except Failure α) :
    Moves c (c.countBuild tier r) := by
  have h : Moves c ((c.count (.compiled tier) 1).count (.compileTime tier) 1) :=
    .tail (.single (.count _ _ _)) (.count _ _ _)
  cases r with
  | ok a => exact h
  | error f => exact h.tail (.count _ _ _)

theorem publish_countBuild (c : Cache α) (tier : Tier) (r : Except Failure α) (g : Generation) :
    (c.countBuild tier r).publish g = (c.publish g).countBuild tier r := by
  cases r <;> simp only [countBuild, publish_count]

/-- A build that ends without a panic: its result is stored, and it is counted. -/
theorem finish_of_ne_panicked {c : Cache α} {g : Generation} (hrun : c.isRunning g = true)
    {ending : Ending α} (hne : ending ≠ .panicked) :
    c.finish g ending = (c.ended g ending).publish g ∨
      ∃ tier r, c.finish g ending = ((c.ended g ending).publish g).countBuild tier r := by
  unfold finish
  rw [if_pos hrun]
  rw [show ({ c with flights := c.flights.modify g fun f => { f with ending := some ending } } :
    Cache α) = c.ended g ending from rfl]
  dsimp only
  split
  · exact absurd rfl hne
  · rw [publish_countBuild]
    exact .inr ⟨_, _, rfl⟩
  · rename_i ending _ _ _ _ hnone
    rcases publish_cases (c.ended g ending) g with h | ⟨f, r, hf, hs, hr, -⟩
    · exact .inl h.symm
    · obtain ⟨e, he, -⟩ := Option.map_eq_some_iff.1 hs
      exact (hnone e r (by unfold entryOf?; rw [hf]; exact he) hr).elim

theorem finish_panicked {c : Cache α} {g : Generation} (hrun : c.isRunning g = true) :
    c.finish g .panicked = c.ended g .panicked := by
  unfold finish
  rw [if_pos hrun]
  rfl

@[simp] theorem entries_countBuild (c : Cache α) (tier : Tier) (r : Except Failure α) :
    (c.countBuild tier r).entries = c.entries := by
  cases r <;> rfl

theorem state?_finish_of_ne {c : Cache α} {g : Generation} {id : Nat}
    (h : c.state? id ≠ some (.building g)) (ending : Ending α) :
    (c.finish g ending).state? id = c.state? id := by
  by_cases hrun : c.isRunning g = true
  · by_cases hne : ending = .panicked
    · subst hne
      rw [finish_panicked hrun]
      rfl
    · have hp : ((c.ended g ending).publish g).state? id = c.state? id :=
        state?_publish_of_ne (c := c.ended g ending) h
      rcases finish_of_ne_panicked hrun hne with hf | ⟨tier, r, hf⟩
      · rw [hf, hp]
      · rw [hf, ← hp]
        simp [state?]
  · unfold finish
    rw [if_neg hrun]

@[simp] theorem flights_enter (c : Cache α) (unit : Identity) (tier : Tier) :
    (c.enter unit tier).2.flights = c.flights := by
  unfold enter
  split <;> rfl

/-- A look starts at most one build. -/
theorem flights_look_cases (c : Cache α) (id : Nat) (tier : Tier) :
    (c.look id tier).2.flights = c.flights ∨
      (c.look id tier).2.flights = c.flights ++ [{ entry := id }] := by
  unfold look
  split
  · exact .inl rfl
  · exact .inl rfl
  · exact .inr rfl

@[simp] theorem index_countBuild (c : Cache α) (tier : Tier) (r : Except Failure α) :
    (c.countBuild tier r).index = c.index := by
  cases r <;> rfl

@[simp] theorem flights_countBuild (c : Cache α) (tier : Tier) (r : Except Failure α) :
    (c.countBuild tier r).flights = c.flights := by
  cases r <;> rfl

theorem flights_finish {c : Cache α} {g : Generation} (hrun : c.isRunning g = true)
    (ending : Ending α) :
    (c.finish g ending).flights = (c.ended g ending).flights := by
  by_cases hne : ending = .panicked
  · subst hne
    rw [finish_panicked hrun]
  · rcases finish_of_ne_panicked hrun hne with h | ⟨tier, r, h⟩
    · rw [h, flights_publish]
    · rw [h, flights_countBuild, flights_publish]

/-- A build that is ended does not run any more. -/
theorem not_isRunning_finish (c : Cache α) (g : Generation) (ending : Ending α) :
    (c.finish g ending).isRunning g ≠ true := by
  intro h
  by_cases hrun : c.isRunning g = true
  · obtain ⟨f, hf, hnone⟩ := (isRunning_iff _ g).1 h
    rw [flights_finish hrun, getElem?_flights_ended, if_pos rfl] at hf
    obtain ⟨before, -, rfl⟩ := Option.map_eq_some_iff.1 hf
    cases hnone
  · unfold finish at h
    rw [if_neg hrun] at h
    exact hrun h

theorem moves_finish (c : Cache α) (g : Generation) (ending : Ending α) :
    Moves c (c.finish g ending) := by
  by_cases hrun : c.isRunning g = true
  · by_cases hne : ending = .panicked
    · subst hne
      rw [finish_panicked hrun]
      exact .single (.panic c g hrun)
    · refine .head (.finish c g ending hrun hne) ?_
      rcases finish_of_ne_panicked hrun hne with h | ⟨tier, r, h⟩
      · rw [h]
      · rw [h]
        exact moves_countBuild _ _ _
  · unfold finish
    rw [if_neg hrun]

theorem moves_dropEntry (c : Cache α) (id : Nat) : Moves c (c.dropEntry id).2 := by
  unfold dropEntry
  split
  · rename_i e he
    split
    · rename_i hheld
      exact .single (.drop c id e.state (by simp [state?, he]) hheld)
    · exact .refl
  · exact .refl

/-! ## What no move takes back -/

/-- What a cache keeps of an earlier one. -/
structure Extends (c c' : Cache α) : Prop where
  timeLimit : c'.timeLimit = c.timeLimit
  entries : ∀ (id : Nat) (e : Entry α), c.entries[id]? = some e →
    ∃ e' : Entry α, c'.entries[id]? = some e' ∧ e'.identity = e.identity ∧ e'.tier = e.tier
  flights : ∀ (g : Generation) (f : Flight α), c.flights[g]? = some f →
    ∃ f' : Flight α, c'.flights[g]? = some f' ∧ f'.entry = f.entry ∧
      (∀ x, f.ending = some x → f' = f)
  unindexed : ∀ id, id < c.entries.length → c'.Indexed id → c.Indexed id

theorem Extends.refl (c : Cache α) : Extends c c :=
  ⟨rfl, fun _ e h => ⟨e, h, rfl, rfl⟩, fun _ f h => ⟨f, h, rfl, fun _ _ => rfl⟩, fun _ _ h => h⟩

theorem Extends.length_entries {c c' : Cache α} (h : Extends c c') :
    c.entries.length ≤ c'.entries.length := by
  refine Nat.le_of_not_lt fun hlt => ?_
  obtain ⟨e', he', -⟩ := h.entries _ _ (List.getElem?_eq_getElem hlt)
  simp at he'

theorem Extends.length_flights {c c' : Cache α} (h : Extends c c') :
    c.flights.length ≤ c'.flights.length := by
  refine Nat.le_of_not_lt fun hlt => ?_
  obtain ⟨f', hf', -⟩ := h.flights _ _ (List.getElem?_eq_getElem hlt)
  simp at hf'

theorem Extends.trans {c c' c'' : Cache α} (h : Extends c c') (h' : Extends c' c'') :
    Extends c c'' := by
  refine ⟨h'.timeLimit.trans h.timeLimit, ?_, ?_, ?_⟩
  · intro id e he
    obtain ⟨e', he', hi, ht⟩ := h.entries id e he
    obtain ⟨e'', he'', hi', ht'⟩ := h'.entries id e' he'
    exact ⟨e'', he'', hi'.trans hi, ht'.trans ht⟩
  · intro g f hf
    obtain ⟨f', hf', hent, hend⟩ := h.flights g f hf
    obtain ⟨f'', hf'', hent', hend'⟩ := h'.flights g f' hf'
    refine ⟨f'', hf'', hent'.trans hent, fun x hx => ?_⟩
    have hsame := hend x hx
    subst hsame
    exact hend' x hx
  · intro id hid hind
    have hlen := h.length_entries
    exact h.unindexed id hid (h'.unindexed id (by omega) hind)

/-- A build that has ended keeps its ending. -/
theorem Extends.ended {c c' : Cache α} (h : Extends c c') {g : Generation} {f : Flight α}
    (hf : c.flights[g]? = some f) {x : Ending α} (hx : f.ending = some x) :
    c'.flights[g]? = some f := by
  obtain ⟨f', hf', -, hend⟩ := h.flights g f hf
  rw [hf', hend x hx]

/-- The result of a build is told alike at all times. -/
theorem Extends.result {c c' : Cache α} (h : Extends c c') {g : Generation} {r : Except Failure α}
    (hr : c.result? g = some r) : c'.result? g = some r := by
  obtain ⟨f, e, ending, hf, he, hend, rfl⟩ := result?_eq_some_iff.1 hr
  obtain ⟨e', he', hi, -⟩ := h.entries _ e he
  exact result?_eq_some_iff.2 ⟨f, e', ending, h.ended hf hend, he', hend, by
    rw [hi, h.timeLimit]⟩

theorem extends_setState (c : Cache α) (id : Nat) (st : EntryState α) :
    Extends c (c.setState id st) := by
  refine ⟨rfl, ?_, fun _ f hf => ⟨f, hf, rfl, fun _ _ => rfl⟩, fun _ _ h => h⟩
  intro j e he
  by_cases hj : id = j
  · exact ⟨{ e with state := st }, by simp [getElem?_entries_setState, hj, he], rfl, rfl⟩
  · exact ⟨e, by simp [getElem?_entries_setState, hj, he], rfl, rfl⟩

theorem extends_publish (c : Cache α) (g : Generation) : Extends c (c.publish g) := by
  rcases publish_cases c g with h | ⟨f, r, -, -, -, h⟩
  · rw [h]
    exact .refl c
  · rw [h]
    exact extends_setState c f.entry _

theorem extends_ended {c : Cache α} {g : Generation} (hrun : c.isRunning g = true)
    (ending : Ending α) : Extends c (c.ended g ending) := by
  refine ⟨rfl, fun _ e h => ⟨e, h, rfl, rfl⟩, ?_, fun _ _ h => h⟩
  intro k f hf
  by_cases hk : g = k
  · subst hk
    obtain ⟨f₀, hf₀, hnone⟩ := (isRunning_iff c g).1 hrun
    rw [hf] at hf₀
    cases hf₀
    refine ⟨{ f with ending := some ending }, by simp [getElem?_flights_ended, hf], rfl, ?_⟩
    intro x hx
    rw [hnone] at hx
    cases hx
  · exact ⟨f, by simp [getElem?_flights_ended, hk, hf], rfl, fun _ _ => rfl⟩

theorem extends_of_index {c : Cache α} {index : NameMap Nat}
    (h : ∀ key id, index.get? key = some id → c.index.get? key = some id) :
    Extends c { c with index } :=
  ⟨rfl, fun _ e h => ⟨e, h, rfl, rfl⟩, fun _ f h => ⟨f, h, rfl, fun _ _ => rfl⟩,
    fun _ _ ⟨key, hkey⟩ => ⟨key, h key _ hkey⟩⟩

theorem Move.extends {c c' : Cache α} (h : Move c c') : Extends c c' := by
  cases h with
  | count s n =>
    exact ⟨rfl, fun _ e h => ⟨e, h, rfl, rfl⟩, fun _ f h => ⟨f, h, rfl, fun _ _ => rfl⟩,
      fun _ _ h => h⟩
  | add unit tier hnew =>
    refine ⟨rfl, ?_, fun _ f h => ⟨f, h, rfl, fun _ _ => rfl⟩, ?_⟩
    · intro id e he
      have hid : id < c.entries.length := (List.getElem?_eq_some_iff.1 he).1
      exact ⟨e, by simp [List.getElem?_append_left hid, he], rfl, rfl⟩
    · rintro id hid ⟨key, hkey⟩
      by_cases hk : key = unit.key
      · subst hk
        simp only [NameMap.get?_insert_self, Option.some.injEq] at hkey
        omega
      · exact ⟨key, by simpa [NameMap.get?_insert_of_ne _ hk] using hkey⟩
  | start id s hs hheld =>
    have hflights : Extends c { c with flights := c.flights ++ [{ entry := id }] } := by
      refine ⟨rfl, fun _ e h => ⟨e, h, rfl, rfl⟩, fun g f hf => ?_, fun _ _ h => h⟩
      have hg : g < c.flights.length := (List.getElem?_eq_some_iff.1 hf).1
      exact ⟨f, by simp [List.getElem?_append_left hg, hf], rfl, fun _ _ => rfl⟩
    exact hflights.trans (extends_setState _ id _)
  | finish g ending hrun hne => exact (extends_ended hrun ending).trans (extends_publish _ g)
  | panic g hrun => exact extends_ended hrun _
  | settle g => exact extends_publish c g
  | drop id s hs hheld => exact extends_setState c id _
  | forget key =>
    refine extends_of_index fun k id hk => ?_
    by_cases hkey : k = key
    · subst hkey
      simp at hk
    · rwa [NameMap.get?_erase_of_ne _ hkey] at hk
  | clear => exact extends_of_index fun k id hk => by simp at hk

theorem Moves.extends {c c' : Cache α} (h : Moves c c') : Extends c c' := by
  induction h with
  | refl => exact .refl c
  | tail _ hlast ih => exact ih.trans hlast.extends

/-! ## Where artifacts come from -/

/-- What an entry holds comes from builds that were started for it, none of them before `base`. -/
structure Fresh (c : Cache α) (base : Generation) (id : Nat) : Prop where
  building : ∀ g, c.state? id = some (.building g) →
    base ≤ g ∧ ∃ f, c.flights[g]? = some f ∧ f.entry = id
  built : ∀ a, c.state? id = some (.built a) →
    ∃ g, base ≤ g ∧ c.flights[g]? = some ⟨id, some (.returned (.ok a))⟩

/-- An entry that holds nothing is fresh at any time. -/
theorem Fresh.of_not_held {c : Cache α} {id : Nat}
    (h : ∀ s, c.state? id = some s → s.isHeld = false) (base : Generation) : Fresh c base id :=
  ⟨fun _ hs => by simpa [EntryState.isHeld] using h _ hs,
    fun _ hs => by simpa [EntryState.isHeld] using h _ hs⟩

theorem Fresh.congr {c c' : Cache α} {base : Generation} {id : Nat} (h : Fresh c base id)
    (hs : c'.state? id = c.state? id) (he : Extends c c') : Fresh c' base id := by
  constructor
  · intro g hg
    rw [hs] at hg
    obtain ⟨hle, f, hf, hid⟩ := h.building g hg
    obtain ⟨f', hf', hent, -⟩ := he.flights g f hf
    exact ⟨hle, f', hf', hent.trans hid⟩
  · intro a ha
    rw [hs] at ha
    obtain ⟨g, hle, hf⟩ := h.built a ha
    exact ⟨g, hle, he.ended hf rfl⟩

theorem Fresh.publish {c : Cache α} {base : Generation} {id : Nat} (h : Fresh c base id)
    (g : Generation) : Fresh (c.publish g) base id := by
  rcases publish_cases c g with hp | ⟨f, r, hf, hs, hr, hp⟩
  · rw [hp]
    exact h
  · by_cases hid : f.entry = id
    · subst hid
      rw [hp]
      have hself := state?_setState_self c f.entry (.ofResult r) hs
      cases r with
      | error e =>
        exact .of_not_held (fun s hst => by
          rw [hself] at hst
          cases hst
          rfl) base
      | ok a =>
        refine ⟨fun k hk => ?_, fun b hb => ?_⟩
        · rw [hself] at hk
          cases hk
        · rw [hself] at hb
          cases hb
          obtain ⟨f', e, ending, hf', -, hend, hok⟩ := result?_eq_some_iff.1 hr
          rw [hf] at hf'
          cases hf'
          have hret := Ending.result_eq_ok hok.symm
          subst hret
          refine ⟨g, (h.building g hs).1, ?_⟩
          rw [flights_setState, hf, ← hend]
    · exact h.congr (by rw [hp, state?_setState_of_ne c _ hid]) (extends_publish c g)

theorem Fresh.setState_of_not_held {c : Cache α} {base : Generation} {id j : Nat}
    (h : Fresh c base j) {st : EntryState α} (hst : st.isHeld = false) :
    Fresh (c.setState id st) base j := by
  by_cases hid : id = j
  · subst hid
    refine .of_not_held (fun s hs => ?_) base
    cases hold : c.state? id with
    | none =>
      simp only [state?, getElem?_entries_setState, Option.map_eq_none_iff] at hold hs
      simp [hold] at hs
    | some old =>
      rw [state?_setState_self c id st hold] at hs
      cases hs
      exact hst
  · exact h.congr (state?_setState_of_ne c st hid) (extends_setState c id st)

/-- **What is fresh stays fresh.** -/
theorem Move.fresh {c c' : Cache α} (h : Move c c') {base : Generation}
    (hbase : base ≤ c.flights.length) {id : Nat} (hf : Fresh c base id) : Fresh c' base id := by
  have hext := h.extends
  cases h with
  | count s n => exact hf.congr rfl hext
  | add unit tier hnew =>
    by_cases hid : id < c.entries.length
    · exact hf.congr (by simp [state?, List.getElem?_append_left hid]) hext
    · refine .of_not_held (fun s hs => ?_) base
      simp only [state?, Option.map_eq_some_iff, List.getElem?_append_right (Nat.le_of_not_lt hid)]
        at hs
      obtain ⟨e, he, rfl⟩ := hs
      have := List.mem_of_getElem? he
      simp only [List.mem_singleton] at this
      subst this
      rfl
  | start j s hs hheld =>
    by_cases hid : j = id
    · subst hid
      have hself := state?_launched_self c j hs
      refine ⟨fun g hg => ?_, fun a ha => ?_⟩
      · rw [hself] at hg
        cases hg
        exact ⟨hbase, { entry := j }, by simp, rfl⟩
      · rw [hself] at ha
        cases ha
    · exact hf.congr (state?_launched_of_ne c hid) hext
  | finish g ending hrun hne =>
    have hend : Fresh (c.ended g ending) base id := hf.congr rfl (extends_ended hrun ending)
    exact hend.publish g
  | panic g hrun => exact hf.congr rfl hext
  | settle g => exact hf.publish g
  | drop j s hs hheld => exact hf.setState_of_not_held rfl
  | forget key => exact hf.congr rfl hext
  | clear => exact hf.congr rfl hext

theorem Moves.fresh {c c' : Cache α} (h : Moves c c') {base : Generation}
    (hbase : base ≤ c.flights.length) {id : Nat} (hf : Fresh c base id) : Fresh c' base id := by
  induction h with
  | refl => exact hf
  | tail hfirst hlast ih =>
    exact hlast.fresh (Nat.le_trans hbase (Moves.extends hfirst).length_flights) ih

/-! ## Index, entries and builds fit together -/

/-- The index leads to entries of its keys, and every build was started for an entry. -/
structure Sound (c : Cache α) : Prop where
  index : ∀ key id, c.index.get? key = some id →
    ∃ e : Entry α, c.entries[id]? = some e ∧ e.identity.key = key
  flights : ∀ (g : Generation) (f : Flight α), c.flights[g]? = some f →
    f.entry < c.entries.length
  fresh : ∀ id, Fresh c 0 id

theorem Sound.index_lt {c : Cache α} (h : Sound c) {id : Nat} (hid : c.Indexed id) :
    id < c.entries.length := by
  obtain ⟨key, hkey⟩ := hid
  obtain ⟨e, he, -⟩ := h.index key id hkey
  exact (List.getElem?_eq_some_iff.1 he).1

/-- An entry that is indexed is that of its own key. -/
theorem Sound.get?_key {c : Cache α} (h : Sound c) {id : Nat} (hid : c.Indexed id) {e : Entry α}
    (he : c.entries[id]? = some e) : c.index.get? e.identity.key = some id := by
  obtain ⟨key, hkey⟩ := hid
  obtain ⟨e', he', rfl⟩ := h.index key id hkey
  rw [he] at he'
  cases he'
  exact hkey

/-- A build that does not run any more has a result. -/
theorem Sound.exists_result {c : Cache α} (h : Sound c) {g : Generation} (hg : g < c.flights.length)
    (hrun : c.isRunning g ≠ true) : ∃ r, c.result? g = some r := by
  have hflight := List.getElem?_eq_getElem hg
  have hentry := List.getElem?_eq_getElem (h.flights g _ hflight)
  cases hending : c.flights[g].ending with
  | none => exact absurd ((isRunning_iff _ g).2 ⟨_, hflight, hending⟩) hrun
  | some ending => exact ⟨_, result?_eq_some_iff.2 ⟨_, _, ending, hflight, hentry, hending, rfl⟩⟩

/-- The cache that was never used. -/
theorem sound_empty (timeLimit : Nat) (metrics : Metrics) :
    Sound ({ timeLimit, metrics } : Cache α) :=
  ⟨fun _ _ h => by simp at h, fun _ _ h => by simp at h, fun _ =>
    .of_not_held (fun _ h => by simp [state?] at h) 0⟩

/-- An answer of the index was there before, or is the entry that was just made. -/
theorem Move.get?_index {c c' : Cache α} (h : Move c c') {key : String} {id : Nat}
    (hkey : c'.index.get? key = some id) : c.index.get? key = some id ∨
      ∃ e : Entry α, c'.entries[id]? = some e ∧ e.identity.key = key := by
  cases h with
  | add unit tier hnew =>
    by_cases hk : key = unit.key
    · subst hk
      rw [NameMap.get?_insert_self] at hkey
      cases hkey
      exact .inr ⟨{ identity := unit, tier }, by simp, rfl⟩
    · rw [NameMap.get?_insert_of_ne _ hk] at hkey
      exact .inl hkey
  | forget other =>
    by_cases hk : key = other
    · subst hk
      simp at hkey
    · rw [NameMap.get?_erase_of_ne _ hk] at hkey
      exact .inl hkey
  | clear => simp at hkey
  | finish g ending hrun hne =>
    rw [index_publish] at hkey
    exact .inl hkey
  | settle g =>
    rw [index_publish] at hkey
    exact .inl hkey
  | _ => exact .inl hkey

/-- A build was there before, with or without its ending, or was just started for an entry. -/
theorem Move.flight {c c' : Cache α} (h : Move c c') {g : Generation} {f : Flight α}
    (hf : c'.flights[g]? = some f) : (∃ f₀ : Flight α, c.flights[g]? = some f₀ ∧
      f.entry = f₀.entry) ∨ f.entry < c.entries.length := by
  have hended : ∀ (k : Generation) (ending : Ending α), (c.ended k ending).flights[g]? = some f →
      ∃ f₀ : Flight α, c.flights[g]? = some f₀ ∧ f.entry = f₀.entry := by
    intro k ending hk
    rw [getElem?_flights_ended] at hk
    split at hk
    · obtain ⟨f₀, hf₀, rfl⟩ := Option.map_eq_some_iff.1 hk
      exact ⟨f₀, hf₀, rfl⟩
    · exact ⟨f, hk, rfl⟩
  cases h with
  | start id s hst hheld =>
    rw [flights_launched, List.getElem?_append] at hf
    split at hf
    · exact .inl ⟨f, hf, rfl⟩
    · obtain ⟨e, he, -⟩ := Option.map_eq_some_iff.1 hst
      have hnew := List.mem_of_getElem? hf
      rw [List.mem_singleton] at hnew
      subst hnew
      exact .inr (List.getElem?_eq_some_iff.1 he).1
  | finish k ending hrun hne =>
    rw [flights_publish] at hf
    exact .inl (hended k ending hf)
  | panic k hrun => exact .inl (hended k _ hf)
  | settle k =>
    rw [flights_publish] at hf
    exact .inl ⟨f, hf, rfl⟩
  | _ => exact .inl ⟨f, hf, rfl⟩

theorem Move.sound {c c' : Cache α} (h : Move c c') (hs : Sound c) : Sound c' := by
  have hext := h.extends
  refine ⟨?_, ?_, fun id => h.fresh (Nat.zero_le _) (hs.fresh id)⟩
  · intro key id hkey
    rcases h.get?_index hkey with hold | hnew
    · obtain ⟨e, he, hk⟩ := hs.index key id hold
      obtain ⟨e', he', hi, -⟩ := hext.entries id e he
      exact ⟨e', he', by rw [hi]; exact hk⟩
    · exact hnew
  · intro g f hf
    refine Nat.lt_of_lt_of_le ?_ hext.length_entries
    rcases h.flight hf with ⟨f₀, hf₀, hent⟩ | hlt
    · rw [hent]
      exact hs.flights g f₀ hf₀
    · exact hlt

/-- **Index, entries and builds fit together at all times.** -/
theorem Moves.sound {c c' : Cache α} (h : Moves c c') (hs : Sound c) : Sound c' := by
  induction h with
  | refl => exact hs
  | tail _ hlast ih => exact hlast.sound ih

end Cache

end SiteHost
