import SiteHost.Proofs.Cache.System

/-!
# What a cache holds for a key

Who calls for a unit finds what the cache holds for its key, and a build that nobody disturbs stores
its result there:

* `Cache.at?` — the state of the entry of a key;
* `Cache.TierKept` — no key has an entry of another tier than before.

Principal results:

* `get_cases` — what a call finds and what it leaves, for its own key and for every other;
* `settle_finish` — the end of a build that its entry waits for: callers learn its result, the key
  holds it, and nothing else changes.
-/

namespace SiteHost.Cache

variable {α : Type} {c c' : Cache α} {key k : String} {id : Nat} {g : Generation}

/-- The state of the entry of a key. -/
def at? (c : Cache α) (key : String) : Option (EntryState α) := (c.index.get? key).bind c.state?

theorem status?_eq (c : Cache α) (key : String) :
    c.status? key = (c.at? key).map EntryState.status := by
  unfold status? find? at?
  cases c.index.get? key with
  | none => rfl
  | some id => simp [state?, Function.comp_def]

/-- A key is told to be built if it holds an artifact. -/
theorem status?_eq_built_iff : c.status? key = some .built ↔ ∃ a, c.at? key = some (.built a) := by
  rw [status?_eq, Option.map_eq_some_iff]
  constructor
  · rintro ⟨st, hst, hstatus⟩
    cases st with
    | built a => exact ⟨a, hst⟩
    | _ => cases hstatus
  · rintro ⟨a, ha⟩
    exact ⟨_, ha, rfl⟩

theorem at?_eq_some_iff {st : EntryState α} :
    c.at? key = some st ↔ ∃ id, c.index.get? key = some id ∧ c.state? id = some st := by
  simp [at?, Option.bind_eq_some_iff]

/-- Two keys never share an entry. -/
theorem Sound.key_eq (hc : c.Sound) (h : c.index.get? key = some id)
    (h' : c.index.get? k = some id) : k = key := by
  obtain ⟨e, he, rfl⟩ := hc.index key id h
  obtain ⟨e', he', rfl⟩ := hc.index k id h'
  rw [he] at he'
  cases he'
  rfl

/-- A key leads to an entry that is there. -/
theorem Sound.state? (hc : c.Sound) (h : c.index.get? key = some id) :
    ∃ st, c.state? id = some st := by
  obtain ⟨e, he, -⟩ := hc.index key id h
  exact ⟨e.state, state?_of_entry he⟩

/-- What is done to the entry of one key does not show at another. -/
theorem at?_of_ne (hc : c.Sound) (hindex : c'.index = c.index) (h : c.index.get? key = some id)
    (hstate : ∀ j, id ≠ j → c'.state? j = c.state? j) (hk : k ≠ key) : c'.at? k = c.at? k := by
  unfold at?
  rw [hindex]
  cases hother : c.index.get? k with
  | none => rfl
  | some j => exact hstate j fun heq => hk (hc.key_eq h (heq ▸ hother))

/-! ## Tiers -/

/-- No key has an entry of another tier than before, unless it is new and of this tier. -/
def TierKept (c c' : Cache α) (key : String) (tier : Tier) : Prop :=
  ∀ k id, c'.index.get? k = some id → ∀ e : Entry α, c'.entries[id]? = some e →
    (∃ e₀ : Entry α, c.index.get? k = some id ∧ c.entries[id]? = some e₀ ∧ e.tier = e₀.tier) ∨
      (k = key ∧ e.tier = tier)

theorem tierKept_enter (hc : c.Sound) (unit : Identity) (tier : Tier) :
    TierKept c (c.enter unit tier).2 unit.key tier := by
  unfold enter
  cases hget : c.index.get? unit.key with
  | some id => exact fun k j hj e he => .inl ⟨e, hj, he, rfl⟩
  | none =>
    intro k id hid e he
    dsimp only at hid he
    by_cases hk : k = unit.key
    · subst hk
      rw [NameMap.get?_insert_self] at hid
      cases hid
      rw [List.getElem?_concat_length] at he
      cases he
      exact .inr ⟨rfl, rfl⟩
    · rw [NameMap.get?_insert_of_ne _ hk] at hid
      have hlt := hc.index_lt ⟨k, hid⟩
      rw [List.getElem?_append_left hlt] at he
      exact .inl ⟨e, hid, he, rfl⟩

theorem tierKept_of_moves {c'' : Cache α} {tier : Tier} (h : TierKept c c' key tier)
    (hm : Moves c' c'') (hc' : c'.Sound) (hindex : c''.index = c'.index) :
    TierKept c c'' key tier := by
  intro k id hid e he
  rw [hindex] at hid
  obtain ⟨e', he', -⟩ := hc'.index k id hid
  obtain ⟨e'', he'', -, htier⟩ := hm.extends.entries id e' he'
  rw [he] at he''
  cases he''
  rw [htier]
  exact h k id hid e' he'

/-! ## Calls -/

theorem at?_enter_of_ne (hc : c.Sound) (unit : Identity) (tier : Tier) (hk : k ≠ unit.key) :
    (c.enter unit tier).2.at? k = c.at? k := by
  have hindex : (c.enter unit tier).2.index.get? k = c.index.get? k := by
    unfold enter
    split
    · rfl
    · exact NameMap.get?_insert_of_ne _ hk _
  unfold at?
  rw [hindex]
  cases hother : c.index.get? k with
  | none => rfl
  | some j => exact state?_enter unit tier (hc.index_lt ⟨k, hother⟩)

/-- An entry that is made holds nothing. -/
theorem at?_of_enter (unit : Identity) (tier : Tier) {st : EntryState α}
    (h : (c.enter unit tier).2.at? unit.key = some st) (hst : st ≠ .empty) :
    c.at? unit.key = some st := by
  unfold enter at h
  cases hget : c.index.get? unit.key with
  | some id => rwa [hget] at h
  | none =>
    rw [hget] at h
    simp [at?, Cache.state?] at h
    exact absurd h.symm hst

theorem isRunning_launched {id : Nat} (h : c.isRunning g = true) :
    (c.launched id).isRunning g = true := by
  obtain ⟨f, hf, hend⟩ := (isRunning_iff c g).1 h
  have hlt : g < c.flights.length := (List.getElem?_eq_some_iff.1 hf).1
  exact (isRunning_iff _ g).2 ⟨f, by rw [flights_launched, List.getElem?_append_left hlt, hf], hend⟩

theorem moves_get (hc : c.Sound) (unit : Identity) (tier : Tier) :
    Moves c (c.get unit tier).2 := by
  have hentered := (moves_enter c unit tier).sound hc
  have hlt := hentered.index_lt ⟨unit.key, System.get?_enter c unit tier⟩
  exact (moves_enter c unit tier).trans (moves_look hlt tier)

/-- **What a call finds and leaves.** A key holds an artifact, or a build that goes on, or nothing; in
that case the call has to run a new build, which the key then waits for. -/
theorem get_cases (hc : c.Sound) (unit : Identity) (tier : Tier) :
    (∀ k, k ≠ unit.key → (c.get unit tier).2.at? k = c.at? k) ∧
    TierKept c (c.get unit tier).2 unit.key tier ∧
    (∀ g, c.isRunning g = true → (c.get unit tier).2.isRunning g = true) ∧
    ((∃ a, c.at? unit.key = some (.built a) ∧ (c.get unit tier).1 = .hit a ∧
        (c.get unit tier).2.at? unit.key = some (.built a)) ∨
      (∃ g, c.at? unit.key = some (.building g) ∧ (c.get unit tier).1 = .joined g) ∨
      ((c.get unit tier).1 = .started c.flights.length ∧
        (c.get unit tier).2.at? unit.key = some (.building c.flights.length) ∧
        (c.get unit tier).2.isRunning c.flights.length = true)) := by
  have hentered := (moves_enter c unit tier).sound hc
  have hindex := System.get?_enter c unit tier
  have hback := fun st => @at?_of_enter _ c unit tier st
  have htier := tierKept_enter hc unit tier
  have hflights := flights_enter c unit tier
  have hother : ∀ k, k ≠ unit.key → (c.enter unit tier).2.at? k = c.at? k :=
    fun k hk => at?_enter_of_ne hc unit tier hk
  have hget : c.get unit tier = (c.enter unit tier).2.look (c.enter unit tier).1 tier := rfl
  have hrunning : ∀ g, c.isRunning g = true → (c.enter unit tier).2.isRunning g = true := by
    intro g hg
    rw [isRunning_iff] at hg ⊢
    rwa [hflights]
  rw [hget]
  generalize (c.enter unit tier).1 = id at hindex ⊢
  generalize (c.enter unit tier).2 = d at hentered hindex hback htier hflights hother hrunning ⊢
  obtain ⟨st, hst⟩ := hentered.state? hindex
  have hat : d.at? unit.key = some st := at?_eq_some_iff.2 ⟨id, hindex, hst⟩
  rcases look_cases hst tier with ⟨a, rfl, hlook⟩ | ⟨g, rfl, hlook⟩ | ⟨hheld, hlook⟩
  · rw [hlook]
    exact ⟨hother, htier, hrunning, .inl ⟨a, hback _ hat (by simp), rfl, hat⟩⟩
  · rw [hlook]
    exact ⟨hother, htier, hrunning, .inr (.inl ⟨g, hback _ hat (by simp), rfl⟩)⟩
  · rw [hlook, ← hflights]
    refine ⟨fun k hk => ?_, ?_, ?_, .inr (.inr ⟨rfl, ?_, ?_⟩)⟩
    · rw [← hother k hk]
      exact at?_of_ne hentered rfl hindex (fun j hj => state?_launched_of_ne d hj) hk
    · exact tierKept_of_moves htier
        (.tail (.single (.start d id st hst hheld)) (.count _ _ _)) hentered rfl
    · exact fun g hg => isRunning_launched (hrunning g hg)
    · exact at?_eq_some_iff.2 ⟨id, hindex, state?_launched_self d id hst⟩
    · exact (isRunning_iff _ _).2 ⟨{ entry := id }, by simp, rfl⟩

/-! ## Ends of builds -/

/-- A build has the result that it ended with. -/
theorem result?_ended {f : Flight α} (hf : c.flights[g]? = some f) {e : Entry α}
    (he : c.entries[f.entry]? = some e) (ending : Ending α) :
    (c.ended g ending).result? g = some (ending.result e.identity.typeName c.timeLimit) :=
  result?_eq_some_iff.2 ⟨{ f with ending := some ending }, e, ending, by
    rw [getElem?_flights_ended, if_pos rfl, hf, Option.map_some], he, rfl, rfl⟩

/-- **The end of a build that its entry waits for.** The callers learn its result, the key holds it,
and nothing else changes. -/
theorem settle_finish (hc : c.Sound) (hat : c.at? key = some (.building g))
    (hrun : c.isRunning g = true) (r : Except Failure α) :
    ∃ c', (c.finish g (.returned r)).settle g = some (r, c') ∧ Moves c c' ∧ c'.index = c.index ∧
      c'.at? key = some (.ofResult r) ∧ (∀ k, k ≠ key → c'.at? k = c.at? k) ∧
      ∀ k, k ≠ g → c.isRunning k = true → c'.isRunning k = true := by
  obtain ⟨id, hid, hst⟩ := at?_eq_some_iff.1 hat
  obtain ⟨-, f, hf, rfl⟩ := (hc.fresh id).building g hst
  obtain ⟨e, he, -⟩ := Option.map_eq_some_iff.1 hst
  have hended : (c.ended g (.returned r)).result? g = some r := result?_ended hf he (.returned r)
  have hflight : (c.ended g (.returned r)).flights[g]? =
      some { f with ending := some (.returned r) } := by
    rw [getElem?_flights_ended, if_pos rfl, hf, Option.map_some]
  have hpublish : (c.ended g (.returned r)).publish g =
      (c.ended g (.returned r)).setState f.entry (.ofResult r) :=
    publish_of_building (f := { f with ending := some (.returned r) }) hflight hst hended
  generalize hc₁ : c.finish g (.returned r) = c₁
  have hmoves : Moves c c₁ := hc₁ ▸ moves_finish c g (.returned r)
  have hparts : c₁.index = c.index ∧ c₁.flights = (c.ended g (.returned r)).flights ∧
      c₁.entries = ((c.ended g (.returned r)).setState f.entry (.ofResult r)).entries := by
    rcases finish_of_ne_panicked hrun (by simp : Ending.returned r ≠ .panicked) with h | ⟨tier, r', h⟩
    · rw [← hc₁, h, hpublish]
      exact ⟨rfl, rfl, rfl⟩
    · rw [← hc₁, h, index_countBuild, flights_countBuild, entries_countBuild, hpublish]
      exact ⟨rfl, rfl, rfl⟩
  obtain ⟨hindex, hflights, hentries⟩ := hparts
  have hstate : ∀ j, c₁.state? j =
      ((c.ended g (.returned r)).setState f.entry (.ofResult r)).state? j := fun j => by
    rw [state?, state?, hentries]
  have hself : c₁.state? f.entry = some (.ofResult r) :=
    (hstate f.entry).trans (state?_setState_self (c.ended g (.returned r)) f.entry _ hst)
  have hresult : c₁.result? g = some r := by
    obtain ⟨e', he', -⟩ := hmoves.extends.entries _ e he
    exact result?_eq_some_iff.2 ⟨{ f with ending := some (.returned r) }, e', .returned r,
      by rw [hflights, hflight], he', rfl, rfl⟩
  -- the result is stored already, so storing it once more changes nothing
  have hagain : c₁.publish g = c₁ := by
    rcases publish_cases c₁ g with h | ⟨f', -, hf', hs, -, -⟩
    · exact h
    · rw [hflights, hflight] at hf'
      cases hf'
      rw [hself] at hs
      cases r <;> cases hs
  refine ⟨c₁, by rw [settle, hresult, hagain, Option.map_some], hmoves, hindex, ?_, ?_, ?_⟩
  · exact at?_eq_some_iff.2 ⟨f.entry, hindex ▸ hid, hself⟩
  · refine fun k hk => at?_of_ne hc hindex hid (fun j hj => ?_) hk
    rw [hstate]
    exact state?_setState_of_ne (c.ended g (.returned r)) _ hj
  · intro k hk hrunk
    obtain ⟨f', hf', hend⟩ := (isRunning_iff c k).1 hrunk
    exact (isRunning_iff c₁ k).2 ⟨f', by rw [hflights, getElem?_flights_ended, if_neg hk.symm, hf'],
      hend⟩

end SiteHost.Cache
