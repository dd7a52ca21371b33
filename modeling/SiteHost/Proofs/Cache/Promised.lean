import SiteHost.Proofs.Cache.Cascade
import SiteHost.Proofs.Cache.Failures
import SiteHost.Proofs.Cache.SingleFlight

/-!
# What callers are promised

A caller who was given an artifact, or waits for one, relies on the entry that it asked for. As long
as no eviction comes upon the entry, this is what the map holds for the key:

* `Cache.Owes` — an entry waits for a build, holds the artifact of the build, or the build failed;
* `Call.Promised` — the map has the entry of a call for a key, and the entry holds or owes what the
  call has found there.

Principal results:

* `System.held_cases` — where what an entry holds comes from: it was there before the action, or a
  look started a build, or the build of the entry has ended with an artifact;
* `System.promised_step` — a promise is kept by every action but the steps of evictions;
* `System.at?_of_promised` — who was promised a key and is told an artifact: the key holds it.
-/

namespace SiteHost

namespace Cache

variable {α : Type} {c c' : Cache α} {g : Generation} {id : Nat}

/-- Whether an entry holds what a build has to give, as far as it has given anything. -/
def Owes (c : Cache α) (id : Nat) (g : Generation) : Prop :=
  c.state? id = some (.building g) ∨
    (∃ a, c.state? id = some (.built a) ∧ c.result? g = some (.ok a)) ∨
    ∃ failure, c.result? g = some (.error failure)

theorem Owes.congr (h : c.Owes id g) (hs : c'.state? id = c.state? id) (he : Extends c c') :
    c'.Owes id g := by
  rcases h with hbuild | ⟨a, hbuilt, hr⟩ | ⟨failure, hr⟩
  · exact .inl (hs.trans hbuild)
  · exact .inr (.inl ⟨a, hs.trans hbuilt, he.result hr⟩)
  · exact .inr (.inr ⟨failure, he.result hr⟩)

/-- An entry that waits for a build that ends takes the result, unless the build panicked. -/
theorem finish_building (hc : Fresh c 0 id) (hs : c.state? id = some (.building g))
    (hrun : c.isRunning g = true) (ending : Ending α) :
    ∃ unit, (c.finish g ending).result? g = some (ending.result unit c.timeLimit) ∧
      (ending ≠ .panicked →
        (c.finish g ending).state? id = some (.ofResult (ending.result unit c.timeLimit))) := by
  obtain ⟨-, f, hf, rfl⟩ := hc.building g hs
  obtain ⟨e, he, -⟩ := Option.map_eq_some_iff.1 hs
  have hended := result?_ended hf he ending
  have hflight : (c.ended g ending).flights[g]? = some { f with ending := some ending } := by
    rw [getElem?_flights_ended, if_pos rfl, hf, Option.map_some]
  have hpublish := publish_of_building (f := { f with ending := some ending }) hflight hs hended
  refine ⟨e.identity.typeName, ?_, fun hne => ?_⟩
  · obtain ⟨e', he', hi, -⟩ := (moves_finish c g ending).extends.entries _ e he
    refine result?_eq_some_iff.2 ⟨{ f with ending := some ending }, e', ending, ?_, he', rfl, ?_⟩
    · rw [flights_finish hrun, hflight]
    · rw [hi, (moves_finish c g ending).extends.timeLimit]
  · have hself := state?_setState_self (c.ended g ending) f.entry
      (.ofResult (ending.result e.identity.typeName c.timeLimit)) hs
    rcases finish_of_ne_panicked hrun hne with h | ⟨tier, r, h⟩
    · rw [h, hpublish]
      exact hself
    · rw [h, state?, entries_countBuild, hpublish]
      exact hself

/-- An entry that is made holds nothing. -/
theorem state?_of_enter (unit : Identity) (tier : Tier) {st : EntryState α}
    (h : (c.enter unit tier).2.state? id = some st) (hheld : st.isHeld = true) :
    c.state? id = some st := by
  unfold enter at h
  split at h
  · exact h
  · by_cases hid : id < c.entries.length
    · simpa [state?, List.getElem?_append_left hid] using h
    · simp only [state?, List.getElem?_append_right (Nat.le_of_not_lt hid)] at h
      obtain ⟨e, he, rfl⟩ := Option.map_eq_some_iff.1 h
      have hnew := List.mem_of_getElem? he
      rw [List.mem_singleton] at hnew
      subst hnew
      cases hheld

/-- What an entry holds after a look was there before, or is the build that the look has started. -/
theorem state?_of_look {j : Nat} {old st : EntryState α} (hold : c.state? j = some old) (tier : Tier)
    (h : (c.look j tier).2.state? id = some st) :
    c.state? id = some st ∨ j = id ∧ st = .building c.flights.length := by
  rcases look_cases hold tier with ⟨x, -, hl⟩ | ⟨k, -, hl⟩ | ⟨-, hl⟩
  · rw [hl] at h
    exact .inl h
  · rw [hl] at h
    exact .inl h
  · rw [hl] at h
    change (c.launched j).state? id = some st at h
    by_cases hid : j = id
    · subst hid
      rw [state?_launched_self c j hold] at h
      cases h
      exact .inr ⟨rfl, rfl⟩
    · rw [state?_launched_of_ne c hid] at h
      exact .inl h

/-- What an entry holds after the end of a build was there before, or is the artifact that the build
has returned. -/
theorem state?_of_finish (hc : Fresh c 0 id) (hrun : c.isRunning g = true) {ending : Ending α}
    {st : EntryState α} (h : (c.finish g ending).state? id = some st) (hheld : st.isHeld = true) :
    c.state? id = some st ∨ ∃ x, ending = .returned (.ok x) ∧
      c.state? id = some (.building g) ∧ st = .built x := by
  by_cases hbuild : c.state? id = some (.building g)
  · by_cases hne : ending = .panicked
    · subst hne
      rw [finish_panicked hrun] at h
      exact .inl h
    · obtain ⟨unit, -, hself⟩ := finish_building hc hbuild hrun ending
      rw [hself hne, Option.some.injEq] at h
      cases hr : ending.result unit c.timeLimit with
      | error failure =>
        rw [hr] at h
        subst h
        cases hheld
      | ok x =>
        rw [hr] at h
        exact .inr ⟨x, Ending.result_eq_ok hr, hbuild, h.symm⟩
  · rw [state?_finish_of_ne hbuild] at h
    exact .inl h

/-- What an entry holds after a result was stored once more was there before, or is that result. -/
theorem state?_of_publish {st : EntryState α} (h : (c.publish g).state? id = some st)
    (hheld : st.isHeld = true) :
    c.state? id = some st ∨ ∃ x, c.result? g = some (.ok x) ∧ c.state? id = some (.building g) := by
  rcases publish_cases c g with hp | ⟨f, r, hf, hbuild, hr, hp⟩
  · rw [hp] at h
    exact .inl h
  · rw [hp] at h
    by_cases hid : f.entry = id
    · subst hid
      rw [state?_setState_self c f.entry _ hbuild] at h
      cases r with
      | ok x => exact .inr ⟨x, hr, hbuild⟩
      | error failure =>
        cases h
        cases hheld
    · rw [state?_setState_of_ne c _ hid] at h
      exact .inl h

end Cache

/-- Whether a call has the entry of a key, and the entry holds or owes what the call has found. -/
structure Call.Promised {α : Type} (c : Cache α) (key : String) (call : Call α) : Prop where
  index : c.index.get? key = some call.entry
  hit : ∀ a, call.found = some (.hit a) → c.state? call.entry = some (.built a)
  owed : ∀ found g, call.found = some found → found.generation? = some g → c.Owes call.entry g

theorem Call.Promised.congr {α : Type} {c c' : Cache α} {key : String} {call : Call α}
    (h : call.Promised c key) (hindex : c'.index.get? key = some call.entry)
    (hs : c'.state? call.entry = c.state? call.entry) (he : Cache.Extends c c') :
    call.Promised c' key :=
  ⟨hindex, fun a hfound => hs.trans (h.hit a hfound),
    fun found g hfound hg => (h.owed found g hfound hg).congr hs he⟩

namespace System

variable {α : Type} {s s' : System α} {a : Action α} {g : Generation} {id n : Nat} {key : String}
  {call : Call α}

theorem Reachable.step (hs : s.Reachable) (h : s.step a = some s') : s'.Reachable := by
  obtain ⟨timeLimit, actions, rfl⟩ := hs
  refine ⟨timeLimit, actions ++ [a], ?_⟩
  rw [run_append]
  exact (act_of_step h).symm

/-- An entry does not wait for a build that has returned an artifact. -/
theorem result?_ne_ok (hs : s.Reachable) (hbuild : s.cache.state? id = some (.building g)) (x : α) :
    s.cache.result? g ≠ some (.ok x) := by
  intro hr
  obtain ⟨f, e, ending, hf, -, hend, hok⟩ := Cache.result?_eq_some_iff.1 hr
  rcases building_cases hs hbuild with hrun | ⟨-, hpanic, -⟩
  · obtain ⟨f', hf', hnone⟩ := (Cache.isRunning_iff s.cache g).1 hrun
    rw [hf] at hf'
    cases hf'
    rw [hend] at hnone
    cases hnone
  · rw [hf] at hpanic
    cases hpanic
    cases hend
    cases hok

/-- **Where what an entry holds comes from.** It was there before the action, or a look has started a
build, or the build of the entry has ended with an artifact. -/
theorem held_cases (hs : s.Reachable) (h : s.step a = some s') {st : EntryState α}
    (hst : s'.cache.state? id = some st) (hheld : st.isHeld = true) :
    s.cache.state? id = some st ∨
    (∃ n call, a = .look n ∧ s.calls[n]? = some call ∧ call.entry = id ∧
      st = .building s.cache.flights.length) ∨
    ∃ g x, a = .finish g (.returned (.ok x)) ∧ s.cache.state? id = some (.building g) ∧
      st = .built x := by
  cases a with
  | enter unit tier =>
    obtain rfl := step_enter h
    exact .inl (Cache.state?_of_enter unit tier hst hheld)
  | look n =>
    obtain ⟨call, hcall, -, rfl⟩ := step_look h
    obtain ⟨old, hold⟩ := hs.sound.state?_entry hcall
    rcases Cache.state?_of_look hold call.tier hst with hsame | ⟨hid, hnew⟩
    · exact .inl hsame
    · exact .inr (.inl ⟨n, call, rfl, hcall, hid, hnew⟩)
  | finish g ending =>
    obtain ⟨hrun, rfl⟩ := step_finish h
    rcases Cache.state?_of_finish (hs.sound.cache.fresh id) hrun hst hheld with
      hsame | ⟨x, rfl, hbuild, hnew⟩
    · exact .inl hsame
    · exact .inr (.inr ⟨g, x, rfl, hbuild, hnew⟩)
  | answer n =>
    obtain ⟨call, g, r, -, -, -, rfl⟩ := step_answer h
    rcases Cache.state?_of_publish hst hheld with hsame | ⟨x, hr, hbuild⟩
    · exact .inl hsame
    · exact absurd hr (result?_ne_ok hs hbuild x)
  | leave n =>
    obtain ⟨call, g, -, -, rfl⟩ := step_leave h
    exact .inl hst
  | evict e =>
    cases h
    exact .inl hst
  | sweep m =>
    obtain ⟨sweep, chore, rest, -, -, rfl⟩ := step_sweep h
    dsimp only at hst
    rcases Cache.state?_perform_cases s.cache chore id with hsame | hinv
    · exact .inl (hsame ▸ hst)
    · rw [hinv] at hst
      cases hst
      cases hheld

/-- No build is started but by a look. -/
theorem length_flights_step (h : s.step a = some s') (hlook : ∀ n, a ≠ .look n) :
    s'.cache.flights.length = s.cache.flights.length := by
  cases a with
  | enter unit tier =>
    obtain rfl := step_enter h
    simp
  | look n => exact absurd rfl (hlook n)
  | finish g ending =>
    obtain ⟨hrun, rfl⟩ := step_finish h
    dsimp only
    rw [Cache.flights_finish hrun]
    simp [Cache.ended]
  | answer n =>
    obtain ⟨call, g, r, -, -, -, rfl⟩ := step_answer h
    simp
  | leave n =>
    obtain ⟨call, g, -, -, rfl⟩ := step_leave h
    rfl
  | evict e =>
    cases h
    rfl
  | sweep m =>
    obtain ⟨sweep, chore, rest, -, -, rfl⟩ := step_sweep h
    dsimp only
    rw [Cache.flights_perform]

/-! ## Promises -/

/-- An artifact is there until an eviction takes it. -/
theorem state?_built_step (hs : s.Sound) (h : s.step a = some s') (hne : ∀ m, a ≠ .sweep m) {x : α}
    (hbuilt : s.cache.state? id = some (.built x)) : s'.cache.state? id = some (.built x) := by
  obtain ⟨e, he, -⟩ := Option.map_eq_some_iff.1 hbuilt
  have hid : id < s.cache.entries.length := (List.getElem?_eq_some_iff.1 he).1
  have hother : ∀ k, s.cache.state? id ≠ some (.building k) := by
    intro k hk
    rw [hbuilt] at hk
    cases hk
  cases a with
  | enter unit tier =>
    obtain rfl := step_enter h
    exact (Cache.state?_enter unit tier hid).trans hbuilt
  | look n =>
    obtain ⟨call, hcall, -, rfl⟩ := step_look h
    obtain ⟨old, hold⟩ := hs.state?_entry hcall
    dsimp only
    rcases Cache.look_cases hold call.tier with ⟨y, -, hl⟩ | ⟨k, -, hl⟩ | ⟨hheld, hl⟩
    · rw [hl]
      exact hbuilt
    · rw [hl]
      exact hbuilt
    · rw [hl]
      have hid : call.entry ≠ id := by
        rintro rfl
        rw [hbuilt] at hold
        cases hold
        cases hheld
      exact (Cache.state?_launched_of_ne s.cache hid).trans hbuilt
  | finish g ending =>
    obtain ⟨-, rfl⟩ := step_finish h
    exact (Cache.state?_finish_of_ne (hother g) ending).trans hbuilt
  | answer n =>
    obtain ⟨call, g, r, -, -, -, rfl⟩ := step_answer h
    exact (Cache.state?_publish_of_ne (hother g)).trans hbuilt
  | leave n =>
    obtain ⟨call, g, -, -, rfl⟩ := step_leave h
    exact hbuilt
  | evict e =>
    cases h
    exact hbuilt
  | sweep m => exact absurd rfl (hne m)

/-- A key leads to its entry until an eviction forgets it. -/
theorem get?_index_step (hs : s.Sound) (h : s.step a = some s') (hne : ∀ m, a ≠ .sweep m)
    (hkey : s.cache.index.get? key = some id) : s'.cache.index.get? key = some id := by
  obtain ⟨e, he, rfl⟩ := hs.cache.index key id hkey
  obtain ⟨e', he', hi, -⟩ := (step_moves hs h).extends.entries id e he
  rcases indexed_step h ⟨_, hkey⟩ with hind | ⟨m, rfl⟩
  · rw [← hi]
    exact (step_sound hs h).cache.get?_key hind he'
  · exact absurd rfl (hne m)

theorem at?_built_step (hs : s.Sound) (h : s.step a = some s') (hne : ∀ m, a ≠ .sweep m) {x : α}
    (hat : s.cache.at? key = some (.built x)) : s'.cache.at? key = some (.built x) := by
  obtain ⟨id, hid, hst⟩ := Cache.at?_eq_some_iff.1 hat
  exact Cache.at?_eq_some_iff.2 ⟨id, get?_index_step hs h hne hid, state?_built_step hs h hne hst⟩

theorem owes_step (hs : s.Reachable) (h : s.step a = some s') (hne : ∀ m, a ≠ .sweep m)
    (howes : s.cache.Owes id g) : s'.cache.Owes id g := by
  have hext := (step_moves hs.sound h).extends
  rcases howes with hbuild | ⟨x, hbuilt, hr⟩ | ⟨failure, hr⟩
  · rcases state?_building_step hs.sound h hbuild with hsame | ⟨m, rfl, -⟩ | ⟨ending, rfl⟩ |
      ⟨n, call, rfl, hcall, hg⟩
    · exact .inl hsame
    · exact absurd rfl (hne m)
    · obtain ⟨hrun, rfl⟩ := step_finish h
      obtain ⟨unit, hr, hself⟩ :=
        Cache.finish_building (hs.sound.cache.fresh id) hbuild hrun ending
      cases hres : ending.result unit s.cache.timeLimit with
      | error failure => exact .inr (.inr ⟨failure, by rw [← hres]; exact hr⟩)
      | ok x =>
        obtain rfl := Ending.result_eq_ok hres
        exact .inr (.inl ⟨x, hself (by simp), hr⟩)
    · obtain ⟨call', k, r, hcall', hk, hr, -⟩ := step_answer h
      rw [hcall] at hcall'
      cases hcall'
      rw [hg] at hk
      cases hk
      cases r with
      | ok x => exact absurd hr (result?_ne_ok hs hbuild x)
      | error failure => exact .inr (.inr ⟨failure, hext.result hr⟩)
  · exact .inr (.inl ⟨x, state?_built_step hs.sound h hne hbuilt, hext.result hr⟩)
  · exact .inr (.inr ⟨failure, hext.result hr⟩)

/-- Who looks at the entry of a key is promised what is found there. -/
theorem promised_looked {c : Cache α} (hindex : c.index.get? key = some call.entry)
    {st : EntryState α} (hst : c.state? call.entry = some st) :
    (call.looked (c.state? call.entry) (c.look call.entry call.tier).1).Promised
      (c.look call.entry call.tier).2 key := by
  have hkey : (c.look call.entry call.tier).2.index.get? key = some call.entry := by
    rw [index_look, hindex]
  refine ⟨hkey, ?_, ?_⟩
  · intro x hfound
    rcases Cache.look_cases hst call.tier with ⟨y, rfl, hl⟩ | ⟨k, -, hl⟩ | ⟨-, hl⟩
    · rw [hl] at hfound ⊢
      cases hfound
      exact hst
    · rw [hl] at hfound
      cases hfound
    · rw [hl] at hfound
      cases hfound
  · intro found g hfound hg
    rcases Cache.look_cases hst call.tier with ⟨y, -, hl⟩ | ⟨k, rfl, hl⟩ | ⟨-, hl⟩
    · rw [hl] at hfound
      cases hfound
      cases hg
    · rw [hl] at hfound ⊢
      cases hfound
      cases hg
      exact .inl hst
    · rw [hl] at hfound ⊢
      cases hfound
      cases hg
      exact .inl (Cache.state?_launched_self c call.entry hst)

/-- **A promise is kept by every action but the steps of evictions.** -/
theorem promised_step (hs : s.Reachable) (h : s.step a = some s') (hne : ∀ m, a ≠ .sweep m)
    (hcall : s.calls[n]? = some call) (hp : call.Promised s.cache key) :
    ∃ call', s'.calls[n]? = some call' ∧ call'.Promised s'.cache key := by
  obtain ⟨now, hnow, ⟨hkept, -⟩ | ⟨-, hcache, rfl⟩⟩ := call_stays h hcall
  · refine ⟨now, hnow, ?_, ?_, ?_⟩
    · rw [hkept.entry]
      exact get?_index_step hs.sound h hne hp.index
    · intro x hfound
      rw [hkept.found] at hfound
      rw [hkept.entry]
      exact state?_built_step hs.sound h hne (hp.hit x hfound)
    · intro found g hfound hg
      rw [hkept.found] at hfound
      rw [hkept.entry]
      exact owes_step hs h hne (hp.owed found g hfound hg)
  · obtain ⟨st, hst⟩ := hs.sound.state?_entry hcall
    refine ⟨_, hnow, ?_⟩
    rw [hcache]
    exact promised_looked hp.index hst

/-- Who calls for a unit has the entry of its key. -/
theorem promised_enter {unit : Identity} {tier : Tier} (h : s.step (.enter unit tier) = some s') :
    ∃ call, s'.calls[s.calls.length]? = some call ∧ call.Promised s'.cache unit.key := by
  obtain rfl := step_enter h
  refine ⟨_, List.getElem?_concat_length, get?_enter s.cache unit tier, ?_, ?_⟩
  · intro x hfound
    cases hfound
  · intro found g hfound
    cases hfound

/-- **Who was promised a key and is told an artifact: the key holds it.** -/
theorem at?_of_promised (hs : s.Reachable) (hcall : s.calls[n]? = some call)
    (hp : call.Promised s.cache key) {x : α} (hr : call.result = some (.ok x)) :
    s.cache.at? key = some (.built x) := by
  refine Cache.at?_eq_some_iff.2 ⟨call.entry, hp.index, ?_⟩
  rcases (hs.sound.calls n call hcall).told _ hr with ⟨y, hfound, hok⟩ | ⟨found, g, hfound, hg, hres⟩
  · cases hok
    exact hp.hit x hfound
  · rcases hp.owed found g hfound hg with hbuild | ⟨y, hbuilt, hok⟩ | ⟨failure, herror⟩
    · exact absurd hres (result?_ne_ok hs hbuild x)
    · rw [hres] at hok
      cases hok
      exact hbuilt
    · rw [hres] at herror
      cases herror

end System

end SiteHost
