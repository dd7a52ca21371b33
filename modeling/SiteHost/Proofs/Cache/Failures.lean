import SiteHost.Proofs.Cache.System

/-!
# Builds that fail

A failure is told to those who wait for the build and is not kept for others. There is one exception.
A build that panics does not store its result; the first of its callers to hear of it does, and if
all of them have gone away the entry goes on waiting for a build that has long ended:

* `System.Heard` — whether a caller was told how a build ended;
* `System.Stuck` — an entry waits for a build that panicked, and no caller was told.

Principal results:

* `System.building_cases` — an entry waits for a build only while the build runs or the entry is
  stuck;
* `System.stuck_cases` — an entry stays stuck until it is evicted or somebody hears of the panic;
* `System.found_cases` — who calls now will start or join a build that has not ended yet, or the
  build of a stuck entry;
* `System.failure_kept_iff_stuck` — all this in one: the failure of a build that has ended is told to
  a later caller if and only if the entry is stuck.
-/

namespace SiteHost

namespace Cache

variable {α : Type} {c c' : Cache α} {g : Generation} {id : Nat}

/-- A build whose result is stored is waited for by no entry. -/
theorem state?_publish_ne (hc : Fresh c 0 id) {r : Except Failure α} (hr : c.result? g = some r) :
    (c.publish g).state? id ≠ some (.building g) := by
  intro h
  by_cases hs : c.state? id = some (.building g)
  · obtain ⟨-, f, hf, rfl⟩ := hc.building g hs
    rw [publish_of_building hf hs hr, state?_setState_self c f.entry _ hs] at h
    cases r <;> cases h
  · rw [state?_publish_of_ne hs] at h
    exact hs h

/-- Storing a result makes no entry wait. -/
theorem building_of_publish {k : Generation} (h : (c.publish k).state? id = some (.building g)) :
    c.state? id = some (.building g) := by
  rcases publish_cases c k with hp | ⟨f, r, -, hs, -, hp⟩
  · rwa [hp] at h
  · rw [hp] at h
    by_cases hid : f.entry = id
    · subst hid
      rw [state?_setState_self c f.entry _ hs] at h
      cases r <;> cases h
    · rwa [state?_setState_of_ne c _ hid] at h

/-- No entry ever begins to wait for a build that was started before. -/
theorem Move.building_of_lt (h : Move c c') (hs : c'.state? id = some (.building g))
    (hg : g < c.flights.length) : c.state? id = some (.building g) := by
  cases h with
  | add unit tier hnew =>
    by_cases hid : id < c.entries.length
    · simpa [state?, List.getElem?_append_left hid] using hs
    · simp only [state?, List.getElem?_append_right (Nat.le_of_not_lt hid)] at hs
      obtain ⟨e, he, hst⟩ := Option.map_eq_some_iff.1 hs
      have hnew := List.mem_of_getElem? he
      rw [List.mem_singleton] at hnew
      subst hnew
      cases hst
  | start j s hst hheld =>
    by_cases hid : j = id
    · subst hid
      rw [state?_launched_self c j hst] at hs
      cases hs
      exact absurd hg (Nat.lt_irrefl _)
    · rwa [state?_launched_of_ne c hid] at hs
  | finish k ending hrun hne =>
    have hended : (c.ended k ending).state? id = some (.building g) := building_of_publish hs
    exact hended
  | settle k => exact building_of_publish hs
  | drop j s hst hheld =>
    by_cases hid : j = id
    · subst hid
      rw [state?_setState_self c j _ hst] at hs
      cases hs
    · rwa [state?_setState_of_ne c _ hid] at hs
  | _ => exact hs

theorem Moves.building_of_lt (h : Moves c c') (hs : c'.state? id = some (.building g))
    (hg : g < c.flights.length) : c.state? id = some (.building g) := by
  induction h with
  | refl => exact hs
  | tail hfirst hlast ih =>
    have hle := (Moves.extends hfirst).length_flights
    exact ih (hlast.building_of_lt hs (Nat.lt_of_lt_of_le hg hle))

/-- A build that ends without a panic is waited for by no entry any more. -/
theorem state?_finish_ne (hc : Fresh c 0 id) (hrun : c.isRunning g = true) {ending : Ending α}
    (hne : ending ≠ .panicked) : (c.finish g ending).state? id ≠ some (.building g) := by
  have hended : ((c.ended g ending).publish g).state? id ≠ some (.building g) := by
    by_cases hs : c.state? id = some (.building g)
    · obtain ⟨f, hf, -⟩ := (isRunning_iff c g).1 hrun
      obtain ⟨-, f', hf', hid⟩ := hc.building g hs
      rw [hf] at hf'
      cases hf'
      obtain ⟨e, he, -⟩ := Option.map_eq_some_iff.1 hs
      have hr : (c.ended g ending).result? g = some (ending.result e.identity.typeName c.timeLimit) :=
        result?_eq_some_iff.2 ⟨{ f with ending := some ending }, e, ending,
          by rw [getElem?_flights_ended, if_pos rfl, hf, Option.map_some], by rw [← he, ← hid]; rfl,
          rfl, rfl⟩
      exact state?_publish_ne (hc.congr rfl (extends_ended hrun ending)) hr
    · rw [state?_publish_of_ne (c := c.ended g ending) hs]
      exact hs
  rcases finish_of_ne_panicked hrun hne with h | ⟨tier, r, h⟩
  · rw [h]
    exact hended
  · rw [h, state?, entries_countBuild]
    exact hended

end Cache

namespace System

variable {α : Type} {s s' : System α} {a : Action α} {g : Generation} {id : Nat}

/-- Whether a caller was told how a build ended. -/
def Heard (s : System α) (g : Generation) : Prop :=
  ∃ (n : Nat) (call : Call α) (found : Lookup α), s.calls[n]? = some call ∧
    call.found = some found ∧ found.generation? = some g ∧ call.result ≠ none

/-- Whether an entry waits for a build that panicked, and no caller was told. -/
def Stuck (s : System α) (id : Nat) (g : Generation) : Prop :=
  s.cache.state? id = some (.building g) ∧
    s.cache.flights[g]? = some ⟨id, some .panicked⟩ ∧ ¬ s.Heard g

/-- What was told is the result of a build that has ended. -/
theorem Heard.result? (hs : s.Sound) (h : s.Heard g) : ∃ r, s.cache.result? g = some r := by
  obtain ⟨n, call, found, hn, hfound, hg, hres⟩ := h
  obtain ⟨r, hr⟩ := Option.ne_none_iff_exists'.1 hres
  exact ⟨r, hs.result?_of_told hn hfound hg hr⟩

/-- Only the answer of somebody who waits for a build makes it heard of. -/
theorem heard_step (h : s.step a = some s') (hheard : s'.Heard g) : s.Heard g ∨
    ∃ n call, a = .answer n ∧ s.calls[n]? = some call ∧ call.awaits = some g := by
  obtain ⟨n, call, found, hcall, hfound, hg, hres⟩ := hheard
  rcases call_step h hcall with ⟨before, hbefore, hkept, hresult⟩ |
    ⟨unit, tier, -, -, -, rfl⟩ | ⟨before, -, -, -, -, rfl⟩
  · rw [hkept.found] at hfound
    rcases hresult with hsame | ⟨k, r, ha, hk, -, -⟩
    · exact .inl ⟨n, before, found, hbefore, hfound, hg, hsame ▸ hres⟩
    · obtain ⟨-, -, found', hfound', hk'⟩ := Call.awaits_eq_some hk
      rw [hfound] at hfound'
      cases hfound'
      rw [hg] at hk'
      cases hk'
      exact .inr ⟨n, before, ha, hbefore, hk⟩
  · cases hfound
  · -- a look that leaves somebody waiting gives no answer
    cases hfound
    unfold Call.looked at hres
    dsimp only at hres
    split at hres
    · rename_i b hb
      rw [hb] at hg
      cases hg
    · exact absurd rfl hres

/-- Whether every entry that waits for a build waits for one that runs or is stuck. -/
def Attended (s : System α) : Prop :=
  ∀ id g, s.cache.state? id = some (.building g) → s.cache.isRunning g = true ∨ s.Stuck id g

/-- While an entry goes on waiting for a build nobody hears how the build has ended. -/
theorem not_heard_step (hs : s.Sound) (h : s.step a = some s')
    (hbuild : s'.cache.state? id = some (.building g)) (hquiet : ¬ s.Heard g) : ¬ s'.Heard g := by
  intro hheard
  rcases heard_step h hheard with hbefore | ⟨n, call, rfl, hcall, hg⟩
  · exact hquiet hbefore
  · obtain ⟨call', k, r, hcall', hk, hr, rfl⟩ := step_answer h
    rw [hcall] at hcall'
    cases hcall'
    rw [hg] at hk
    cases hk
    exact Cache.state?_publish_ne (hs.cache.fresh id) hr hbuild

theorem attended_step (hs : s.Sound) (hatt : s.Attended) (h : s.step a = some s') :
    s'.Attended := by
  intro id g hbuild
  by_cases hold : g < s.cache.flights.length
  · have hbefore := (step_moves hs h).building_of_lt hbuild hold
    rcases getElem?_flights_step h hold with hsame | ⟨ending, rfl⟩
    · rcases hatt id g hbefore with hrun | ⟨-, hpanic, hquiet⟩
      · left
        rw [Cache.isRunning_iff, hsame, ← Cache.isRunning_iff]
        exact hrun
      · exact .inr ⟨hbuild, hsame.trans hpanic, not_heard_step hs h hbuild hquiet⟩
    · obtain ⟨hrun, hs'⟩ := step_finish h
      by_cases hne : ending = .panicked
      · right
        obtain ⟨f, hf, hnone⟩ := (Cache.isRunning_iff s.cache g).1 hrun
        obtain ⟨-, f', hf', hid⟩ := (hs.cache.fresh id).building g hbefore
        rw [hf] at hf'
        cases hf'
        refine ⟨hbuild, ?_, not_heard_step hs h hbuild fun hheard => ?_⟩
        · subst hs' hne hid
          dsimp only
          rw [Cache.finish_panicked hrun, Cache.getElem?_flights_ended, if_pos rfl, hf]
          rfl
        · obtain ⟨r, hr⟩ := hheard.result? hs
          obtain ⟨f', e, x, hf', -, hx, -⟩ := Cache.result?_eq_some_iff.1 hr
          rw [hf] at hf'
          cases hf'
          rw [hnone] at hx
          cases hx
      · subst hs'
        exact absurd hbuild (Cache.state?_finish_ne (hs.cache.fresh id) hrun hne)
  · obtain ⟨-, f, hf, -⟩ := ((step_sound hs h).cache.fresh id).building g hbuild
    exact .inl (isRunning_step h (Nat.le_of_not_lt hold) (List.getElem?_eq_some_iff.1 hf).1)

/-- **An entry waits for a build only while the build runs or the entry is stuck.** -/
theorem building_cases (hs : s.Reachable) (hbuild : s.cache.state? id = some (.building g)) :
    s.cache.isRunning g = true ∨ s.Stuck id g := by
  obtain ⟨timeLimit, actions, rfl⟩ := hs
  have hboth : ((start timeLimit).run actions : System α).Sound ∧
      ((start timeLimit).run actions).Attended := by
    refine run_induction (P := fun u => u.Sound ∧ u.Attended) ?_ ⟨sound_start timeLimit, ?_⟩ actions
    · intro u u' b hu hstep
      exact ⟨step_sound hu.1 hstep, attended_step hu.1 hu.2 hstep⟩
    · intro id g h
      simp [start, Cache.state?] at h
  exact hboth.2 id g hbuild

/-- **An entry stays stuck until it is evicted or somebody hears of the panic.** -/
theorem stuck_cases (hs : s.Sound) (hstuck : s.Stuck id g) (a : Action α) :
    (s.act a).Stuck id g ∨
    (∃ m, a = .sweep m ∧ (s.act a).cache.state? id = some .invalidated) ∨
    ∃ n call, a = .answer n ∧ s.calls[n]? = some call ∧ call.awaits = some g := by
  obtain ⟨hbuild, hpanic, hquiet⟩ := hstuck
  have hg : g < s.cache.flights.length := (List.getElem?_eq_some_iff.1 hpanic).1
  unfold act
  cases h : s.step a with
  | none => exact .inl ⟨hbuild, hpanic, hquiet⟩
  | some s' =>
    -- the build has ended, so it cannot end again
    have hended : ¬ ∃ ending, a = .finish g ending := by
      rintro ⟨ending, rfl⟩
      obtain ⟨f, hf, hnone⟩ := (Cache.isRunning_iff s.cache g).1 (step_finish h).1
      rw [hpanic] at hf
      cases hf
      cases hnone
    rcases state?_building_step hs h hbuild with hsame | hevicted | hend | hheard
    · have hflight := (getElem?_flights_step h hg).resolve_right hended
      exact .inl ⟨hsame, hflight.trans hpanic, not_heard_step hs h hsame hquiet⟩
    · exact .inr (.inl hevicted)
    · exact absurd hend hended
    · exact .inr (.inr hheard)

/-! ## Who calls from now on -/

/-- What those find who call after `s`, the calls from number `s.calls.length` on: an entry that the
map still had, and no build that had ended unless the entry waited for it. -/
structure Later (s u : System α) : Prop where
  sound : u.Sound
  moves : Cache.Moves s.cache u.cache
  behind : s.calls.length ≤ u.calls.length
  entry : ∀ (n : Nat) (call : Call α), s.calls.length ≤ n → u.calls[n]? = some call →
    call.entry < s.cache.entries.length → s.cache.Indexed call.entry
  found : ∀ (n : Nat) (call : Call α), s.calls.length ≤ n → u.calls[n]? = some call →
    ∀ found g, call.found = some found → found.generation? = some g →
    s.cache.flights.length ≤ g ∨ s.cache.state? call.entry = some (.building g)

theorem later_self (hs : s.Sound) : s.Later s := by
  refine ⟨hs, .refl, Nat.le_refl _, ?_, ?_⟩
  · intro n call hn hcall
    rw [List.getElem?_eq_none hn] at hcall
    cases hcall
  · intro n call hn hcall
    rw [List.getElem?_eq_none hn] at hcall
    cases hcall

theorem later_step {u u' : System α} (h : s.Later u) (hstep : u.step a = some u') : s.Later u' := by
  have hmoves : Cache.Moves s.cache u'.cache := h.moves.trans (step_moves h.sound hstep)
  refine ⟨step_sound h.sound hstep, hmoves, Nat.le_trans h.behind (length_calls_step hstep), ?_, ?_⟩
  · intro n call hn hcall hlt
    rcases call_step hstep hcall with ⟨before, hbefore, hkept, -⟩ |
      ⟨unit, tier, -, -, hcache, rfl⟩ | ⟨before, -, hbefore, -, -, rfl⟩
    · rw [hkept.entry] at hlt ⊢
      exact h.entry n before hn hbefore hlt
    · refine hmoves.extends.unindexed _ hlt ⟨unit.key, ?_⟩
      rw [hcache]
      exact get?_enter u.cache unit tier
    · exact h.entry n before hn hbefore hlt
  · intro n call hn hcall found g hfound hg
    rcases call_step hstep hcall with ⟨before, hbefore, hkept, -⟩ |
      ⟨unit, tier, -, -, -, rfl⟩ | ⟨before, -, hbefore, -, -, rfl⟩
    · rw [hkept.found] at hfound
      rw [hkept.entry]
      exact h.found n before hn hbefore found g hfound hg
    · cases hfound
    · cases hfound
      obtain ⟨st, hs⟩ := h.sound.state?_entry hbefore
      rcases Cache.look_cases hs before.tier with ⟨b, -, hl⟩ | ⟨j, hst, hl⟩ | ⟨-, hl⟩
      · rw [hl] at hg
        cases hg
      · rw [hl] at hg
        cases hg
        by_cases hold : g < s.cache.flights.length
        · exact .inr (h.moves.building_of_lt (by rw [← hst]; exact hs) hold)
        · exact .inl (Nat.le_of_not_lt hold)
      · rw [hl] at hg
        cases hg
        exact .inl (Cache.Moves.extends h.moves).length_flights

theorem later_run (hs : s.Sound) (actions : List (Action α)) : s.Later (s.run actions) :=
  run_induction (fun _ _ _ hu hstep => later_step hu hstep) (later_self hs) actions

/-- **Who calls now will start or join a build that has not ended yet, or that of a stuck entry.** -/
theorem found_cases (hs : s.Reachable) {actions : List (Action α)} {n : Nat}
    (hn : s.calls.length ≤ n) {call : Call α} (hcall : (s.run actions).calls[n]? = some call)
    {found : Lookup α} (hfound : call.found = some found) (hg : found.generation? = some g) :
    s.cache.flights.length ≤ g ∨ s.cache.isRunning g = true ∨ s.Stuck call.entry g := by
  rcases (later_run hs.sound actions).found n call hn hcall found g hfound hg with hnew | hbuild
  · exact .inl hnew
  · exact .inr (building_cases hs hbuild)

/-- Who calls for a unit whose entry waits for a build that has ended is told how it ended. -/
theorem run_joined {unit : Identity} (hkey : s.cache.index.get? unit.key = some id)
    (hbuild : s.cache.state? id = some (.building g)) {r : Except Failure α}
    (hr : s.cache.result? g = some r) (tier : Tier) :
    (s.run [.enter unit tier, .look s.calls.length,
      .answer s.calls.length]).calls[s.calls.length]? = some
        { unit, tier, entry := id, saw := some .building, found := some (.joined g),
          result := some r } := by
  have henter : s.cache.enter unit tier = (id, s.cache) := by
    unfold Cache.enter
    rw [hkey]
  have hlook : s.cache.look id tier = (.joined g, s.cache) := by
    rcases Cache.look_cases hbuild tier with ⟨b, hst, -⟩ | ⟨k, hst, hl⟩ | ⟨hheld, -⟩
    · cases hst
    · cases hst
      exact hl
    · cases hheld
  have hsettle : s.cache.settle g = some (r, s.cache.publish g) := by
    unfold Cache.settle
    rw [hr, Option.map_some]
  have h₁ : s.act (.enter unit tier) =
      { s with calls := s.calls ++ [{ unit, tier, entry := id }] } := by
    unfold act step
    dsimp only
    rw [henter]
    rfl
  obtain ⟨joined, hjoined⟩ : ∃ call : Call α, call =
      { unit, tier, entry := id, saw := some .building, found := some (.joined g) } := ⟨_, rfl⟩
  have h₂ : System.act { s with calls := s.calls ++ [{ unit, tier, entry := id }] }
      (.look s.calls.length) = { s with calls := s.calls ++ [joined] } := by
    unfold act step
    simp [hlook, hbuild, Call.looked, EntryState.status, hjoined]
  have h₃ : System.act { s with calls := s.calls ++ [joined] } (.answer s.calls.length) =
      { s with
        cache := s.cache.publish g
        calls := s.calls ++ [{ joined with result := some r }] } := by
    unfold act step
    simp [hsettle, Call.awaits, Lookup.generation?, hjoined]
  unfold run
  rw [List.foldl_cons, h₁, List.foldl_cons, h₂, List.foldl_cons, h₃, List.foldl_nil,
    List.getElem?_concat_length, hjoined]

/-- **A failure is kept by a stuck entry and by nothing else.** At every moment:

* an entry that waits for a build waits for one that runs, unless the entry is stuck;
* who calls from now on starts or joins a build that has not ended yet, unless the entry is stuck;
* the failure of a build that has ended is told to somebody who calls from now on if and only if the
  entry of a key is stuck with that build;
* an entry stays stuck until an eviction invalidates it or a caller of the build learns of its end. -/
theorem failure_kept_iff_stuck (hs : s.Reachable) :
    (∀ id g, s.cache.state? id = some (.building g) →
      (s.cache.isRunning g = true ↔ ¬ s.Stuck id g)) ∧
    (∀ (actions : List (Action α)) (n : Nat) (call : Call α) (found : Lookup α) (g : Generation),
      s.calls.length ≤ n → (s.run actions).calls[n]? = some call → call.found = some found →
      found.generation? = some g →
      s.cache.flights.length ≤ g ∨ s.cache.isRunning g = true ∨ s.Stuck call.entry g) ∧
    (∀ (g : Generation) (failure : Failure), s.cache.result? g = some (.error failure) →
      ((∃ (actions : List (Action α)) (n : Nat) (call : Call α) (found : Lookup α),
        s.calls.length ≤ n ∧ (s.run actions).calls[n]? = some call ∧ call.found = some found ∧
        found.generation? = some g ∧ call.result = some (.error failure)) ↔
      ∃ id, s.cache.Indexed id ∧ s.Stuck id g)) ∧
    ∀ id g, s.Stuck id g → ∀ a, (s.act a).Stuck id g ∨
      (∃ m, a = .sweep m ∧ (s.act a).cache.state? id = some .invalidated) ∨
      ∃ n call, a = .answer n ∧ s.calls[n]? = some call ∧ call.awaits = some g := by
  refine ⟨?_, fun _ _ _ _ _ hn hcall hfound hg => found_cases hs hn hcall hfound hg, ?_,
    fun id g hstuck a => stuck_cases hs.sound hstuck a⟩
  · intro id g hbuild
    constructor
    · intro hrun hstuck
      obtain ⟨f, hf, hnone⟩ := (Cache.isRunning_iff s.cache g).1 hrun
      rw [hstuck.2.1] at hf
      cases hf
      cases hnone
    · intro hnot
      exact (building_cases hs hbuild).resolve_right hnot
  · intro g failure hres
    obtain ⟨f, e, ending, hf, he, hend, -⟩ := Cache.result?_eq_some_iff.1 hres
    constructor
    · rintro ⟨actions, n, call, found, hn, hcall, hfound, hg, -⟩
      rcases found_cases hs hn hcall hfound hg with hnew | hrun | hstuck
      · exact absurd (List.getElem?_eq_some_iff.1 hf).1 (Nat.not_lt.2 hnew)
      · obtain ⟨f', hf', hnone⟩ := (Cache.isRunning_iff s.cache g).1 hrun
        rw [hf] at hf'
        cases hf'
        rw [hnone] at hend
        cases hend
      · obtain ⟨e', he', -⟩ := Option.map_eq_some_iff.1 hstuck.1
        exact ⟨call.entry, (later_run hs.sound actions).entry n call hn hcall
          (List.getElem?_eq_some_iff.1 he').1, hstuck⟩
    · rintro ⟨id, hind, hstuck⟩
      obtain ⟨e', he', -⟩ := Option.map_eq_some_iff.1 hstuck.1
      have hkey := hs.sound.cache.get?_key hind he'
      have hjoined := run_joined hkey hstuck.1 hres .leaf
      exact ⟨_, _, _, _, Nat.le_refl _, hjoined, rfl, rfl, rfl⟩

/-- A caller goes away, the build panics, and the entry is stuck: it waits for a build that does not
run. Somebody who calls then is told of the old panic. -/
theorem failure_kept_by_panic : ∃ s : System Nat,
    s = (start 1000).run [.enter ⟨"/site/a.ks", "Site.a"⟩ .leaf, .look 0, .leave 0,
      .finish 0 .panicked] ∧
    s.cache.state? 0 = some (.building 0) ∧ s.cache.isRunning 0 = false ∧
    ∃ (actions : List (Action Nat)) (n : Nat) (call : Call Nat) (found : Lookup Nat),
      s.calls.length ≤ n ∧ (s.run actions).calls[n]? = some call ∧ call.found = some found ∧
      found.generation? = some 0 ∧
      call.result = some (.error (.compileSingle "Site.a" "compilation panicked")) := by
  refine ⟨_, rfl, rfl, rfl, ?_⟩
  have hs : ((start 1000).run [.enter ⟨"/site/a.ks", "Site.a"⟩ .leaf, .look 0, .leave 0,
    .finish 0 .panicked] : System Nat).Reachable := ⟨1000, _, rfl⟩
  refine ((failure_kept_iff_stuck hs).2.2.1 0 _ rfl).2 ⟨0, ⟨"/site/a.ks", rfl⟩, rfl, rfl, ?_⟩
  rintro ⟨n, call, found, hcall, -, -, hres⟩
  have hmem := List.mem_of_getElem? hcall
  have honly : ∀ call ∈ ((start 1000).run [.enter ⟨"/site/a.ks", "Site.a"⟩ .leaf, .look 0, .leave 0,
    .finish 0 .panicked] : System Nat).calls, call.result = none := by
    intro call hcall
    cases List.mem_singleton.1 hcall
    rfl
  exact hres (honly call hmem)

end System

end SiteHost
