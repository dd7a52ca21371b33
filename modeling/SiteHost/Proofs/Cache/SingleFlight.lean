import SiteHost.Proofs.Cache.System

/-!
# Single flight

However many callers ask for a unit, one of them builds it and the others share what comes of it:

* `System.EvictedDuring` — an eviction invalidated an entry, or took it from the map, in the course of
  some actions;
* `System.Starts` — a call looks at its entry and is given a build to run;
* `System.Overtaken` — the entry of a call has left the map before the call looks at it;
* `System.Tells` — those who started or joined a build have one answer, and each of them can have it;
* `Call.ran` — the build that a caller was given to run.

Principal results:

* `System.building_or_invalidated` — while a build runs its entry waits for it, unless it was
  invalidated;
* `System.evicted_of_overlap` — two builds of one unit run at once only after an eviction between,
  unless a caller was overtaken;
* `System.overtaken_iff` — who was overtaken lost the entry between two of their steps;
* `System.Sound.tells` — when a build has ended, all who wait for it can have one answer;
* `System.Reachable.shared` — the builds that callers were given to run are all builds, each of them once;
* `System.single_flight` — all this in one;
* `System.overlap_without_eviction` — an overtaken caller builds at the same time as another, and who
  leaves is told nothing.
-/

namespace SiteHost

/-- The build that a caller started or joined. -/
def Call.build? {α : Type} (call : Call α) : Option Generation := call.found.bind Lookup.generation?

/-- The build that a caller was given to run. -/
def Call.ran {α : Type} (call : Call α) : Option Generation :=
  match call.found with
  | some (.started g) => some g
  | _ => none

/-- Whether a call found its entry without an artifact and without a build. -/
def Call.sawNothing {α : Type} (call : Call α) : Bool :=
  call.saw == some .empty || call.saw == some .invalidated

namespace System

variable {α : Type} {s s' : System α} {a : Action α} {g : Generation} {id : Nat}

/-! ## Evictions between two builds -/

/-- Whether a step of an eviction invalidates an entry. -/
def InvalidatedBy (s : System α) (m : Nat) (id : Nat) : Prop :=
  s.cache.state? id ≠ some .invalidated ∧
    (s.act (.sweep m)).cache.state? id = some .invalidated

/-- Whether a step of an eviction takes an entry from the map. -/
def TakenBy (s : System α) (m : Nat) (id : Nat) : Prop :=
  s.cache.Indexed id ∧ ¬ (s.act (.sweep m)).cache.Indexed id

/-- Whether a step of an eviction does something to an entry in the course of actions. -/
def SweptDuring (s : System α) (Swept : System α → Nat → Nat → Prop) (actions : List (Action α))
    (id : Nat) : Prop :=
  ∃ before m after, actions = before ++ .sweep m :: after ∧ Swept (s.run before) m id

/-- Whether an eviction invalidates an entry in the course of actions. -/
def InvalidatedDuring (s : System α) (actions : List (Action α)) (id : Nat) : Prop :=
  s.SweptDuring InvalidatedBy actions id

/-- Whether an eviction takes an entry from the map in the course of actions. -/
def TakenDuring (s : System α) (actions : List (Action α)) (id : Nat) : Prop :=
  s.SweptDuring TakenBy actions id

/-- Whether an eviction invalidates an entry or takes it from the map in the course of actions. -/
def EvictedDuring (s : System α) (actions : List (Action α)) (id : Nat) : Prop :=
  s.InvalidatedDuring actions id ∨ s.TakenDuring actions id

section Swept

variable {Swept : System α → Nat → Nat → Prop} {rest : List (Action α)}

theorem not_sweptDuring_nil : ¬ s.SweptDuring Swept [] id := by
  rintro ⟨before, m, after, hnil, -⟩
  exact absurd hnil (by simp)

theorem SweptDuring.cons (h : (s.act a).SweptDuring Swept rest id) :
    s.SweptDuring Swept (a :: rest) id := by
  obtain ⟨before, m, after, rfl, hswept⟩ := h
  exact ⟨a :: before, m, after, rfl, hswept⟩

theorem sweptDuring_of_first {m : Nat} (h : Swept s m id) (rest : List (Action α)) :
    s.SweptDuring Swept (.sweep m :: rest) id :=
  ⟨[], m, rest, rfl, h⟩

end Swept

theorem index_look (c : Cache α) (id : Nat) (tier : Tier) : (c.look id tier).2.index = c.index := by
  unfold Cache.look
  split <;> rfl

theorem index_finish (c : Cache α) (g : Generation) (ending : Ending α) :
    (c.finish g ending).index = c.index := by
  by_cases hrun : c.isRunning g = true
  · by_cases hne : ending = .panicked
    · subst hne
      rw [Cache.finish_panicked hrun]
      rfl
    · rcases Cache.finish_of_ne_panicked hrun hne with h | ⟨tier, r, h⟩
      · rw [h, Cache.index_publish]
        rfl
      · rw [h, Cache.index_countBuild, Cache.index_publish]
        rfl
  · unfold Cache.finish
    rw [if_neg hrun]

/-- Only an eviction takes an entry from the map. -/
theorem indexed_step (h : s.step a = some s') (hind : s.cache.Indexed id) :
    s'.cache.Indexed id ∨ ∃ m, a = .sweep m := by
  obtain ⟨key, hkey⟩ := hind
  cases a with
  | enter unit tier =>
    obtain rfl := step_enter h
    left
    refine ⟨key, ?_⟩
    dsimp only
    unfold Cache.enter
    split
    · exact hkey
    · rename_i hnone
      have hne : key ≠ unit.key := by
        rintro rfl
        rw [hnone] at hkey
        cases hkey
      exact (NameMap.get?_insert_of_ne _ hne _).trans hkey
  | look n =>
    obtain ⟨call, -, -, rfl⟩ := step_look h
    exact .inl ⟨key, by dsimp only; rw [index_look]; exact hkey⟩
  | finish k ending =>
    obtain ⟨-, rfl⟩ := step_finish h
    exact .inl ⟨key, by dsimp only; rw [index_finish]; exact hkey⟩
  | answer n =>
    obtain ⟨call, k, r, -, -, -, rfl⟩ := step_answer h
    exact .inl ⟨key, by dsimp only; rw [Cache.index_publish]; exact hkey⟩
  | leave n =>
    obtain ⟨call, k, -, -, rfl⟩ := step_leave h
    exact .inl ⟨key, hkey⟩
  | evict e =>
    cases h
    exact .inl ⟨key, hkey⟩
  | sweep m => exact .inr ⟨m, rfl⟩

theorem act_sound (hs : s.Sound) (a : Action α) : (s.act a).Sound := sound_run hs [a]

/-- A build that has ended does not run again. -/
theorem not_isRunning_run (hs : s.Sound) {f : Flight α} (hf : s.cache.flights[g]? = some f)
    {x : Ending α} (hx : f.ending = some x) (actions : List (Action α)) :
    (s.run actions).cache.isRunning g = false := by
  have hkept := (run_moves hs actions).extends.ended hf hx
  cases h : (s.run actions).cache.isRunning g with
  | false => rfl
  | true =>
    obtain ⟨f', hf', hnone⟩ := (Cache.isRunning_iff _ g).1 h
    rw [hkept] at hf'
    cases hf'
    rw [hx] at hnone
    cases hnone

/-- One action on an entry that waits for a build: it still waits, it is invalidated, or the build has
ended. -/
theorem building_act_cases (hs : s.Sound) (hbuild : s.cache.state? id = some (.building g))
    (a : Action α) :
    (s.act a).cache.state? id = some (.building g) ∨
    (∃ m, a = .sweep m ∧ s.InvalidatedBy m id) ∨
    ∃ f x, (s.act a).cache.flights[g]? = some f ∧ f.ending = some x := by
  cases h : s.step a with
  | none =>
    rw [act_of_none h]
    exact .inl hbuild
  | some s' =>
    have hact : s.act a = s' := act_of_step h
    rcases state?_building_step hs h hbuild with hsame | ⟨m, rfl, hinv⟩ | ⟨ending, rfl⟩ |
      ⟨n, call, rfl, hcall, hg⟩
    · rw [hact]
      exact .inl hsame
    · refine .inr (.inl ⟨m, rfl, ?_, by rw [hact]; exact hinv⟩)
      rw [hbuild]
      exact fun hne => by cases hne
    · obtain ⟨hrun, rfl⟩ := step_finish h
      obtain ⟨f, hf, -⟩ := (Cache.isRunning_iff s.cache g).1 hrun
      rw [hact]
      refine .inr (.inr ⟨{ f with ending := some ending }, ending, ?_, rfl⟩)
      dsimp only
      rw [Cache.flights_finish hrun, Cache.getElem?_flights_ended, if_pos rfl, hf, Option.map_some]
    · obtain ⟨call', k, r, hcall', hk, hr, -⟩ := step_answer h
      rw [hcall] at hcall'
      cases hcall'
      rw [hg] at hk
      cases hk
      obtain ⟨f, e, x, hf, -, hx, -⟩ := Cache.result?_eq_some_iff.1 hr
      rw [hact]
      exact .inr (.inr ⟨f, x, (step_moves hs h).extends.ended hf hx, hx⟩)

/-- **While a build runs its entry waits for it, unless it was invalidated.** -/
theorem building_or_invalidated (hs : s.Sound) (hbuild : s.cache.state? id = some (.building g))
    {actions : List (Action α)} (hrun : (s.run actions).cache.isRunning g = true) :
    (s.run actions).cache.state? id = some (.building g) ∨ s.InvalidatedDuring actions id := by
  induction actions generalizing s with
  | nil => exact .inl hbuild
  | cons a rest ih =>
    rcases building_act_cases hs hbuild a with hbuild' | ⟨m, rfl, hinv⟩ | ⟨f, x, hf, hx⟩
    · exact (ih (act_sound hs a) hbuild' hrun).imp_right SweptDuring.cons
    · exact .inr (sweptDuring_of_first hinv rest)
    · have hended : (s.run (a :: rest)).cache.isRunning g = false :=
        not_isRunning_run (act_sound hs a) hf hx rest
      rw [hended] at hrun
      cases hrun

/-- An entry that leaves the map was taken from it by an eviction. -/
theorem taken_of_unindexed (hind : s.cache.Indexed id) {actions : List (Action α)}
    (hgone : ¬ (s.run actions).cache.Indexed id) : s.TakenDuring actions id := by
  induction actions generalizing s with
  | nil => exact absurd hind hgone
  | cons a rest ih =>
    by_cases hstill : (s.act a).cache.Indexed id
    · exact (ih hstill hgone).cons
    · cases h : s.step a with
      | none =>
        rw [act_of_none h] at hstill
        exact absurd hind hstill
      | some s' =>
        rcases indexed_step h hind with hnow | ⟨m, rfl⟩
        · rw [act_of_step h] at hstill
          exact absurd hnow hstill
        · have htaken : s.TakenBy m id := ⟨hind, hstill⟩
          exact sweptDuring_of_first htaken rest

/-- An entry that was taken from the map does not come back. -/
theorem unindexed_of_taken (hs : s.Sound) {actions : List (Action α)}
    (h : s.TakenDuring actions id) : ¬ (s.run actions).cache.Indexed id := by
  obtain ⟨before, m, after, rfl, hind, hgone⟩ := h
  have hsound := sound_run hs before
  have hlt := hsound.cache.index_lt hind
  have hlt' := Nat.lt_of_lt_of_le hlt (run_moves hsound [.sweep m]).extends.length_entries
  rw [run_append]
  exact fun hback =>
    hgone ((run_moves (act_sound hsound (.sweep m)) after).extends.unindexed id hlt' hback)

/-! ## Builds that overlap -/

/-- A call looks at its entry and is given a build to run. -/
def Starts (s : System α) (n : Nat) (call : Call α) (g : Generation) : Prop :=
  s.calls[n]? = some call ∧ call.found = none ∧
    (s.cache.look call.entry call.tier).1 = .started g

/-- The entry of a call has left the map before the call looks at it. -/
def Overtaken (s : System α) (call : Call α) : Prop := ¬ s.cache.Indexed call.entry

/-- What a started build is. -/
theorem Starts.act (hs : s.Sound) {n : Nat} {call : Call α} (h : s.Starts n call g) :
    g = s.cache.flights.length ∧
      (s.act (.look n)).cache = (s.cache.launched call.entry).count (.miss call.tier) 1 ∧
      (s.act (.look n)).cache.state? call.entry = some (.building g) := by
  obtain ⟨hcall, hnone, hfound⟩ := h
  obtain ⟨st, hstate⟩ := hs.state?_entry hcall
  have hact : (s.act (.look n)).cache = (s.cache.look call.entry call.tier).2 := by
    rw [act_of_step (step_of_look hcall hnone)]
  rcases Cache.look_cases hstate call.tier with ⟨b, -, hl⟩ | ⟨k, -, hl⟩ | ⟨-, hl⟩
  · rw [hl] at hfound
    cases hfound
  · rw [hl] at hfound
    cases hfound
  · rw [hl] at hfound hact
    cases hfound
    refine ⟨rfl, hact, ?_⟩
    rw [hact]
    exact Cache.state?_launched_self s.cache call.entry hstate

/-- A call whose entry is in the map has the entry of its key. -/
theorem get?_of_indexed (hs : s.Sound) {n : Nat} {call : Call α} (hcall : s.calls[n]? = some call)
    (hind : s.cache.Indexed call.entry) : s.cache.index.get? call.unit.key = some call.entry := by
  obtain ⟨e, he, hkey⟩ := (hs.calls n call hcall).entry
  rw [← hkey]
  exact hs.cache.get?_key hind he

/-- **Two builds of one unit run at once only after an eviction between their starts**, unless the two
callers hold different entries and one of them was overtaken by an eviction. -/
theorem evicted_of_overlap (hs : s.Sound) {n₁ n₂ : Nat} {call₁ call₂ : Call α} {g₁ g₂ : Generation}
    (h₁ : s.Starts n₁ call₁ g₁) {during : List (Action α)} (hs' : s' = (s.act (.look n₁)).run during)
    (h₂ : s'.Starts n₂ call₂ g₂) (hkey : call₁.unit.key = call₂.unit.key)
    (hrun : s'.cache.isRunning g₁ = true) :
    (s.act (.look n₁)).EvictedDuring during call₁.entry ∨
      call₁.entry ≠ call₂.entry ∧ (s.Overtaken call₁ ∨ s'.Overtaken call₂) := by
  subst hs'
  obtain ⟨-, hcache, hbuild⟩ := h₁.act hs
  have hsound := act_sound hs (.look n₁)
  obtain ⟨hcall₂, -, hfound₂⟩ := h₂
  by_cases hentry : call₁.entry = call₂.entry
  · -- the second caller would have found the first build, had the entry still waited for it
    left
    rcases building_or_invalidated hsound hbuild hrun with hstill | hinvalidated
    · rw [hentry] at hstill
      rcases Cache.look_cases hstill call₂.tier with ⟨b, hst, -⟩ | ⟨k, -, hl⟩ | ⟨hheld, -⟩
      · cases hst
      · rw [hl] at hfound₂
        cases hfound₂
      · cases hheld
    · exact .inl hinvalidated
  by_cases hover₁ : s.Overtaken call₁
  · exact .inr ⟨hentry, .inl hover₁⟩
  by_cases hover₂ : ((s.act (.look n₁)).run during).Overtaken call₂
  · exact .inr ⟨hentry, .inr hover₂⟩
  -- the map has room for one entry of the unit, so that of the first caller made way for the other
  have hind : (s.act (.look n₁)).cache.Indexed call₁.entry := by
    rw [hcache]
    exact Classical.not_not.1 hover₁
  refine .inl (.inr (taken_of_unindexed hind fun hind' => hentry ?_))
  have hsound' := sound_run hsound during
  obtain ⟨e, he, hkey₁⟩ := (hs.calls n₁ call₁ h₁.1).entry
  obtain ⟨e', he', hi, -⟩ := (run_moves hs (.look n₁ :: during)).extends.entries _ e he
  have hget₁ := hsound'.cache.get?_key hind' he'
  have hget₂ := get?_of_indexed hsound' hcall₂ (Classical.not_not.1 hover₂)
  rw [hi, hkey₁, hkey, hget₂] at hget₁
  exact (Option.some.inj hget₁).symm

/-- A call keeps the entry that it took. -/
theorem entry_run {n : Nat} {entry : Nat} (h : ∃ call, s.calls[n]? = some call ∧ call.entry = entry)
    (actions : List (Action α)) :
    ∃ call, (s.run actions).calls[n]? = some call ∧ call.entry = entry := by
  refine run_induction (P := fun u => ∃ call, u.calls[n]? = some call ∧ call.entry = entry) ?_ h
    actions
  rintro u u' b ⟨before, hbefore, hentry⟩ hstep
  obtain ⟨call, hcall, ⟨hkept, -⟩ | ⟨-, -, rfl⟩⟩ := call_stays hstep hbefore
  · exact ⟨call, hcall, hkept.entry.trans hentry⟩
  · exact ⟨_, hcall, hentry⟩

/-- **Who is overtaken lost the entry between two of their steps**: an eviction took it from the map
after the call had fetched it there and before the call looks at it. -/
theorem overtaken_iff (hs : s.Sound) {unit : Identity} {tier : Tier} {between : List (Action α)}
    {call : Call α}
    (hcall : ((s.act (.enter unit tier)).run between).calls[s.calls.length]? = some call) :
    ((s.act (.enter unit tier)).run between).Overtaken call ↔
      (s.act (.enter unit tier)).TakenDuring between call.entry := by
  refine ⟨fun hover => ?_, unindexed_of_taken (act_sound hs _)⟩
  have hentered : ∃ call, (s.act (.enter unit tier)).calls[s.calls.length]? = some call ∧
      call.entry = (s.cache.enter unit tier).1 :=
    ⟨_, List.getElem?_concat_length, rfl⟩
  obtain ⟨call', hcall', hentry⟩ := entry_run hentered between
  rw [hcall] at hcall'
  cases hcall'
  refine taken_of_unindexed ⟨unit.key, ?_⟩ hover
  rw [hentry]
  exact get?_enter s.cache unit tier

/-! ## What those are told who share a build -/

/-- Those who started or joined a build have one answer: they were told it, or have left, or are told
it as soon as they ask. -/
def Tells (s : System α) (g : Generation) (r : Except Failure α) : Prop :=
  ∀ (n : Nat) (call : Call α), s.calls[n]? = some call → call.build? = some g →
    call.result = some r ∨ call.result = none ∧
      (call.left = true ∨ (s.act (.answer n)).calls[n]? = some { call with result := some r })

/-- **When a build has ended, all who started or joined it have one answer.** -/
theorem Sound.tells (hs : s.Sound) {r : Except Failure α} (hr : s.cache.result? g = some r) :
    s.Tells g r := by
  intro n call hcall hbuild
  obtain ⟨found, hfound, hg⟩ := Option.bind_eq_some_iff.1 hbuild
  cases hresult : call.result with
  | some r' =>
    have hsame := hs.result?_of_told hcall hfound hg hresult
    rw [hr] at hsame
    exact .inl hsame.symm
  | none =>
    refine .inr ⟨rfl, ?_⟩
    by_cases hleft : call.left = true
    · exact .inl hleft
    · right
      have hlt : n < s.calls.length := (List.getElem?_eq_some_iff.1 hcall).1
      have hawaits : call.awaits = some g := by
        simp [Call.awaits, hresult, hleft, hfound, hg]
      rw [act_of_step (step_of_answer hcall hawaits hr)]
      exact List.getElem?_set_self hlt

/-- Nobody is told anything of a build that runs. -/
theorem Sound.result_of_running (hs : s.Sound) (hrun : s.cache.isRunning g = true) {n : Nat}
    {call : Call α} (hcall : s.calls[n]? = some call) (hbuild : call.build? = some g) :
    call.result = none := by
  obtain ⟨found, hfound, hg⟩ := Option.bind_eq_some_iff.1 hbuild
  cases hresult : call.result with
  | none => rfl
  | some r =>
    have hr := hs.result?_of_told hcall hfound hg hresult
    obtain ⟨f, e, ending, hf, -, hending, -⟩ := Cache.result?_eq_some_iff.1 hr
    obtain ⟨f', hf', hnone⟩ := (Cache.isRunning_iff _ g).1 hrun
    rw [hf] at hf'
    cases hf'
    rw [hending] at hnone
    cases hnone

/-- A build that does not run any more has one answer for all who started or joined it. -/
theorem Sound.exists_tells (hs : s.Sound) (hg : g < s.cache.flights.length)
    (hrun : s.cache.isRunning g ≠ true) : ∃ r, s.cache.result? g = some r ∧ s.Tells g r := by
  obtain ⟨r, hr⟩ := hs.cache.exists_result hg hrun
  exact ⟨r, hr, hs.tells hr⟩

/-- However a build ends that runs, there is one answer then for all who started or joined it. -/
theorem Sound.exists_tells_finish (hs : s.Sound) (hrun : s.cache.isRunning g = true)
    (ending : Ending α) : ∃ r, (s.act (.finish g ending)).cache.result? g = some r ∧
      (s.act (.finish g ending)).Tells g r := by
  have hact : (s.act (.finish g ending)).cache = s.cache.finish g ending := by
    rw [act_of_step (step_of_finish hrun ending)]
  obtain ⟨f, hf, -⟩ := (Cache.isRunning_iff _ g).1 hrun
  refine (act_sound hs _).exists_tells ?_ ?_
  · exact Nat.lt_of_lt_of_le (List.getElem?_eq_some_iff.1 hf).1
      (run_moves hs [.finish g ending]).extends.length_flights
  · rw [hact]
    exact Cache.not_isRunning_finish s.cache g ending

/-- Who has left without an answer is never told one. -/
theorem untold_run {n : Nat} (h : ∃ call, s.calls[n]? = some call ∧ call.left = true ∧
      call.found ≠ none ∧ call.result = none) (actions : List (Action α)) :
    ∃ call, (s.run actions).calls[n]? = some call ∧ call.left = true ∧ call.found ≠ none ∧
      call.result = none := by
  refine run_induction (P := fun u => ∃ call, u.calls[n]? = some call ∧ call.left = true ∧
    call.found ≠ none ∧ call.result = none) ?_ h actions
  rintro u u' b ⟨before, hbefore, hleft, hfound, hnone⟩ hstep
  obtain ⟨call, hcall, ⟨hkept, hresult⟩ | ⟨hunlooked, -⟩⟩ := call_stays hstep hbefore
  · refine ⟨call, hcall, hkept.left hleft, by rw [hkept.found]; exact hfound, ?_⟩
    rcases hresult with hsame | hawaits
    · exact hsame.trans hnone
    · exact absurd (by simp [Call.awaits, hleft]) hawaits
  · exact absurd hunlooked hfound

/-! ## Who runs a build -/

theorem filterMap_set {β γ : Type} {f : β → Option γ} {xs : List β} {n : Nat} {x y : β}
    (hx : xs[n]? = some x) (hf : f y = f x) : (xs.set n y).filterMap f = xs.filterMap f := by
  induction xs generalizing n with
  | nil => cases hx
  | cons z rest ih =>
    cases n with
    | zero =>
      cases hx
      rw [List.set_cons_zero, List.filterMap_cons, List.filterMap_cons, hf]
    | succ n =>
      rw [List.set_cons_succ, List.filterMap_cons, List.filterMap_cons, ih hx]

theorem perm_filterMap_set {β γ : Type} {f : β → Option γ} {xs : List β} {n : Nat} {x y : β} {c : γ}
    (hx : xs[n]? = some x) (hfx : f x = none) (hfy : f y = some c) :
    ((xs.set n y).filterMap f).Perm (c :: xs.filterMap f) := by
  induction xs generalizing n with
  | nil => cases hx
  | cons z rest ih =>
    cases n with
    | zero =>
      cases hx
      rw [List.set_cons_zero, List.filterMap_cons, List.filterMap_cons, hfx, hfy]
    | succ n =>
      rw [List.set_cons_succ, List.filterMap_cons, List.filterMap_cons]
      cases f z with
      | none => exact ih hx
      | some d => exact ((ih hx).cons d).trans (.swap c d _)

/-- Who saw nothing was given a build to run, and nobody else was. -/
def Fair (call : Call α) : Prop := call.sawNothing = call.ran.isSome

theorem fair_looked {c : Cache α} {call : Call α} (hlt : call.entry < c.entries.length) :
    Fair (call.looked (c.state? call.entry) (c.look call.entry call.tier).1) := by
  have hstate : c.state? call.entry = some c.entries[call.entry].state := by
    simp [Cache.state?, hlt]
  unfold Fair Call.sawNothing Call.ran Call.looked
  rcases Cache.look_cases hstate call.tier with ⟨b, hs, hl⟩ | ⟨k, hs, hl⟩ | ⟨hheld, hl⟩
  · rw [hl, hstate, hs]
    rfl
  · rw [hl, hstate, hs]
    rfl
  · rw [hl, hstate]
    cases hs : c.entries[call.entry].state with
    | empty => rfl
    | invalidated => rfl
    | building k =>
      rw [hs] at hheld
      cases hheld
    | built b =>
      rw [hs] at hheld
      cases hheld

/-- The builds that callers were given to run are all builds, each of them once. -/
structure Shared (s : System α) : Prop where
  fair : ∀ (n : Nat) (call : Call α), s.calls[n]? = some call → Fair call
  ran : (s.calls.filterMap Call.ran).Perm (List.range s.cache.flights.length)

theorem ran_step (hs : s.Sound) (h : s.step a = some s')
    (hran : (s.calls.filterMap Call.ran).Perm (List.range s.cache.flights.length)) :
    (s'.calls.filterMap Call.ran).Perm (List.range s'.cache.flights.length) := by
  cases a with
  | enter unit tier =>
    obtain rfl := step_enter h
    have hnew : [({ unit, tier, entry := (s.cache.enter unit tier).1 } : Call α)].filterMap
        Call.ran = [] := rfl
    dsimp only
    rw [List.filterMap_append, hnew, List.append_nil, Cache.flights_enter]
    exact hran
  | look n =>
    obtain ⟨call, hcall, hnone, rfl⟩ := step_look h
    obtain ⟨st, hstate⟩ := hs.state?_entry hcall
    have hbefore : call.ran = none := by rw [Call.ran, hnone]
    rcases Cache.look_cases hstate call.tier with ⟨b, -, hl⟩ | ⟨k, -, hl⟩ | ⟨-, hl⟩
    · dsimp only
      rw [hl, filterMap_set hcall (by rw [hbefore]; rfl)]
      exact hran
    · dsimp only
      rw [hl, filterMap_set hcall (by rw [hbefore]; rfl)]
      exact hran
    · -- one build more, and one caller more who was given a build to run
      dsimp only
      rw [hl]
      have hnew := perm_filterMap_set (f := Call.ran) (c := s.cache.flights.length)
        (y := call.looked (s.cache.state? call.entry) (.started s.cache.flights.length)) hcall
        hbefore rfl
      refine hnew.trans ((hran.cons _).trans ?_)
      rw [Cache.flights_count, Cache.flights_launched, List.length_append, List.length_singleton,
        List.range_succ]
      exact (List.perm_append_singleton _ _).symm
  | finish g ending =>
    obtain ⟨hrun, rfl⟩ := step_finish h
    dsimp only
    rw [Cache.flights_finish hrun]
    simpa [Cache.ended] using hran
  | answer n =>
    obtain ⟨call, g, r, hcall, -, -, rfl⟩ := step_answer h
    dsimp only
    rw [filterMap_set (y := { call with result := some r }) hcall rfl, Cache.flights_publish]
    exact hran
  | leave n =>
    obtain ⟨call, g, hcall, -, rfl⟩ := step_leave h
    dsimp only
    rw [filterMap_set (y := { call with left := true }) hcall rfl]
    exact hran
  | evict e =>
    cases h
    exact hran
  | sweep m =>
    obtain ⟨sweep, chore, rest, -, -, rfl⟩ := step_sweep h
    dsimp only
    rw [Cache.flights_perform]
    exact hran

theorem shared_step (hs : s.Sound) (hshared : s.Shared) (h : s.step a = some s') : s'.Shared := by
  refine ⟨?_, ran_step hs h hshared.ran⟩
  intro k call hcall
  rcases call_step h hcall with ⟨before, hbefore, hkept, -⟩ | ⟨unit, tier, -, -, -, rfl⟩ |
    ⟨before, -, hbefore, -, -, rfl⟩
  · have hfair := hshared.fair k before hbefore
    unfold Fair Call.sawNothing Call.ran at hfair ⊢
    rw [hkept.saw, hkept.found]
    exact hfair
  · rfl
  · exact fair_looked (hs.entry_lt hbefore)

/-- **The builds that callers were given to run are all builds, each of them once.** -/
theorem Reachable.shared (hs : s.Reachable) : s.Shared := by
  obtain ⟨timeLimit, actions, rfl⟩ := hs
  have hboth : ((start timeLimit).run actions : System α).Sound ∧
      ((start timeLimit).run actions).Shared := by
    refine run_induction (P := fun u => u.Sound ∧ u.Shared) ?_ ⟨sound_start timeLimit, ?_⟩ actions
    · intro u u' b hu hstep
      exact ⟨step_sound hu.1 hstep, shared_step hu.1 hu.2 hstep⟩
    · exact ⟨fun n call h => by simp [start] at h, .refl _⟩
  exact hboth.2

/-- As many builds were started as callers saw nothing. -/
theorem Shared.length_flights (h : s.Shared) :
    s.cache.flights.length = s.calls.countP Call.sawNothing := by
  have hran : (s.calls.filterMap Call.ran).length = s.calls.countP Call.sawNothing := by
    rw [List.length_filterMap_eq_countP]
    refine List.countP_congr fun call hcall => ?_
    obtain ⟨n, hn⟩ := List.mem_iff_getElem?.1 hcall
    have hfair : call.sawNothing = call.ran.isSome := h.fair n call hn
    rw [hfair]
  rw [← hran, h.ran.length_eq, List.length_range]

/-- **Single flight.** At every moment and whatever happens from then on:

* if two builds of one unit overlap, an eviction invalidated the first one's entry or took it from the
  map between the two starts, unless the two calls hold different entries and one of them was overtaken;
* who was overtaken lost the entry between two of their steps: an eviction took it from the map after
  the call had fetched it there and before the call looks at it;
* those who started or joined one build have one answer as soon as it has ended, which each of them was
  told, or is told when asking for it, but for those who have left. Before that nobody is told anything,
  and the build can end in any way;
* the builds that callers were given to run are all builds, each of them once, and those callers are
  the ones who saw neither an artifact nor a build: so there are as many builds as such callers. -/
theorem single_flight (hs : s.Reachable) :
    (∀ (n₁ n₂ : Nat) (call₁ call₂ : Call α) (g₁ g₂ : Generation) (during : List (Action α))
      (u : System α), s.Starts n₁ call₁ g₁ → u = (s.act (.look n₁)).run during →
      u.Starts n₂ call₂ g₂ → call₁.unit.key = call₂.unit.key → u.cache.isRunning g₁ = true →
      (s.act (.look n₁)).EvictedDuring during call₁.entry ∨
        call₁.entry ≠ call₂.entry ∧ (s.Overtaken call₁ ∨ u.Overtaken call₂)) ∧
    (∀ (unit : Identity) (tier : Tier) (between : List (Action α)) (call : Call α) (u : System α),
      u = (s.act (.enter unit tier)).run between → u.calls[s.calls.length]? = some call →
      (u.Overtaken call ↔ (s.act (.enter unit tier)).TakenDuring between call.entry)) ∧
    (∀ g < s.cache.flights.length,
      (∃ r, s.cache.result? g = some r ∧ s.Tells g r) ∨
      s.cache.isRunning g = true ∧
        (∀ (n : Nat) (call : Call α), s.calls[n]? = some call → call.build? = some g →
          call.result = none) ∧
        ∀ ending, ∃ r, (s.act (.finish g ending)).cache.result? g = some r ∧
          (s.act (.finish g ending)).Tells g r) ∧
    (s.calls.filterMap Call.ran).Perm (List.range s.cache.flights.length) ∧
    (∀ call ∈ s.calls, call.sawNothing = call.ran.isSome) ∧
    s.cache.flights.length = s.calls.countP Call.sawNothing := by
  refine ⟨?_, ?_, ?_, hs.shared.ran, ?_, hs.shared.length_flights⟩
  · intro n₁ n₂ call₁ call₂ g₁ g₂ during u h₁ hu h₂ hkey hrun
    exact evicted_of_overlap hs.sound h₁ hu h₂ hkey hrun
  · rintro unit tier between call u rfl hcall
    exact overtaken_iff hs.sound hcall
  · intro g hg
    by_cases hrun : s.cache.isRunning g = true
    · exact .inr ⟨hrun, fun n call => hs.sound.result_of_running hrun,
        hs.sound.exists_tells_finish hrun⟩
    · exact .inl (hs.sound.exists_tells hg hrun)
  · intro call hcall
    obtain ⟨n, hn⟩ := List.mem_iff_getElem?.1 hcall
    exact hs.shared.fair n call hn

/-- A unit is evicted while it is built, and who asks for it then, in other letters, builds it once
more at the same time. -/
theorem single_flight_twice : ∃ s u : System Nat,
    s = (start 1000).run [.enter ⟨"/site/a.ks", "Site.a"⟩ .leaf] ∧
    s.Starts 0 { unit := ⟨"/site/a.ks", "Site.a"⟩, tier := .leaf, entry := 0 } 0 ∧
    u = (s.act (.look 0)).run
      [.evict (.invalidate "/site/a.ks"), .sweep 0, .sweep 0, .enter ⟨"/site/A.ks", "Site.A"⟩ .leaf] ∧
    u.Starts 1 { unit := ⟨"/site/A.ks", "Site.A"⟩, tier := .leaf, entry := 0 } 1 ∧
    u.cache.isRunning 0 = true ∧
    (s.act (.look 0)).EvictedDuring [.evict (.invalidate "/site/a.ks"), .sweep 0, .sweep 0,
      .enter ⟨"/site/A.ks", "Site.A"⟩ .leaf] 0 := by
  have hs : ((start 1000 : System Nat).run [.enter ⟨"/site/a.ks", "Site.a"⟩ .leaf]).Reachable :=
    ⟨1000, _, rfl⟩
  refine ⟨_, _, rfl, ⟨rfl, rfl, rfl⟩, rfl, ⟨rfl, rfl, rfl⟩, rfl, ?_⟩
  have hevicted := (single_flight hs).1 0 1
    { unit := ⟨"/site/a.ks", "Site.a"⟩, tier := .leaf, entry := 0 }
    { unit := ⟨"/site/A.ks", "Site.A"⟩, tier := .leaf, entry := 0 } 0 1
    [.evict (.invalidate "/site/a.ks"), .sweep 0, .sweep 0, .enter ⟨"/site/A.ks", "Site.A"⟩ .leaf] _
    ⟨rfl, rfl, rfl⟩ rfl ⟨rfl, rfl, rfl⟩ (by decide) rfl
  exact hevicted.resolve_right fun hother => hother.1 rfl

/-- A caller fetches an entry, which is then removed, and another caller starts a build at the entry
that the map has next. Who looks at the removed entry now starts a second build of the unit, and nothing
has happened between the two starts. And of two callers who share a build the one who has left is not
told what the other is told, whatever happens. -/
theorem overlap_without_eviction :
    (∃ s : System Nat, s = (start 1000).run [.enter ⟨"/site/a.ks", "Site.a"⟩ .leaf,
        .evict (.remove "/site/a.ks"), .sweep 0, .sweep 0, .enter ⟨"/site/a.ks", "Site.a"⟩ .leaf] ∧
      s.Starts 1 { unit := ⟨"/site/a.ks", "Site.a"⟩, tier := .leaf, entry := 1 } 0 ∧
      (s.act (.look 1)).Starts 0 { unit := ⟨"/site/a.ks", "Site.a"⟩, tier := .leaf, entry := 0 } 1 ∧
      (s.act (.look 1)).cache.isRunning 0 = true ∧
      ¬ (s.act (.look 1)).EvictedDuring [] 1) ∧
    ∃ s : System Nat, s = (start 1000).run [.enter ⟨"/site/a.ks", "Site.a"⟩ .leaf, .look 0,
        .enter ⟨"/site/a.ks", "Site.a"⟩ .leaf, .look 1, .leave 1, .finish 0 (.returned (.ok 7)),
        .answer 0] ∧
      s.calls.map Call.build? = [some 0, some 0] ∧
      s.calls.head?.bind Call.result = some (.ok 7) ∧
      ∀ actions, ∃ call, (s.run actions).calls[1]? = some call ∧ call.result = none := by
  constructor
  · refine ⟨_, rfl, ⟨rfl, rfl, rfl⟩, ⟨rfl, rfl, rfl⟩, rfl, ?_⟩
    rintro (hinvalidated | htaken)
    · exact not_sweptDuring_nil hinvalidated
    · exact not_sweptDuring_nil htaken
  · refine ⟨_, rfl, rfl, rfl, fun actions => ?_⟩
    refine (untold_run ?_ actions).imp fun call h => ⟨h.1, h.2.2.2⟩
    exact ⟨_, rfl, rfl, by simp [Call.looked], rfl⟩

end System

end SiteHost
