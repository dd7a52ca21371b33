import SiteHost.Proofs.Cache.Chores

/-!
# A cache under many callers

Calls, builds and evictions run side by side. What happens at once is one operation on the map from
keys to entries, or one change of one entry:

* `Call`, `Sweep` — a call for an artifact, and an eviction on its way;
* `System.step`, `System.run` — one action of anybody, and any number of actions in any order.

Principal results:

* `System.step_moves` — whatever is done to the cache, it is done in moves;
* `System.call_step`, `System.call_stays` — where a call comes from, and what becomes of it;
* `System.Sound` — calls, index, entries and builds fit together. `System.sound_run`: always.
-/

namespace SiteHost

/-! ## How many entries there are -/

namespace Cache

variable {α : Type}

theorem length_entries_look (c : Cache α) (id : Nat) (tier : Tier) :
    (c.look id tier).2.entries.length = c.entries.length := by
  unfold look
  split <;> simp

theorem length_entries_publish (c : Cache α) (g : Generation) :
    (c.publish g).entries.length = c.entries.length := by
  rcases publish_cases c g with h | ⟨f, r, -, -, -, h⟩
  · rw [h]
  · rw [h, length_entries_setState]

theorem length_entries_finish (c : Cache α) (g : Generation) (ending : Ending α) :
    (c.finish g ending).entries.length = c.entries.length := by
  by_cases hrun : c.isRunning g = true
  · by_cases hne : ending = .panicked
    · subst hne
      rw [finish_panicked hrun, entries_ended]
    · rcases finish_of_ne_panicked hrun hne with h | ⟨tier, r, h⟩
      · rw [h, length_entries_publish, entries_ended]
      · rw [h, entries_countBuild, length_entries_publish, entries_ended]
  · unfold finish
    rw [if_neg hrun]

end Cache

/-! ## Calls and evictions side by side -/

/-- The build that a caller waits for after such a look. -/
def Lookup.generation? {α : Type} : Lookup α → Option Generation
  | .hit _ => none
  | .joined g | .started g => some g

/-- A call for an artifact. -/
structure Call (α : Type) where
  unit : Identity
  tier : Tier
  /-- The entry that the map had for the unit. -/
  entry : Nat
  /-- What state the entry was in when the call looked there. -/
  saw : Option EntryStatus := none
  found : Option (Lookup α) := none
  result : Option (Except Failure α) := none
  /-- Whether the caller has stopped waiting. -/
  left : Bool := false
  deriving Inhabited

/-- An eviction on its way. -/
structure Sweep where
  eviction : Eviction
  todo : List Chore
  did : List Chore := []
  deriving Inhabited

/-- A cache, everyone who ever called and every eviction that was ever begun. -/
structure System (α : Type) where
  cache : Cache α
  calls : List (Call α) := []
  sweeps : List Sweep := []
  deriving Inhabited

/-- What happens at once. -/
inductive Action (α : Type) where
  /-- A call begins: it takes the entry of its unit from the map. -/
  | enter (unit : Identity) (tier : Tier)
  /-- A call looks at its entry. -/
  | look (n : Nat)
  /-- A build ends. -/
  | finish (g : Generation) (ending : Ending α)
  /-- A caller learns how the build has ended that it waits for. -/
  | answer (n : Nat)
  /-- A caller stops waiting. -/
  | leave (n : Nat)
  /-- An eviction begins. -/
  | evict (e : Eviction)
  /-- An eviction goes on. -/
  | sweep (m : Nat)
  deriving Inhabited

namespace Call

variable {α : Type}

/-- The build that a caller waits for. -/
def awaits (call : Call α) : Option Generation :=
  if call.result.isNone && !call.left then call.found.bind Lookup.generation? else none

/-- The call after its look at an entry. An artifact is its answer. -/
def looked (call : Call α) (state : Option (EntryState α)) (found : Lookup α) : Call α :=
  { call with
    saw := state.map EntryState.status
    found := some found
    result := match found with
      | .hit artifact => some (.ok artifact)
      | _ => none }

/-- Who awaits a build found it, has no answer yet and is still there. -/
theorem awaits_eq_some {call : Call α} {g : Generation}
    (h : call.awaits = some g) : call.result = none ∧ call.left = false ∧
      ∃ found, call.found = some found ∧ found.generation? = some g := by
  unfold Call.awaits at h
  split at h
  · rename_i hwaiting
    rw [Bool.and_eq_true, Option.isNone_iff_eq_none, Bool.not_eq_true'] at hwaiting
    obtain ⟨found, hfound, hg⟩ := Option.bind_eq_some_iff.1 h
    exact ⟨hwaiting.1, hwaiting.2, found, hfound, hg⟩
  · cases h

/-- A call that has found what it found, all but its answer. Who has left does not come back. -/
structure Kept (before call : Call α) : Prop where
  unit : call.unit = before.unit
  tier : call.tier = before.tier
  entry : call.entry = before.entry
  saw : call.saw = before.saw
  found : call.found = before.found
  left : before.left = true → call.left = true

end Call

namespace System

variable {α : Type}

/-- Nobody has called yet. -/
def start (timeLimit : Nat) : System α := { cache := { timeLimit } }

/-- One action, if it is possible. -/
def step (s : System α) : Action α → Option (System α)
  | .enter unit tier =>
    let (entry, cache) := s.cache.enter unit tier
    some { s with cache, calls := s.calls ++ [{ unit, tier, entry }] }
  | .look n =>
    match s.calls[n]? with
    | some call =>
      if call.found.isNone then
        let (found, cache) := s.cache.look call.entry call.tier
        let call := call.looked (s.cache.state? call.entry) found
        some { s with cache, calls := s.calls.set n call }
      else none
    | none => none
  | .finish g ending =>
    if s.cache.isRunning g then some { s with cache := s.cache.finish g ending } else none
  | .answer n =>
    match s.calls[n]? with
    | some call =>
      match call.awaits with
      | some g =>
        match s.cache.settle g with
        | some (result, cache) =>
          some { s with cache, calls := s.calls.set n { call with result := some result } }
        | none => none
      | none => none
    | none => none
  | .leave n =>
    match s.calls[n]? with
    | some call =>
      if call.awaits.isSome then some { s with calls := s.calls.set n { call with left := true } }
      else none
    | none => none
  | .evict e => some { s with sweeps := s.sweeps ++ [{ eviction := e, todo := [.evict e] }] }
  | .sweep m =>
    match s.sweeps[m]? with
    | some sweep =>
      match sweep.todo with
      | chore :: rest =>
        let (more, cache) := s.cache.perform chore
        let sweep := { sweep with todo := more ++ rest, did := chore :: sweep.did }
        some { s with cache, sweeps := s.sweeps.set m sweep }
      | [] => none
    | none => none

/-- One action. What is not possible changes nothing. -/
def act (s : System α) (a : Action α) : System α := (s.step a).getD s

/-- Actions one after the other. -/
def run (s : System α) (actions : List (Action α)) : System α := actions.foldl act s

/-- What can come about. -/
def Reachable (s : System α) : Prop := ∃ timeLimit actions, s = (start timeLimit).run actions

theorem run_append (s : System α) (xs ys : List (Action α)) :
    s.run (xs ++ ys) = (s.run xs).run ys :=
  List.foldl_append

theorem act_of_step {s s' : System α} {a : Action α} (h : s.step a = some s') : s.act a = s' := by
  rw [act, h, Option.getD_some]

theorem act_of_none {s : System α} {a : Action α} (h : s.step a = none) : s.act a = s := by
  rw [act, h, Option.getD_none]

/-- What every possible action keeps is kept by every action. -/
theorem act_induction {P : System α → Prop}
    (hstep : ∀ (s s' : System α) (a : Action α), P s → s.step a = some s' → P s')
    {s : System α} (hs : P s) (a : Action α) : P (s.act a) := by
  unfold act
  cases h : s.step a with
  | none => exact hs
  | some s' => exact hstep s s' a hs h

/-- What every possible action keeps is kept by every run. -/
theorem run_induction {P : System α → Prop}
    (hstep : ∀ (s s' : System α) (a : Action α), P s → s.step a = some s' → P s')
    {s : System α} (hs : P s) (actions : List (Action α)) : P (s.run actions) := by
  induction actions generalizing s with
  | nil => exact hs
  | cons a rest ih => exact ih (act_induction hstep hs a)

/-! ## What an action is made of -/

section Inversion

variable {s s' : System α}

theorem step_enter {unit : Identity} {tier : Tier} (h : s.step (.enter unit tier) = some s') :
    s' = { s with
      cache := (s.cache.enter unit tier).2
      calls := s.calls ++ [{ unit, tier, entry := (s.cache.enter unit tier).1 }] } := by
  cases h
  rfl

theorem step_look {n : Nat} (h : s.step (.look n) = some s') : ∃ call, s.calls[n]? = some call ∧
    call.found = none ∧ s' = { s with
      cache := (s.cache.look call.entry call.tier).2
      calls := s.calls.set n (call.looked (s.cache.state? call.entry)
        (s.cache.look call.entry call.tier).1) } := by
  unfold step at h
  dsimp only at h
  split at h
  · rename_i call hcall
    split at h
    · rename_i hfound
      cases h
      exact ⟨call, hcall, by simpa using hfound, rfl⟩
    · cases h
  · cases h

theorem step_finish {g : Generation} {ending : Ending α}
    (h : s.step (.finish g ending) = some s') :
    s.cache.isRunning g = true ∧ s' = { s with cache := s.cache.finish g ending } := by
  unfold step at h
  dsimp only at h
  split at h
  · rename_i hrun
    cases h
    exact ⟨hrun, rfl⟩
  · cases h

theorem step_answer {n : Nat} (h : s.step (.answer n) = some s') : ∃ call g r,
    s.calls[n]? = some call ∧ call.awaits = some g ∧ s.cache.result? g = some r ∧
    s' = { s with
      cache := s.cache.publish g
      calls := s.calls.set n { call with result := some r } } := by
  unfold step at h
  dsimp only at h
  split at h
  · rename_i call hcall
    split at h
    · rename_i g hg
      split at h
      · rename_i r cache hsettle
        obtain ⟨r', hr, hpair⟩ := Option.map_eq_some_iff.1 hsettle
        cases hpair
        cases h
        exact ⟨call, g, r, hcall, hg, hr, rfl⟩
      · cases h
    · cases h
  · cases h

theorem step_leave {n : Nat} (h : s.step (.leave n) = some s') : ∃ call g,
    s.calls[n]? = some call ∧ call.awaits = some g ∧
    s' = { s with calls := s.calls.set n { call with left := true } } := by
  unfold step at h
  dsimp only at h
  split at h
  · rename_i call hcall
    split at h
    · rename_i hg
      obtain ⟨g, hg⟩ := Option.isSome_iff_exists.1 hg
      cases h
      exact ⟨call, g, hcall, hg, rfl⟩
    · cases h
  · cases h

theorem step_sweep {m : Nat} (h : s.step (.sweep m) = some s') : ∃ sweep chore rest,
    s.sweeps[m]? = some sweep ∧ sweep.todo = chore :: rest ∧ s' = { s with
      cache := (s.cache.perform chore).2
      sweeps := s.sweeps.set m { sweep with
        todo := (s.cache.perform chore).1 ++ rest
        did := chore :: sweep.did } } := by
  unfold step at h
  dsimp only at h
  split at h
  · rename_i sweep hsweep
    split at h
    · rename_i chore rest htodo
      cases h
      exact ⟨sweep, chore, rest, hsweep, htodo, rfl⟩
    · cases h
  · cases h

end Inversion

/-! ## What an action does where it is possible -/

section Possible

variable {s : System α} {n m : Nat} {call : Call α} {sweep : Sweep}

theorem step_of_enter (s : System α) (unit : Identity) (tier : Tier) :
    s.step (.enter unit tier) = some { s with
      cache := (s.cache.enter unit tier).2
      calls := s.calls ++ [{ unit, tier, entry := (s.cache.enter unit tier).1 }] } := rfl

theorem step_of_look (hcall : s.calls[n]? = some call) (hfound : call.found = none) :
    s.step (.look n) = some { s with
      cache := (s.cache.look call.entry call.tier).2
      calls := s.calls.set n (call.looked (s.cache.state? call.entry)
        (s.cache.look call.entry call.tier).1) } := by
  simp only [step, hcall, hfound]
  rfl

theorem step_of_finish {g : Generation} (hrun : s.cache.isRunning g = true) (ending : Ending α) :
    s.step (.finish g ending) = some { s with cache := s.cache.finish g ending } := by
  simp only [step, hrun]
  rfl

theorem step_of_answer {g : Generation} {r : Except Failure α} (hcall : s.calls[n]? = some call)
    (hg : call.awaits = some g) (hr : s.cache.result? g = some r) :
    s.step (.answer n) = some { s with
      cache := s.cache.publish g
      calls := s.calls.set n { call with result := some r } } := by
  simp only [step, hcall, hg, Cache.settle, hr]
  rfl

theorem step_of_leave {g : Generation} (hcall : s.calls[n]? = some call) (hg : call.awaits = some g) :
    s.step (.leave n) = some { s with calls := s.calls.set n { call with left := true } } := by
  simp only [step, hcall, hg]
  rfl

theorem step_of_sweep {chore : Chore} {rest : List Chore} (hsweep : s.sweeps[m]? = some sweep)
    (htodo : sweep.todo = chore :: rest) : s.step (.sweep m) = some { s with
      cache := (s.cache.perform chore).2
      sweeps := s.sweeps.set m { sweep with
        todo := (s.cache.perform chore).1 ++ rest
        did := chore :: sweep.did } } := by
  simp only [step, hsweep, htodo]

end Possible

/-! ## Calls, index, entries and builds fit together -/

end System

/-- A call and its cache fit together: its entry is that of its unit, the build it waits for was
started for this entry, and its answer is what it found there or how that build ended. -/
structure Call.Linked {α : Type} (c : Cache α) (call : Call α) : Prop where
  entry : ∃ e : Entry α, c.entries[call.entry]? = some e ∧ e.identity.key = call.unit.key
  awaited : ∀ found g, call.found = some found → found.generation? = some g →
    ∃ f : Flight α, c.flights[g]? = some f ∧ f.entry = call.entry
  told : ∀ r, call.result = some r → (∃ a, call.found = some (.hit a) ∧ r = .ok a) ∨
    ∃ found g, call.found = some found ∧ found.generation? = some g ∧ c.result? g = some r

theorem Call.Linked.mono {α : Type} {c c' : Cache α} {call : Call α} (h : call.Linked c)
    (he : Cache.Extends c c') : call.Linked c' := by
  refine ⟨?_, ?_, ?_⟩
  · obtain ⟨e, hent, hkey⟩ := h.entry
    obtain ⟨e', hent', hid, -⟩ := he.entries _ e hent
    exact ⟨e', hent', by rw [hid, hkey]⟩
  · intro found g hfound hg
    obtain ⟨f, hf, hentry⟩ := h.awaited found g hfound hg
    obtain ⟨f', hf', hsame, -⟩ := he.flights g f hf
    exact ⟨f', hf', hsame.trans hentry⟩
  · intro r hr
    rcases h.told r hr with hhit | ⟨found, g, hfound, hg, hres⟩
    · exact .inl hhit
    · exact .inr ⟨found, g, hfound, hg, he.result hres⟩

namespace System

variable {α : Type}

/-- Calls, index, entries and builds fit together. -/
structure Sound (s : System α) : Prop where
  cache : s.cache.Sound
  calls : ∀ (n : Nat) (call : Call α), s.calls[n]? = some call → call.Linked s.cache

theorem sound_start (timeLimit : Nat) : Sound (start timeLimit : System α) :=
  ⟨Cache.sound_empty timeLimit [], fun _ _ h => by simp [start] at h⟩

theorem Sound.entry_lt {s : System α} (h : s.Sound) {n : Nat} {call : Call α}
    (hcall : s.calls[n]? = some call) : call.entry < s.cache.entries.length := by
  obtain ⟨e, he, -⟩ := (h.calls n call hcall).entry
  exact (List.getElem?_eq_some_iff.1 he).1

theorem Sound.state?_entry {s : System α} (h : s.Sound) {n : Nat} {call : Call α}
    (hcall : s.calls[n]? = some call) : ∃ st, s.cache.state? call.entry = some st := by
  obtain ⟨e, he, -⟩ := (h.calls n call hcall).entry
  exact ⟨e.state, Cache.state?_of_entry he⟩

/-- **Whatever is done to the cache, it is done in moves.** -/
theorem step_moves {s s' : System α} {a : Action α} (hs : s.Sound) (h : s.step a = some s') :
    Cache.Moves s.cache s'.cache := by
  cases a with
  | enter unit tier =>
    obtain rfl := step_enter h
    exact Cache.moves_enter s.cache unit tier
  | look n =>
    obtain ⟨call, hcall, -, rfl⟩ := step_look h
    exact Cache.moves_look (hs.entry_lt hcall) call.tier
  | finish g ending =>
    obtain ⟨-, rfl⟩ := step_finish h
    exact Cache.moves_finish s.cache g ending
  | answer n =>
    obtain ⟨call, g, r, -, -, -, rfl⟩ := step_answer h
    exact .single (.settle s.cache g)
  | leave n =>
    obtain ⟨call, g, -, -, rfl⟩ := step_leave h
    exact .refl
  | evict e =>
    cases h
    exact .refl
  | sweep m =>
    obtain ⟨sweep, chore, rest, -, -, rfl⟩ := step_sweep h
    exact Cache.moves_perform s.cache chore

/-- A call that begins takes the entry that the map has for its unit. -/
theorem get?_enter (c : Cache α) (unit : Identity) (tier : Tier) :
    (c.enter unit tier).2.index.get? unit.key = some (c.enter unit tier).1 := by
  unfold Cache.enter
  split
  · rename_i id hid
    exact hid
  · exact NameMap.get?_insert_self _ _ _

theorem linked_enter {c : Cache α} (hc : c.Sound) (unit : Identity) (tier : Tier) :
    Call.Linked (c.enter unit tier).2 { unit, tier, entry := (c.enter unit tier).1 } := by
  have hsound := (Cache.moves_enter c unit tier).sound hc
  refine ⟨hsound.index _ _ (get?_enter c unit tier), ?_, ?_⟩
  · intro found g hfound
    cases hfound
  · intro r hr
    cases hr

theorem linked_looked {c : Cache α} (hc : c.Sound) {call : Call α} (h : call.Linked c) :
    (call.looked (c.state? call.entry) (c.look call.entry call.tier).1).Linked
      (c.look call.entry call.tier).2 := by
  obtain ⟨e, he, hkey⟩ := h.entry
  have hlt : call.entry < c.entries.length := (List.getElem?_eq_some_iff.1 he).1
  have hstate : c.state? call.entry = some e.state := Cache.state?_of_entry he
  have hext := (Cache.moves_look hlt call.tier).extends
  obtain ⟨e', he', hid, -⟩ := hext.entries _ e he
  refine ⟨⟨e', he', by rw [hid]; exact hkey⟩, ?_, ?_⟩
  · intro found g hfound hg
    cases hfound
    rcases Cache.look_cases hstate call.tier with ⟨a, -, hl⟩ | ⟨k, hs, hl⟩ | ⟨-, hl⟩
    · rw [hl] at hg
      cases hg
    · rw [hl] at hg ⊢
      cases hg
      exact ((hc.fresh call.entry).building g (by rw [hstate, hs])).2
    · rw [hl] at hg ⊢
      cases hg
      exact ⟨{ entry := call.entry }, by simp, rfl⟩
  · intro r hr
    rcases Cache.look_cases hstate call.tier with ⟨a, -, hl⟩ | ⟨k, -, hl⟩ | ⟨-, hl⟩
    · rw [hl] at hr ⊢
      cases hr
      exact .inl ⟨a, rfl, rfl⟩
    · rw [hl] at hr
      cases hr
    · rw [hl] at hr
      cases hr

/-- The calls after one of them has changed. -/
theorem getElem?_set_cases {calls : List (Call α)} {n k : Nat} {call call' : Call α}
    (h : (calls.set n call')[k]? = some call) :
    calls[k]? = some call ∨ (k = n ∧ call = call') := by
  rw [List.getElem?_set] at h
  split at h
  · rename_i hk
    split at h
    · cases h
      exact .inr ⟨hk.symm, rfl⟩
    · cases h
  · exact .inl h

/-- Where a call of a state comes from: it was there before the action, perhaps without its answer; it
has just begun; or it has just looked at its entry. -/
theorem call_step {s s' : System α} {a : Action α} (h : s.step a = some s') {k : Nat}
    {call : Call α} (hcall : s'.calls[k]? = some call) :
    (∃ before, s.calls[k]? = some before ∧ before.Kept call ∧ (call.result = before.result ∨
      ∃ g r, a = .answer k ∧ before.awaits = some g ∧ s.cache.result? g = some r ∧
        call.result = some r)) ∨
    (∃ unit tier, a = .enter unit tier ∧ k = s.calls.length ∧
      s'.cache = (s.cache.enter unit tier).2 ∧
      call = { unit, tier, entry := (s.cache.enter unit tier).1 }) ∨
    ∃ before, a = .look k ∧ s.calls[k]? = some before ∧ before.found = none ∧
      s'.cache = (s.cache.look before.entry before.tier).2 ∧
      call = before.looked (s.cache.state? before.entry)
        (s.cache.look before.entry before.tier).1 := by
  have hold : s.calls[k]? = some call → ∃ before, s.calls[k]? = some before ∧ before.Kept call ∧
      (call.result = before.result ∨ ∃ g r, a = .answer k ∧ before.awaits = some g ∧
        s.cache.result? g = some r ∧ call.result = some r) := fun h =>
    ⟨call, h, ⟨rfl, rfl, rfl, rfl, rfl, id⟩, .inl rfl⟩
  cases a with
  | enter unit tier =>
    obtain rfl := step_enter h
    rw [List.getElem?_append] at hcall
    split at hcall
    · exact .inl (hold hcall)
    · rename_i hk
      have hlast : k - s.calls.length = 0 := by
        have hlt := (List.getElem?_eq_some_iff.1 hcall).1
        rw [List.length_singleton] at hlt
        omega
      rw [hlast] at hcall
      cases hcall
      exact .inr (.inl ⟨unit, tier, rfl, by omega, rfl, rfl⟩)
  | look n =>
    obtain ⟨before, hbefore, hnone, rfl⟩ := step_look h
    rcases getElem?_set_cases hcall with hsame | ⟨rfl, rfl⟩
    · exact .inl (hold hsame)
    · exact .inr (.inr ⟨before, rfl, hbefore, hnone, rfl, rfl⟩)
  | finish g ending =>
    obtain ⟨-, rfl⟩ := step_finish h
    exact .inl (hold hcall)
  | answer n =>
    obtain ⟨before, g, r, hbefore, hg, hr, rfl⟩ := step_answer h
    rcases getElem?_set_cases hcall with hsame | ⟨rfl, rfl⟩
    · exact .inl (hold hsame)
    · exact .inl ⟨before, hbefore, ⟨rfl, rfl, rfl, rfl, rfl, id⟩, .inr ⟨g, r, rfl, hg, hr, rfl⟩⟩
  | leave n =>
    obtain ⟨before, g, hbefore, -, rfl⟩ := step_leave h
    rcases getElem?_set_cases hcall with hsame | ⟨rfl, rfl⟩
    · exact .inl (hold hsame)
    · exact .inl ⟨before, hbefore, ⟨rfl, rfl, rfl, rfl, rfl, fun _ => rfl⟩, .inl rfl⟩
  | evict e =>
    cases h
    exact .inl (hold hcall)
  | sweep m =>
    obtain ⟨sweep, chore, rest, -, -, rfl⟩ := step_sweep h
    exact .inl (hold hcall)

/-- Nobody is forgotten who called. -/
theorem length_calls_step {s s' : System α} {a : Action α} (h : s.step a = some s') :
    s.calls.length ≤ s'.calls.length := by
  cases a with
  | enter unit tier =>
    obtain rfl := step_enter h
    simp
  | look n =>
    obtain ⟨before, -, -, rfl⟩ := step_look h
    simp
  | finish g ending =>
    obtain ⟨-, rfl⟩ := step_finish h
    exact Nat.le_refl _
  | answer n =>
    obtain ⟨before, g, r, -, -, -, rfl⟩ := step_answer h
    simp
  | leave n =>
    obtain ⟨before, g, -, -, rfl⟩ := step_leave h
    simp
  | evict e =>
    cases h
    exact Nat.le_refl _
  | sweep m =>
    obtain ⟨sweep, chore, rest, -, -, rfl⟩ := step_sweep h
    exact Nat.le_refl _

/-- What becomes of a call: it stays, perhaps with its answer now, or it looks at its entry. -/
theorem call_stays {s s' : System α} {a : Action α} (h : s.step a = some s') {n : Nat}
    {before : Call α} (hbefore : s.calls[n]? = some before) :
    ∃ call, s'.calls[n]? = some call ∧
      ((before.Kept call ∧ (call.result = before.result ∨ before.awaits ≠ none)) ∨
        (before.found = none ∧ s'.cache = (s.cache.look before.entry before.tier).2 ∧
          call = before.looked (s.cache.state? before.entry)
            (s.cache.look before.entry before.tier).1)) := by
  have hn : n < s.calls.length := (List.getElem?_eq_some_iff.1 hbefore).1
  have hcall := List.getElem?_eq_getElem (Nat.lt_of_lt_of_le hn (length_calls_step h))
  refine ⟨_, hcall, ?_⟩
  rcases call_step h hcall with ⟨before', hbefore', hkept, hresult⟩ | ⟨unit, tier, -, hlast, -⟩ |
    ⟨before', -, hbefore', hnone, hcache, heq⟩
  · rw [hbefore] at hbefore'
    cases hbefore'
    refine .inl ⟨hkept, hresult.imp_right ?_⟩
    rintro ⟨g, r, -, hawaits, -⟩ hnone
    rw [hnone] at hawaits
    cases hawaits
  · exact absurd hlast (Nat.ne_of_lt hn)
  · rw [hbefore] at hbefore'
    cases hbefore'
    exact .inr ⟨hnone, hcache, heq⟩

theorem step_sound {s s' : System α} {a : Action α} (hs : s.Sound) (h : s.step a = some s') :
    s'.Sound := by
  have hmoves := step_moves hs h
  refine ⟨hmoves.sound hs.cache, ?_⟩
  intro k call hcall
  rcases call_step h hcall with ⟨before, hbefore, hkept, hresult⟩ |
    ⟨unit, tier, -, -, hcache, rfl⟩ | ⟨before, -, hbefore, -, hcache, rfl⟩
  · have hlinked := (hs.calls k before hbefore).mono hmoves.extends
    refine ⟨?_, ?_, ?_⟩
    · rw [hkept.entry, hkept.unit]
      exact hlinked.entry
    · rw [hkept.entry, hkept.found]
      exact hlinked.awaited
    · intro r hr
      rw [hkept.found]
      rcases hresult with hsame | ⟨g, r', -, hg, hr', hnow⟩
      · exact hlinked.told r (hsame ▸ hr)
      · rw [hnow] at hr
        cases hr
        obtain ⟨-, -, found, hfound, hgen⟩ := Call.awaits_eq_some hg
        exact .inr ⟨found, g, hfound, hgen, hmoves.extends.result hr'⟩
  · rw [hcache]
    exact linked_enter hs.cache unit tier
  · rw [hcache]
    exact linked_looked hs.cache (hs.calls k before hbefore)

/-- **Calls, index, entries and builds fit together at all times.** -/
theorem sound_run {s : System α} (hs : s.Sound) (actions : List (Action α)) :
    (s.run actions).Sound :=
  run_induction (fun _ _ _ hu hstep => step_sound hu hstep) hs actions

theorem Reachable.sound {s : System α} (h : s.Reachable) : s.Sound := by
  obtain ⟨timeLimit, actions, rfl⟩ := h
  exact sound_run (sound_start timeLimit) actions

/-- Who waited for a build was told its result. -/
theorem Sound.result?_of_told {s : System α} (hs : s.Sound) {n : Nat} {call : Call α}
    (hcall : s.calls[n]? = some call) {found : Lookup α} (hfound : call.found = some found) {g : Generation}
    (hg : found.generation? = some g) {r : Except Failure α} (hr : call.result = some r) :
    s.cache.result? g = some r := by
  rcases (hs.calls n call hcall).told r hr with ⟨b, hhit, -⟩ | ⟨found', g', hfound', hg', hres⟩
  · rw [hfound] at hhit
    cases hhit
    cases hg
  · rw [hfound] at hfound'
    cases hfound'
    rw [hg] at hg'
    cases hg'
    exact hres

theorem run_moves {s : System α} (hs : s.Sound) (actions : List (Action α)) :
    Cache.Moves s.cache (s.run actions).cache := by
  have hboth : (s.run actions).Sound ∧ Cache.Moves s.cache (s.run actions).cache := by
    refine run_induction (P := fun u => u.Sound ∧ Cache.Moves s.cache u.cache) ?_ ⟨hs, .refl⟩ actions
    intro u u' a hu hstep
    exact ⟨step_sound hu.1 hstep, hu.2.trans (step_moves hu.1 hstep)⟩
  exact hboth.2

/-! ## Where entries and chores come from -/

section Origins

variable {s s' : System α} {a : Action α} {id : Nat}

/-- Where an entry comes from: it was there before the action, or somebody has called for its unit. -/
theorem entry_step_cases (hs : s.Sound) (h : s.step a = some s') {entry : Entry α}
    (hentry : s'.cache.entries[id]? = some entry) :
    (∃ before : Entry α, s.cache.entries[id]? = some before ∧ entry.identity = before.identity ∧
      entry.tier = before.tier) ∨
    a = .enter entry.identity entry.tier := by
  have hext := (step_moves hs h).extends
  by_cases hlt : id < s.cache.entries.length
  · have hold := List.getElem?_eq_getElem hlt
    obtain ⟨entry', hentry', hi, ht⟩ := hext.entries id _ hold
    rw [hentry] at hentry'
    cases hentry'
    exact .inl ⟨_, hold, hi, ht⟩
  · have hlt' := (List.getElem?_eq_some_iff.1 hentry).1
    have hsame : s'.cache.entries.length ≠ s.cache.entries.length := fun heq => hlt (heq ▸ hlt')
    cases a with
    | enter unit tier =>
      obtain rfl := step_enter h
      right
      dsimp only at hentry
      unfold Cache.enter at hentry
      split at hentry
      · exact absurd (List.getElem?_eq_some_iff.1 hentry).1 hlt
      · dsimp only at hentry
        rw [List.getElem?_append_right (Nat.le_of_not_lt hlt)] at hentry
        have hnew := List.mem_of_getElem? hentry
        rw [List.mem_singleton] at hnew
        rw [hnew]
    | look n =>
      obtain ⟨call, -, -, rfl⟩ := step_look h
      exact absurd (Cache.length_entries_look _ _ _) hsame
    | finish g ending =>
      obtain ⟨-, rfl⟩ := step_finish h
      exact absurd (Cache.length_entries_finish _ _ _) hsame
    | answer n =>
      obtain ⟨call, g, r, -, -, -, rfl⟩ := step_answer h
      exact absurd (Cache.length_entries_publish _ _) hsame
    | leave n =>
      obtain ⟨call, g, -, -, rfl⟩ := step_leave h
      exact absurd rfl hsame
    | evict e =>
      cases h
      exact absurd rfl hsame
    | sweep m =>
      obtain ⟨sweep, chore, rest, -, -, rfl⟩ := step_sweep h
      exact absurd (Cache.length_entries_perform _ _) hsame

/-- What an action does to the evictions that were begun: nothing, but if another begins or one of them
goes on. -/
theorem sweeps_step_cases (h : s.step a = some s') :
    s'.sweeps = s.sweeps ∨
    (∃ e, a = .evict e ∧ s'.sweeps = s.sweeps ++ [{ eviction := e, todo := [.evict e] }]) ∨
    ∃ m sweep chore rest, a = .sweep m ∧ s.sweeps[m]? = some sweep ∧ sweep.todo = chore :: rest ∧
      s'.cache = (s.cache.perform chore).2 ∧ s'.sweeps = s.sweeps.set m { sweep with
        todo := (s.cache.perform chore).1 ++ rest
        did := chore :: sweep.did } := by
  cases a with
  | enter unit tier =>
    obtain rfl := step_enter h
    exact .inl rfl
  | look n =>
    obtain ⟨call, -, -, rfl⟩ := step_look h
    exact .inl rfl
  | finish g ending =>
    obtain ⟨-, rfl⟩ := step_finish h
    exact .inl rfl
  | answer n =>
    obtain ⟨call, g, r, -, -, -, rfl⟩ := step_answer h
    exact .inl rfl
  | leave n =>
    obtain ⟨call, g, -, -, rfl⟩ := step_leave h
    exact .inl rfl
  | evict e =>
    cases h
    exact .inr (.inl ⟨e, rfl, rfl⟩)
  | sweep m =>
    obtain ⟨sweep, chore, rest, hsweep, htodo, rfl⟩ := step_sweep h
    exact .inr (.inr ⟨m, sweep, chore, rest, rfl, hsweep, htodo, rfl, rfl⟩)

/-- Where the chores of an eviction come from: they were there before the action, the eviction has just
begun, or it has done one of them. -/
theorem sweep_step_cases (h : s.step a = some s') {m : Nat} {sweep : Sweep}
    (hsweep : s'.sweeps[m]? = some sweep) :
    s.sweeps[m]? = some sweep ∨
    (a = .evict sweep.eviction ∧ sweep.todo = [.evict sweep.eviction]) ∨
    ∃ before chore rest, s.sweeps[m]? = some before ∧ sweep.eviction = before.eviction ∧
      before.todo = chore :: rest ∧ s'.cache = (s.cache.perform chore).2 ∧
      sweep.todo = (s.cache.perform chore).1 ++ rest := by
  rcases sweeps_step_cases h with hsame | ⟨e, rfl, hnew⟩ |
    ⟨k, before, chore, rest, -, hbefore, htodo, hcache, hset⟩
  · exact .inl (hsame ▸ hsweep)
  · rw [hnew, List.getElem?_append] at hsweep
    split at hsweep
    · exact .inl hsweep
    · have hmem := List.mem_of_getElem? hsweep
      rw [List.mem_singleton] at hmem
      subst hmem
      exact .inr (.inl ⟨rfl, rfl⟩)
  · rw [hset, List.getElem?_set] at hsweep
    split at hsweep
    · rename_i hk
      subst hk
      split at hsweep
      · cases hsweep
        exact .inr (.inr ⟨before, chore, rest, hbefore, rfl, htodo, hcache, rfl⟩)
      · cases hsweep
    · exact .inl hsweep

end Origins

/-! ## What an action does to builds and to those who wait for them -/

section Builds

variable {s s' : System α} {a : Action α} {g : Generation} {id : Nat}

/-- A build that was started before an action is changed by its own end only. -/
theorem getElem?_flights_step (h : s.step a = some s') (hg : g < s.cache.flights.length) :
    s'.cache.flights[g]? = s.cache.flights[g]? ∨ ∃ ending, a = .finish g ending := by
  cases a with
  | enter unit tier =>
    obtain rfl := step_enter h
    exact .inl (by simp)
  | look n =>
    obtain ⟨call, -, -, rfl⟩ := step_look h
    left
    rcases Cache.flights_look_cases s.cache call.entry call.tier with hl | hl
    · dsimp only
      rw [hl]
    · dsimp only
      rw [hl, List.getElem?_append_left hg]
  | finish k ending =>
    obtain ⟨hrun, rfl⟩ := step_finish h
    by_cases hk : k = g
    · exact .inr ⟨ending, by rw [hk]⟩
    · left
      dsimp only
      rw [Cache.flights_finish hrun, Cache.getElem?_flights_ended, if_neg hk]
  | answer n =>
    obtain ⟨call, k, r, -, -, -, rfl⟩ := step_answer h
    exact .inl (by simp)
  | leave n =>
    obtain ⟨call, k, -, -, rfl⟩ := step_leave h
    exact .inl rfl
  | evict e =>
    cases h
    exact .inl rfl
  | sweep m =>
    obtain ⟨sweep, chore, rest, -, -, rfl⟩ := step_sweep h
    exact .inl (by dsimp only; rw [Cache.flights_perform])

/-- A build that was not there before an action is running after it. -/
theorem isRunning_step (h : s.step a = some s') (hg : s.cache.flights.length ≤ g)
    (hg' : g < s'.cache.flights.length) : s'.cache.isRunning g = true := by
  have hsame : s'.cache.flights.length = s.cache.flights.length → s'.cache.isRunning g = true :=
    fun hlen => absurd hg' (Nat.not_lt.2 (hlen ▸ hg))
  cases a with
  | enter unit tier =>
    obtain rfl := step_enter h
    exact hsame (by simp)
  | look n =>
    obtain ⟨call, -, -, rfl⟩ := step_look h
    rcases Cache.flights_look_cases s.cache call.entry call.tier with hl | hl
    · exact hsame (by dsimp only; rw [hl])
    · dsimp only at hg' ⊢
      rw [hl, List.length_append, List.length_singleton] at hg'
      have hlast : g = s.cache.flights.length := Nat.le_antisymm (Nat.le_of_lt_succ hg') hg
      refine (Cache.isRunning_iff _ g).2 ⟨{ entry := call.entry }, ?_, rfl⟩
      rw [hl, hlast, List.getElem?_concat_length]
  | finish k ending =>
    obtain ⟨hrun, rfl⟩ := step_finish h
    exact hsame (by dsimp only; rw [Cache.flights_finish hrun]; simp [Cache.ended])
  | answer n =>
    obtain ⟨call, k, r, -, -, -, rfl⟩ := step_answer h
    exact hsame (by simp)
  | leave n =>
    obtain ⟨call, k, -, -, rfl⟩ := step_leave h
    exact hsame rfl
  | evict e =>
    cases h
    exact hsame rfl
  | sweep m =>
    obtain ⟨sweep, chore, rest, -, -, rfl⟩ := step_sweep h
    exact hsame (by dsimp only; rw [Cache.flights_perform])

/-- What makes an entry give up a build that it waits for: an eviction, the end of the build or, if
the build has ended, somebody who hears of it. -/
theorem state?_building_step (hs : s.Sound) (h : s.step a = some s')
    (hbuild : s.cache.state? id = some (.building g)) :
    s'.cache.state? id = some (.building g) ∨
    (∃ m, a = .sweep m ∧ s'.cache.state? id = some .invalidated) ∨
    (∃ ending, a = .finish g ending) ∨
    ∃ n call, a = .answer n ∧ s.calls[n]? = some call ∧ call.awaits = some g := by
  obtain ⟨e, he, -⟩ := Option.map_eq_some_iff.1 hbuild
  have hid : id < s.cache.entries.length := (List.getElem?_eq_some_iff.1 he).1
  cases a with
  | enter unit tier =>
    obtain rfl := step_enter h
    exact .inl ((Cache.state?_enter unit tier hid).trans hbuild)
  | look n =>
    obtain ⟨call, hcall, -, rfl⟩ := step_look h
    obtain ⟨st, hst⟩ := hs.state?_entry hcall
    exact .inl (Cache.state?_look_of_building hst call.tier hbuild)
  | finish k ending =>
    obtain ⟨-, rfl⟩ := step_finish h
    by_cases hk : k = g
    · exact .inr (.inr (.inl ⟨ending, by rw [hk]⟩))
    · left
      rw [← hbuild]
      refine Cache.state?_finish_of_ne (fun hother => ?_) ending
      rw [hbuild] at hother
      cases hother
      exact hk rfl
  | answer n =>
    obtain ⟨call, k, r, hcall, hk, -, rfl⟩ := step_answer h
    by_cases hkg : k = g
    · exact .inr (.inr (.inr ⟨n, call, rfl, hcall, by rw [hk, hkg]⟩))
    · left
      rw [← hbuild]
      refine Cache.state?_publish_of_ne fun hother => ?_
      rw [hbuild] at hother
      cases hother
      exact hkg rfl
  | leave n =>
    obtain ⟨call, k, -, -, rfl⟩ := step_leave h
    exact .inl hbuild
  | evict e =>
    cases h
    exact .inl hbuild
  | sweep m =>
    obtain ⟨sweep, chore, rest, -, -, rfl⟩ := step_sweep h
    rcases Cache.state?_perform_cases s.cache chore id with hsame | hinv
    · exact .inl (hsame.trans hbuild)
    · exact .inr (.inl ⟨m, rfl, hinv⟩)

end Builds

end System

end SiteHost
