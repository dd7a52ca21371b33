import Mathlib.Data.List.Induction
import SiteHost.Proofs.Cache.System

/-!
# What is counted of builds

A caller who starts a build counts a miss, and a build that comes to an end counts itself, the time it took and,
if it failed, its failure:

* `Metrics.named` — how often the series of a name were counted, whatever their labels;
* `Cache.tally` — how many builds have ended in a certain way;
* `Cache.failures`, `Cache.panics` — the builds whose callers are told of an error, and those that panicked;
* `Cache.Tallied` — the counters agree with the builds, but those that panicked are counted as misses only.

Principal results:

* `Tallied.look`, `Tallied.finish`, `Tallied.perform` — what is counted when a build starts and when it ends, and
  that evictions count nothing of the kind;
* `System.Reachable.tallied` — the counters agree with the builds at all times;
* `System.builds_accounted` — when no build is running, every build is accounted for that did not panic.
-/

namespace SiteHost

variable {α : Type}

/-! ## Counters by name -/

/-- How often the series of a name were counted, whatever their labels. -/
def Metrics.named (m : Metrics) (name : String) : Nat := m.total fun s => s.name == name

theorem Metrics.named_add (m : Metrics) (s : Series) (n : Nat) (name : String) :
    (m.add s n).named name = m.named name + if s.name = name then n else 0 := by
  rw [named, total_add, named]
  simp only [beq_iff_eq]

/-! ## Builds by their ends -/

namespace Ending

/-- Whether a build panicked. -/
def isPanic : Ending α → Bool
  | .panicked => true
  | _ => false

/-- Whether a build failed: with an error of its own, by the clock or in a panic. -/
def isFailure : Ending α → Bool
  | .returned (.ok _) => false
  | _ => true

theorem isFailure_and_isPanic (ending : Ending α) : (ending.isFailure && ending.isPanic) = ending.isPanic := by
  cases ending with
  | returned r => exact Bool.and_false _
  | timedOut => rfl
  | panicked => rfl

/-- The callers of a build that failed are told of an error. -/
theorem isOk_result (unit : String) (timeLimit : Nat) (ending : Ending α) :
    (ending.result unit timeLimit).isOk = !ending.isFailure := by
  cases ending with
  | returned r => cases r <;> rfl
  | timedOut => rfl
  | panicked => rfl

end Ending

namespace Cache

variable {c c' : Cache α} {g : Generation} {ending : Ending α}

/-- How many builds have ended in a way that satisfies `p`. -/
def tally (c : Cache α) (p : Ending α → Bool) : Nat := c.flights.countP fun f => f.ending.any p

/-- The builds whose callers are told of an error. -/
def failures (c : Cache α) : List Generation :=
  (List.range c.flights.length).filter fun g => (c.result? g).any fun r => !r.isOk

/-- The builds that panicked. -/
def panics (c : Cache α) : List Generation :=
  (List.range c.flights.length).filter fun g => (c.flights[g]?).any fun f => f.ending.any Ending.isPanic

/-- The items that satisfy `q`, by their places. -/
theorem length_filter_range {β : Type} (items : List β) (q : β → Bool) :
    ((List.range items.length).filter fun i => (items[i]?).any q).length = items.countP q := by
  induction items using List.reverseRecOn with
  | nil => rfl
  | append_singleton items x ih =>
    have hfront : (List.range items.length).filter (fun i => ((items ++ [x])[i]?).any q) =
        (List.range items.length).filter fun i => (items[i]?).any q := by
      refine List.filter_congr fun i hi => ?_
      rw [List.getElem?_append_left (List.mem_range.1 hi)]
    rw [List.length_append, List.length_singleton, List.range_succ, List.filter_append, hfront,
      List.length_append, ih, List.countP_append]
    cases hx : q x <;> simp [hx]

theorem length_panics (c : Cache α) : c.panics.length = c.tally Ending.isPanic :=
  length_filter_range c.flights _

/-- **The builds that failed are those whose callers are told of an error.** -/
theorem length_failures (hc : c.Sound) : c.failures.length = c.tally Ending.isFailure := by
  rw [tally, ← length_filter_range, failures]
  congr 1
  refine List.filter_congr fun g _ => ?_
  cases hf : c.flights[g]? with
  | none => rw [result?, hf]; rfl
  | some f =>
    have hentry := List.getElem?_eq_getElem (hc.flights g f hf)
    rw [result?, hf, Option.bind_eq_bind, Option.bind_some, hentry, Option.bind_eq_bind, Option.bind_some,
      Option.any_some]
    cases f.ending with
    | none => rfl
    | some ending =>
      change (!(ending.result _ c.timeLimit).isOk) = ending.isFailure
      rw [Ending.isOk_result, Bool.not_not]

/-- A build that ends is counted by its end. -/
theorem tally_ended (hrun : c.isRunning g = true) (ending : Ending α) (p : Ending α → Bool) :
    (c.ended g ending).tally p = c.tally p + (p ending).toNat := by
  obtain ⟨f, hf, hnone⟩ := (isRunning_iff c g).1 hrun
  obtain ⟨hg, hget⟩ := List.getElem?_eq_some_iff.1 hf
  rw [tally, ended, List.modify_eq_set, List.countP_set hg, hf, hget, hnone]
  cases hp : p ending <;> simp [hp, tally]

/-- Builds that ended in one way and not in another, and those that ended in both. -/
theorem tally_and_not (c : Cache α) (p q : Ending α → Bool) :
    c.tally (fun e => p e && !q e) + c.tally (fun e => p e && q e) = c.tally p := by
  unfold tally
  induction c.flights with
  | nil => rfl
  | cons f rest ih =>
    rw [List.countP_cons, List.countP_cons, List.countP_cons, ← ih]
    cases f.ending with
    | none => rfl
    | some e =>
      cases hp : p e <;> cases hq : q e <;> simp [hp, hq] <;> omega

/-- When no build is running, all have ended. -/
theorem tally_of_idle (h : c.running = []) : c.tally (fun _ => true) = c.flights.length := by
  rw [tally, List.countP_eq_length]
  intro f hf
  obtain ⟨g, hg, rfl⟩ := List.mem_iff_getElem.1 hf
  have hended := List.filter_eq_nil_iff.1 h g (List.mem_range.2 hg)
  cases hending : c.flights[g].ending with
  | none => exact absurd ((isRunning_iff c g).2 ⟨_, List.getElem?_eq_getElem hg, hending⟩) hended
  | some ending => rfl

/-! ## Counters and builds -/

/-- Whether the counters agree with the builds. One that panicked is counted as a miss only. -/
structure Tallied (c : Cache α) : Prop where
  started : c.metrics.named "kiln_cache_miss_total" = c.flights.length
  compiled : c.metrics.named "kiln_compile_total" = c.tally fun e => !e.isPanic
  timed : c.metrics.named "kiln_compile_ms" = c.tally fun e => !e.isPanic
  failed : c.metrics.named "kiln_compile_failure_total" = c.tally fun e => e.isFailure && !e.isPanic

theorem metrics_publish (c : Cache α) (g : Generation) : (c.publish g).metrics = c.metrics := by
  rcases publish_cases c g with h | ⟨f, r, -, -, -, h⟩
  · rw [h]
  · rw [h]
    rfl

theorem metrics_enter (c : Cache α) (unit : Identity) (tier : Tier) :
    (c.enter unit tier).2.metrics = c.metrics := by
  unfold enter
  split <;> rfl

theorem metrics_dropEntry (c : Cache α) (id : Nat) : (c.dropEntry id).2.metrics = c.metrics := by
  unfold dropEntry
  split
  · split <;> rfl
  · rfl

/-- What is counted when a build comes to an end. -/
theorem named_countBuild (c : Cache α) (tier : Tier) (r : Except Failure α) (name : String) :
    (c.countBuild tier r).metrics.named name = c.metrics.named name +
      (if "kiln_compile_total" = name then 1 else 0) + (if "kiln_compile_ms" = name then 1 else 0) +
      if "kiln_compile_failure_total" = name ∧ r.isOk = false then 1 else 0 := by
  have htimed : ((c.count (.compiled tier) 1).count (.compileTime tier) 1).metrics.named name =
      c.metrics.named name + (if "kiln_compile_total" = name then 1 else 0) +
        if "kiln_compile_ms" = name then 1 else 0 := by
    rw [Cache.count, Metrics.named_add, Cache.count, Metrics.named_add]
    rfl
  cases r with
  | ok a =>
    have hnone : ¬ ("kiln_compile_failure_total" = name ∧ (Except.ok a : Except Failure α).isOk = false) :=
      fun h => absurd h.2 (by simp [Except.isOk, Except.toBool])
    rw [if_neg hnone]
    exact htimed
  | error failure =>
    have hfailed : (c.countBuild tier (.error failure)).metrics.named name =
        ((c.count (.compiled tier) 1).count (.compileTime tier) 1).metrics.named name +
          if "kiln_compile_failure_total" = name then 1 else 0 := Metrics.named_add _ _ _ _
    rw [hfailed, htimed]
    simp [Except.isOk, Except.toBool]

/-- A build that ends by itself or by the clock is counted with its result. -/
theorem finish_eq_countBuild (hc : c.Sound) (hrun : c.isRunning g = true) (hne : ending ≠ .panicked) :
    ∃ e : Entry α, c.finish g ending =
      ((c.ended g ending).countBuild e.tier (ending.result e.identity.typeName c.timeLimit)).publish g := by
  obtain ⟨f, hf, -⟩ := (isRunning_iff c g).1 hrun
  have hflight : (c.ended g ending).flights[g]? = some { f with ending := some ending } := by
    rw [getElem?_flights_ended, if_pos rfl, hf]
    rfl
  obtain ⟨e, hentry⟩ : ∃ e, c.entries[f.entry]? = some e :=
    ⟨_, List.getElem?_eq_getElem (hc.flights g f hf)⟩
  have hentryOf : (c.ended g ending).entryOf? g = some e := by
    rw [entryOf?, hflight]
    exact hentry
  have hresult : (c.ended g ending).result? g = some (ending.result e.identity.typeName c.timeLimit) :=
    result?_eq_some_iff.2 ⟨_, e, ending, hflight, hentry, rfl, rfl⟩
  refine ⟨e, ?_⟩
  unfold finish
  rw [if_pos hrun]
  rw [show ({ c with flights := c.flights.modify g fun f => { f with ending := some ending } } :
    Cache α) = c.ended g ending from rfl]
  dsimp only
  rw [hentryOf, hresult]
  cases ending with
  | panicked => exact absurd rfl hne
  | _ => rfl

namespace Tallied

theorem congr (h : c.Tallied) (hmetrics : c'.metrics = c.metrics) (hflights : c'.flights = c.flights) :
    c'.Tallied := by
  have htally (p : Ending α → Bool) : c'.tally p = c.tally p := by rw [tally, hflights, tally]
  refine ⟨?_, ?_, ?_, ?_⟩
  · rw [hmetrics, hflights]
    exact h.started
  · rw [hmetrics, htally]
    exact h.compiled
  · rw [hmetrics, htally]
    exact h.timed
  · rw [hmetrics, htally]
    exact h.failed

/-- Other series may be counted. -/
theorem count (h : c.Tallied) {s : Series} (hs : s.name = "kiln_cache_hit_total" ∨
    s.name = "kiln_cache_invalidation_total") (n : Nat) : (c.count s n).Tallied := by
  have hnamed (name : String) (hhit : "kiln_cache_hit_total" ≠ name)
      (hevicted : "kiln_cache_invalidation_total" ≠ name) :
      (c.count s n).metrics.named name = c.metrics.named name := by
    have hne : s.name ≠ name := by
      rcases hs with hs | hs
      · rwa [hs]
      · rwa [hs]
    rw [Cache.count, Metrics.named_add, if_neg hne, Nat.add_zero]
  exact ⟨(hnamed _ (by decide) (by decide)).trans h.started, (hnamed _ (by decide) (by decide)).trans h.compiled,
    (hnamed _ (by decide) (by decide)).trans h.timed, (hnamed _ (by decide) (by decide)).trans h.failed⟩

theorem start (timeLimit : Nat) : Tallied ({ timeLimit } : Cache α) := ⟨rfl, rfl, rfl, rfl⟩

/-- **Who starts a build counts a miss.** -/
theorem look (h : c.Tallied) {id : Nat} (hid : id < c.entries.length) (tier : Tier) :
    (c.look id tier).2.Tallied := by
  have hs : c.state? id = some c.entries[id].state := by rw [state?, List.getElem?_eq_getElem hid, Option.map_some]
  rcases look_cases hs tier with ⟨a, -, hlook⟩ | ⟨g, -, hlook⟩ | ⟨-, hlook⟩
  · rw [hlook]
    exact h.count (.inl rfl) 1
  · rw [hlook]
    exact h
  · rw [hlook]
    have htally (p : Ending α → Bool) : ((c.launched id).count (.miss tier) 1).tally p = c.tally p := by
      rw [tally, flights_count, flights_launched, List.countP_append]
      rfl
    have hnamed (name : String) : ((c.launched id).count (.miss tier) 1).metrics.named name =
        c.metrics.named name + if (Series.miss tier).name = name then 1 else 0 :=
      Metrics.named_add c.metrics (.miss tier) 1 name
    refine ⟨?_, ?_, ?_, ?_⟩
    · rw [hnamed, h.started, flights_count, flights_launched, List.length_append]
      rfl
    · rw [hnamed, htally]
      exact h.compiled
    · rw [hnamed, htally]
      exact h.timed
    · rw [hnamed, htally]
      exact h.failed

/-- **A build that ends is counted, and its failure with it, unless it panicked.** -/
theorem finish (h : c.Tallied) (hc : c.Sound) (hrun : c.isRunning g = true) (ending : Ending α) :
    (c.finish g ending).Tallied := by
  have hlength : (c.ended g ending).flights.length = c.flights.length := List.length_modify _ _ _
  by_cases hpanic : ending = .panicked
  · subst hpanic
    rw [finish_panicked hrun]
    refine ⟨h.started.trans hlength.symm, ?_, ?_, ?_⟩
    · rw [tally_ended hrun]
      exact h.compiled
    · rw [tally_ended hrun]
      exact h.timed
    · rw [tally_ended hrun]
      exact h.failed
  · obtain ⟨e, hfinish⟩ := finish_eq_countBuild hc hrun hpanic
    have hnot : ending.isPanic = false := by
      cases ending with
      | panicked => exact absurd rfl hpanic
      | _ => rfl
    have hnamed (name : String) : (c.finish g ending).metrics.named name = c.metrics.named name +
        (if "kiln_compile_total" = name then 1 else 0) + (if "kiln_compile_ms" = name then 1 else 0) +
        if "kiln_compile_failure_total" = name ∧ (!ending.isFailure) = false then 1 else 0 := by
      rw [hfinish, metrics_publish, named_countBuild, Ending.isOk_result]
      rfl
    have htally (p : Ending α → Bool) : (c.finish g ending).tally p = c.tally p + (p ending).toNat := by
      rw [tally, flights_finish hrun, ← tally, tally_ended hrun]
    refine ⟨?_, ?_, ?_, ?_⟩
    · rw [hnamed, flights_finish hrun, hlength]
      exact h.started
    · rw [hnamed, htally, hnot, h.compiled]
      rfl
    · rw [hnamed, htally, hnot, h.timed]
      rfl
    · rw [hnamed, htally, hnot, h.failed]
      cases ending.isFailure <;> rfl

/-- **An eviction counts nothing of the kind.** -/
theorem perform (h : c.Tallied) (chore : Chore) : (c.perform chore).2.Tallied := by
  have hworked := worked_perform c chore
  generalize (c.perform chore).2 = c' at hworked ⊢
  induction hworked with
  | dropped id => exact h.congr (metrics_dropEntry c id) (flights_dropEntry c id)
  | counted _ _ n ih => exact ih.count (.inr rfl) n
  | _ => exact h.congr rfl rfl

end Tallied

end Cache

/-! ## Every run -/

namespace System

variable {s s' : System α} {a : Action α}

/-- **Whatever is done, the counters go on to agree with the builds.** -/
theorem tallied_step (hs : s.Sound) (ht : s.cache.Tallied) (h : s.step a = some s') : s'.cache.Tallied := by
  cases a with
  | enter unit tier =>
    obtain rfl := step_enter h
    exact ht.congr (Cache.metrics_enter _ unit tier) (by simp)
  | look n =>
    obtain ⟨call, hcall, -, rfl⟩ := step_look h
    exact ht.look (hs.entry_lt hcall) call.tier
  | finish g ending =>
    obtain ⟨hrun, rfl⟩ := step_finish h
    exact ht.finish hs.cache hrun ending
  | answer n =>
    obtain ⟨call, g, r, -, -, -, rfl⟩ := step_answer h
    exact ht.congr (Cache.metrics_publish _ g) (Cache.flights_publish _ g)
  | leave n =>
    obtain ⟨call, g, -, -, rfl⟩ := step_leave h
    exact ht
  | evict e =>
    cases h
    exact ht
  | sweep m =>
    obtain ⟨sweep, chore, rest, -, -, rfl⟩ := step_sweep h
    exact ht.perform chore

/-- **The counters agree with the builds at all times.** -/
theorem Reachable.tallied (h : s.Reachable) : s.cache.Tallied := by
  obtain ⟨timeLimit, actions, rfl⟩ := h
  have hboth : ((start timeLimit : System α).run actions).Sound ∧
      ((start timeLimit).run actions).cache.Tallied := by
    refine run_induction (P := fun u => u.Sound ∧ u.cache.Tallied) ?_ ⟨sound_start timeLimit, .start timeLimit⟩
      actions
    intro u u' a hu hstep
    exact ⟨step_sound hu.1 hstep, tallied_step hu.1 hu.2 hstep⟩
  exact hboth.2

/-- **Every build is accounted for that did not panic**, when no build is running. Every build was counted as a
miss. One that panicked is missing from the builds that came to an end, from the times that were taken and from
the failures, although its callers are told of an error; so the counters balance only if none panicked. -/
theorem builds_accounted (h : s.Reachable) (hidle : s.cache.running = []) :
    s.cache.metrics.named "kiln_cache_miss_total" = s.cache.flights.length ∧
    s.cache.metrics.named "kiln_compile_ms" = s.cache.metrics.named "kiln_compile_total" ∧
    s.cache.metrics.named "kiln_compile_total" + s.cache.panics.length = s.cache.flights.length ∧
    s.cache.metrics.named "kiln_compile_failure_total" + s.cache.panics.length = s.cache.failures.length ∧
    (s.cache.panics = [] ↔
      s.cache.metrics.named "kiln_compile_total" = s.cache.metrics.named "kiln_cache_miss_total" ∧
        s.cache.metrics.named "kiln_compile_failure_total" = s.cache.failures.length) := by
  have ht := h.tallied
  have hended : s.cache.tally (fun e => !e.isPanic) + s.cache.tally Ending.isPanic = s.cache.flights.length := by
    rw [← Cache.tally_of_idle hidle]
    exact s.cache.tally_and_not (fun _ => true) Ending.isPanic
  have hfailed : s.cache.tally (fun e => e.isFailure && !e.isPanic) + s.cache.tally Ending.isPanic =
      s.cache.tally Ending.isFailure := by
    have hboth : s.cache.tally Ending.isPanic = s.cache.tally fun e => e.isFailure && e.isPanic := by
      congr 1
      funext e
      exact e.isFailure_and_isPanic.symm
    rw [hboth]
    exact s.cache.tally_and_not Ending.isFailure Ending.isPanic
  have hpanics : s.cache.panics = [] ↔ s.cache.tally Ending.isPanic = 0 := by
    rw [← List.length_eq_zero_iff, Cache.length_panics]
  rw [Cache.length_panics, Cache.length_failures h.sound.cache, hpanics, ht.started, ht.compiled, ht.timed,
    ht.failed]
  omega

/-- One build brings an artifact, one fails, one runs out of time and one panics: three of the four are counted
as builds, and two of the three errors as failures. -/
theorem builds_accounted_panicked : ∃ s : System Nat, s.Reachable ∧ s.cache.running = [] ∧
    s.cache.flights.length = 4 ∧ s.cache.failures = [1, 2, 3] ∧ s.cache.panics = [3] ∧
    s.cache.metrics.named "kiln_compile_total" = 3 ∧ s.cache.metrics.named "kiln_compile_failure_total" = 2 := by
  obtain ⟨s, hs⟩ : ∃ s : System Nat, s = (start 1000).run
      [.enter ⟨"/site/a.ks", "Site.a"⟩ .leaf, .look 0, .finish 0 (.returned (.ok 1)),
        .enter ⟨"/site/b.ks", "Site.b"⟩ .leaf, .look 1, .finish 1 (.returned (.error (.notFound "/site/b.ks"))),
        .enter ⟨"/site/c.ks", "Site.c"⟩ .leaf, .look 2, .finish 2 .timedOut,
        .enter ⟨"/site/global.ks", "Site.global"⟩ .siteGlobal, .look 3, .finish 3 .panicked] := ⟨_, rfl⟩
  have hreachable : s.Reachable := ⟨1000, _, hs⟩
  have hidle : s.cache.running = [] := by rw [hs]; rfl
  have hflights : s.cache.flights.length = 4 := by rw [hs]; rfl
  have hfailures : s.cache.failures = [1, 2, 3] := by rw [hs]; rfl
  have hpanics : s.cache.panics = [3] := by rw [hs]; rfl
  obtain ⟨-, -, hcompiled, hfailed, -⟩ := builds_accounted hreachable hidle
  rw [hpanics, hflights] at hcompiled
  rw [hpanics, hfailures] at hfailed
  exact ⟨s, hreachable, hidle, hflights, hfailures, hpanics, Nat.succ.inj hcompiled, Nat.succ.inj hfailed⟩

end System

end SiteHost
