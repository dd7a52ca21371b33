import SiteHost.Proofs.Site.Coherence

/-!
# Requests that nobody disturbs

A request that runs alone, with its builds nested in one another, is one of the ways in which calls
and builds may run side by side. So is a change whose evictions nobody disturbs:

* `LayeredSystem.Mirrors` — a layered system and a site have the same cache, and number artifacts
  alike;
* `LayeredSystem.Leads` — actions lead from one state to another, and touch no earlier calls and no
  builds of higher layers;
* `LayeredSystem.Answers`, `LayeredSystem.Ends` — actions answer a call, or end a build, with what it
  comes to on a site.

Principal results:

* `answers_getOrBuild` — a call with its look, its build and its answer;
* `builds_foundation`, `builds_globalUnit`, `builds_leaf` — the builds of all layers, with the calls
  that they make;
* `mirrors_apply` — what a change on disk does;
* `exists_mirrors` — every site that comes about by requests and changes is that of a layered system
  that can come about;
* `LiveSite.Arises.references` — so whatever such a site holds was linked against what it holds.
-/

namespace SiteHost

/-- Layers are linked against those of lower rank. -/
def Tier.rank : Tier → Nat
  | .foundation => 0
  | .siteGlobal => 1
  | .leaf => 2

namespace LayeredSystem

/-- Whether a layered system and a site have the same cache, and number artifacts alike. -/
structure Mirrors (s : LayeredSystem) (site : LiveSite) : Prop where
  coherent : s.Coherent
  locator : s.locator = site.locator
  cache : s.system.cache = site.cache
  nextSerial : s.nextSerial = site.nextSerial

/-- Whether actions lead from one state to another that touch neither the calls before the `n`th nor
the builds of layers above one. -/
structure Leads (s s' : LayeredSystem) (n : Nat) (tier : Tier) : Prop where
  run : ∃ actions, s' = s.run actions
  calls : ∀ m call, m < n → s.system.calls[m]? = some call → s'.system.calls[m]? = some call
  tasks : ∀ g (task : Task), s.task? g = some task → tier.rank < task.tier.rank →
    s'.task? g = some task
  sweeps : s'.system.sweeps = s.system.sweeps

variable {s s' s'' : LayeredSystem} {site : LiveSite} {d : Disk} {n m : Nat} {g : Generation}
  {tier tier' : Tier}

theorem Leads.refl (s : LayeredSystem) (n : Nat) (tier : Tier) : s.Leads s n tier :=
  ⟨⟨[], rfl⟩, fun _ _ _ h => h, fun _ _ h _ => h, rfl⟩

theorem Leads.trans (h : s.Leads s' n tier) (h' : s'.Leads s'' n tier) : s.Leads s'' n tier := by
  obtain ⟨actions, rfl⟩ := h.run
  obtain ⟨actions', rfl⟩ := h'.run
  refine ⟨⟨actions ++ actions', ?_⟩, fun k call hk hcall => h'.calls k call hk (h.calls k call hk hcall),
    fun k task htask hrank => h'.tasks k task (h.tasks k task htask hrank) hrank,
    h'.sweeps.trans h.sweeps⟩
  unfold LayeredSystem.run
  rw [List.foldl_append]

/-- What touches less touches no more. -/
theorem Leads.weaken (h : s.Leads s' m tier) (hn : n ≤ m) (htier : tier.rank ≤ tier'.rank) :
    s.Leads s' n tier' :=
  ⟨h.run, fun k call hk hcall => h.calls k call (Nat.lt_of_lt_of_le hk hn) hcall,
    fun k task htask hrank => h.tasks k task htask (Nat.lt_of_le_of_lt htier hrank), h.sweeps⟩

theorem run_single {a : LayeredAction} (h : s.step a = some s') : s' = s.run [a] := by
  change s' = s.act a
  rw [act, h, Option.getD_some]

/-! ## One step at a time -/

/-- An action that starts and ends no build, and touches no call before the `n`th. -/
theorem leads_of_running {a : LayeredAction} (h : s.step a = some s')
    (hcalls : ∀ k call, k < n → s.system.calls[k]? = some call → s'.system.calls[k]? = some call)
    (htasks : ∀ (k : Generation) (task : Task), s.tasks[k]? = some task → s'.tasks[k]? = some task)
    (hrunning : ∀ k, s.system.cache.isRunning k = true → s'.system.cache.isRunning k = true)
    (hsweeps : s'.system.sweeps = s.system.sweeps) : s.Leads s' n tier := by
  refine ⟨⟨_, run_single h⟩, hcalls, fun k task htask _ => ?_, hsweeps⟩
  obtain ⟨hrun, htask⟩ := task?_eq_some_iff.1 htask
  exact task?_eq_some_iff.2 ⟨hrunning k hrun, htasks k task htask⟩

/-- An action that touches one build, and no call before the `n`th. -/
theorem leads_of_others {a : LayeredAction} (h : s.step a = some s')
    (htier : ∀ task : Task, s.tasks[g]? = some task → task.tier = tier)
    (hcalls : ∀ k call, k < n → s.system.calls[k]? = some call → s'.system.calls[k]? = some call)
    (hothers : ∀ (k : Generation) (task : Task), g ≠ k → s.task? k = some task →
      s'.task? k = some task)
    (hsweeps : s'.system.sweeps = s.system.sweeps) : s.Leads s' n tier := by
  refine ⟨⟨_, run_single h⟩, hcalls, fun k task htask hrank => ?_, hsweeps⟩
  refine hothers k task ?_ htask
  rintro rfl
  rw [htier task (task?_eq_some_iff.1 htask).2] at hrank
  exact absurd hrank (Nat.lt_irrefl _)

/-- The end of a build touches no other. -/
theorem leads_finish {a : LayeredAction} (h : s.step a = some s') {ending : Ending Artifact}
    (hsystem : s'.system = { s.system with cache := s.system.cache.finish g ending })
    (htasks : s'.tasks = s.tasks) (htier : ∀ task : Task, s.tasks[g]? = some task → task.tier = tier) :
    s.Leads s' n tier := by
  refine leads_of_others h htier (fun k call _ hcall => by rw [hsystem]; exact hcall)
    (fun k task hne htask => ?_) (by rw [hsystem])
  obtain ⟨hrun, htask⟩ := task?_eq_some_iff.1 htask
  obtain ⟨f, hf, hend⟩ := (Cache.isRunning_iff _ k).1 hrun
  refine task?_eq_some_iff.2 ⟨?_, htasks ▸ htask⟩
  rw [hsystem]
  refine (Cache.isRunning_iff _ k).2 ⟨f, ?_, hend⟩
  dsimp only
  by_cases hg : s.system.cache.isRunning g = true
  · rw [Cache.flights_finish hg, Cache.getElem?_flights_ended, if_neg hne, hf]
  · unfold Cache.finish
    rw [if_neg hg, hf]

theorem task?_setStage_of_ne {k : Generation} (hne : g ≠ k) (stage : Stage) :
    (s.setStage g stage).task? k = s.task? k := by
  unfold task?
  rw [getElem?_tasks_setStage, if_neg hne]
  rfl

theorem task?_setStage {task : Task} (h : s.task? g = some task) (stage : Stage) :
    (s.setStage g stage).task? g = some ⟨task.tier, stage⟩ := by
  obtain ⟨hrun, htask⟩ := task?_eq_some_iff.1 h
  refine task?_eq_some_iff.2 ⟨hrun, ?_⟩
  rw [getElem?_tasks_setStage, if_pos rfl, htask, Option.map_some]

/-- A call begins. -/
theorem mirrors_enter (tier' : Tier) (h : s.Mirrors site) {unit : Identity} {a : LayeredAction}
    (hstep : s.step a = some s') (hdoes : s.does (.enter unit tier) = some s') :
    s'.Mirrors { site with cache := (site.cache.enter unit tier).2 } ∧
      s'.system.calls[s.system.calls.length]? =
        some { unit, tier, entry := (site.cache.enter unit tier).1 } ∧
      s.Leads s' s.system.calls.length tier' := by
  have hcoherent := coherent_step h.coherent hstep
  obtain ⟨system, hsystem, rfl⟩ := Option.map_eq_some_iff.1 hdoes
  obtain rfl := System.step_enter hsystem
  rw [← h.cache]
  refine ⟨⟨hcoherent, h.locator, rfl, h.nextSerial⟩, List.getElem?_concat_length, ?_⟩
  refine leads_of_running hstep (fun k call hk hcall => ?_) (fun k task htask => htask)
    (fun k hrun => ?_) rfl
  · dsimp only
    rw [List.getElem?_append_left hk, hcall]
  · obtain ⟨f, hf, hend⟩ := (Cache.isRunning_iff _ k).1 hrun
    exact (Cache.isRunning_iff _ k).2 ⟨f, by simpa using hf, hend⟩

/-- A call looks at its entry, and may start a build. -/
theorem mirrors_look (tier : Tier) (h : s.Mirrors site) {call : Call Artifact}
    (hcall : s.system.calls[n]? = some call) (hfound : call.found = none) :
    ∃ s', s'.Mirrors { site with cache := (site.cache.look call.entry call.tier).2 } ∧
      s'.system.calls[n]? = some (call.looked (site.cache.state? call.entry)
        (site.cache.look call.entry call.tier).1) ∧
      s.Leads s' n tier ∧ ∀ g, (site.cache.look call.entry call.tier).1 = .started g →
        s'.tasks[g]? = some (.start call.tier) := by
  have hlt := (List.getElem?_eq_some_iff.1 hcall).1
  obtain ⟨st, hst⟩ := h.coherent.tiered.reachable.sound.state?_entry hcall
  have hsystem : s.system.step (.look n) = some { s.system with
      cache := (s.system.cache.look call.entry call.tier).2
      calls := s.system.calls.set n (call.looked (s.system.cache.state? call.entry)
        (s.system.cache.look call.entry call.tier).1) } := by
    simp [System.step, hcall, hfound]
  have hflights := Cache.flights_look_cases s.system.cache call.entry call.tier
  obtain ⟨s', hstep, hs'⟩ : ∃ s', s.step (.look n) = some s' ∧ s' = { s with
      system := { s.system with
        cache := (s.system.cache.look call.entry call.tier).2
        calls := s.system.calls.set n (call.looked (s.system.cache.state? call.entry)
          (s.system.cache.look call.entry call.tier).1) }
      tasks := s.tasks ++ Task.started call.tier (s.system.cache.look call.entry call.tier).1 } := by
    refine ⟨_, ?_, rfl⟩
    simp only [step, look, hcall, hsystem]
  have hcoherent := coherent_step h.coherent hstep
  subst hs'
  rw [← h.cache]
  refine ⟨_, ⟨hcoherent, h.locator, rfl, h.nextSerial⟩, by simp [hlt], ?_, fun g hg => ?_⟩
  · refine leads_of_running hstep (fun k call' hk hcall' => ?_) (fun k task htask => ?_)
      (fun k hrun => ?_) rfl
    · dsimp only
      rw [List.getElem?_set_ne (Nat.ne_of_gt hk), hcall']
    · dsimp only
      rw [List.getElem?_append_left (List.getElem?_eq_some_iff.1 htask).1, htask]
    · obtain ⟨f, hf, hend⟩ := (Cache.isRunning_iff _ k).1 hrun
      refine (Cache.isRunning_iff _ k).2 ⟨f, ?_, hend⟩
      rcases hflights with hsame | hmore
      · rw [hsame, hf]
      · rw [hmore, List.getElem?_append_left (List.getElem?_eq_some_iff.1 hf).1, hf]
  · rcases Cache.look_cases hst call.tier with ⟨a, -, hl⟩ | ⟨k, -, hl⟩ | ⟨-, hl⟩
    · rw [hl] at hg
      cases hg
    · rw [hl] at hg
      cases hg
    · rw [hl] at hg ⊢
      cases hg
      simp [← h.coherent.tasks, Task.started]

/-- A call that waits for a build that has ended is answered as on a site. -/
theorem answers_conclude (d : Disk) (tier : Tier) {ending : Ending Artifact} {call : Call Artifact}
    (h : s.Mirrors { site with cache := site.cache.finish g ending })
    (hcall : s.system.calls[n]? = some call) (hawaits : call.awaits = some g) :
    ∃ s', s.Leads s' n tier ∧ s'.Mirrors (site.run d (LiveSite.conclude g ending)).2 ∧
      s'.told? n = some (site.run d (LiveSite.conclude g ending)).1 := by
  have hsound := h.coherent.tiered.reachable.sound
  have hlt := (List.getElem?_eq_some_iff.1 hcall).1
  obtain ⟨-, -, found, hfound, hg⟩ := Call.awaits_eq_some hawaits
  obtain ⟨f, hf, -⟩ := (hsound.calls n call hcall).awaited found g hfound hg
  rw [h.cache] at hf
  have hcache := hsound.cache
  rw [h.cache] at hcache
  obtain ⟨r, hr⟩ := hcache.exists_result (List.getElem?_eq_some_iff.1 hf).1
    (Cache.not_isRunning_finish _ g ending)
  have hsettle : (site.cache.finish g ending).settle g =
      some (r, (site.cache.finish g ending).publish g) := by
    rw [Cache.settle, hr, Option.map_some]
  rw [LiveSite.run_conclude site d hsettle]
  obtain ⟨s', hstep, hs'⟩ : ∃ s', s.step (.answer n) = some s' ∧ s' = { s with
      system := { s.system with
        cache := (site.cache.finish g ending).publish g
        calls := s.system.calls.set n { call with result := some r } } } := by
    refine ⟨_, ?_, rfl⟩
    have hr' : s.system.cache.result? g = some r := by
      rw [h.cache]
      exact hr
    simp [step, does, System.step_of_answer hcall hawaits hr', h.cache]
  have hcoherent := coherent_step h.coherent hstep
  subst hs'
  refine ⟨_, leads_of_running hstep (fun k call' hk hcall' => ?_) (fun k task htask => htask)
    (fun k hrun => ?_) rfl, ⟨hcoherent, h.locator, rfl, h.nextSerial⟩, ?_⟩
  · dsimp only
    rw [List.getElem?_set_ne (Nat.ne_of_gt hk), hcall']
  · rw [h.cache] at hrun
    unfold Cache.isRunning at hrun ⊢
    rwa [Cache.flights_publish]
  · simp [told?, hlt]

/-- A build runs out of time, if it has not ended. -/
theorem mirrors_expire (h : s.Mirrors site)
    (htier : ∀ task : Task, s.tasks[g]? = some task → task.tier = tier) :
    ∃ s', s.Leads s' n tier ∧ s'.system.calls = s.system.calls ∧
      s'.Mirrors { site with cache := site.cache.finish g .timedOut } := by
  by_cases hrun : s.system.cache.isRunning g = true
  · have hstep : s.step (.expire g) = some { s with
        system := { s.system with cache := s.system.cache.finish g .timedOut } } := by
      simp [step, does, System.step, hrun]
    refine ⟨_, leads_finish hstep rfl rfl htier, rfl, coherent_step h.coherent hstep, h.locator, ?_,
      h.nextSerial⟩
    rw [← h.cache]
  · refine ⟨s, .refl s n tier, rfl, h.coherent, h.locator, ?_, h.nextSerial⟩
    rw [← h.cache, Cache.finish, if_neg hrun]

/-! ## Calls -/

/-- Whether actions answer a call as it is answered on a site. -/
def Answers (s s' : LayeredSystem) (n : Nat) (tier : Tier)
    (ran : Except Failure Artifact × LiveSite) : Prop :=
  s.Leads s' n tier ∧ s'.Mirrors ran.2 ∧ s'.told? n = some ran.1

/-- Whether actions end a build with what it comes to on a site. -/
def Ends (s s' : LayeredSystem) (g : Generation) (tier : Tier)
    (ran : Except Failure Artifact × LiveSite) : Prop :=
  s.Leads s' s.system.calls.length tier ∧
    s'.Mirrors { ran.2 with cache := ran.2.cache.finish g (.returned ran.1) }

/-- Whether a build that has just been started for a layer ends with what `build` comes to on a
site. -/
def Builds (d : Disk) (tier : Tier) (build : Build Artifact) : Prop :=
  ∀ (s : LayeredSystem) (site : LiveSite) (g : Generation), s.Mirrors site →
    s.task? g = some (.start tier) → ∃ s', s.Ends s' g tier (site.run d build)

/-- **A call is answered as on a site, if its build ends as on a site.** -/
theorem answers_getOrBuild {unit : Identity} {build : Build Artifact}
    (h : s.Mirrors { site with cache := (site.cache.enter unit tier).2 })
    (hcall : s.system.calls[n]? =
      some { unit, tier, entry := (site.cache.enter unit tier).1 })
    (hbuild : Builds d tier build) :
    ∃ s', s.Answers s' n tier (site.run d (LiveSite.getOrBuild unit tier build)) := by
  have hlt := (List.getElem?_eq_some_iff.1 hcall).1
  obtain ⟨st, hst⟩ := h.coherent.tiered.reachable.sound.state?_entry hcall
  obtain ⟨s₁, h₁, hcall₁, hleads₁, hstarted⟩ := mirrors_look tier h hcall rfl
  have hget : site.cache.get unit tier =
      (site.cache.enter unit tier).2.look (site.cache.enter unit tier).1 tier := rfl
  rw [LiveSite.getOrBuild_eq, LiveSite.run_bind, LiveSite.run_onCache, hget]
  rw [h.cache] at hst
  dsimp only at hst h₁ hcall₁ hstarted ⊢
  rcases Cache.look_cases hst tier with ⟨a, -, hl⟩ | ⟨g, hbuilding, hl⟩ | ⟨-, hl⟩
  · -- the artifact is there
    rw [hl] at h₁ hcall₁ ⊢
    exact ⟨s₁, hleads₁, h₁, by rw [told?, hcall₁]; rfl⟩
  · -- somebody else's build expires, as nobody is there to end it
    rw [hl] at h₁ hcall₁ ⊢
    dsimp only at h₁ hcall₁ ⊢
    have htier : ∀ task : Task, s₁.tasks[g]? = some task → task.tier = tier := by
      intro task htask
      obtain ⟨entry, hentry, hstate⟩ := Option.map_eq_some_iff.1 hst
      have hcache : s₁.system.cache = (site.cache.enter unit tier).2 := h₁.cache
      rw [← hcache] at hentry
      rw [h₁.coherent.task_tier htask hentry (hstate.trans hbuilding),
        ← h₁.coherent.tiered.call_tier hcall₁ hentry]
      rfl
    obtain ⟨s₂, hleads₂, hcalls, h₂⟩ := mirrors_expire (n := n) h₁ htier
    rw [← hcalls] at hcall₁
    obtain ⟨s₃, hleads₃, h₃, htold⟩ := answers_conclude d tier h₂ hcall₁ rfl
    exact ⟨s₃, (hleads₁.trans hleads₂).trans hleads₃, h₃, htold⟩
  · -- the build is the caller's
    rw [hl] at h₁ hcall₁ hstarted ⊢
    have hrun : s₁.system.cache.isRunning (site.cache.enter unit tier).2.flights.length = true := by
      rw [h₁.cache, Cache.isRunning_iff]
      exact ⟨{ entry := (site.cache.enter unit tier).1 }, by simp, rfl⟩
    obtain ⟨s₂, hleads₂, h₂⟩ := hbuild s₁ _ _ h₁ (task?_eq_some_iff.2 ⟨hrun, hstarted _ rfl⟩)
    have hlt₁ : n < s₁.system.calls.length := (List.getElem?_eq_some_iff.1 hcall₁).1
    have hcall₂ := hleads₂.calls n _ hlt₁ hcall₁
    dsimp only
    rw [LiveSite.run_bind, LiveSite.run_outcome]
    obtain ⟨s₃, hleads₃, h₃, htold⟩ := answers_conclude d tier h₂ hcall₂ rfl
    exact ⟨s₃, (hleads₁.trans (hleads₂.weaken (Nat.le_of_lt hlt₁) (Nat.le_refl _))).trans hleads₃,
      h₃, htold⟩

/-! ## Builds -/

/-- What touches no earlier calls leaves them there. -/
theorem Leads.length_le (h : s.Leads s' s.system.calls.length tier) :
    s.system.calls.length ≤ s'.system.calls.length := by
  cases hlen : s.system.calls.length with
  | zero => exact Nat.zero_le _
  | succ n =>
    have hlt : n < s.system.calls.length := by omega
    have hkept := h.calls n _ hlt (List.getElem?_eq_getElem hlt)
    exact (List.getElem?_eq_some_iff.1 hkept).1

/-- What comes before the end of a build. -/
theorem Ends.of_leads {ran : Except Failure Artifact × LiveSite}
    (h : s.Leads s' s.system.calls.length tier) (hends : s'.Ends s'' g tier ran) :
    s.Ends s'' g tier ran :=
  ⟨h.trans (hends.1.weaken h.length_le (Nat.le_refl _)), hends.2⟩

section Building

variable {task : Task} {a : LayeredAction}

/-- A build is for one layer. -/
theorem tier_of_task? (htask : s.task? g = some task) (task' : Task) (h : s.tasks[g]? = some task') :
    task'.tier = task.tier := by
  rw [(task?_eq_some_iff.1 htask).2] at h
  cases h
  rfl

/-- A build comes to another stage. -/
theorem mirrors_setStage (stage : Stage) (h : s.Mirrors site) (htask : s.task? g = some task)
    (hstep : s.step a = some (s.setStage g stage)) :
    (s.setStage g stage).Mirrors site ∧ s.Leads (s.setStage g stage) n task.tier ∧
      (s.setStage g stage).task? g = some ⟨task.tier, stage⟩ :=
  ⟨⟨coherent_step h.coherent hstep, h.locator, h.cache, h.nextSerial⟩,
    leads_of_others hstep (tier_of_task? htask) (fun _ _ _ hcall => hcall)
      (fun _ _ hne hother => (task?_setStage_of_ne hne stage).trans hother) rfl,
    task?_setStage htask stage⟩

/-- A build fails. -/
theorem ends_error (failure : Failure) (h : s.Mirrors site) (htask : s.task? g = some task)
    (hstep : s.step a = s.does (.finish g (.returned (.error failure)))) :
    ∃ s', s.Ends s' g task.tier (.error failure, site) := by
  have hrun := (task?_eq_some_iff.1 htask).1
  have hdoes : s.does (.finish g (.returned (.error failure))) = some { s with system := { s.system
      with cache := s.system.cache.finish g (.returned (.error failure)) } } := by
    simp [does, System.step, hrun]
  rw [hdoes] at hstep
  refine ⟨_, leads_finish hstep rfl rfl (tier_of_task? htask), coherent_step h.coherent hstep,
    h.locator, ?_, h.nextSerial⟩
  rw [← h.cache]

/-- A build that has all that it is linked against ends as on a site. -/
theorem ends_of_links {references : List Artifact} {x : Build Artifact} (h : s.Mirrors site)
    (htask : s.task? g = some ⟨tier, .ready references⟩) (hlinks : Links d tier references x) :
    ∃ s', s.Ends s' g tier (site.run d x) := by
  have hrun := (task?_eq_some_iff.1 htask).1
  rcases hlinks site with ⟨failure, hfails⟩ | ⟨unit, kind, sources, hlinked⟩
  · rw [hfails]
    exact ends_error (a := .fail g failure) failure h htask (by simp [step, htask])
  · generalize hresult : linked s.nextSerial unit tier kind sources references = result
    have hstep : s.step (.compile g unit kind sources) = some { s with
        system := { s.system with cache := s.system.cache.finish g (.returned result) }
        nextSerial := s.nextSerial + if result.isOk then 1 else 0 } := by
      simp [step, LayeredSystem.compile, htask, does, System.step, hrun, hresult]
    have hcoherent := coherent_step h.coherent hstep
    refine ⟨_, leads_finish hstep rfl rfl (tier_of_task? htask), ?_⟩
    rw [hlinked, LiveSite.run_compileUnit, ← h.nextSerial, hresult]
    cases result with
    | ok x => exact ⟨hcoherent, h.locator, by rw [← h.cache], by rw [h.nextSerial]; rfl⟩
    | error failure => exact ⟨hcoherent, h.locator, by rw [← h.cache], h.nextSerial⟩

/-- A build calls for a unit of a lower layer and is told what the call comes to on a site. -/
theorem answers_asked (d : Disk) (unit : Identity) (tier : Tier) (build : Build Artifact)
    (stage : Stage) (h : s.Mirrors site)
    (htask : s.task? g = some task) (hrank : tier.rank < task.tier.rank)
    (hask : s.ask g = (s.does (.enter unit tier)).map fun s => s.setStage g stage)
    (hbuild : Builds d tier build) :
    ∃ s', s.Leads s' s.system.calls.length task.tier ∧
      s'.Mirrors (site.run d (LiveSite.getOrBuild unit tier build)).2 ∧
      s'.told? s.system.calls.length =
        some (site.run d (LiveSite.getOrBuild unit tier build)).1 ∧
      s'.task? g = some ⟨task.tier, stage⟩ := by
  obtain ⟨s₁, hdoes⟩ : ∃ s₁, s.does (.enter unit tier) = some s₁ := ⟨_, rfl⟩
  have hstep : s.step (.ask g) = some (s₁.setStage g stage) := by
    change s.ask g = _
    rw [hask, hdoes, Option.map_some]
  obtain ⟨system, hsystem, rfl⟩ := Option.map_eq_some_iff.1 hdoes
  obtain rfl := System.step_enter hsystem
  -- who enters starts no build and ends none
  have hentered : ∀ k, ({ s with system := { s.system with
      cache := (s.system.cache.enter unit tier).2
      calls := s.system.calls ++
        [{ unit, tier, entry := (s.system.cache.enter unit tier).1 }] } } : LayeredSystem).task? k =
      s.task? k := by
    intro k
    unfold task? Cache.isRunning
    rw [Cache.flights_enter]
  have hleads := leads_of_others (n := s.system.calls.length) hstep (tier_of_task? htask)
    (fun k call hk hcall => (List.getElem?_append_left hk).trans hcall)
    (fun k task hne hother => by rw [task?_setStage_of_ne hne, hentered, hother]) rfl
  have h₁ : Mirrors _ { site with cache := (site.cache.enter unit tier).2 } :=
    ⟨coherent_step h.coherent hstep, h.locator, by rw [← h.cache]; rfl, h.nextSerial⟩
  obtain ⟨s₂, hleads₂, h₂, htold⟩ := answers_getOrBuild (n := s.system.calls.length) h₁
    (by rw [← h.cache]; exact List.getElem?_concat_length) hbuild
  refine ⟨s₂, hleads.trans (hleads₂.weaken (Nat.le_refl _) (Nat.le_of_lt hrank)), h₂, htold,
    hleads₂.tasks g _ (task?_setStage ?_ stage) hrank⟩
  rw [hentered, htask]

/-- The base library is built as on a site. -/
theorem builds_foundation (d : Disk) : Builds d .foundation LiveSite.buildFoundation :=
  fun _ _ _ h htask => ends_of_links h htask (links_buildFoundation d)

/-- A build that comes to the base library first ends as on a site, if it goes on so. -/
theorem ends_bind_foundation {next : Artifact → Build Artifact} (h : s.Mirrors site)
    (htask : s.task? g = some ⟨tier, .begun⟩) (hrank : Tier.foundation.rank < tier.rank)
    (hnext : ∀ (s₁ : LayeredSystem) (site₁ : LiveSite) (foundation : Artifact), s₁.Mirrors site₁ →
      s₁.task? g = some ⟨tier, if tier = .leaf then .founded foundation else .ready [foundation]⟩ →
      ∃ s₂, s₁.Ends s₂ g tier (site₁.run d (next foundation))) :
    ∃ s', s.Ends s' g tier (site.run d (LiveSite.foundation >>= next)) := by
  obtain ⟨s₁, hleads₁, h₁, htold, htask₁⟩ := answers_asked d foundationUnit .foundation
    LiveSite.buildFoundation (.asking s.system.calls.length) h htask hrank (by simp [ask, htask])
    (builds_foundation d)
  rw [LiveSite.run_bind, LiveSite.foundation]
  generalize site.run d (LiveSite.getOrBuild foundationUnit .foundation _) = ran at h₁ htold ⊢
  obtain ⟨failure | foundation, site₁⟩ := ran
  · obtain ⟨s₂, hends⟩ := ends_error (a := .take g) failure h₁ htask₁
      (by simp [step, take, htask₁, htold])
    exact ⟨s₂, hends.of_leads hleads₁⟩
  · obtain ⟨h₂, hleads₂, htask₂⟩ := mirrors_setStage (a := .take g)
      (n := s.system.calls.length)
      (if tier = .leaf then .founded foundation else .ready [foundation]) h₁ htask₁
      (by simp [step, take, htask₁, htold])
    obtain ⟨s₃, hends⟩ := hnext _ _ foundation h₂ htask₂
    exact ⟨s₃, hends.of_leads (hleads₁.trans hleads₂)⟩

/-- The global unit is built as on a site. -/
theorem builds_globalUnit (d : Disk) (unit : Identity) : Builds d .siteGlobal (do
    LiveSite.buildUnit unit .siteGlobal [← LiveSite.foundation]) :=
  fun _ _ _ h htask => ends_bind_foundation h htask (by decide) fun _ _ foundation h₁ htask₁ =>
    ends_of_links h₁ htask₁ (links_buildUnit d unit .siteGlobal [foundation])

/-- A leaf that comes to the global unit next ends as on a site, if it goes on so. -/
theorem ends_bind_globalUnit {foundation : Artifact} {next : Option Artifact → Build Artifact}
    (h : s.Mirrors site) (htask : s.task? g = some ⟨.leaf, .founded foundation⟩)
    (hnext : ∀ (s₁ : LayeredSystem) (site₁ : LiveSite) (globalUnit : Option Artifact),
      s₁.Mirrors site₁ → s₁.task? g = some ⟨.leaf, .ready (foundation :: globalUnit.toList)⟩ →
      ∃ s₂, s₁.Ends s₂ g .leaf (site₁.run d (next globalUnit))) :
    ∃ s', s.Ends s' g .leaf (site.run d (LiveSite.globalUnit >>= next)) := by
  have hran := LiveSite.run_globalUnit site d
  rw [LiveSite.run_bind]
  split at hran
  · -- there is no global unit
    rw [hran]
    obtain ⟨h₁, hleads₁, htask₁⟩ := mirrors_setStage (a := .skip g) (n := s.system.calls.length)
      (.ready [foundation]) h htask (by simp [step, skip, htask])
    obtain ⟨s₂, hends⟩ := hnext _ _ none h₁ htask₁
    exact ⟨s₂, hends.of_leads hleads₁⟩
  · obtain ⟨s₁, hleads₁, h₁, htold, htask₁⟩ := answers_asked d
      site.locator.globalUnit .siteGlobal
      (do LiveSite.buildUnit site.locator.globalUnit .siteGlobal [← LiveSite.foundation])
      (.askingGlobal foundation s.system.calls.length) h htask (Nat.lt_succ_self 1)
      (by simp [ask, htask, h.locator])
      (builds_globalUnit d site.locator.globalUnit)
    rw [hran]
    generalize site.run d (LiveSite.getOrBuild site.locator.globalUnit .siteGlobal _) = ran
      at h₁ htold ⊢
    obtain ⟨failure | globalUnit, site₁⟩ := ran
    · cases failure with
      | notFound path =>
        obtain ⟨h₂, hleads₂, htask₂⟩ := mirrors_setStage (a := .take g)
          (n := s.system.calls.length) (.ready [foundation]) h₁ htask₁
          (by simp [step, take, htask₁, htold])
        obtain ⟨s₃, hends⟩ := hnext _ _ none h₂ htask₂
        exact ⟨s₃, hends.of_leads (hleads₁.trans hleads₂)⟩
      | _ =>
        exact (ends_error (a := .take g) _ h₁ htask₁ (by simp [step, take, htask₁, htold])).imp
          fun _ hends => hends.of_leads hleads₁
    · obtain ⟨h₂, hleads₂, htask₂⟩ := mirrors_setStage (a := .take g)
        (n := s.system.calls.length) (.ready [foundation, globalUnit]) h₁ htask₁
        (by simp [step, take, htask₁, htold])
      obtain ⟨s₃, hends⟩ := hnext _ _ (some globalUnit) h₂ htask₂
      exact ⟨s₃, hends.of_leads (hleads₁.trans hleads₂)⟩

/-- A leaf is built as on a site. -/
theorem builds_leaf (d : Disk) (unit : Identity) : Builds d .leaf (do
    let foundation ← LiveSite.foundation
    let globalUnit ← LiveSite.globalUnit
    LiveSite.buildUnit unit .leaf (foundation :: globalUnit.toList)) :=
  fun _ _ _ h htask => ends_bind_foundation h htask (by decide) fun _ _ foundation h₁ htask₁ =>
    ends_bind_globalUnit h₁ htask₁ fun _ _ globalUnit h₂ htask₂ =>
      ends_of_links h₂ htask₂ (links_buildUnit d unit .leaf (foundation :: globalUnit.toList))

end Building

/-! ## Requests -/

/-- A request that comes to a call is answered as on a site. -/
theorem answers_called {unit : Identity} {build : Build Artifact} {a : LayeredAction}
    (h : s.Mirrors site) (hstep : s.step a = s.does (.enter unit tier))
    (hbuild : Builds d tier build) :
    ∃ s', s.Answers s' s.system.calls.length tier
      (site.run d (LiveSite.getOrBuild unit tier build)) := by
  obtain ⟨s₁, hdoes⟩ : ∃ s₁, s.does (.enter unit tier) = some s₁ := ⟨_, rfl⟩
  obtain ⟨h₁, hcall, hleads⟩ := mirrors_enter tier h (hstep.trans hdoes) hdoes
  obtain ⟨s₂, hleads₂, h₂, htold⟩ := answers_getOrBuild h₁ hcall hbuild
  exact ⟨s₂, hleads.trans hleads₂, h₂, htold⟩

/-- **A request for the base library.** -/
theorem answers_foundation (d : Disk) (h : s.Mirrors site) :
    ∃ s', s.Answers s' s.system.calls.length .foundation (site.run d LiveSite.foundation) :=
  answers_called (a := .foundation) h rfl (builds_foundation d)

/-- A request for the global unit, if it is built or on disk. -/
theorem answers_globalUnit (d : Disk) (h : s.Mirrors site) :
    ∃ s', s.Answers s' s.system.calls.length .siteGlobal
      (site.run d (LiveSite.getOrBuild site.locator.globalUnit .siteGlobal do
        LiveSite.buildUnit site.locator.globalUnit .siteGlobal [← LiveSite.foundation])) :=
  answers_called (a := .globalUnit) h (by rw [← h.locator]; rfl)
    (builds_globalUnit d site.locator.globalUnit)

/-- **A request for the global unit.** -/
theorem mirrors_globalUnit (d : Disk) (h : s.Mirrors site) :
    ∃ s', s.Leads s' s.system.calls.length .siteGlobal ∧
      s'.Mirrors (site.run d LiveSite.globalUnit).2 := by
  have hran := LiveSite.run_globalUnit site d
  split at hran
  · rw [hran]
    exact ⟨s, .refl s _ _, h⟩
  · obtain ⟨s', hleads, h', -⟩ := answers_globalUnit d h
    refine ⟨s', hleads, ?_⟩
    rw [hran]
    generalize site.run d (LiveSite.getOrBuild site.locator.globalUnit .siteGlobal _) = ran at h' ⊢
    obtain ⟨failure | globalUnit, site'⟩ := ran
    · cases failure <;> exact h'
    · exact h'

/-- **A request for a unit**, which the base library is not. -/
theorem mirrors_leaf (d : Disk) (h : s.Mirrors site) {unit : Identity}
    (hunit : unit.key ≠ foundationUnit.key) :
    ∃ s', s.Leads s' s.system.calls.length .leaf ∧
      s'.Mirrors (site.run d (LiveSite.leaf unit)).2 := by
  have hget : site.run d (get : Build LiveSite) = (.ok site, site) := rfl
  unfold LiveSite.leaf
  rw [LiveSite.run_bind, hget]
  dsimp only
  split
  · obtain ⟨s', hleads, h'⟩ := mirrors_globalUnit d h
    refine ⟨s', hleads.weaken (Nat.le_refl _) (Nat.le_succ 1), ?_⟩
    rw [LiveSite.run_bind]
    generalize site.run d LiveSite.globalUnit = ran at h' ⊢
    obtain ⟨failure | globalUnit?, site'⟩ := ran
    · exact h'
    · cases globalUnit? <;> exact h'
  · rename_i hglobal
    obtain ⟨s', hleads, h', -⟩ := answers_called (d := d) (a := .leaf unit) h
      (by rw [step, if_neg hunit, h.locator, if_neg hglobal]) (builds_leaf d unit)
    exact ⟨s', hleads, h'⟩

/-! ## Changes -/

/-- An eviction that goes on until nothing is left to do. -/
theorem mirrors_drains {c c' : Cache Artifact} {chores : List Chore} (hdrains : c.Drains chores c')
    (h : s.Mirrors { site with cache := c }) {sweep : Sweep} (hsweep : s.system.sweeps[m]? = some sweep)
    (htodo : sweep.todo = chores) :
    ∃ actions sweep', sweep'.todo = [] ∧ (s.run actions).Mirrors { site with cache := c' } ∧
      (s.run actions).system.sweeps = s.system.sweeps.set m sweep' := by
  induction hdrains generalizing s sweep with
  | done c =>
    obtain ⟨hlt, hget⟩ := List.getElem?_eq_some_iff.1 hsweep
    refine ⟨[], sweep, htodo, h, ?_⟩
    rw [← hget, List.set_getElem_self]
    rfl
  | @next c c' chore rest hrest ih =>
    have hcache : s.system.cache = c := h.cache
    have hstep : s.step (.sweep m) = some { s with system := { s.system with
        cache := (c.perform chore).2
        sweeps := s.system.sweeps.set m { sweep with
          todo := (c.perform chore).1 ++ rest
          did := chore :: sweep.did } } } := by
      simp [step, does, System.step, hsweep, htodo, hcache]
    have hlt := (List.getElem?_eq_some_iff.1 hsweep).1
    obtain ⟨actions, sweep', hdone, hmirrors, hsweeps⟩ := ih
      ⟨coherent_step h.coherent hstep, h.locator, rfl, h.nextSerial⟩
      (List.getElem?_set_self hlt) rfl
    have hact : s.run (.sweep m :: actions) = LayeredSystem.run _ actions :=
      congrArg (fun s => LayeredSystem.run s actions) (run_single hstep).symm
    refine ⟨.sweep m :: actions, sweep', hdone, ?_, ?_⟩
    · rw [hact]
      exact hmirrors
    · rw [hact, hsweeps, List.set_set]

/-- Evictions that go on one after the other until nothing is left to do. -/
theorem mirrors_sweeps (evictions : List Eviction) {before : List Sweep} (h : s.Mirrors site)
    (hsweeps : s.system.sweeps = before ++ evictions.map fun e => { eviction := e, todo := [.evict e] })
    (hdone : ∀ sweep ∈ before, sweep.todo = []) :
    ∃ actions, (s.run actions).Mirrors
        { site with cache := evictions.foldl Cache.evicted site.cache } ∧
      ∀ sweep ∈ (s.run actions).system.sweeps, sweep.todo = [] := by
  induction evictions generalizing s site before with
  | nil =>
    refine ⟨[], h, fun sweep hsweep => hdone sweep ?_⟩
    change sweep ∈ s.system.sweeps at hsweep
    rwa [hsweeps, List.map_nil, List.append_nil] at hsweep
  | cons e rest ih =>
    have hsweep : s.system.sweeps[before.length]? =
        some { eviction := e, todo := [.evict e] } := by
      rw [hsweeps]
      simp
    obtain ⟨actions, sweep', htodo, h₁, hset⟩ :=
      mirrors_drains (Cache.drains_evict site.cache e) h hsweep rfl
    have hsweeps₁ : (s.run actions).system.sweeps =
        before ++ [sweep'] ++ rest.map fun e => { eviction := e, todo := [.evict e] } := by
      rw [hset, hsweeps]
      simp
    have hdone₁ : ∀ sweep ∈ before ++ [sweep'], sweep.todo = [] := by
      intro sweep hsweep
      rcases List.mem_append.1 hsweep with hmem | hmem
      · exact hdone sweep hmem
      · rw [List.mem_singleton.1 hmem, htodo]
    obtain ⟨actions', h₂, hquiet⟩ := ih h₁ hsweeps₁ hdone₁
    have hrun : s.run (actions ++ actions') = (s.run actions).run actions' := List.foldl_append
    exact ⟨actions ++ actions', hrun ▸ h₂, hrun ▸ hquiet⟩

theorem run_evicts (system : System Artifact) (evictions : List Eviction) :
    system.run (evictions.map .evict) = { system with
      sweeps := system.sweeps ++ evictions.map fun e => { eviction := e, todo := [.evict e] } } := by
  induction evictions generalizing system with
  | nil => simp [System.run]
  | cons e rest ih =>
    have hfirst : system.run ((e :: rest).map .evict) =
        System.run { system with sweeps := system.sweeps ++ [{ eviction := e, todo := [.evict e] }] }
          (rest.map .evict) := rfl
    rw [hfirst, ih]
    simp

/-- **A change on disk.** Its evictions may go on one after the other. -/
theorem mirrors_apply (h : s.Mirrors site) (change : Change)
    (hquiet : ∀ sweep ∈ s.system.sweeps, sweep.todo = []) :
    ∃ actions, (s.run actions).Mirrors (site.apply change).2 ∧
      ∀ sweep ∈ (s.run actions).system.sweeps, sweep.todo = [] := by
  have hstep : s.step (.change change) = some (s.evict (s.locator.evictions change)) := rfl
  have hevict := run_evicts s.system (s.locator.evictions change)
  have h₁ : (s.evict (s.locator.evictions change)).Mirrors site :=
    ⟨coherent_step h.coherent hstep, h.locator, by rw [evict, hevict]; exact h.cache, h.nextSerial⟩
  obtain ⟨actions, h₂, hdone⟩ := mirrors_sweeps (s.locator.evictions change) h₁
    (by rw [evict, hevict]) hquiet
  have hrun : s.run (.change change :: actions) = (s.evict (s.locator.evictions change)).run actions :=
    rfl
  refine ⟨.change change :: actions, ?_, hrun ▸ hdone⟩
  rw [hrun, LiveSite.apply_eq]
  exact ⟨h₂.coherent, h₂.locator, by rw [h₂.cache, h.locator], h₂.nextSerial⟩

end LayeredSystem

/-! ## Everything that comes about -/

/-- A site that comes about by requests and changes, one after the other. The base library is no file
of a site, so nobody asks for it as a unit. -/
inductive LiveSite.Arises (locator : Locator) : LiveSite → Prop where
  | start (timeLimit : Nat) (sharedReferences : List String) :
    Arises locator ⟨locator, sharedReferences, { timeLimit }, 0⟩
  | foundation {site : LiveSite} (d : Disk) : Arises locator site →
    Arises locator (site.run d foundation).2
  | globalUnit {site : LiveSite} (d : Disk) : Arises locator site →
    Arises locator (site.run d globalUnit).2
  | leaf {site : LiveSite} (d : Disk) (unit : Identity) : unit.key ≠ foundationUnit.key →
    Arises locator site → Arises locator (site.run d (leaf unit)).2
  | apply {site : LiveSite} (change : Change) : Arises locator site →
    Arises locator (site.apply change).2

namespace LayeredSystem

/-- What leads on from what can come about can come about. -/
theorem Reachable.run {s : LayeredSystem} (h : s.Reachable) (actions : List LayeredAction) :
    (s.run actions).Reachable := by
  obtain ⟨locator, timeLimit, before, rfl⟩ := h
  exact ⟨locator, timeLimit, before ++ actions, List.foldl_append.symm⟩

/-- **Every site that comes about is that of a layered system that can come about**, in which no
eviction is half way. -/
theorem exists_mirrors {locator : Locator} {site : LiveSite} (h : site.Arises locator) :
    ∃ s : LayeredSystem, s.Reachable ∧ (∀ sweep ∈ s.system.sweeps, sweep.todo = []) ∧
      s.Mirrors site := by
  induction h with
  | start timeLimit sharedReferences =>
    refine ⟨start locator timeLimit, ⟨locator, timeLimit, [], rfl⟩, fun sweep hsweep => ?_,
      coherent_start locator timeLimit, rfl, rfl, rfl⟩
    cases hsweep
  | foundation d _ ih =>
    obtain ⟨s, hs, hquiet, hmirrors⟩ := ih
    obtain ⟨s', hleads, h', -⟩ := answers_foundation d hmirrors
    obtain ⟨actions, rfl⟩ := hleads.run
    exact ⟨_, hs.run actions, hleads.sweeps ▸ hquiet, h'⟩
  | globalUnit d _ ih =>
    obtain ⟨s, hs, hquiet, hmirrors⟩ := ih
    obtain ⟨s', hleads, h'⟩ := mirrors_globalUnit d hmirrors
    obtain ⟨actions, rfl⟩ := hleads.run
    exact ⟨_, hs.run actions, hleads.sweeps ▸ hquiet, h'⟩
  | leaf d unit hunit _ ih =>
    obtain ⟨s, hs, hquiet, hmirrors⟩ := ih
    obtain ⟨s', hleads, h'⟩ := mirrors_leaf d hmirrors hunit
    obtain ⟨actions, rfl⟩ := hleads.run
    exact ⟨_, hs.run actions, hleads.sweeps ▸ hquiet, h'⟩
  | apply change _ ih =>
    obtain ⟨s, hs, hquiet, hmirrors⟩ := ih
    obtain ⟨actions, h', hquiet'⟩ := mirrors_apply hmirrors change hquiet
    exact ⟨_, hs.run actions, hquiet', h'⟩

end LayeredSystem

/-- **Whatever a site holds was linked against what it holds**, after any requests and changes. -/
theorem LiveSite.Arises.references {locator : Locator} {site : LiveSite} (h : site.Arises locator)
    {id : Nat} {entry : Entry Artifact} {a : Artifact} (hind : site.cache.Indexed id)
    (hentry : site.cache.entries[id]? = some entry) (hne : entry.tier ≠ .foundation)
    (hbuilt : entry.state = .built a) :
    (∃ foundation, a.references.head? = some foundation ∧
      site.cache.at? foundationUnit.key = some (.built foundation)) ∧
    ∀ globalUnit ∈ a.references, globalUnit.tier = .siteGlobal →
      site.cache.at? site.locator.globalUnit.key = some (.built globalUnit) := by
  obtain ⟨s, hs, hquiet, hmirrors⟩ := LayeredSystem.exists_mirrors h
  rw [← hmirrors.cache] at hind hentry ⊢
  rw [← hmirrors.locator]
  exact hs.coherent.references_of_publishes (fun sweep hsweep hhalf => hhalf.2 (hquiet sweep hsweep))
    hne ⟨id, entry, hind, hentry, rfl, hbuilt⟩

end SiteHost
