import SiteHost.Proofs.Site.Layers
import SiteHost.Proofs.Site.Spared

/-!
# Coherent layers

A leaf is built in steps: it calls for the base library, then for the global unit, reads its files
and is linked at last. Meanwhile the units that it calls for may be edited, removed, forgotten and
built anew. Whatever is published in spite of that was linked against what is published now:

* `Refers`, `Stage.Fits` — what an entry may be linked against, and how far its build may have come,
  as long as no eviction is about to come upon the entry;
* `LayeredSystem.Coherent` — every entry of the map that holds an artifact or a build relies on what
  the map holds. `coherent_run`: always.

Principal results:

* `LayeredSystem.serial_inj` — artifacts of different builds have different numbers, so that equal
  artifacts are one;
* `LayeredSystem.tiers_coherent` — when no eviction is half way, every leaf and the global unit refer
  to the base library that the map holds, and leaves to the global unit that it holds.
-/

namespace SiteHost

/-- Whether an entry of a layer may be linked against artifacts: the base library, and for a leaf the
global unit after it. -/
inductive Refers (l : Locator) (s : System Artifact) (id : Nat) (tier : Tier) :
    List Artifact → Prop where
  | foundation (foundation : Artifact) : s.Holds id foundationUnit.key foundation →
      Refers l s id tier [foundation]
  | globalUnit (foundation globalUnit : Artifact) : tier = .leaf →
      s.Holds id foundationUnit.key foundation → s.Holds id l.globalUnit.key globalUnit →
      Refers l s id tier [foundation, globalUnit]

/-- Whether the build that an entry of a layer waits for may have come to a stage. -/
inductive Stage.Fits (l : Locator) (s : System Artifact) (id : Nat) (tier : Tier) :
    Stage → Prop where
  | begun : Fits l s id tier .begun
  | asking (n : Nat) : s.Awaits id foundationUnit.key n → Fits l s id tier (.asking n)
  | founded (foundation : Artifact) : tier = .leaf → s.Holds id foundationUnit.key foundation →
      Fits l s id tier (.founded foundation)
  | askingGlobal (foundation : Artifact) (n : Nat) : tier = .leaf →
      s.Holds id foundationUnit.key foundation → s.Awaits id l.globalUnit.key n →
      Fits l s id tier (.askingGlobal foundation n)
  | ready (references : List Artifact) : Refers l s id tier references →
      Fits l s id tier (.ready references)

section Mono

variable {l : Locator} {s s' : System Artifact} {id : Nat} {tier : Tier}

theorem Locator.anchors_foundation (l : Locator) (tier : Tier) :
    l.Anchors tier foundationUnit.key := .inl rfl

theorem Locator.anchors_globalUnit (l : Locator) (h : tier = .leaf) :
    l.Anchors tier l.globalUnit.key := .inr ⟨h, rfl⟩

theorem Refers.mono {references : List Artifact} (h : Refers l s id tier references)
    (hk : System.Keeps l s s' id tier) : Refers l s' id tier references := by
  cases h with
  | foundation f hf => exact .foundation f (hk.holds _ f (l.anchors_foundation tier) hf)
  | globalUnit f g hleaf hf hg =>
    exact .globalUnit f g hleaf (hk.holds _ f (l.anchors_foundation tier) hf)
      (hk.holds _ g (l.anchors_globalUnit hleaf) hg)

theorem Stage.Fits.mono {stage : Stage} (h : stage.Fits l s id tier)
    (hk : System.Keeps l s s' id tier) : stage.Fits l s' id tier := by
  cases h with
  | begun => exact .begun
  | asking n hn => exact .asking n (hk.awaits _ n (l.anchors_foundation tier) hn)
  | founded f hleaf hf => exact .founded f hleaf (hk.holds _ f (l.anchors_foundation tier) hf)
  | askingGlobal f n hleaf hf hn =>
    exact .askingGlobal f n hleaf (hk.holds _ f (l.anchors_foundation tier) hf)
      (hk.awaits _ n (l.anchors_globalUnit hleaf) hn)
  | ready references h => exact .ready references (h.mono hk)

end Mono

namespace LayeredSystem

/-- Whether a build has ended with an artifact. -/
def Returned (s : LayeredSystem) (g : Generation) (a : Artifact) : Prop :=
  ∃ f, s.system.cache.flights[g]? = some f ∧ f.ending = some (.returned (.ok a))

/-- Every entry of the map that holds an artifact or a build relies on what the map holds. -/
structure Coherent (s : LayeredSystem) : Prop where
  tiered : s.system.Tiered s.locator
  tasks : s.tasks.length = s.system.cache.flights.length
  /-- A build is for the layer of its entry. -/
  tiers : ∀ (g : Generation) (task : Task) (f : Flight Artifact) (entry : Entry Artifact),
    s.tasks[g]? = some task → s.system.cache.flights[g]? = some f →
    s.system.cache.entries[f.entry]? = some entry → task.tier = entry.tier
  /-- An artifact has the layer of its entry. -/
  made : ∀ (id : Nat) (entry : Entry Artifact) (a : Artifact),
    s.system.cache.entries[id]? = some entry → entry.state = .built a → a.tier = entry.tier
  building : ∀ (id : Nat) (entry : Entry Artifact) (g : Generation) (task : Task),
    s.system.cache.Indexed id → s.system.cache.entries[id]? = some entry →
    entry.tier ≠ .foundation → entry.state = .building g → s.tasks[g]? = some task →
    task.stage.Fits s.locator s.system id entry.tier
  built : ∀ (id : Nat) (entry : Entry Artifact) (a : Artifact),
    s.system.cache.Indexed id → s.system.cache.entries[id]? = some entry →
    entry.tier ≠ .foundation → entry.state = .built a →
    Refers s.locator s.system id entry.tier a.references
  numbered : ∀ g a, s.Returned g a → a.serial < s.nextSerial
  apart : ∀ g g' a a', s.Returned g a → s.Returned g' a' → a.serial = a'.serial → g = g'

variable {s s' : LayeredSystem} {g : Generation} {id n : Nat}

theorem coherent_start (locator : Locator) (timeLimit : Nat) :
    (start locator timeLimit).Coherent :=
  ⟨System.tiered_start locator timeLimit, rfl, fun _ _ _ _ h => by simp [start] at h,
    fun _ _ _ h => by simp [start, System.start] at h,
    fun _ _ _ _ _ h => by simp [start, System.start] at h,
    fun _ _ _ _ h => by simp [start, System.start] at h,
    fun _ _ ⟨_, h, _⟩ => by simp [start, System.start] at h,
    fun _ _ _ _ ⟨_, h, _⟩ => by simp [start, System.start] at h⟩

/-! ## What the cache does -/

/-- Where an entry of a cache comes from that was there before. -/
theorem entry_before {α : Type} {c c' : Cache α} (he : Cache.Extends c c') {st : EntryState α}
    (hst : c.state? id = some st) {entry : Entry α} (hentry : c'.entries[id]? = some entry) :
    ∃ before : Entry α, c.entries[id]? = some before ∧ before.state = st ∧
      entry.tier = before.tier := by
  obtain ⟨before, hbefore, hstate⟩ := Option.map_eq_some_iff.1 hst
  obtain ⟨entry', hentry', -, htier⟩ := he.entries id before hbefore
  rw [hentry] at hentry'
  cases hentry'
  exact ⟨before, hbefore, hstate, htier⟩

/-- The builds after an action of the cache: those that were there, and one that a look may have
started. -/
def Started (s s' : LayeredSystem) (a : Action Artifact) : Prop :=
  (s'.tasks = s.tasks ∧ s'.system.cache.flights.length = s.system.cache.flights.length) ∨
    ∃ n call, a = .look n ∧ s.system.calls[n]? = some call ∧
      s'.tasks = s.tasks ++ [Task.start call.tier] ∧
      s'.system.cache.flights = s.system.cache.flights ++ [{ entry := call.entry }]

/-- An action of the cache, with what becomes of the builds. A build that ends with an artifact was
ready, and the artifact has a new number, is for its layer and was linked against what the build has
called for. -/
structure Does (s s' : LayeredSystem) (a : Action Artifact) : Prop where
  tiered : a.Tiered s.locator
  step : s.system.step a = some s'.system
  locator : s'.locator = s.locator
  started : Started s s' a
  nextSerial : s.nextSerial ≤ s'.nextSerial
  makes : ∀ g x, a = .finish g (.returned (.ok x)) →
    (x.serial = s.nextSerial ∧ s.nextSerial < s'.nextSerial) ∧
    ∃ task references, s.tasks[g]? = some task ∧ task.stage = .ready references ∧
      x.tier = task.tier ∧ x.references = references

section Doing

variable {a : Action Artifact}

theorem Started.length (hstarted : Started s s' a) (h : s.tasks.length = s.system.cache.flights.length) :
    s'.tasks.length = s'.system.cache.flights.length := by
  rcases hstarted with ⟨htasks, hflights⟩ | ⟨n, call, -, -, htasks, hflights⟩
  · rw [htasks, hflights, h]
  · rw [htasks, hflights, List.length_append, List.length_append, h]
    rfl

/-- A build that was there is at the stage where it was. -/
theorem Started.task (hstarted : Started s s' a) (h : s.tasks.length = s.system.cache.flights.length)
    (hg : g < s.system.cache.flights.length) : s'.tasks[g]? = s.tasks[g]? := by
  rcases hstarted with ⟨htasks, -⟩ | ⟨n, call, -, -, htasks, -⟩
  · rw [htasks]
  · rw [htasks, List.getElem?_append_left (h ▸ hg)]

/-- A build that was not there was started for the entry and the layer of a call. -/
theorem Started.new (hstarted : Started s s' a) (h : s.tasks.length = s.system.cache.flights.length)
    (hg : ¬ g < s.system.cache.flights.length) {task : Task} (htask : s'.tasks[g]? = some task)
    {f : Flight Artifact} (hf : s'.system.cache.flights[g]? = some f) :
    ∃ (n : Nat) (call : Call Artifact), s.system.calls[n]? = some call ∧ f.entry = call.entry ∧
      task = .start call.tier := by
  rcases hstarted with ⟨-, hflights⟩ | ⟨n, call, -, hcall, htasks, hflights⟩
  · exact absurd (hflights ▸ (List.getElem?_eq_some_iff.1 hf).1) hg
  · rw [htasks, List.getElem?_append_right (h ▸ Nat.le_of_not_lt hg)] at htask
    rw [hflights, List.getElem?_append_right (Nat.le_of_not_lt hg)] at hf
    have hnewtask := List.mem_of_getElem? htask
    have hnewflight := List.mem_of_getElem? hf
    rw [List.mem_singleton] at hnewtask hnewflight
    exact ⟨n, call, hcall, by rw [hnewflight], hnewtask⟩

variable {entry : Entry Artifact} {task : Task} {x : Artifact}

/-- The build that an entry waits for is for the layer of the entry. -/
theorem Coherent.task_tier (h : s.Coherent) (htask : s.tasks[g]? = some task)
    (hentry : s.system.cache.entries[id]? = some entry) (hbuild : entry.state = .building g) :
    task.tier = entry.tier := by
  have hst : s.system.cache.state? id = some (.building g) := by
    rw [Cache.state?_of_entry hentry, hbuild]
  obtain ⟨-, f, hf, rfl⟩ := (h.tiered.reachable.sound.cache.fresh id).building g hst
  exact h.tiers g task f entry htask hf hentry

/-- A build that was not there is for the layer of its entry. -/
theorem Does.new_task (hd : s.Does s' a) (h : s.Coherent) (hg : ¬ g < s.system.cache.flights.length)
    (htask : s'.tasks[g]? = some task) {f : Flight Artifact}
    (hf : s'.system.cache.flights[g]? = some f)
    (hentry : s'.system.cache.entries[f.entry]? = some entry) : task = .start entry.tier := by
  obtain ⟨n, call, hcall, hsame, rfl⟩ := hd.started.new h.tasks hg htask hf
  obtain ⟨before, hbefore, -⟩ := (h.tiered.reachable.sound.calls n call hcall).entry
  obtain ⟨entry', hentry', -, ht⟩ :=
    (System.step_moves h.tiered.reachable.sound hd.step).extends.entries _ before hbefore
  rw [hsame, hentry'] at hentry
  cases hentry
  rw [h.tiered.call_tier hcall hbefore, ht]

theorem Coherent.tiers_does (h : s.Coherent) (hd : s.Does s' a) {f : Flight Artifact}
    (htask : s'.tasks[g]? = some task) (hf : s'.system.cache.flights[g]? = some f)
    (hentry : s'.system.cache.entries[f.entry]? = some entry) : task.tier = entry.tier := by
  have hsound := h.tiered.reachable.sound
  have hext := (System.step_moves hsound hd.step).extends
  by_cases hg : g < s.system.cache.flights.length
  · have hbefore := List.getElem?_eq_getElem hg
    obtain ⟨f', hf', hsame, -⟩ := hext.flights g _ hbefore
    rw [hf] at hf'
    cases hf'
    have hold := List.getElem?_eq_getElem (hsound.cache.flights g _ hbefore)
    obtain ⟨entry', hentry', -, ht⟩ := hext.entries _ _ hold
    rw [hsame, hentry'] at hentry
    cases hentry
    rw [hd.started.task h.tasks hg] at htask
    rw [ht]
    exact h.tiers g task _ _ htask hbefore hold
  · rw [hd.new_task h hg htask hf hentry]
    rfl

theorem Coherent.made_does (h : s.Coherent) (hd : s.Does s' a)
    (hentry : s'.system.cache.entries[id]? = some entry) (hbuilt : entry.state = .built x) :
    x.tier = entry.tier := by
  have hext := (System.step_moves h.tiered.reachable.sound hd.step).extends
  have hst : s'.system.cache.state? id = some (.built x) := by
    rw [Cache.state?_of_entry hentry, hbuilt]
  rcases System.held_cases h.tiered.reachable hd.step hst rfl with
    hold | ⟨n, call, -, -, -, hne⟩ | ⟨g, y, hfinish, hbuild, hy⟩
  · obtain ⟨before, hbefore, hstate, ht⟩ := entry_before hext hold hentry
    rw [ht]
    exact h.made id before x hbefore hstate
  · cases hne
  · cases hy
    obtain ⟨before, hbefore, hstate, ht⟩ := entry_before hext hbuild hentry
    obtain ⟨-, task, references, htask, -, hx, -⟩ := hd.makes g x hfinish
    rw [ht, hx]
    exact h.task_tier htask hbefore hstate

theorem Coherent.building_does (h : s.Coherent) (hd : s.Does s' a)
    (hind : s'.system.cache.Indexed id) (hentry : s'.system.cache.entries[id]? = some entry)
    (hne : entry.tier ≠ .foundation) (hbuild : entry.state = .building g)
    (htask : s'.tasks[g]? = some task) :
    task.stage.Fits s'.locator s'.system id entry.tier := by
  have hsound := h.tiered.reachable.sound
  have hext := (System.step_moves hsound hd.step).extends
  have hst : s'.system.cache.state? id = some (.building g) := by
    rw [Cache.state?_of_entry hentry, hbuild]
  by_cases hg : g < s.system.cache.flights.length
  · have hold := (System.step_moves hsound hd.step).building_of_lt hst hg
    obtain ⟨before, hbefore, hstate, ht⟩ := entry_before hext hold hentry
    have hlt := (List.getElem?_eq_some_iff.1 hbefore).1
    rw [hd.started.task h.tasks hg] at htask
    have hfits := h.building id before g task (hext.unindexed id hlt hind) hbefore (ht ▸ hne)
      hstate htask
    rw [← ht] at hfits
    rw [hd.locator]
    exact hfits.mono (System.keeps_step h.tiered hd.step hind hentry (by rw [hbuild]; rfl))
  · obtain ⟨-, f, hf, rfl⟩ :=
      ((System.step_sound hsound hd.step).cache.fresh id).building g hst
    rw [hd.new_task h hg htask hf hentry]
    unfold Task.start
    cases htier : entry.tier with
    | foundation => exact absurd htier hne
    | siteGlobal => exact .begun
    | leaf => exact .begun

theorem Coherent.built_does (h : s.Coherent) (hd : s.Does s' a)
    (hind : s'.system.cache.Indexed id) (hentry : s'.system.cache.entries[id]? = some entry)
    (hne : entry.tier ≠ .foundation) (hbuilt : entry.state = .built x) :
    Refers s'.locator s'.system id entry.tier x.references := by
  have hext := (System.step_moves h.tiered.reachable.sound hd.step).extends
  have hst : s'.system.cache.state? id = some (.built x) := by
    rw [Cache.state?_of_entry hentry, hbuilt]
  have hkeep := System.keeps_step h.tiered hd.step hind hentry (by rw [hbuilt]; rfl)
  rw [hd.locator]
  rcases System.held_cases h.tiered.reachable hd.step hst rfl with
    hold | ⟨n, call, -, -, -, hst'⟩ | ⟨g, y, hfinish, hbuild, hy⟩
  · obtain ⟨before, hbefore, hstate, ht⟩ := entry_before hext hold hentry
    have hlt := (List.getElem?_eq_some_iff.1 hbefore).1
    have hrefers := h.built id before x (hext.unindexed id hlt hind) hbefore (ht ▸ hne) hstate
    rw [← ht] at hrefers
    exact hrefers.mono hkeep
  · cases hst'
  · cases hy
    obtain ⟨before, hbefore, hstate, ht⟩ := entry_before hext hbuild hentry
    have hlt := (List.getElem?_eq_some_iff.1 hbefore).1
    obtain ⟨-, task, references, htask, hstage, -, hx⟩ := hd.makes g x hfinish
    have hfits := h.building id before g task (hext.unindexed id hlt hind) hbefore (ht ▸ hne)
      hstate htask
    rw [hstage, ← ht] at hfits
    rw [hx]
    cases hfits with
    | ready references hrefers => exact hrefers.mono hkeep

/-- A build that has ended with an artifact had so before, or has just ended. -/
theorem Does.returned_cases (hd : s.Does s' a) (h : s.Coherent) (hreturned : s'.Returned g x) :
    s.Returned g x ∨ a = .finish g (.returned (.ok x)) := by
  have hsound := h.tiered.reachable.sound
  obtain ⟨f, hf, hending⟩ := hreturned
  by_cases hg : g < s.system.cache.flights.length
  · rcases System.getElem?_flights_step hd.step hg with hsame | ⟨ending, rfl⟩
    · exact .inl ⟨f, hsame ▸ hf, hending⟩
    · obtain ⟨hrun, hs'⟩ := System.step_finish hd.step
      rw [hs'] at hf
      dsimp only at hf
      rw [Cache.flights_finish hrun, Cache.getElem?_flights_ended, if_pos rfl] at hf
      obtain ⟨f₀, -, rfl⟩ := Option.map_eq_some_iff.1 hf
      cases hending
      exact .inr rfl
  · -- a build that has just been started runs
    have hlt := (List.getElem?_eq_some_iff.1 hf).1
    obtain ⟨f', hf', hnone⟩ :=
      (Cache.isRunning_iff _ g).1 (System.isRunning_step hd.step (Nat.le_of_not_lt hg) hlt)
    rw [hf] at hf'
    cases hf'
    rw [hending] at hnone
    cases hnone

theorem Coherent.numbered_does (h : s.Coherent) (hd : s.Does s' a) (hreturned : s'.Returned g x) :
    x.serial < s'.nextSerial := by
  rcases hd.returned_cases h hreturned with hold | hfinish
  · exact Nat.lt_of_lt_of_le (h.numbered g x hold) hd.nextSerial
  · obtain ⟨⟨hserial, hlt⟩, -⟩ := hd.makes g x hfinish
    exact hserial ▸ hlt

theorem Coherent.apart_does (h : s.Coherent) (hd : s.Does s' a) {g' : Generation} {x' : Artifact}
    (hreturned : s'.Returned g x) (hreturned' : s'.Returned g' x') (hserial : x.serial = x'.serial) :
    g = g' := by
  rcases hd.returned_cases h hreturned with hold | hfinish
  · rcases hd.returned_cases h hreturned' with hold' | hfinish'
    · exact h.apart g g' x x' hold hold' hserial
    · obtain ⟨⟨hnew, -⟩, -⟩ := hd.makes g' x' hfinish'
      have hlt := h.numbered g x hold
      omega
  · rcases hd.returned_cases h hreturned' with hold' | hfinish'
    · obtain ⟨⟨hnew, -⟩, -⟩ := hd.makes g x hfinish
      have hlt := h.numbered g' x' hold'
      omega
    · rw [hfinish] at hfinish'
      cases hfinish'
      rfl

/-- **What the cache does keeps every entry relying on what the map holds.** -/
theorem Coherent.does (h : s.Coherent) (hd : s.Does s' a) : s'.Coherent :=
  ⟨hd.locator ▸ System.tiered_step h.tiered hd.tiered hd.step, hd.started.length h.tasks,
    fun _ _ _ _ htask hf hentry => h.tiers_does hd htask hf hentry,
    fun _ _ _ hentry hbuilt => h.made_does hd hentry hbuilt,
    fun _ _ _ _ hind hentry hne hbuild htask => h.building_does hd hind hentry hne hbuild htask,
    fun _ _ _ hind hentry hne hbuilt => h.built_does hd hind hentry hne hbuilt,
    fun _ _ hreturned => h.numbered_does hd hreturned,
    fun _ _ _ _ hreturned hreturned' hserial => h.apart_does hd hreturned hreturned' hserial⟩

end Doing

/-! ## What builds do -/

/-- A build may come to a stage that fits the entry that waits for it. -/
theorem Coherent.setStage (h : s.Coherent) (g : Generation) (stage : Stage)
    (hfits : ∀ (id : Nat) (entry : Entry Artifact) (task : Task), s.system.cache.Indexed id →
      s.system.cache.entries[id]? = some entry → entry.tier ≠ .foundation → s.tasks[g]? = some task →
      task.tier = entry.tier → task.stage.Fits s.locator s.system id entry.tier →
      stage.Fits s.locator s.system id entry.tier) : (s.setStage g stage).Coherent := by
  have htask : ∀ k (task : Task), (s.setStage g stage).tasks[k]? = some task →
      ∃ before : Task, s.tasks[k]? = some before ∧ task.tier = before.tier ∧
        (task.stage = before.stage ∨ k = g ∧ task.stage = stage) := by
    intro k task hk
    rw [getElem?_tasks_setStage] at hk
    split at hk
    · rename_i heq
      obtain ⟨before, hbefore, rfl⟩ := Option.map_eq_some_iff.1 hk
      exact ⟨before, hbefore, rfl, .inr ⟨heq.symm, rfl⟩⟩
    · exact ⟨task, hk, rfl, .inl rfl⟩
  refine ⟨h.tiered, ?_, ?_, h.made, ?_, h.built, h.numbered, h.apart⟩
  · unfold LayeredSystem.setStage
    dsimp only
    rw [List.length_modify]
    exact h.tasks
  · intro k task f entry hk hf hentry
    obtain ⟨before, hbefore, htier, -⟩ := htask k task hk
    rw [htier]
    exact h.tiers k before f entry hbefore hf hentry
  · intro id entry k task hind hentry hne hbuild hk
    obtain ⟨before, hbefore, -, hstage⟩ := htask k task hk
    have hold := h.building id entry k before hind hentry hne hbuild hbefore
    rcases hstage with hsame | ⟨rfl, hstage⟩
    · rw [hsame]
      exact hold
    · rw [hstage]
      exact hfits id entry before hind hentry hne hbefore (h.task_tier hbefore hentry hbuild) hold

/-- An action of the cache that starts no build and ends none with an artifact. -/
theorem Coherent.passes (h : s.Coherent) {a : Action Artifact} (hdoes : s.does a = some s')
    (ha : a.Tiered s.locator) (hlook : ∀ n, a ≠ .look n)
    (hmakes : ∀ g x, a ≠ .finish g (.returned (.ok x))) : s'.Coherent := by
  obtain ⟨system, hstep, rfl⟩ := Option.map_eq_some_iff.1 hdoes
  refine h.does (a := a) ⟨ha, hstep, rfl, .inl ⟨rfl, System.length_flights_step hstep hlook⟩,
    Nat.le_refl _, ?_⟩
  exact fun g x hfinish => absurd hfinish (hmakes g x)

/-- A build that ends without an artifact. -/
theorem Coherent.ends (h : s.Coherent) {ending : Ending Artifact}
    (hdoes : s.does (.finish g ending) = some s') (hending : ∀ x, ending ≠ .returned (.ok x)) :
    s'.Coherent := by
  refine h.passes hdoes trivial (fun n => by simp) fun k x hfinish => ?_
  cases hfinish
  exact hending x rfl

/-- A call for a unit in its layer. -/
theorem Coherent.enters (h : s.Coherent) {unit : Identity} {tier : Tier}
    (hdoes : s.does (.enter unit tier) = some s') (htier : tier = s.locator.tierOf unit.key) :
    s'.Coherent ∧ s'.locator = s.locator ∧ s'.tasks = s.tasks ∧
      ∀ id, s'.system.Awaits id unit.key s.system.calls.length := by
  refine ⟨h.passes hdoes htier (fun n => by simp) fun k x => by simp, ?_⟩
  obtain ⟨system, hstep, rfl⟩ := Option.map_eq_some_iff.1 hdoes
  exact ⟨rfl, rfl, fun id => .inl (System.promised_enter hstep)⟩

theorem Coherent.looks (h : s.Coherent) (hlook : s.look n = some s') : s'.Coherent := by
  unfold look at hlook
  split at hlook
  · rename_i call system hcall hstep
    cases hlook
    refine h.does (a := .look n)
      ⟨trivial, hstep, rfl, ?_, Nat.le_refl _, fun g x hfinish => by cases hfinish⟩
    obtain ⟨call', hcall', -, hsystem⟩ := System.step_look hstep
    rw [hcall] at hcall'
    cases hcall'
    obtain ⟨st, hst⟩ := h.tiered.reachable.sound.state?_entry hcall
    unfold Started
    dsimp only
    rw [hsystem]
    rcases Cache.look_cases hst call.tier with ⟨x, -, hl⟩ | ⟨k, -, hl⟩ | ⟨-, hl⟩
    · rw [hl]
      exact .inl ⟨List.append_nil _, rfl⟩
    · rw [hl]
      exact .inl ⟨List.append_nil _, rfl⟩
    · rw [hl]
      exact .inr ⟨n, call, rfl, hcall, rfl, rfl⟩
  · cases hlook

theorem Coherent.evicts (h : s.Coherent) {evictions : List Eviction}
    (he : ∀ e ∈ evictions, e.Spares) : (s.evict evictions).Coherent := by
  induction evictions generalizing s with
  | nil => exact h
  | cons e rest ih =>
    have hfirst : s.does (.evict e) = some { s with system := s.system.act (.evict e) } := rfl
    have hnext := h.passes hfirst (he e List.mem_cons_self) (fun n => by simp) fun g x => by simp
    exact ih hnext fun e' he' => he e' (List.mem_cons_of_mem e he')

/-- Where a build is that has not ended. -/
theorem stage_eq_some {stage : Stage} (h : (s.task? g).map Task.stage = some stage) :
    ∃ task : Task, s.tasks[g]? = some task ∧ task.stage = stage := by
  obtain ⟨task, htask, hstage⟩ := Option.map_eq_some_iff.1 h
  exact ⟨task, (task?_eq_some_iff.1 htask).2, hstage⟩

/-- Who was promised a key and was told an artifact may rely on it. -/
theorem Coherent.holds_of_told (h : s.Coherent) {key : String} {x : Artifact}
    (hawaits : s.system.Awaits id key n) (htold : s.told? n = some (.ok x)) :
    s.system.Holds id key x := by
  rcases hawaits with ⟨call, hcall, hp⟩ | hreached
  · left
    unfold told? at htold
    rw [hcall, Option.bind_some] at htold
    exact System.at?_of_promised h.tiered.reachable hcall hp htold
  · exact .inr hreached

theorem Coherent.asks (h : s.Coherent) (hask : s.ask g = some s') : s'.Coherent := by
  unfold ask at hask
  dsimp only at hask
  split at hask
  · obtain ⟨s₁, hdoes, rfl⟩ := Option.map_eq_some_iff.1 hask
    obtain ⟨h₁, -, -, hawaits⟩ := h.enters hdoes (tierOf_foundation _).symm
    exact h₁.setStage g _ fun id _ _ _ _ _ _ _ _ => .asking _ (hawaits id)
  · rename_i foundation hstage
    obtain ⟨task, htask, hfounded⟩ := stage_eq_some hstage
    obtain ⟨s₁, hdoes, rfl⟩ := Option.map_eq_some_iff.1 hask
    obtain ⟨h₁, hlocator, htasks, hawaits⟩ := h.enters hdoes (s.locator.tierOf_globalUnit_key).symm
    refine h₁.setStage g _ fun id entry task' _ _ _ htask' _ hfits => ?_
    rw [htasks, htask] at htask'
    cases htask'
    rw [hfounded] at hfits
    cases hfits with
    | founded _ hleaf hholds => exact .askingGlobal _ _ hleaf hholds (hlocator ▸ hawaits id)
  · cases hask

theorem Coherent.skips (h : s.Coherent) (hskip : s.skip g = some s') : s'.Coherent := by
  unfold skip at hskip
  split at hskip
  · rename_i foundation hstage
    obtain ⟨task, htask, hfounded⟩ := stage_eq_some hstage
    cases hskip
    refine h.setStage g _ fun id entry task' _ _ _ htask' _ hfits => ?_
    rw [htask] at htask'
    cases htask'
    rw [hfounded] at hfits
    cases hfits with
    | founded _ hleaf hholds => exact .ready _ (.foundation _ hholds)
  · cases hskip

theorem Coherent.takes (h : s.Coherent) (htake : s.take g = some s') : s'.Coherent := by
  unfold take at htake
  split at htake
  · -- the build has called for the base library
    rename_i tier n htask
    have htask := (task?_eq_some_iff.1 htask).2
    split at htake
    · rename_i foundation htold
      cases htake
      refine h.setStage g _ fun id entry task' _ _ _ htask' htier hfits => ?_
      rw [htask] at htask'
      cases htask'
      cases hfits with
      | asking _ hawaits =>
        have hholds := h.holds_of_told hawaits htold
        split
        · rename_i hleaf
          exact .founded _ (htier ▸ hleaf) hholds
        · exact .ready _ (.foundation _ hholds)
    · exact h.ends htake fun x => by simp
    · cases htake
  · -- the build has called for the global unit
    rename_i tier foundation n htask
    have htask := (task?_eq_some_iff.1 htask).2
    split at htake
    · rename_i globalUnit htold
      cases htake
      refine h.setStage g _ fun id entry task' _ _ _ htask' _ hfits => ?_
      rw [htask] at htask'
      cases htask'
      cases hfits with
      | askingGlobal _ _ hleaf hholds hawaits =>
        exact .ready _ (.globalUnit _ _ hleaf hholds (h.holds_of_told hawaits htold))
    · cases htake
      refine h.setStage g _ fun id entry task' _ _ _ htask' _ hfits => ?_
      rw [htask] at htask'
      cases htask'
      cases hfits with
      | askingGlobal _ _ hleaf hholds hawaits => exact .ready _ (.foundation _ hholds)
    · exact h.ends htake fun x => by simp
    · cases htake
  · cases htake

theorem Coherent.compiles (h : s.Coherent) {unit : Identity} {kind : UnitKind}
    {sources : List SourceText} (hcompile : s.compile g unit kind sources = some s') :
    s'.Coherent := by
  unfold LayeredSystem.compile at hcompile
  split at hcompile
  · rename_i tier references htask
    dsimp only at hcompile
    obtain ⟨s₁, hdoes, rfl⟩ := Option.map_eq_some_iff.1 hcompile
    obtain ⟨system, hstep, rfl⟩ := Option.map_eq_some_iff.1 hdoes
    refine h.does (a := .finish g (.returned _)) ⟨trivial, hstep, rfl,
      .inl ⟨rfl, System.length_flights_step hstep fun n => by simp⟩, Nat.le_add_right _ _,
      fun k x hfinish => ?_⟩
    simp only [Action.finish.injEq, Ending.returned.injEq] at hfinish
    obtain ⟨rfl, hlinked⟩ := hfinish
    obtain ⟨hserial, htier, hreferences⟩ := of_linked_eq_ok hlinked
    refine ⟨⟨hserial, ?_⟩, _, references, (task?_eq_some_iff.1 htask).2, rfl, htier, hreferences⟩
    simp [hlinked, Except.isOk, Except.toBool]
  · cases hcompile

/-- **Every action of anybody keeps every entry relying on what the map holds.** -/
theorem coherent_step {a : LayeredAction} (h : s.Coherent) (hstep : s.step a = some s') :
    s'.Coherent := by
  cases a with
  | foundation => exact (h.enters hstep (tierOf_foundation _).symm).1
  | globalUnit => exact (h.enters hstep s.locator.tierOf_globalUnit_key.symm).1
  | leaf unit =>
    unfold step at hstep
    dsimp only at hstep
    split at hstep
    · cases hstep
    · rename_i hne
      split at hstep
      · exact (h.enters hstep s.locator.tierOf_globalUnit_key.symm).1
      · rename_i hglobal
        exact (h.enters hstep (Locator.tierOf_leaf hne hglobal).symm).1
  | look n => exact h.looks hstep
  | answer n => exact h.passes hstep trivial (fun n => by simp) fun g x => by simp
  | leave n => exact h.passes hstep trivial (fun n => by simp) fun g x => by simp
  | change change =>
    cases hstep
    exact h.evicts fun e he => Locator.spares_of_mem_evictions he
  | reset =>
    cases hstep
    refine h.evicts fun e he => ?_
    rw [List.mem_singleton.1 he]
    trivial
  | sweep m => exact h.passes hstep trivial (fun n => by simp) fun g x => by simp
  | ask g => exact h.asks hstep
  | skip g => exact h.skips hstep
  | take g => exact h.takes hstep
  | compile g unit kind sources => exact h.compiles hstep
  | fail g failure =>
    unfold step at hstep
    dsimp only at hstep
    split at hstep
    · exact h.ends hstep fun x => by simp
    · cases hstep
  | expire g => exact h.ends hstep fun x => by simp
  | panic g => exact h.ends hstep fun x => by simp

/-- **Every entry that holds something relies on what the map holds, at all times.** -/
theorem coherent_run (h : s.Coherent) (actions : List LayeredAction) : (s.run actions).Coherent := by
  induction actions generalizing s with
  | nil => exact h
  | cons a rest ih =>
    refine ih (s := s.act a) ?_
    unfold act
    cases hstep : s.step a with
    | none => exact h
    | some s' => exact coherent_step h hstep

theorem Reachable.coherent (hs : s.Reachable) : s.Coherent := by
  obtain ⟨locator, timeLimit, actions, rfl⟩ := hs
  exact coherent_run (coherent_start locator timeLimit) actions

/-- Artifacts are told apart by their numbers. -/
theorem serial_inj (hs : s.Reachable) {g g' : Generation} {a a' : Artifact} (h : s.Returned g a)
    (h' : s.Returned g' a') (hserial : a.serial = a'.serial) : g = g' ∧ a = a' := by
  obtain rfl := hs.coherent.apart g g' a a' h h' hserial
  obtain ⟨f, hf, hending⟩ := h
  obtain ⟨f', hf', hending'⟩ := h'
  rw [hf] at hf'
  cases hf'
  rw [hending] at hending'
  cases hending'
  exact ⟨rfl, rfl⟩

/-! ## What is published -/

/-- Whether an artifact is published for a layer: an entry of the map holds it. -/
def Publishes (s : LayeredSystem) (tier : Tier) (a : Artifact) : Prop :=
  ∃ id entry, s.system.cache.Indexed id ∧ s.system.cache.entries[id]? = some entry ∧
    entry.tier = tier ∧ entry.state = .built a

/-- The artifact that the map holds for a key has the layer of the key. -/
theorem Coherent.tier_of_at? (h : s.Coherent) {key : String} {x : Artifact}
    (hat : s.system.cache.at? key = some (.built x)) : x.tier = s.locator.tierOf key := by
  obtain ⟨j, hkey, hst⟩ := Cache.at?_eq_some_iff.1 hat
  obtain ⟨entry, hentry, hbuilt⟩ := Option.map_eq_some_iff.1 hst
  rw [h.made j entry x hentry hbuilt]
  exact h.tiered.entries.of_indexed h.tiered.reachable.sound.cache hkey hentry

/-- What a key holds as far as anybody relies on it is there when no eviction is half way. -/
theorem at?_of_holds {key : String} {x : Artifact} (hholds : s.system.Holds id key x)
    (hquiet : ∀ sweep ∈ s.system.sweeps, ¬ sweep.HalfWay) :
    s.system.cache.at? key = some (.built x) := by
  rcases hholds with hat | ⟨m, sweep, hsweep, hbegun, chore, hchore, -⟩
  · exact hat
  · exact absurd ⟨hbegun, List.ne_nil_of_mem hchore⟩ (hquiet sweep (List.mem_of_getElem? hsweep))

/-- What is published was linked against the base library that the map holds, and against no global
unit but the one that it holds. -/
theorem Coherent.references_of_publishes (h : s.Coherent)
    (hquiet : ∀ sweep ∈ s.system.sweeps, ¬ sweep.HalfWay) {tier : Tier} {a : Artifact}
    (hne : tier ≠ .foundation) (ha : s.Publishes tier a) :
    (∃ foundation, a.references.head? = some foundation ∧
      s.system.cache.at? foundationUnit.key = some (.built foundation)) ∧
    ∀ globalUnit ∈ a.references, globalUnit.tier = .siteGlobal →
      s.system.cache.at? s.locator.globalUnit.key = some (.built globalUnit) := by
  obtain ⟨id, entry, hind, hentry, rfl, hbuilt⟩ := ha
  -- the base library is no global unit
  have hother : ∀ foundation, s.system.cache.at? foundationUnit.key = some (.built foundation) →
      foundation.tier ≠ .siteGlobal := by
    intro foundation hat hglobal
    rw [h.tier_of_at? hat, tierOf_foundation] at hglobal
    cases hglobal
  generalize hrefs : a.references = references
  have hrefers := h.built id entry a hind hentry hne hbuilt
  rw [hrefs] at hrefers
  cases hrefers with
  | foundation f hf =>
    have hat := at?_of_holds hf hquiet
    refine ⟨⟨f, rfl, hat⟩, fun g hg hglobal => ?_⟩
    cases List.mem_singleton.1 hg
    exact absurd hglobal (hother _ hat)
  | globalUnit f g hleaf hf hg =>
    have hat := at?_of_holds hf hquiet
    refine ⟨⟨f, rfl, hat⟩, fun g' hg' hglobal => ?_⟩
    rcases List.mem_cons.1 hg' with rfl | hg'
    · exact absurd hglobal (hother _ hat)
    · cases List.mem_singleton.1 hg'
      exact at?_of_holds hg hquiet

/-- **All that is published was linked against what is published.** When no eviction is half way:

* a leaf or a global unit that the map holds has the base library as its first reference that the map
  holds now;
* a global unit that it references is the one that the map holds now;
* so no two of them were linked against two base libraries, or two global units. -/
theorem tiers_coherent (hs : s.Reachable) (hquiet : ∀ sweep ∈ s.system.sweeps, ¬ sweep.HalfWay) :
    (∀ tier a, tier ≠ .foundation → s.Publishes tier a →
      (∃ foundation, a.references.head? = some foundation ∧
        s.system.cache.at? foundationUnit.key = some (.built foundation)) ∧
      ∀ globalUnit ∈ a.references, globalUnit.tier = .siteGlobal →
        s.system.cache.at? s.locator.globalUnit.key = some (.built globalUnit)) ∧
    ∀ tier a tier' a', tier ≠ .foundation → tier' ≠ .foundation → s.Publishes tier a →
      s.Publishes tier' a' → a.references.head? = a'.references.head? ∧
      ∀ globalUnit ∈ a.references, ∀ globalUnit' ∈ a'.references, globalUnit.tier = .siteGlobal →
        globalUnit'.tier = .siteGlobal → globalUnit = globalUnit' := by
  have hpublished := fun tier a (hne : tier ≠ .foundation) (ha : s.Publishes tier a) =>
    hs.coherent.references_of_publishes hquiet hne ha
  refine ⟨hpublished, fun tier a tier' a' hne hne' ha ha' => ?_⟩
  obtain ⟨⟨f, hf, hat⟩, hglobal⟩ := hpublished tier a hne ha
  obtain ⟨⟨f', hf', hat'⟩, hglobal'⟩ := hpublished tier' a' hne' ha'
  constructor
  · rw [hat] at hat'
    cases hat'
    rw [hf, hf']
  · intro g hg g' hg' htier htier'
    have hnow := hglobal g hg htier
    rw [hglobal' g' hg' htier'] at hnow
    cases hnow
    rfl

/-- A leaf has called for all that it is linked against when the global unit is edited. The build that
comes too late is not published; the next one is, and is linked against the new global unit. -/
def edited : LayeredSystem :=
  let leaf : Identity := ⟨"/site/a.ks", "Site.a"⟩
  let globalUnit : Identity := ⟨"/site/global.ks", "Site.global"⟩
  (start ⟨"/site", .default⟩ 1000).run [
    .leaf leaf, .look 0, .ask 0, .look 1, .compile 1 foundationUnit .script [], .answer 1, .take 0,
    .ask 0, .look 2, .ask 2, .look 3, .take 2, .compile 2 globalUnit .script [], .answer 2, .take 0,
    .change ⟨"/site/global.ks", .modified⟩, .sweep 0, .sweep 0, .sweep 0, .sweep 0, .sweep 0,
    .sweep 1, .sweep 1, .sweep 1, .compile 0 leaf .script [],
    .leaf leaf, .look 4, .ask 3, .look 5, .take 3, .ask 3, .look 6, .ask 4, .look 7, .take 4,
    .compile 4 globalUnit .script [], .answer 6, .take 3, .compile 3 leaf .script []]

/-- After the edit the leaf references the base library and the new global unit, which are the ones
that the map holds. -/
theorem tiers_coherent_edited : edited.Reachable ∧
    (∀ sweep ∈ edited.system.sweeps, ¬ sweep.HalfWay) ∧
    ∃ leaf foundation globalUnit, edited.Publishes .leaf leaf ∧
      leaf.references = [foundation, globalUnit] ∧ globalUnit.serial = 3 ∧
      edited.system.cache.at? foundationUnit.key = some (.built foundation) ∧
      edited.system.cache.at? edited.locator.globalUnit.key = some (.built globalUnit) := by
  have hreachable : edited.Reachable := ⟨_, _, _, rfl⟩
  have hquiet : ∀ sweep ∈ edited.system.sweeps, ¬ sweep.HalfWay := by decide +kernel
  have hkey : edited.system.cache.index.get? "/site/a.ks" = some 0 := by decide +kernel
  have hleaf : (edited.system.cache.entries[0]?).map (fun entry => (entry.tier, match entry.state with
      | .built a => a.references.map fun reference => (reference.tier, reference.serial)
      | _ => [])) = some (.leaf, [(.foundation, 0), (.siteGlobal, 3)]) := by decide +kernel
  obtain ⟨entry, hentry, hpair⟩ := Option.map_eq_some_iff.1 hleaf
  obtain ⟨htier, hreferences⟩ := Prod.mk.inj hpair
  cases hstate : entry.state with
  | built a =>
    rw [hstate] at hreferences
    obtain ⟨foundation, rest, hrefs, -, hrest⟩ := List.map_eq_cons_iff.1 hreferences
    obtain ⟨globalUnit, rest', rfl, hglobal, hnil⟩ := List.map_eq_cons_iff.1 hrest
    cases List.map_eq_nil_iff.1 hnil
    have hpublished : edited.Publishes .leaf a := ⟨0, entry, ⟨_, hkey⟩, hentry, htier, hstate⟩
    obtain ⟨⟨foundation', hhead, hat⟩, hnow⟩ :=
      (tiers_coherent hreachable hquiet).1 .leaf a (by decide) hpublished
    rw [hrefs] at hhead
    cases hhead
    exact ⟨hreachable, hquiet, a, foundation, globalUnit, hpublished, hrefs,
      congrArg Prod.snd hglobal, hat, hnow globalUnit (by simp [hrefs]) (congrArg Prod.fst hglobal)⟩
  | _ =>
    rw [hstate] at hreferences
    cases hreferences

end LayeredSystem

end SiteHost
