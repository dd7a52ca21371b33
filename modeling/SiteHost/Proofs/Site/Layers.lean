import SiteHost.Proofs.Cache.Promised
import SiteHost.Proofs.Site.Builds
import SiteHost.Proofs.Site.Keys
import SiteHost.Proofs.Site.Watching

/-!
# A site under many callers

Calls for all three layers of a site, builds that ask for the layers below them, and changes on disk
run side by side. What happens at once is one step of the cache, or one step of a build:

* `Stage`, `Task` — how far a build has come on its way to what it is linked against;
* `linked` — what a build returns that has read its sources. `links_buildUnit` and
  `links_buildFoundation`: builds return nothing else;
* `LayeredSystem.step`, `LayeredSystem.run` — one action of anybody, and any number of actions in any
  order.

A disk may be written at any time, so a build may find any sources and may or may not find a global
unit. Nothing is known of the disk here.
-/

namespace SiteHost

/-! ## What builds return -/

/-- What a build returns that has sources and references. -/
def linked (serial : Nat) (unit : Identity) (tier : Tier) (kind : UnitKind)
    (sources : List SourceText) (references : List Artifact) : Except Failure Artifact :=
  match compile sources references with
  | .error diagnostics => .error (.compile ⟨unit.typeName, diagnostics⟩)
  | .ok module => .ok (.mk serial unit tier kind (some module) references sources)

/-- What is linked has the number, the layer and the references that it was linked with. -/
theorem of_linked_eq_ok {serial : Nat} {unit : Identity} {tier : Tier} {kind : UnitKind}
    {sources : List SourceText} {references : List Artifact} {a : Artifact}
    (h : linked serial unit tier kind sources references = .ok a) :
    a.serial = serial ∧ a.tier = tier ∧ a.references = references := by
  unfold linked at h
  split at h
  · cases h
  · cases h
    exact ⟨rfl, rfl, rfl⟩

/-- Whether a build only reads. -/
def Reads {α : Type} (d : Disk) (x : Build α) : Prop := ∀ s : LiveSite, (s.run d x).2 = s

namespace Reads

variable {α β : Type} {d : Disk}

theorem pure (a : α) : Reads d (pure a) := fun _ => rfl

theorem throw (e : Failure) : Reads d (throw e : Build α) := fun _ => rfl

theorem bind {x : Build α} {f : α → Build β} (hx : Reads d x) (hf : ∀ a, Reads d (f a)) :
    Reads d (x >>= f) := by
  intro s
  have hs := hx s
  rw [LiveSite.run_bind]
  rcases hrun : s.run d x with ⟨e | a, s₁⟩
  · rw [hrun] at hs
    exact hs
  · rw [hrun] at hs
    obtain rfl : s₁ = s := hs
    exact hf a s₁

theorem get_bind {f : LiveSite → Build α} (h : ∀ s, Reads d (f s)) : Reads d (get >>= f) :=
  fun s => h s s

theorem read_bind {f : Disk → Build α} (h : Reads d (f d)) : Reads d (read >>= f) := fun s => h s

theorem mapM {f : α → Build β} (h : ∀ a, Reads d (f a)) (xs : List α) : Reads d (xs.mapM f) := by
  induction xs with
  | nil => exact pure []
  | cons a rest ih =>
    rw [List.mapM_cons]
    exact bind (h a) fun b => bind ih fun bs => pure (b :: bs)

end Reads

section Reading

open LiveSite

variable (d : Disk) (unit : Identity)

theorem reads_readOptional (path : String) : Reads d (readOptional unit path) := by
  refine .read_bind ?_
  cases d.readText? path with
  | ok text => exact .pure text
  | error e => exact .throw _

theorem reads_readUnit : Reads d (readUnit unit) := by
  refine .bind (reads_readOptional d unit unit.path) fun script => .get_bind fun s => ?_
  refine .bind (reads_readOptional d unit _) fun markup => ?_
  split
  · exact .pure none
  · exact .pure _

theorem reads_findUnit : Reads d (findUnit unit) := by
  refine .bind (reads_readUnit d unit) fun texts? => ?_
  cases texts? with
  | some texts => exact .pure _
  | none =>
    refine .read_bind (.get_bind fun s => ?_)
    cases spelledOnDisk? d s.locator unit with
    | none => exact .throw _
    | some spelled =>
      refine .bind (reads_readUnit d spelled) fun texts? => ?_
      cases texts? with
      | some texts => exact .pure _
      | none => exact .throw _

end Reading

/-- Only what is linked takes a number. -/
theorem LiveSite.run_compileUnit (s : LiveSite) (d : Disk) (unit : Identity) (tier : Tier)
    (kind : UnitKind) (sources : List SourceText) (references : List Artifact) :
    s.run d (compileUnit unit tier kind sources references) =
      match linked s.nextSerial unit tier kind sources references with
      | .ok a => (.ok a, { s with nextSerial := s.nextSerial + 1 })
      | .error failure => (.error failure, s) := by
  unfold compileUnit linked
  cases compile sources references with
  | error diagnostics => rfl
  | ok module => rfl

/-- Whether a build fails, or links the sources that it has found. -/
def Links (d : Disk) (tier : Tier) (references : List Artifact) (x : Build Artifact) : Prop :=
  ∀ s : LiveSite, (∃ failure, s.run d x = (.error failure, s)) ∨
    ∃ unit kind sources,
      s.run d x = s.run d (LiveSite.compileUnit unit tier kind sources references)

namespace Links

variable {α : Type} {d : Disk} {tier : Tier} {references : List Artifact}

theorem throw (e : Failure) : Links d tier references (throw e) := fun _ => .inl ⟨e, rfl⟩

theorem compileUnit (unit : Identity) (kind : UnitKind) (sources : List SourceText) :
    Links d tier references (LiveSite.compileUnit unit tier kind sources references) :=
  fun _ => .inr ⟨unit, kind, sources, rfl⟩

theorem bind {x : Build α} {f : α → Build Artifact} (hx : Reads d x)
    (hf : ∀ a, Links d tier references (f a)) : Links d tier references (x >>= f) := by
  intro s
  have hs := hx s
  rw [LiveSite.run_bind]
  rcases hrun : s.run d x with ⟨e | a, s₁⟩
  · rw [hrun] at hs
    obtain rfl : s₁ = s := hs
    exact .inl ⟨e, rfl⟩
  · rw [hrun] at hs
    obtain rfl : s₁ = s := hs
    exact hf a s₁

theorem get_bind {f : LiveSite → Build Artifact} (h : ∀ s, Links d tier references (f s)) :
    Links d tier references (get >>= f) := fun s => h s s

end Links

/-- **A unit is not built, or its sources are linked against its references.** -/
theorem links_buildUnit (d : Disk) (unit : Identity) (tier : Tier) (references : List Artifact) :
    Links d tier references (LiveSite.buildUnit unit tier references) := by
  refine .bind (reads_findUnit d unit) fun found => .get_bind fun s => ?_
  obtain ⟨spelled, texts⟩ := found
  dsimp only
  cases texts.markup with
  | none => exact .compileUnit _ _ _
  | some markup =>
    dsimp only
    cases Template.script ⟨spelled.typeName, s.locator.markupPath spelled, markup,
      texts.script.isSome⟩ with
    | error diagnostic => exact .throw _
    | ok generated => exact .compileUnit _ _ _

/-- The base library is not built, or it is linked against nothing. -/
theorem links_buildFoundation (d : Disk) : Links d .foundation [] LiveSite.buildFoundation := by
  refine .get_bind fun s => .bind (.mapM (fun path => .read_bind ?_) _) fun shared =>
    .compileUnit _ _ _
  cases d.readText path with
  | ok text => exact .pure _
  | error e => exact .throw _

/-! ## Calls, builds and changes side by side -/

/-- How far a build has come on its way to what it is linked against. -/
inductive Stage where
  /-- It has asked for nothing yet. -/
  | begun
  /-- It waits for the base library, which it has called for. -/
  | asking (call : Nat)
  /-- It has the base library, and the global unit comes next. -/
  | founded (foundation : Artifact)
  /-- It waits for the global unit, which it has called for. -/
  | askingGlobal (foundation : Artifact) (call : Nat)
  /-- It has everything that it is linked against. -/
  | ready (references : List Artifact)
  deriving Inhabited

/-- A build and the layer that it is for. -/
structure Task where
  tier : Tier
  stage : Stage
  deriving Inhabited

/-- A build that has just been started. The base library is linked against nothing. -/
def Task.start (tier : Tier) : Task :=
  ⟨tier, match tier with
    | .foundation => .ready []
    | .siteGlobal | .leaf => .begun⟩

/-- The build that a caller of a layer has to run after such a look. -/
def Task.started (tier : Tier) : Lookup Artifact → List Task
  | .started _ => [.start tier]
  | .hit _ | .joined _ => []

/-- A site with everyone who ever called, every build and every eviction. -/
structure LayeredSystem where
  locator : Locator
  system : System Artifact
  /-- Every build, at the place of its generation. -/
  tasks : List Task := []
  /-- The number of the next artifact. -/
  nextSerial : Nat := 0
  deriving Inhabited

/-- What happens at once. -/
inductive LayeredAction where
  /-- Somebody calls for the base library. -/
  | foundation
  /-- Somebody calls for the global unit, which is built or on disk. -/
  | globalUnit
  /-- Somebody calls for a unit. -/
  | leaf (unit : Identity)
  /-- A call looks at its entry. -/
  | look (n : Nat)
  /-- A caller learns how the build has ended that it waits for. -/
  | answer (n : Nat)
  /-- A caller stops waiting. -/
  | leave (n : Nat)
  /-- A change on disk is applied. -/
  | change (change : Change)
  /-- Every unit is to be forgotten. -/
  | reset
  /-- An eviction goes on. -/
  | sweep (m : Nat)
  /-- A build calls for what comes next of all that it is linked against. -/
  | ask (g : Generation)
  /-- A build finds that there is no global unit. -/
  | skip (g : Generation)
  /-- A build learns what came of its call. -/
  | take (g : Generation)
  /-- A build has read its sources and links them. -/
  | compile (g : Generation) (unit : Identity) (kind : UnitKind) (sources : List SourceText)
  /-- A build does not come to sources. -/
  | fail (g : Generation) (failure : Failure)
  /-- A build runs out of time. -/
  | expire (g : Generation)
  /-- A build panics. -/
  | panic (g : Generation)
  deriving Inhabited

namespace LayeredSystem

/-- The site that nobody has called yet. -/
def start (locator : Locator) (timeLimit : Nat) : LayeredSystem :=
  { locator, system := .start timeLimit }

/-- Something that does not touch the builds on their way. -/
def does (s : LayeredSystem) (a : Action Artifact) : Option LayeredSystem :=
  (s.system.step a).map fun system => { s with system }

/-- A build that has not ended. -/
def task? (s : LayeredSystem) (g : Generation) : Option Task :=
  if s.system.cache.isRunning g then s.tasks[g]? else none

/-- What a caller was told. -/
def told? (s : LayeredSystem) (n : Nat) : Option (Except Failure Artifact) :=
  s.system.calls[n]?.bind Call.result

/-- The site in which a build has come to another stage. -/
def setStage (s : LayeredSystem) (g : Generation) (stage : Stage) : LayeredSystem :=
  { s with tasks := s.tasks.modify g fun task => { task with stage } }

/-- The site in which evictions have begun. -/
def evict (s : LayeredSystem) (evictions : List Eviction) : LayeredSystem :=
  { s with system := s.system.run (evictions.map .evict) }

/-- A look at an entry. Who finds nothing there starts the build that it called for. -/
def look (s : LayeredSystem) (n : Nat) : Option LayeredSystem :=
  match s.system.calls[n]?, s.system.step (.look n) with
  | some call, some system =>
    let found := (s.system.cache.look call.entry call.tier).1
    some { s with system, tasks := s.tasks ++ Task.started call.tier found }
  | _, _ => none

/-- A build calls for the base library, or for the global unit after it. -/
def ask (s : LayeredSystem) (g : Generation) : Option LayeredSystem :=
  let n := s.system.calls.length
  match (s.task? g).map Task.stage with
  | some .begun =>
    (s.does (.enter foundationUnit .foundation)).map fun s => s.setStage g (.asking n)
  | some (.founded foundation) =>
    (s.does (.enter s.locator.globalUnit .siteGlobal)).map fun s =>
      s.setStage g (.askingGlobal foundation n)
  | _ => none

/-- A build goes on without a global unit. By then there may be one again. -/
def skip (s : LayeredSystem) (g : Generation) : Option LayeredSystem :=
  match (s.task? g).map Task.stage with
  | some (.founded foundation) => some (s.setStage g (.ready [foundation]))
  | _ => none

/-- A build goes on with what it has called for, or fails with it. A global unit that is not found is
none. -/
def take (s : LayeredSystem) (g : Generation) : Option LayeredSystem :=
  match s.task? g with
  | some ⟨tier, .asking n⟩ =>
    match s.told? n with
    | some (.ok foundation) =>
      some (s.setStage g (if tier = .leaf then .founded foundation else .ready [foundation]))
    | some (.error failure) => s.does (.finish g (.returned (.error failure)))
    | none => none
  | some ⟨_, .askingGlobal foundation n⟩ =>
    match s.told? n with
    | some (.ok globalUnit) => some (s.setStage g (.ready [foundation, globalUnit]))
    | some (.error (.notFound _)) => some (s.setStage g (.ready [foundation]))
    | some (.error failure) => s.does (.finish g (.returned (.error failure)))
    | none => none
  | _ => none

/-- A build links its sources against all that it has called for, and ends. -/
def compile (s : LayeredSystem) (g : Generation) (unit : Identity) (kind : UnitKind)
    (sources : List SourceText) : Option LayeredSystem :=
  match s.task? g with
  | some ⟨tier, .ready references⟩ =>
    let result := linked s.nextSerial unit tier kind sources references
    (s.does (.finish g (.returned result))).map fun s =>
      { s with nextSerial := s.nextSerial + if result.isOk then 1 else 0 }
  | _ => none

/-- One action, if it is possible. The base library is no file of a site, so nobody calls for it as a
unit: see `Locator.key_ne_of_resolve` and `Locator.key_ne_of_unitOfFile?`. -/
def step (s : LayeredSystem) : LayeredAction → Option LayeredSystem
  | .foundation => s.does (.enter foundationUnit .foundation)
  | .globalUnit => s.does (.enter s.locator.globalUnit .siteGlobal)
  | .leaf unit =>
    if unit.key = foundationUnit.key then none
    else if s.locator.isGlobal unit then s.does (.enter s.locator.globalUnit .siteGlobal)
    else s.does (.enter unit .leaf)
  | .look n => s.look n
  | .answer n => s.does (.answer n)
  | .leave n => s.does (.leave n)
  | .change change => some (s.evict (s.locator.evictions change))
  | .reset => some (s.evict [.reset])
  | .sweep m => s.does (.sweep m)
  | .ask g => s.ask g
  | .skip g => s.skip g
  | .take g => s.take g
  | .compile g unit kind sources => s.compile g unit kind sources
  | .fail g failure =>
    match (s.task? g).map Task.stage with
    | some (.ready _) => s.does (.finish g (.returned (.error failure)))
    | _ => none
  | .expire g => s.does (.finish g .timedOut)
  | .panic g => s.does (.finish g .panicked)

/-- One action. What is not possible changes nothing. -/
def act (s : LayeredSystem) (a : LayeredAction) : LayeredSystem := (s.step a).getD s

/-- Actions one after the other. -/
def run (s : LayeredSystem) (actions : List LayeredAction) : LayeredSystem := actions.foldl act s

/-- What can come about. -/
def Reachable (s : LayeredSystem) : Prop :=
  ∃ locator timeLimit actions, s = (start locator timeLimit).run actions

variable {s : LayeredSystem} {g k : Generation} {task : Task}

theorem task?_eq_some_iff : s.task? g = some task ↔
    s.system.cache.isRunning g = true ∧ s.tasks[g]? = some task := by
  unfold task?
  split
  · rename_i hrun
    simp [hrun]
  · rename_i hrun
    simp [hrun]

theorem getElem?_tasks_setStage (s : LayeredSystem) (g k : Generation) (stage : Stage) :
    (s.setStage g stage).tasks[k]? =
      if g = k then (s.tasks[k]?).map fun task => { task with stage } else s.tasks[k]? := by
  simp only [setStage, List.getElem?_modify]
  split <;> simp_all

end LayeredSystem

end SiteHost
