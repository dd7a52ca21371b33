import SiteHost.Artifact
import SiteHost.Cache.Eviction
import SiteHost.Disk.Basic
import SiteHost.Site.Watch
import SiteHost.Template.Window

/-!
# A site built from its sources

Units are linked in three layers: the foundation, which is the base library with the shared
references; the global unit, if there is one on disk; and the leaves. Artifacts of all three are
kept in one cache.

* `LiveSite.foundation`, `LiveSite.globalUnit`, `LiveSite.leaf` — the artifact of a layer, built if
  the cache has none;
* `LiveSite.apply` — what a change on disk does to the cache;
* `LiveSite.discover`, `LiveSite.buildAll` — every unit below the root.

A build reads the disk as it is at that time. It changes the site even when it fails, so the type of
builds keeps the site outside the result.
-/

namespace SiteHost

/-- A site that is built from its sources. -/
structure LiveSite where
  locator : Locator
  sharedReferences : List String
  cache : Cache Artifact
  /-- The number of the next artifact. -/
  nextSerial : Nat
  deriving Inhabited

/-- A build: it reads a disk, changes the site, and fails or not. -/
abbrev Build (α : Type) := ExceptT Failure (ReaderT Disk (StateM LiveSite)) α

/-- Every artifact of a site. -/
structure SiteBuild where
  foundation : Artifact
  globalUnit : Option Artifact
  leaves : List Artifact
  failures : List (Identity × Failure)
  deriving Inhabited

/-- Both files of a unit, of which there is at least one. -/
structure UnitTexts where
  script : Option String
  markup : Option String
  deriving Repr, DecidableEq, Inhabited

/-- The unit of the base library. It stands for no file of a site. -/
def foundationUnit : Identity := ⟨"<foundation>", "Kiln"⟩

/-- The path under which the script made from markup is known. -/
def generatedPath (markupPath : String) : String := markupPath ++ " (generated)"

namespace LiveSite

/-- Reads a file of a unit, if it is there. -/
def readOptional (unit : Identity) (path : String) : Build (Option String) := do
  match (← read).readText? path with
  | .ok text => return text
  | .error e =>
    throw (.compileSingle unit.typeName s!"failed to read {path}: {e.message}")

/-- The files of a unit under its very spelling. -/
def readUnit (unit : Identity) : Build (Option UnitTexts) := do
  let script ← readOptional unit unit.path
  let markup ← readOptional unit ((← get).locator.markupPath unit)
  if script.isNone && markup.isNone then return none
  return some ⟨script, markup⟩

/-- Goes down from a directory along names, each found without regard to ASCII case. -/
def findIgnoringCase (d : Disk) (directory : String) : List String → Option String
  | [] => some directory
  | wanted :: rest =>
    match d.list directory with
    | .error _ => none
    | .ok names =>
      match names.find? (Text.eqIgnoringAsciiCase · wanted) with
      | some name => findIgnoringCase d (Path.join directory name) rest
      | none => none

/-- The unit as its files are spelled on disk, if one of them is there in another letter case. -/
def spelledOnDisk? (d : Disk) (l : Locator) (unit : Identity) : Option Identity := do
  let found ← [unit.path, l.markupPath unit].findSome? fun path => do
    let steps ← Path.below? (· == ·) (Path.components l.root) (Path.components path)
    findIgnoringCase d l.root (← namesOf? steps)
  l.unitOfFile? found

/-- A unit under the spelling it has on disk, with its files. -/
def findUnit (unit : Identity) : Build (Identity × UnitTexts) := do
  match ← readUnit unit with
  | some texts => return (unit, texts)
  | none =>
    match spelledOnDisk? (← read) (← get).locator unit with
    | none => throw (.notFound unit.path)
    | some spelled =>
      match ← readUnit spelled with
      | some texts => return (spelled, texts)
      | none => throw (.notFound unit.path)

/-- Compiles sources to an artifact with a number of its own. -/
def compileUnit (unit : Identity) (tier : Tier) (kind : UnitKind) (sources : List SourceText)
    (references : List Artifact) : Build Artifact := do
  match SiteHost.compile sources references with
  | .error diagnostics => throw (.compile ⟨unit.typeName, diagnostics⟩)
  | .ok module =>
    let serial := (← get).nextSerial
    modify fun s => { s with nextSerial := serial + 1 }
    return .mk serial unit tier kind (some module) references sources

/-- Builds a unit from its files. Markup is made into script first. -/
def buildUnit (unit : Identity) (tier : Tier) (references : List Artifact) : Build Artifact := do
  let (unit, texts) ← findUnit unit
  let markupPath := (← get).locator.markupPath unit
  let written := texts.script.toList.map fun text => SourceText.mk unit.path text
  match texts.markup with
  | none => compileUnit unit tier .script written references
  | some markup =>
    match Template.script ⟨unit.typeName, markupPath, markup, texts.script.isSome⟩ with
    | .error diagnostic => throw (.compile ⟨unit.typeName, [diagnostic]⟩)
    | .ok generated =>
      let sources := written ++ [⟨generatedPath markupPath, generated⟩]
      compileUnit unit tier .template sources references

/-- Builds the base library with the shared references. -/
def buildFoundation : Build Artifact := do
  let shared ← (← get).sharedReferences.mapM fun path => do
    match (← read).readText path with
    | .ok text => return SourceText.mk path text
    | .error e =>
      throw (.compileSingle foundationUnit.typeName
        s!"failed to read shared reference {path}: {e.message}")
  compileUnit foundationUnit .foundation .script (Script.foundationSource :: shared) []

/-- Does a step of the cache. -/
def onCache {β : Type} (step : Cache Artifact → β × Cache Artifact) : Build β :=
  modifyGet fun s =>
    let (b, cache) := step s.cache
    (b, { s with cache })

/-- Ends a build and tells its result. -/
def conclude (generation : Generation) (ending : Ending Artifact) : Build Artifact := do
  let result ← onCache fun c =>
    let c := c.finish generation ending
    match c.settle generation with
    | some (result, c) => (some result, c)
    | none => (none, c)
  match result with
  | some (.ok artifact) => return artifact
  | some (.error failure) => throw failure
  | none => throw (.compileSingle "" "compilation was cancelled")

/-- The artifact of a unit, built by `build` if the cache has none. A build that comes to wait for
itself runs out of time. -/
def getOrBuild (unit : Identity) (tier : Tier) (build : Build Artifact) : Build Artifact := do
  match ← onCache fun c => c.get unit tier with
  | .hit artifact => return artifact
  | .joined generation => conclude generation .timedOut
  | .started generation =>
    let result ← try .ok <$> build catch failure => pure (Except.error failure)
    conclude generation (.returned result)

/-- The artifact of the base library. -/
def foundation : Build Artifact := getOrBuild foundationUnit .foundation buildFoundation

/-- The artifact of the global unit. There is none if its script is neither built nor on disk. -/
def globalUnit : Build (Option Artifact) := do
  let s ← get
  let unit := s.locator.globalUnit
  if s.cache.status? unit.key ≠ some .built && !(← read).exists? unit.path then return none
  let built : Build Artifact := getOrBuild unit .siteGlobal do
    buildUnit unit .siteGlobal [← foundation]
  try some <$> built
  catch
    | .notFound _ => return none
    | failure => throw failure

/-- The artifact of a unit. The global unit is found in its own layer. -/
def leaf (unit : Identity) : Build Artifact := do
  if (← get).locator.isGlobal unit then
    match ← globalUnit with
    | some artifact => return artifact
    | none => throw (.notFound unit.path)
  else
    getOrBuild unit .leaf do
      let foundation ← foundation
      let globalUnit ← globalUnit
      buildUnit unit .leaf (foundation :: globalUnit.toList)

/-- A build with its outcome as a value. -/
def outcome {α : Type} (build : Build α) : Build (Except Failure α) :=
  try .ok <$> build catch failure => pure (Except.error failure)

/-- The outcomes for units that are asked for at one time. Those who ask for a unit that is being
built share its outcome; `known` are the outcomes of the builds that were started. -/
def together (known : List (String × Except Failure Artifact)) :
    List Identity → Build (List (Except Failure Artifact))
  | [] => return []
  | unit :: rest => do
    match known.lookup unit.key with
    | some result => return result :: (← together known rest)
    | none =>
      let s ← get
      let fresh := !s.locator.isGlobal unit && s.cache.status? unit.key != some .built
      let result ← outcome (leaf unit)
      let known := if fresh then (unit.key, result) :: known else known
      return result :: (← together known rest)

/-- What a change on disk does to the cache; how many entries it changed. A file that belongs to no
unit may have been a directory. -/
def apply (s : LiveSite) (change : Change) : Nat × LiveSite :=
  match s.locator.unitOfFile? change.path with
  | none =>
    match change.kind with
    | .modified => (0, s)
    | .renamed =>
      let (n, cache) := s.cache.removeUnder change.path
      (n, { s with cache })
  | some unit =>
    let (changed, cache) := match change.kind with
      | .modified => s.cache.invalidate unit.key
      | .renamed => s.cache.remove unit.key
    let (n, cache) :=
      if s.locator.isGlobal unit then cache.invalidateTier .leaf else (0, cache)
    (changed.toNat + n, { s with cache })

/-- Keeps the first unit of each key. -/
def distinct : List Identity → List Identity
  | [] => []
  | unit :: rest => unit :: (distinct rest).filter fun other => other.key != unit.key

/-- Every unit below the root but the global one, in the order of type names. -/
def discover (d : Disk) (l : Locator) : Except DiskError (List Identity) := do
  let (place, node) ← d.resolve l.root
  if !node.isDirectory then throw .notADirectory
  let units := (d.filesBelow place).filterMap l.unitOfFile?
  let units := distinct (units.filter fun unit => !l.isGlobal unit)
  return units.mergeSort fun a b => a.typeName ≤ b.typeName

/-- Builds every unit of the site. Only failures of leaves are collected. -/
def buildAll : Build SiteBuild := do
  let foundation ← foundation
  let globalUnit ← globalUnit
  let l := (← get).locator
  match discover (← read) l with
  | .error e => throw (.compileSingle l.root s!"failed to scan site root: {e.message}")
  | .ok units =>
    let results ← units.mapM fun unit => do return (unit, ← outcome (leaf unit))
    let leaves := results.filterMap fun (_, result) => result.toOption
    let failures := results.filterMap fun (unit, result) => match result with
      | .ok _ => none
      | .error failure => some (unit, failure)
    return { foundation, globalUnit, leaves, failures }

/-- Runs a build on a disk. -/
def run {α : Type} (s : LiveSite) (d : Disk) (build : Build α) : Except Failure α × LiveSite :=
  Id.run (StateT.run (ReaderT.run (ExceptT.run build) d) s)

end LiveSite

end SiteHost
