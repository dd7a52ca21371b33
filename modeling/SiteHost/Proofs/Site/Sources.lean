import SiteHost.Site.Live

/-!
# What the sources of a site amount to

The artifacts of a site as they follow from the disk alone, without a cache and without the numbers
that tell one artifact from another:

* `Artifact.plain` — an artifact without its number, its layer and what it was made of;
* `Sources` — a disk with the place and the naming rules of a site, and its shared references;
* `Sources.foundation`, `Sources.globalUnit`, `Sources.leaf` — the plain artifact of each layer.

Principal results:

* `compile_congr` — a module depends on its references only by what is plain about them;
* `Sources.unit_congr` — so does the artifact of a unit.
-/

namespace SiteHost

/-! ## Plain artifacts -/

/-- An artifact without its number, its layer and what it was made of. -/
def Artifact.plain : Artifact → Artifact
  | .mk _ identity _ kind module? _ _ => .mk 0 identity .leaf kind module? [] []

namespace Artifact

@[simp] theorem module?_plain (a : Artifact) : a.plain.module? = a.module? := by cases a; rfl
@[simp] theorem identity_plain (a : Artifact) : a.plain.identity = a.identity := by cases a; rfl
@[simp] theorem isTemplate_plain (a : Artifact) : a.plain.isTemplate = a.isTemplate := by cases a; rfl
@[simp] theorem plain_plain (a : Artifact) : a.plain.plain = a.plain := by cases a; rfl

/-- Objects are made of what is plain about an artifact. -/
theorem instantiate_plain (a : Artifact) (typeName : String) (args : List Script.Value) :
    a.plain.instantiate typeName args = a.instantiate typeName args := by
  cases a
  rfl

theorem instanceType_plain (a : Artifact) (window : String → String) (requested : String) :
    a.plain.instanceType window requested = a.instanceType window requested := by
  cases a
  rfl

end Artifact

theorem modulesOf_plain (references : List Artifact) :
    modulesOf (references.map Artifact.plain) = modulesOf references := by
  induction references with
  | nil => rfl
  | cons a rest ih => simp [modulesOf, ih]

/-- A module depends on its references only by what is plain about them. -/
theorem compile_congr {references references' : List Artifact}
    (h : references.map Artifact.plain = references'.map Artifact.plain)
    (sources : List SourceText) : compile sources references = compile sources references' := by
  unfold compile
  rw [← modulesOf_plain references, h, modulesOf_plain]

/-! ## Artifacts from sources -/

/-- Steps of which none fails. -/
theorem bind_eq_ok {ε α β : Type} {x : Except ε α} {f : α → Except ε β} {b : β} :
    x >>= f = .ok b ↔ ∃ a, x = .ok a ∧ f a = .ok b := by
  cases x with
  | error e => exact ⟨nofun, nofun⟩
  | ok a => exact ⟨fun h => ⟨a, rfl, h⟩, fun ⟨_, ha, h⟩ => (Except.ok.inj ha) ▸ h⟩

/-- A disk with the place and the naming rules of a site, and its shared references. -/
structure Sources where
  disk : Disk
  locator : Locator
  sharedReferences : List String

namespace Sources

/-- Reads a file of a unit, if it is there. -/
def readOptional (s : Sources) (unit : Identity) (path : String) :
    Except Failure (Option String) :=
  match s.disk.readText? path with
  | .ok text => .ok text
  | .error e => .error (.compileSingle unit.typeName s!"failed to read {path}: {e.message}")

/-- The files of a unit under its very spelling. -/
def readUnit (s : Sources) (unit : Identity) : Except Failure (Option UnitTexts) := do
  let script ← s.readOptional unit unit.path
  let markup ← s.readOptional unit (s.locator.markupPath unit)
  if script.isNone && markup.isNone then return none
  return some ⟨script, markup⟩

/-- A unit under the spelling it has on disk, with its files. -/
def findUnit (s : Sources) (unit : Identity) : Except Failure (Identity × UnitTexts) := do
  match ← s.readUnit unit with
  | some texts => return (unit, texts)
  | none =>
    match LiveSite.spelledOnDisk? s.disk s.locator unit with
    | none => throw (.notFound unit.path)
    | some spelled =>
      match ← s.readUnit spelled with
      | some texts => return (spelled, texts)
      | none => throw (.notFound unit.path)

/-- The plain artifact of source texts. -/
def artifact (unit : Identity) (kind : UnitKind) (texts : List SourceText)
    (references : List Artifact) : Except Failure Artifact :=
  match compile texts references with
  | .error diagnostics => .error (.compile ⟨unit.typeName, diagnostics⟩)
  | .ok module => .ok (.mk 0 unit .leaf kind (some module) [] [])

/-- The plain artifact of the files of a unit. -/
def assemble (s : Sources) (unit : Identity) (texts : UnitTexts) (references : List Artifact) :
    Except Failure Artifact :=
  let markupPath := s.locator.markupPath unit
  let written := texts.script.toList.map fun text => SourceText.mk unit.path text
  match texts.markup with
  | none => artifact unit .script written references
  | some markup =>
    match Template.script ⟨unit.typeName, markupPath, markup, texts.script.isSome⟩ with
    | .error diagnostic => .error (.compile ⟨unit.typeName, [diagnostic]⟩)
    | .ok generated =>
      artifact unit .template (written ++ [⟨generatedPath markupPath, generated⟩]) references

/-- The plain artifact of a unit. -/
def unit (s : Sources) (unit : Identity) (references : List Artifact) : Except Failure Artifact := do
  let (unit, texts) ← s.findUnit unit
  s.assemble unit texts references

/-- The texts of the shared references. -/
def shared (s : Sources) : Except Failure (List SourceText) :=
  s.sharedReferences.mapM fun path =>
    match s.disk.readText path with
    | .ok text => .ok (SourceText.mk path text)
    | .error e => .error (.compileSingle foundationUnit.typeName
        s!"failed to read shared reference {path}: {e.message}")

/-- The plain artifact of the base library. -/
def foundation (s : Sources) : Except Failure Artifact := do
  artifact foundationUnit .script (Script.foundationSource :: (← s.shared)) []

/-- The plain artifact of the global unit, whether or not its script is there. -/
def globalArtifact (s : Sources) : Except Failure Artifact := do
  s.unit s.locator.globalUnit [← s.foundation]

/-- The plain artifact of the global unit, if its script is there. -/
def globalUnit (s : Sources) : Except Failure (Option Artifact) :=
  if s.disk.exists? s.locator.globalUnit.path then
    match s.globalArtifact with
    | .ok artifact => .ok (some artifact)
    | .error (.notFound _) => .ok none
    | .error failure => .error failure
  else .ok none

/-- The plain artifact of a unit that is not the global one. -/
def ordinary (s : Sources) (unit : Identity) : Except Failure Artifact := do
  let foundation ← s.foundation
  let globalUnit ← s.globalUnit
  s.unit unit (foundation :: globalUnit.toList)

/-- The plain artifact of a unit. -/
def leaf (s : Sources) (unit : Identity) : Except Failure Artifact := do
  if s.locator.isGlobal unit then
    match ← s.globalUnit with
    | some artifact => return artifact
    | none => throw (.notFound unit.path)
  else s.ordinary unit

theorem artifact_congr {references references' : List Artifact}
    (h : references.map Artifact.plain = references'.map Artifact.plain) (unit : Identity)
    (kind : UnitKind) (texts : List SourceText) :
    artifact unit kind texts references = artifact unit kind texts references' := by
  unfold artifact
  rw [compile_congr h]

/-- The artifact of a unit depends on its references only by what is plain about them. -/
theorem unit_congr (s : Sources) (unit : Identity) {references references' : List Artifact}
    (h : references.map Artifact.plain = references'.map Artifact.plain) :
    s.unit unit references = s.unit unit references' := by
  simp only [Sources.unit, assemble, artifact_congr h]

end Sources

end SiteHost
