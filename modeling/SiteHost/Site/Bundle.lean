import SiteHost.Disk.Change
import SiteHost.Json.Read
import SiteHost.Json.Write
import SiteHost.Site.Live
import SiteHost.Timestamp

/-!
# Prebuilt sites

A whole site stored as one JSON value, which is served without compiling anything:

* `Bundle.ofBuild` — the stored form of a site in which no unit failed;
* `Bundle.encode`, `Bundle.decode` — a bundle as the text of a file, and back;
* `Bundle.save` — a bundle put into a file;
* `Bundle.load` — all stored modules linked as one artifact.
-/

namespace SiteHost

/-- The only format of bundles that is known. -/
def bundleFormat : Nat := 1

/-- A site in stored form. -/
structure Bundle where
  format : Nat
  /-- The compiler that made the modules. -/
  compiler : String
  site : String
  createdAt : Timestamp
  /-- The type names of units that were made from markup. -/
  templateTypes : NameMap Unit
  /-- The stored modules: foundation, global unit, leaves. -/
  parts : List Json
  deriving Inhabited

/-- Why there is no bundle. -/
inductive BundleError where
  /-- The site has units that failed. -/
  | failures (count : Nat) (site : String)
  /-- The text is not that of a bundle. -/
  | undecodable (path : String)
  | unsupportedFormat (path : String) (format : Nat)
  deriving Repr, DecidableEq, Inhabited

namespace Bundle

/-- Names as a set. -/
def setOf (names : List String) : NameMap Unit := NameMap.ofList (names.map fun n => (n, ()))

/-- The stored form of a site. -/
def ofBuild (site : String) (createdAt : Timestamp) (build : SiteBuild) :
    Except BundleError Bundle :=
  if !build.failures.isEmpty then .error (.failures build.failures.length site)
  else
    let artifacts := build.foundation :: (build.globalUnit.toList ++ build.leaves)
    let templates := build.leaves.filter Artifact.isTemplate
    .ok {
      format := bundleFormat
      compiler := compilerName
      site
      createdAt
      templateTypes := setOf (templates.map fun a => a.identity.typeName)
      parts := artifacts.filterMap fun a => a.module?.map exportUnits }

/-- A bundle as JSON. -/
def toJson (b : Bundle) : Json :=
  .object [("format", .int b.format), ("backend", .text b.compiler), ("site", .text b.site),
    ("created_at", .text b.createdAt.render),
    ("template_types", .array (b.templateTypes.keys.map .text)), ("parts", .array b.parts)]

/-- The text of a bundle's file. -/
def encode (b : Bundle) : String := b.toJson.pretty

/-- The members of a bundle in order. -/
def memberNames : List String :=
  ["format", "backend", "site", "created_at", "template_types", "parts"]

/-- Puts a bundle into a file, with the directories that are missing on the way. -/
def save (b : Bundle) (d : Disk) (path : String) : Except DiskError Unit × Disk :=
  match d.makeDirectories ((Path.parent? path).getD "") with
  | (.error e, d) => (.error e, d)
  | (.ok (), d) =>
    match d.write path b.encode.toUTF8 with
    | .ok d => (.ok (), d)
    | .error e => (.error e, d)

/-- The values of a bundle's members in order: each member once among any others, or all of them as
an array. -/
def membersOf? : Json → Option (List Json)
  | .array items => if items.length = memberNames.length then some items else none
  | .object members =>
    if Json.repeatsName (members.filter fun m => memberNames.contains m.1) then none
    else memberNames.mapM fun name => members.lookup name
  | _ => none

/-- The bundle that is stored as a JSON value. -/
def ofJson? (j : Json) : Option Bundle := do
  match ← membersOf? j with
  | [format, compiler, site, createdAt, templateTypes, parts] =>
    return {
      format := ← format.nat? Text.uint32Max
      compiler := ← compiler.text?
      site := ← site.text?
      createdAt := ← Timestamp.parse? (← createdAt.text?)
      templateTypes := setOf (← templateTypes.texts?)
      parts := ← parts.items? }
  | _ => none

/-- The bundle of a file's content. -/
def decode (path : String) (content : ByteArray) : Except BundleError Bundle :=
  let stored := (String.fromUTF8? content).bind fun s => Json.parse? Json.fileDepth s.toList
  match stored.bind ofJson? with
  | none => .error (.undecodable path)
  | some b => if b.format = bundleFormat then .ok b else .error (.unsupportedFormat path b.format)

/-- All stored modules linked as one artifact, known under the bundle's path. -/
def load (b : Bundle) (path : String) (serial : Nat) (explain : Json → String := fun _ => "") :
    Except Failure Artifact :=
  let unit : Identity := ⟨path, s!"{b.site} (prebuilt)"⟩
  if b.compiler ≠ compilerName then
    .error (.compileSingle unit.typeName
      s!"bundle was built by `{b.compiler}` but the site uses `{compilerName}`")
  else match loadPrebuilt b.parts explain with
    | .error diagnostics => .error (.compile ⟨unit.typeName, diagnostics⟩)
    | .ok module => .ok (.mk serial unit .leaf .script (some module) [] [])

end Bundle

end SiteHost
