import SiteHost.HostError

/-!
# A hosted site

* `Site.start` — a site as its settings describe it. A bundle takes the place of the sources: such a
  site never builds anything and watches nothing;
* `Site.create` — an object for a request path;
* `Site.apply`, `Site.reset` — a change on disk, and forgetting every artifact.
-/

namespace SiteHost

/-- Where a site's artifacts come from. -/
inductive SiteMode where
  | live (site : LiveSite)
  | prebuilt (artifact : Artifact) (templateTypes : NameMap Unit)
  deriving Inhabited

/-- A hosted site. -/
structure Site where
  name : String
  hosts : List String
  locator : Locator
  mode : SiteMode
  isWatching : Bool
  deriving Inhabited

namespace Site

/-- The bundle of a file. -/
def readBundle (d : Disk) (path : String) : Except HostError Bundle := do
  match d.read path with
  | .error e => throw (.disk e)
  | .ok content =>
    match Bundle.decode path content with
    | .error e => throw (.bundle e)
    | .ok bundle => return bundle

/-- The naming rules of a site with the directory that it lies in. -/
def locatorOf (settings : SiteSettings) (compiler : CompilerSettings) (d : Disk) :
    Except HostError Locator :=
  match d.canonical settings.root with
  | .error e => .error (.inaccessibleRoot settings.name settings.root e)
  | .ok root => .ok ⟨root, settings.convention compiler⟩

/-- A site that is built from the sources of a directory. `serial` is the number of its next artifact
and `metrics` what was counted so far. -/
def liveSite (locator : Locator) (compiler : CompilerSettings) (serial : Nat)
    (metrics : Metrics) : LiveSite where
  locator
  sharedReferences := compiler.sharedReferences
  cache := { timeLimit := compiler.timeoutSeconds * 1000, metrics }
  nextSerial := serial

/-- Starts a site. `serial` is the number of its next artifact, `metrics` what was counted so far, and
`explain` what the decoder says of a part of a bundle that is no module. -/
def start (settings : SiteSettings) (compiler : CompilerSettings) (d : Disk) (serial : Nat)
    (metrics : Metrics) (explain : Json → String := fun _ => "") : Except HostError Site := do
  let locator ← locatorOf settings compiler d
  match settings.prebuilt with
  | some path =>
    let bundle ← readBundle d path
    match bundle.load path serial explain with
    | .error failure => throw (.failure failure)
    | .ok artifact =>
      return ⟨settings.name, settings.hosts, locator,
        .prebuilt artifact bundle.templateTypes, false⟩
  | none =>
    return ⟨settings.name, settings.hosts, locator,
      .live (liveSite locator compiler serial metrics), settings.watch⟩

/-- The site as it is built from sources. -/
def live? (s : Site) : Option LiveSite :=
  match s.mode with
  | .live site => some site
  | .prebuilt .. => none

/-- Whether the site comes from a bundle. -/
def isPrebuilt (s : Site) : Bool := s.live?.isNone

/-- The type of a bundle that a request asks for: by name, or by the unit of its path in any ASCII
case. A template's own type stands for its window. -/
def prebuiltType? (artifact : Artifact) (templateTypes : NameMap Unit) (unit : Identity) :
    Option String → Option String
  | some name => some (if templateTypes.contains name then windowName name else name)
  | none =>
    match templateTypes.keys.find? (Text.eqIgnoringAsciiCase · unit.typeName) with
    | some template => some (windowName template)
    | none => artifact.typeNames.find? (Text.eqIgnoringAsciiCase · unit.typeName)

/-- An object for a request path, of a named type or of the type that the path stands for. -/
def create (s : Site) (d : Disk) (path : String) (typeName : Option String)
    (args : List Script.Value) : Except Failure Handler × Site :=
  match s.locator.resolve path with
  | .error failure => (.error failure, s)
  | .ok unit =>
    match s.mode with
    | .live live =>
      let (result, live) := live.run d (LiveSite.leaf unit)
      let handler : Except Failure Handler := match result with
        | .error failure => .error failure
        | .ok artifact =>
          let requested := typeName.getD artifact.identity.typeName
          artifact.instantiate (artifact.instanceType windowName requested) args
      (handler, { s with mode := .live live })
    | .prebuilt artifact templateTypes =>
      match prebuiltType? artifact templateTypes unit typeName with
      | some typeName => (artifact.instantiate typeName args, s)
      | none => (.error (.notFound unit.path), s)

/-- What a change on disk does to the site; how many entries it changed. -/
def apply (s : Site) (change : Change) : Nat × Site :=
  match s.mode with
  | .live live =>
    let (n, live) := live.apply change
    (n, { s with mode := .live live })
  | .prebuilt .. => (0, s)

/-- Forgets every artifact that was built. -/
def reset (s : Site) : Site :=
  match s.mode with
  | .live live => { s with mode := .live { live with cache := live.cache.reset } }
  | .prebuilt .. => s

end Site

end SiteHost
