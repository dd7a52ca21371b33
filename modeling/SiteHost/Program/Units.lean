import SiteHost.Site.Hosted

/-!
# Building whole sites

* `buildSite` — every unit of a site, built from its sources even if the site has a bundle;
* `reportSites` — a report on sites, and how many units failed;
* `precompile` — a site stored as a bundle.
-/

namespace SiteHost

/-- Builds every unit of a site from its sources. -/
def buildSite (d : Disk) (compiler : CompilerSettings) (site : SiteSettings) :
    Except HostError SiteBuild := do
  let locator ← Site.locatorOf site compiler d
  match ((Site.liveSite locator compiler 1 []).run d LiveSite.buildAll).1 with
  | .ok build => return build
  | .error failure => throw (.failure failure)

/-- How many units were built. -/
def SiteBuild.unitCount (b : SiteBuild) : Nat :=
  b.leaves.length + 1 + b.globalUnit.toList.length

/-- A text whose lines behind the first are indented. -/
def indented (text : String) : String := Text.substitute '\n' "\n    ".toList text

/-- A failed unit with its error. -/
def failureLines (unit : Identity) (failure : Failure) : String :=
  s!"  {unit.render}\n    {indented failure.message}\n"

/-- What is reported on one site, and how many units failed. A site that cannot be built at all
counts as one. -/
def reportSite (d : Disk) (compiler : CompilerSettings) (site : SiteSettings) : String × Nat :=
  match buildSite d compiler site with
  | .error e => (s!"{site.name}: {e.message}\n", 1)
  | .ok build =>
    let failed := build.failures.length
    (s!"{site.name}: {build.unitCount} unit(s) compiled, {failed} failed\n" ++
      String.join (build.failures.map fun (unit, failure) => failureLines unit failure), failed)

/-- What is reported on sites, and how many units failed. -/
def reportSites (d : Disk) (compiler : CompilerSettings) (sites : List SiteSettings) :
    String × Nat :=
  let reports := sites.map (reportSite d compiler)
  (String.join (reports.map Prod.fst), (reports.map Prod.snd).foldr (· + ·) 0)

/-- Stores a site as a bundle in a file. -/
def precompile (d : Disk) (compiler : CompilerSettings) (now : Timestamp) (site : SiteSettings)
    (out : String) : Except HostError Unit × Disk :=
  match buildSite d compiler site with
  | .error e => (.error e, d)
  | .ok build =>
    match Bundle.ofBuild site.name now build with
    | .error e => (.error (.bundle e), d)
    | .ok bundle =>
      let (result, d) := bundle.save d out
      (result.mapError .disk, d)

end SiteHost
