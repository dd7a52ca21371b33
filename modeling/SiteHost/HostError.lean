import SiteHost.Settings
import SiteHost.Site.Bundle

/-!
# Failures of the host

* `HostError` — why the host, or one of its sites, cannot do what it was asked for;
* `HostError.message` — its text.
-/

namespace SiteHost

/-- Why the host cannot go on. -/
inductive HostError where
  | failure (cause : Failure)
  | settings (cause : SettingsError)
  | disk (cause : DiskError)
  | bundle (cause : BundleError)
  | inaccessibleRoot (site root : String) (cause : DiskError)
  | unknownSite (name : String)
  | validation (reason : String)
  deriving Repr, DecidableEq, Inhabited

namespace HostError

/-- A failed check as text. -/
def validationMessage (reason : String) : String := s!"validation failed: {reason}"

/-- A bundle that cannot be used, as text. -/
def bundleMessage (reason : String) : String := s!"invalid prebuilt bundle: {reason}"

/-- The error as text. -/
def message : HostError → String
  | .failure cause => cause.message
  | .settings cause => cause.message
  | .disk cause => s!"io error: {cause.message}"
  | .bundle (.failures count site) =>
    validationMessage s!"{count} unit(s) of site `{site}` failed to compile"
  | .bundle (.undecodable path) => bundleMessage s!"{path}: not a bundle"
  | .bundle (.unsupportedFormat path format) =>
    bundleMessage s!"{path}: unsupported format {format} (expected {bundleFormat})"
  | .inaccessibleRoot site root cause =>
    s!"configuration error: site `{site}` root {root} is not accessible: {cause.message}"
  | .unknownSite name => s!"unknown site `{name}`"
  | .validation reason => validationMessage reason

end HostError

end SiteHost
