import SiteHost.Address
import SiteHost.Site.Naming

/-!
# Settings

What a host and its sites are run with. Every value here has been checked:

* `ServerSettings`, `LogSettings`, `CompilerSettings` — for the host as a whole;
* `SiteSettings` — for one site;
* `Settings.site?` — the site of a name;
* `SettingsError` — why there are no settings.
-/

namespace SiteHost

/-- Where requests are taken from and how long a stop may take. -/
structure ServerSettings where
  address : Address
  gracefulShutdownSeconds : Nat
  deriving Repr, DecidableEq, Inhabited

/-- How much is logged. -/
inductive LogLevel where
  | off
  | error
  | warn
  | info
  | debug
  | trace
  deriving Repr, DecidableEq, Inhabited

/-- The word for a log level. -/
def LogLevel.word : LogLevel → String
  | .off => "off"
  | .error => "error"
  | .warn => "warn"
  | .info => "info"
  | .debug => "debug"
  | .trace => "trace"

/-- What is logged and in which form. -/
structure LogSettings where
  level : LogLevel
  asJson : Bool
  deriving Repr, DecidableEq, Inhabited

/-- How units are named and built. -/
structure CompilerSettings where
  timeoutSeconds : Nat := 30
  leafExtension : String := "ks"
  markupSuffix : String := "html"
  /-- Sources that belong to the base library of every site. -/
  sharedReferences : List String := []
  deriving Repr, DecidableEq, Inhabited

/-- One site. -/
structure SiteSettings where
  name : String
  root : String
  /-- The host names that are routed to the site, in lower case. -/
  hosts : List String := []
  namespaceName : String := "Site"
  /-- A bundle that is served in place of the sources. -/
  prebuilt : Option String := none
  watch : Bool := true
  deriving Repr, DecidableEq, Inhabited

/-- The naming rules of a site. -/
def SiteSettings.convention (s : SiteSettings) (compiler : CompilerSettings) : Convention :=
  ⟨s.namespaceName, compiler.leafExtension, compiler.markupSuffix⟩

/-- A host and its sites. -/
structure Settings where
  server : ServerSettings
  logging : LogSettings
  compiler : CompilerSettings
  sites : List SiteSettings
  deriving Repr, DecidableEq, Inhabited

/-- Why there are no settings. -/
inductive SettingsError where
  /-- A source of settings is missing, cannot be read, or holds a value of a wrong kind. -/
  | unreadable
  /-- A value that no host can be run with. -/
  | invalid (key reason : String)
  deriving Repr, DecidableEq, Inhabited

/-- The error as text. -/
def SettingsError.message : SettingsError → String
  | .unreadable => "failed to build configuration"
  | .invalid key reason => s!"invalid configuration for `{key}`: {reason}"

/-- The site of a name. -/
def Settings.site? (s : Settings) (name : String) : Option SiteSettings :=
  s.sites.find? fun site => site.name == name

end SiteHost
