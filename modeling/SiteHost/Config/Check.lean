import SiteHost.Config.Draft
import SiteHost.Settings
import SiteHost.Text.Blank
import SiteHost.Text.Letter

/-!
# Checking drafts

* `Draft.check` — the settings of a draft, with the defaults put in, or the first value that no host
  can be run with. Server, log, compiler and sites are checked in this order;
* `fileSuffix`, `isDottedName`, `LogLevel.parse?` — the rules for single values;
* `checkSites` — names and host names belong to one site only.
-/

namespace SiteHost.Config

/-- The reason against a value that has to be positive. -/
def zeroReason : String := "must be greater than zero"

/-- The reason against a value that is empty. -/
def emptyReason : String := "must not be empty"

/-- A number of seconds, which is not zero. -/
def positive (key : String) (seconds : Nat) : Except SettingsError Nat :=
  if seconds = 0 then .error (.invalid key zeroReason) else .ok seconds

/-- Where requests are taken from. Port 0 leaves the choice to the system. -/
def ServerDraft.check (d : ServerDraft) : Except SettingsError ServerSettings := do
  let host := d.host.getD "127.0.0.1"
  let port := d.port.getD 3000
  match Host.parse? host with
  | none =>
    throw (.invalid "server.addr"
      s!"invalid address `{host}:{port}`: invalid socket address syntax")
  | some parsed =>
    let seconds ← positive "server.graceful_shutdown_seconds" (d.gracefulShutdownSeconds.getD 30)
    return ⟨⟨parsed, port⟩, seconds⟩

/-- The log levels from the quietest on. -/
def logLevels : List LogLevel := [.off, .error, .warn, .info, .debug, .trace]

/-- The level that a text stands for: a number up to 5, or a word in any case. No text at all stands
for errors. -/
def logLevel? (text : String) : Option LogLevel :=
  match Text.readUnsigned? Text.uint64Max text with
  | some n => logLevels[n]?
  | none =>
    if text = "" then some .error
    else logLevels.find? fun level => Text.eqIgnoringAsciiCase level.word text

/-- The reason against a text that is no log level. -/
def unknownLevel : String :=
  "failed to parse: error parsing level filter: expected one of \"off\", \"error\", \"warn\", " ++
    "\"info\", \"debug\", \"trace\", or a number 0-5"

/-- What is logged. -/
def LogDraft.check (d : LogDraft) : Except SettingsError LogSettings := do
  let level ← match d.level with
    | none => pure LogLevel.info
    | some text =>
      match logLevel? text with
      | some level => pure level
      | none => throw (.invalid "logging.level" unknownLevel)
  return ⟨level, d.asJson.getD false⟩

/-- A character that no file suffix has. -/
def isSeparator (c : Char) : Bool := c == '.' || c == '/' || c == '\\'

/-- A file suffix, without the blanks around it and the dots before it. -/
def fileSuffix (key default : String) (value : Option String) : Except SettingsError String :=
  let suffix := match value with
    | some v => Text.dropStart (· == '.') (Text.trim v)
    | none => default
  if suffix = "" then .error (.invalid key emptyReason)
  else if suffix.toList.any isSeparator then
    .error (.invalid key s!"`{suffix}` must be a single extension without separators")
  else .ok suffix

/-- How units are built. -/
def CompilerDraft.check (d : CompilerDraft) : Except SettingsError CompilerSettings := do
  let seconds ← positive "compiler.timeout_seconds" (d.timeoutSeconds.getD 30)
  let extension ← fileSuffix "compiler.leaf_extension" "ks" d.leafExtension
  let suffix ← fileSuffix "compiler.markup_suffix" "html" d.markupSuffix
  if Text.eqIgnoringAsciiCase extension suffix then
    throw (.invalid "compiler.markup_suffix" "must differ from the leaf extension")
  let shared := d.sharedReferences.getD []
  if shared.contains "" then
    throw (.invalid "compiler.shared_references" "paths must not be empty")
  return ⟨seconds, extension, suffix, shared⟩

/-- Whether characters are a name of the script language. -/
def isName : List Char → Bool
  | [] => false
  | first :: rest =>
    (Text.isAlphabetic first || first == '_') &&
      rest.all fun c => Text.isAlphanumeric c || c == '_'

/-- Whether a text is a list of names with dots between them. -/
def isDottedName (text : String) : Bool := (Text.cut '.' text.toList).all isName

/-- The host names of a site behind those that are claimed already. Empty ones are passed over. -/
def claimHosts (claimed : List String) : List String → Except SettingsError (List String)
  | [] => .ok []
  | written :: rest => do
    let host := Text.asciiLower (Text.trim written)
    if host = "" then claimHosts claimed rest
    else if claimed.contains host then
      throw (.invalid "sites.hosts" s!"host `{host}` is claimed by more than one site")
    else return host :: (← claimHosts (host :: claimed) rest)

/-- A value that is not the empty text. -/
def nonEmpty (value : Option String) : Option String := value.filter (· ≠ "")

/-- One site, behind those that are checked already. -/
def SiteDraft.check (d : SiteDraft) (before : List SiteSettings) :
    Except SettingsError SiteSettings := do
  let name := Text.trim (d.name.getD "")
  if name = "" then throw (.invalid "sites.name" emptyReason)
  if before.any fun s => s.name == name then
    throw (.invalid "sites.name" s!"site `{name}` is configured more than once")
  match nonEmpty d.root with
  | none => throw (.invalid "sites.root" s!"site `{name}` needs a root directory")
  | some root =>
    let namespaceName := d.namespaceName.getD "Site"
    if namespaceName ≠ "" ∧ !isDottedName namespaceName then
      throw (.invalid "sites.namespace"
        s!"`{namespaceName}` is not a dotted identifier (site `{name}`)")
    let hosts ← claimHosts (before.flatMap SiteSettings.hosts) (d.hosts.getD [])
    return ⟨name, root, hosts, namespaceName, nonEmpty d.prebuilt, d.watch.getD true⟩

/-- The sites behind those that are checked already. -/
def checkSites (before : List SiteSettings) :
    List SiteDraft → Except SettingsError (List SiteSettings)
  | [] => .ok before
  | d :: rest => do checkSites (before ++ [← d.check before]) rest

/-- The settings of a draft. -/
def Draft.check (d : Draft) : Except SettingsError Settings := do
  return ⟨← d.server.check, ← d.logging.check, ← d.compiler.check, ← checkSites [] d.sites⟩

end SiteHost.Config
