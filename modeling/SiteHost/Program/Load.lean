import SiteHost.CommandLine.Invocation
import SiteHost.Config.Layers

/-!
# Settings of an invocation

* `Command.override` — what a command line changes in a draft of settings;
* `loadSettings` — the settings that an invocation is carried out with.
-/

namespace SiteHost

open CommandLine (Command Invocation)
open Config (Draft)

/-- A draft with what the options of a command say. -/
def CommandLine.Command.override (d : Draft) : Option Command → Draft
  | some (.serve overrides) => d.withServe overrides
  | some (.check overrides _) => d.withCompiler overrides
  | some (.precompile overrides ..) => d.withCompiler overrides
  | some (.transpile ..) => d
  | none => d.withServe {}

/-- The settings of an invocation. -/
def loadSettings (d : Disk) (environment : List (String × String)) (invocation : Invocation) :
    Except SettingsError Settings := do
  let draft ← Config.readDraft d environment invocation.configFile
  (Command.override draft invocation.command).check

end SiteHost
