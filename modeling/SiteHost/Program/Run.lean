import SiteHost.Program.Load
import SiteHost.Program.Transpile
import SiteHost.Program.Units

/-!
# A run of the program

* `Outcome` — what a run prints and reports, and the disk that it leaves;
* `carryOut` — a command with its settings;
* `run` — a command line in an environment.

A wrong command line ends a run with code 2, any other error with code 1. An error is reported
through the log, unless the settings turn the log off.
-/

namespace SiteHost

open CommandLine (Command Invocation Stop)

/-- What a run leaves behind. -/
structure Outcome where
  exitCode : Nat := 0
  output : String := ""
  /-- What is wrong with the command line. -/
  complaint : Option String := none
  /-- The error that the log closes with. -/
  error : Option String := none
  disk : Disk
  deriving Inhabited

/-- The site of a name. -/
def siteNamed (settings : Settings) (name : String) : Except HostError SiteSettings :=
  match settings.site? name with
  | some site => .ok site
  | none => .error (.unknownSite name)

/-- The sites that a check is about. -/
def sitesToCheck (settings : Settings) : Option String → Except HostError (List SiteSettings)
  | some name => (siteNamed settings name).map ([·])
  | none => .ok settings.sites

/-- Starts every site. -/
def startSites (d : Disk) (settings : Settings) : Except HostError (List Site) :=
  settings.sites.mapM fun site => Site.start site settings.compiler d 1 []

/-- The text that a command prints, its error if it fails, and the disk that it leaves. -/
def carryOut (d : Disk) (now : Timestamp) (settings : Settings) :
    Command → String × Except HostError Unit × Disk
  | .serve _ => ("", (startSites d settings).map fun _ => (), d)
  | .check _ site =>
    match sitesToCheck settings site with
    | .error e => ("", .error e, d)
    | .ok sites =>
      let (report, failed) := reportSites d settings.compiler sites
      let result : Except HostError Unit :=
        if failed = 0 then .ok () else .error (.validation s!"{failed} unit(s) failed to compile")
      (report, result, d)
  | .transpile file typeName =>
    match transpileFile d settings.compiler file typeName with
    | .error e => ("", .error e, d)
    | .ok script => (script, .ok (), d)
  | .precompile _ site out =>
    match siteNamed settings site with
    | .error e => ("", .error e, d)
    | .ok site => ("", precompile d settings.compiler now site out)

/-- The outcome of an invocation with its settings. -/
def runWith (d : Disk) (now : Timestamp) (settings : Settings) (invocation : Invocation) :
    Outcome :=
  let (output, result, disk) := carryOut d now settings (invocation.command.getD (.serve {}))
  match result with
  | .ok () => { output, disk }
  | .error e =>
    let error := if settings.logging.level = .off then none else some e.message
    { exitCode := 1, output, error, disk }

/-- The outcome of a command line. -/
def run (d : Disk) (environment : List (String × String)) (now : Timestamp)
    (args : List String) : Outcome :=
  match Invocation.parse environment args with
  | .error stop =>
    if stop.isAnswer then { output := stop.text, disk := d }
    else { exitCode := 2, complaint := some stop.text, disk := d }
  | .ok invocation =>
    match loadSettings d environment invocation with
    | .error e => { exitCode := 1, error := some e.message, disk := d }
    | .ok settings => runWith d now settings invocation

end SiteHost
