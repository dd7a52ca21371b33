import SiteHost.CommandLine.Scan
import SiteHost.Config.Draft

/-!
# Commands of the program

* `Command` — what the program is asked to do;
* `Invocation` — a command with the file that its settings come from;
* `Invocation.parse` — the invocation of a command line.

The environment can name the file as well; a command line that names one goes before it.
-/

namespace SiteHost.CommandLine

open SiteHost.Config (CompilerOverrides ServeOverrides)

/-- What the program is asked to do. -/
inductive Command where
  /-- Serve every site. -/
  | serve (overrides : ServeOverrides)
  /-- Build every unit of one site, or of all. -/
  | check (overrides : CompilerOverrides) (site : Option String)
  /-- Show the script of a template. -/
  | transpile (file : String) (typeName : Option String)
  /-- Store a site as a bundle. -/
  | precompile (overrides : CompilerOverrides) (site out : String)
  deriving Repr, DecidableEq, Inhabited

/-- A command with the file that its settings come from. Without a command the sites are served. -/
structure Invocation where
  configFile : Option String
  command : Option Command
  deriving Repr, DecidableEq, Inhabited

/-- The options for building units. -/
def compilerOptions : List Parameter :=
  [{ name := "compiler-timeout-seconds", kind := .count, placeholder := "SECONDS",
     about := "Override the per-unit compile timeout" },
   { name := "shared-reference", kind := .path, placeholder := "PATH", repeats := true,
     about := "Add a shared reference source compiled into the foundation tier" }]

/-- The grammar of serving. -/
def serveGrammar : Grammar where
  name := programName ++ " serve"
  about := "Serve every configured site over HTTP"
  options :=
    [{ name := "server-host", kind := .text, placeholder := "HOST",
       about := "Override the listener host" },
     { name := "server-port", kind := .port, placeholder := "PORT",
       about := "Override the listener port" },
     { name := "server-graceful-shutdown-seconds", kind := .count, placeholder := "SECONDS",
       about := "Override the graceful shutdown timeout" },
     { name := "log-level", kind := .text, placeholder := "LEVEL",
       about := "Override the base log level (trace|debug|info|warn|error)" },
     { name := "log-json", kind := .flag, placeholder := "BOOL", about := "Toggle JSON logging" }] ++
    compilerOptions ++
    [{ name := "watch", kind := .flag, placeholder := "BOOL",
       about := "Enable or disable file watching for every site" }]

/-- The grammar of checking. -/
def checkGrammar : Grammar where
  name := programName ++ " check"
  about := "Compile every unit of a site and report diagnostics"
  options := compilerOptions ++
    [{ name := "site", kind := .text, placeholder := "NAME",
       about := "Site to check; every configured site when omitted" }]

/-- The grammar of showing a script. -/
def transpileGrammar : Grammar where
  name := programName ++ " transpile"
  about := "Print the script generated for a markup template"
  operands :=
    [{ name := "file", kind := .path, placeholder := "FILE", isRequired := true,
       about := "Markup file to transpile" }]
  options :=
    [{ name := "type-name", kind := .text, placeholder := "TYPE",
       about := "Type name of the template; derived from the file name when omitted" }]

/-- The grammar of storing a site. -/
def precompileGrammar : Grammar where
  name := programName ++ " precompile"
  about := "Compile a site into a prebuilt bundle"
  options := compilerOptions ++
    [{ name := "site", kind := .text, placeholder := "NAME", isRequired := true,
       about := "Site to compile" },
     { name := "out", kind := .path, placeholder := "FILE", isRequired := true,
       about := "Where to write the bundle" }]

/-- The grammars of the commands by their names. -/
def commandGrammars : List (String × Grammar) :=
  [("serve", serveGrammar), ("check", checkGrammar), ("transpile", transpileGrammar),
   ("precompile", precompileGrammar)]

/-- The variable of the environment that names the file of settings. -/
def configFileVariable : String := "KILN_CONFIG_FILE"

/-- The option that names the file of settings. `preset` is what the environment says. -/
def configFileOption (preset : Option String) : Parameter where
  name := "config-file"
  kind := .path
  placeholder := "PATH"
  about := "Optional path to a configuration file [env: " ++ configFileVariable ++ "=" ++
    preset.getD "" ++ "]"

/-- What the command for descriptions does. -/
def helpAbout : String := "Print this message or the help of the given subcommand(s)"

/-- The grammar of the whole program. -/
def programGrammar (preset : Option String) : Grammar where
  name := programName
  about := "Hot-reloading script and template host"
  options := [configFileOption preset]
  commands := (commandGrammars.map fun c => (c.1, c.2.about)) ++ [("help", helpAbout)]
  hasVersion := true

/-- The description of the command for descriptions. -/
def helpOfHelp : String :=
  s!"{helpAbout}\n\nUsage: {programName} help [COMMAND]...\n" ++
    Grammar.sectionText "Arguments" [("[COMMAND]...", "Print help for the subcommand(s)")]

/-- The description that the words behind `help` ask for. -/
def describe (preset : Option String) : List String → Stop
  | [] => .help (programGrammar preset).help
  | name :: rest =>
    let found := if name = "help" then some helpOfHelp
      else (commandGrammars.lookup name).map Grammar.help
    match found, rest with
    | none, _ => .unknownCommand name
    | some text, [] => .help text
    | some _, extra :: _ => .unknownCommand extra

/-- The overrides for building units. -/
def compilerOverrides (vs : Values) : CompilerOverrides where
  timeoutSeconds := vs.number? "compiler-timeout-seconds"
  sharedReferences := vs.texts "shared-reference"

/-- The overrides for serving. -/
def serveOverrides (vs : Values) : ServeOverrides where
  host := vs.text? "server-host"
  port := vs.number? "server-port"
  gracefulShutdownSeconds := vs.number? "server-graceful-shutdown-seconds"
  logLevel := vs.text? "log-level"
  logAsJson := vs.flag? "log-json"
  watch := vs.flag? "watch"
  compiler := compilerOverrides vs

/-- The text of a name that is required. -/
def required (vs : Values) (name : String) : Except Stop String :=
  match vs.text? name with
  | some text => .ok text
  | none => .error (.missingParameter name)

/-- The command of a name with its arguments. -/
def readCommand (preset : Option String) (name : String) (args : List String) :
    Except Stop Command := do
  match name with
  | "serve" => return .serve (serveOverrides (← readAll serveGrammar args))
  | "check" =>
    let vs ← readAll checkGrammar args
    return .check (compilerOverrides vs) (vs.text? "site")
  | "transpile" =>
    let vs ← readAll transpileGrammar args
    return .transpile (← required vs "file") (vs.text? "type-name")
  | "precompile" =>
    let vs ← readAll precompileGrammar args
    return .precompile (compilerOverrides vs) (← required vs "site") (← required vs "out")
  | _ => throw (describe preset args)

/-- The invocation of a command line. What is wrong with a command goes before what is wrong with the
value in front of it, and that before what is wrong with the environment. -/
def Invocation.parse (environment : List (String × String)) (args : List String) :
    Except Stop Invocation := do
  let preset := environment.lookup configFileVariable
  let (s, found) ← scan (programGrammar preset) false {} args
  let command ← match found with
    | some (name, rest) => some <$> readCommand preset name rest
    | none => pure none
  let s ← s.settle
  match s.values.text? "config-file", preset with
  | some path, _ => return ⟨some path, command⟩
  | none, none => return ⟨none, command⟩
  | none, some path =>
    let _ ← (configFileOption preset).read path
    return ⟨some path, command⟩

end SiteHost.CommandLine
