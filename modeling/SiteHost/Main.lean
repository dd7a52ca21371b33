import SiteHost.Program.Run

/-!
# The program

Puts the part of the machine's disk that a command line is about into a `Disk`, runs the command
line, and puts what changed back. Everything else is decided by `SiteHost.run`.

Links are followed, and what cannot be read is left out.
-/

namespace SiteHost.Machine

/-- Puts what a path of the machine leads to into a disk, with everything below it. -/
partial def gather (d : Disk) (path : String) : IO Disk := do
  try
    let real ← IO.FS.realPath path
    if ← real.isDir then
      let d := (d.makeDirectories real.toString).2
      (← real.readDir).foldlM (fun d entry => gather d entry.path.toString) d
    else
      let d := (d.makeDirectories ((Path.parent? real.toString).getD "")).2
      return (d.write real.toString (← IO.FS.readBinFile real)).toOption.getD d
  catch _ => return d

/-- The variables of the environment. -/
def environment : IO (List (String × String)) := do
  let text := Text.decodeLossy (← IO.FS.readBinFile "/proc/self/environ").toList
  return (Text.pieces '\x00' text).filterMap (Text.splitFirst? '=')

/-- The present time: that at which the machine notes the process. -/
def now : IO Timestamp := do
  let noted ← IO.FS.realPath "/proc/self/environ"
  let time := (← noted.metadata).modified
  return .ofSeconds time.sec.toNat time.nsec.toNat

/-- The paths that settings name. -/
def pathsOf (s : Settings) : List String :=
  s.compiler.sharedReferences ++ s.sites.flatMap fun site => site.root :: site.prebuilt.toList

/-- The disk that a command line is about: the working directory, what the command line names, and
what the settings name. -/
def diskFor (env : List (String × String)) (args : List String) : IO Disk := do
  let here := (← IO.currentDir).toString
  let d : Disk := { workingDirectory := (Text.pieces '/' here).filter (· != "") }
  let d ← gather d here
  match CommandLine.Invocation.parse env args with
  | .error _ => return d
  | .ok invocation =>
    let named := match invocation.command with
      | some (.transpile file _) => [file]
      | _ => []
    let d ← (invocation.configFile.toList ++ named).foldlM gather d
    match loadSettings d env invocation with
    | .error _ => return d
    | .ok settings => (pathsOf settings).foldlM gather d

/-- Whether the disk that a run starts from has a node at a path. -/
def hasNode (d : Disk) (path : String) : Node → Bool
  | .directory => (d.nodes.get? path).any Node.isDirectory
  | .file content =>
    match d.nodes.get? path with
    | some (.file old) => old.data == content.data
    | _ => false

/-- Puts what is new on a disk onto the machine. -/
def store (before after : Disk) : IO Unit :=
  after.nodes.toList.forM fun (path, node) => do
    if hasNode before path node then return
    match node with
    | .directory => IO.FS.createDirAll path
    | .file content => IO.FS.writeBinFile path content

end SiteHost.Machine

open SiteHost in
/-- Runs a command line and ends with its code. -/
def main (args : List String) : IO UInt32 := do
  let env ← Machine.environment
  let disk ← Machine.diskFor env args
  let outcome := run disk env (← Machine.now) args
  Machine.store disk outcome.disk
  IO.print outcome.output
  outcome.complaint.forM IO.eprint
  outcome.error.forM fun text => IO.eprintln s!"ERROR application error: {text}"
  return UInt32.ofNat outcome.exitCode
