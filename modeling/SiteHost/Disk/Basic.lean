import SiteHost.NameMap
import SiteHost.Path

/-!
# A disk

* `Disk` — files and directories by their absolute path, and the directory that relative paths
  start from;
* `Disk.resolve` — what a path leads to. Every step but the last has to be a directory;
* `Disk.read`, `Disk.readText`, `Disk.list` — what is found there;
* `DiskError` — why a path leads nowhere or cannot be used as asked.

A place is the list of names on the way from the root. Names are case sensitive.
-/

namespace SiteHost

/-- Why a path cannot be used. -/
inductive DiskError where
  | notFound
  | alreadyExists
  | notADirectory
  | isADirectory
  | invalidMove
  | notEmpty
  | nameTooLong
  | zeroByte
  | notText
  deriving Repr, DecidableEq, Inhabited

/-- The error as text. -/
def DiskError.message : DiskError → String
  | .notFound => "No such file or directory (os error 2)"
  | .alreadyExists => "File exists (os error 17)"
  | .notADirectory => "Not a directory (os error 20)"
  | .isADirectory => "Is a directory (os error 21)"
  | .invalidMove => "Invalid argument (os error 22)"
  | .notEmpty => "Directory not empty (os error 39)"
  | .nameTooLong => "File name too long (os error 36)"
  | .zeroByte => "file name contained an unexpected NUL byte"
  | .notText => "stream did not contain valid UTF-8"

/-- What stands at a place. -/
inductive Node where
  | file (content : ByteArray)
  | directory
  deriving Inhabited

/-- Whether a node is a directory. -/
def Node.isDirectory : Node → Bool
  | .directory => true
  | .file _ => false

/-- The names on the way from the root. -/
abbrev Place := List String

/-- The absolute path of a place. -/
def Place.path (place : Place) : String := "/" ++ String.intercalate "/" place

/-- Files and directories. -/
structure Disk where
  /-- The directory that relative paths start from. -/
  workingDirectory : Place := []
  nodes : NameMap Node := .empty
  deriving Inhabited

namespace Disk

/-- What stands at a place. The root is always a directory. -/
def node? (d : Disk) (place : Place) : Option Node :=
  if place.isEmpty then some .directory else d.nodes.get? place.path

/-- The longest name in bytes. -/
def nameLimit : Nat := 255

/-- The longest path in bytes. -/
def pathLimit : Nat := 4095

/-- The pieces of a path between slashes. A path that ends in a slash asks for a directory, as if a
`.` followed. -/
def steps (path : String) : List String :=
  let pieces := Text.pieces '/' path
  let closing := if pieces.getLast? == some "" then ["."] else []
  pieces.filter (· != "") ++ closing

/-- Goes from a place along steps. -/
def walk (d : Disk) (place : Place) : List String → Except DiskError Place
  | [] => .ok place
  | step :: rest =>
    match d.node? place with
    | none => .error .notFound
    | some (.file _) => .error .notADirectory
    | some .directory =>
      if step = "." then d.walk place rest
      else if step = ".." then d.walk place.dropLast rest
      else if nameLimit < step.utf8ByteSize then .error .nameTooLong
      else d.walk (place ++ [step]) rest

/-- The place that steps start from. -/
def start (d : Disk) (path : String) : Place :=
  if Path.isAbsolute path then [] else d.workingDirectory

/-- Why a path cannot lead anywhere on any disk. -/
def malformed? (path : String) : Option DiskError :=
  if path.toList.contains '\x00' then some .zeroByte
  else if path = "" then some .notFound
  else if pathLimit < path.utf8ByteSize then some .nameTooLong
  else none

/-- Where a path leads, whether or not something is there. -/
def locate (d : Disk) (path : String) : Except DiskError Place :=
  match malformed? path with
  | some e => .error e
  | none => d.walk (d.start path) (steps path)

/-- Where a path leads and what is there. -/
def resolve (d : Disk) (path : String) : Except DiskError (Place × Node) := do
  let place ← d.locate path
  match d.node? place with
  | some node => return (place, node)
  | none => throw .notFound

/-- The absolute path that a path leads to. -/
def canonical (d : Disk) (path : String) : Except DiskError String := do
  return (← d.resolve path).1.path

/-- Whether a path leads to something. -/
def exists? (d : Disk) (path : String) : Bool := (d.resolve path).toOption.isSome

/-- The content of a file. -/
def read (d : Disk) (path : String) : Except DiskError ByteArray := do
  match (← d.resolve path).2 with
  | .file content => return content
  | .directory => throw .isADirectory

/-- The text of a file. -/
def readText (d : Disk) (path : String) : Except DiskError String := do
  match String.fromUTF8? (← d.read path) with
  | some text => return text
  | none => throw .notText

/-- The text of a file, if there is the file. -/
def readText? (d : Disk) (path : String) : Except DiskError (Option String) :=
  match d.readText path with
  | .ok text => .ok (some text)
  | .error .notFound => .ok none
  | .error e => .error e

/-- What the paths of everything in a directory start with. -/
def opening (place : Place) : List Char :=
  place.flatMap (fun name => '/' :: name.toList) ++ ['/']

/-- The names in a directory, in order. -/
def names (d : Disk) (place : Place) : List String :=
  d.nodes.keys.filterMap fun path =>
    match Text.stripStart? (opening place) path.toList with
    | some rest => if rest.isEmpty || rest.contains '/' then none else some (String.ofList rest)
    | none => none

/-- The names in the directory that a path leads to. -/
def list (d : Disk) (path : String) : Except DiskError (List String) := do
  let (place, node) ← d.resolve path
  match node with
  | .directory => return d.names place
  | .file _ => throw .notADirectory

/-- The paths of all files below a place, in order. -/
def filesBelow (d : Disk) (place : Place) : List String :=
  d.nodes.toList.filterMap fun (path, node) =>
    if (opening place).isPrefixOf path.toList && !node.isDirectory then some path else none

end Disk

end SiteHost
