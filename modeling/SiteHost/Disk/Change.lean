import SiteHost.Disk.Basic

/-!
# Changing a disk

* `Disk.write` — gives a file a content and makes the file if need be;
* `Disk.makeDirectories` — makes the directories on a path that are missing;
* `Disk.remove` — takes a file away, or a directory with all that is in it;
* `Disk.move` — gives a file or directory another place.

Whatever fails leaves the disk as it was, but for directories that were made on the way.
-/

namespace SiteHost.Disk

/-- Puts a node at a place. -/
def put (d : Disk) (place : Place) (node : Node) : Disk :=
  { d with nodes := d.nodes.insert place.path node }

/-- Whether something lies at a place or below it. -/
def isWithin (place : Place) (path : String) : Bool :=
  path == place.path || (opening place).isPrefixOf path.toList

/-- Takes away what stands at a place and below it. -/
def clear (d : Disk) (place : Place) : Disk :=
  { d with nodes := d.nodes.filter fun path _ => !isWithin place path }

/-- Gives a file a content. -/
def write (d : Disk) (path : String) (content : ByteArray) : Except DiskError Disk := do
  let place ← d.locate path
  match d.node? place with
  | some .directory => throw .isADirectory
  | some (.file _) => return d.put place (.file content)
  | none =>
    match d.node? place.dropLast with
    | some .directory => return d.put place (.file content)
    | some (.file _) => throw .notADirectory
    | none => throw .notFound

/-- Goes from a place along steps and makes the directories that are missing. -/
def makeAlong (d : Disk) (place : Place) : List String → Except DiskError Unit × Disk
  | [] => (.ok (), d)
  | step :: rest =>
    if step = "." then d.makeAlong place rest
    else if step = ".." then d.makeAlong place.dropLast rest
    else if nameLimit < step.utf8ByteSize then (.error .nameTooLong, d)
    else
      let next := place ++ [step]
      match d.node? next with
      | some .directory => d.makeAlong next rest
      | some (.file _) => (.error (if rest.isEmpty then .alreadyExists else .notADirectory), d)
      | none => (d.put next .directory).makeAlong next rest

/-- Makes the directories on a path that are missing. The empty path asks for nothing. -/
def makeDirectories (d : Disk) (path : String) : Except DiskError Unit × Disk :=
  if path = "" then (.ok (), d)
  else match malformed? path with
    | some e => (.error e, d)
    | none => d.makeAlong (d.start path) (steps path)

/-- Takes a file away, or a directory with all that is in it. -/
def remove (d : Disk) (path : String) : Except DiskError Disk := do
  let (place, _) ← d.resolve path
  return d.clear place

/-- A path below one place as a path below another. -/
def rebase (source target : Place) (path : String) : String :=
  match Text.stripStart? source.path.toList path.toList with
  | some rest => target.path ++ String.ofList rest
  | none => path

/-- Gives a file or directory another place, which is not below it. It takes the place of a file if
it is one, and of an empty directory if it is a directory. -/
def move (d : Disk) (source target : String) : Except DiskError Disk := do
  let (sourcePlace, moved) ← d.resolve source
  let targetPlace ← d.locate target
  if sourcePlace = targetPlace then return d
  if isWithin sourcePlace targetPlace.path then throw .invalidMove
  match d.node? targetPlace.dropLast with
  | some .directory => pure ()
  | some (.file _) => throw .notADirectory
  | none => throw .notFound
  match moved, d.node? targetPlace with
  | .file _, some .directory => throw .isADirectory
  | .directory, some (.file _) => throw .notADirectory
  | .directory, some .directory =>
    if !(d.names targetPlace).isEmpty then throw .notEmpty
  | _, _ => pure ()
  let inside := d.nodes.toList.filter fun e => isWithin sourcePlace e.1
  return inside.foldl (fun d e =>
      { d with nodes := d.nodes.insert (rebase sourcePlace targetPlace e.1) e.2 })
    ((d.clear sourcePlace).clear targetPlace)

end SiteHost.Disk
