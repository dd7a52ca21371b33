import SiteHost.Site.Naming

/-!
# Changes on disk

* `RawChange` — what a file watcher reports, with the paths it concerns;
* `Change` — a file was written, or a file or directory is gone from its place;
* `classify` — the changes that a report amounts to. Files count by their name alone; a path without
  an extension also counts when it is gone, since it may have been a directory.
-/

namespace SiteHost

/-- What happened to the paths of a report. -/
inductive RawChange where
  | unknown
  | accessed
  | created
  | removed
  | written
  | attributes
  | renamedTo
  | renamedBoth
  | renamed
  deriving Repr, DecidableEq, Inhabited

/-- How a path changed: it holds something new, or nothing any more. -/
inductive ChangeKind where
  | modified
  | renamed
  deriving Repr, DecidableEq, Inhabited

/-- The word for a kind of change. -/
def ChangeKind.word : ChangeKind → String
  | .modified => "modified"
  | .renamed => "renamed"

/-- A change of one path. -/
structure Change where
  path : String
  kind : ChangeKind
  deriving Repr, DecidableEq, Inhabited

namespace Convention

/-- Whether a path names a source. -/
def accepts (c : Convention) (path : String) : Bool :=
  match Path.fileName? path with
  | some name => c.isSourceName name
  | none => false

/-- A path that holds something new, if it names a source. -/
def modified? (c : Convention) (path : String) : Option Change :=
  if c.accepts path then some ⟨path, .modified⟩ else none

/-- A path that holds nothing any more, if it names a source or may have been a directory. -/
def gone? (c : Convention) (path : String) : Option Change :=
  let plain := match Path.fileName? path with
    | some name => !Path.hasExtension name
    | none => true
  if c.accepts path || plain then some ⟨path, .renamed⟩ else none

/-- The changes that a report amounts to. -/
def classify (c : Convention) (raw : RawChange) (paths : List String) : List Change :=
  match raw with
  | .created | .renamedTo | .written => paths.filterMap c.modified?
  | .removed | .renamed => paths.filterMap c.gone?
  | .renamedBoth =>
    (paths.take 1).filterMap c.gone? ++ ((paths.drop 1).take 1).filterMap c.modified?
  | .unknown | .accessed | .attributes => []

end Convention

end SiteHost
