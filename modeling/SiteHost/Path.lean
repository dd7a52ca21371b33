import SiteHost.Text.LowerCase
import SiteHost.Text.Pieces

/-!
# Paths

A path is kept as the text it was written as. What it means is the list of its components:

* `Path.components` — repeated slashes vanish and so do inner `.` steps; a leading `.` stays;
* `Path.join` — one path continued by another, which takes its place if it is absolute;
* `Path.fileName?`, `Path.hasExtension` — of the last component, if that is a name;
* `Path.parent?`, `Path.withFileName` — without the last component, and with another name for it;
* `Path.under?` — what is left of a path below a directory.
-/

namespace SiteHost.Path

/-- One step of a path. -/
inductive Component where
  | root
  | here
  | parent
  | name (text : String)
  deriving Repr, DecidableEq, Inhabited

/-- A component as it is written. -/
def Component.text : Component → String
  | .root => "/"
  | .here => "."
  | .parent => ".."
  | .name text => text

/-- What a piece between slashes means behind the start of a path. -/
def componentOf? (piece : String) : Option Component :=
  if piece = "" ∨ piece = "." then none
  else if piece = ".." then some .parent
  else some (.name piece)

/-- Whether a path starts at the root. -/
def isAbsolute (path : String) : Bool := path.toList.head? == some '/'

/-- The steps of a path. -/
def components (path : String) : List Component :=
  match Text.pieces '/' path with
  | [] => []
  | first :: rest =>
    let start := if isAbsolute path then [Component.root]
      else if first = "." then [.here]
      else (componentOf? first).toList
    start ++ rest.filterMap componentOf?

/-- One path continued by another. -/
def join (base part : String) : String :=
  if isAbsolute part ∨ base = "" then part
  else if base.toList.getLast? = some '/' then base ++ part
  else base ++ "/" ++ part

/-- The last component, if it is a name. -/
def fileName? (path : String) : Option String :=
  match (components path).getLast? with
  | some (.name text) => some text
  | _ => none

/-- Components as a path. -/
def ofComponents : List Component → String
  | [] => ""
  | .root :: rest => "/" ++ Text.joined "/" (rest.map Component.text)
  | steps => Text.joined "/" (steps.map Component.text)

/-- The path without its last component, if that is not the root. -/
def parent? (path : String) : Option String :=
  match (components path).reverse with
  | [] | .root :: _ => none
  | _ :: above => some (ofComponents above.reverse)

/-- The path with another file name. -/
def withFileName (path fileName : String) : String :=
  match fileName? path, parent? path with
  | some _, some above => join above fileName
  | _, _ => join path fileName

/-- Whether a file name has a dot behind its first character. -/
def hasExtension (fileName : String) : Bool := (fileName.toList.drop 1).contains '.'

/-- What is left of `path` below `base`, both as steps compared by `same`. -/
def below? (same : Component → Component → Bool) :
    (base path : List Component) → Option (List Component)
  | [], path => some path
  | b :: base, p :: path => if same b p then below? same base path else none
  | _ :: _, [] => none

/-- Components equal but for the case of ASCII letters. -/
def sameIgnoringCase (a b : Component) : Bool := Text.eqIgnoringAsciiCase a.text b.text

/-- What is left of a path below a directory, spelled alike or differing in case only. -/
def under? (base path : String) : Option (List Component) :=
  match below? (· == ·) (components base) (components path) with
  | some rest => some rest
  | none => below? sameIgnoringCase (components base) (components path)

end SiteHost.Path
