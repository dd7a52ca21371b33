import SiteHost.Failure
import SiteHost.Path
import SiteHost.Source
import SiteHost.Text.Blank

/-!
# Naming: from paths to units

A site's files and the units they belong to:

* `Convention` — the namespace of all types, the extension of scripts and the suffix by which a
  markup file is told from the script it goes with;
* `Locator.resolve` — the unit of a request path. Whether the unit exists is not asked;
* `Locator.unitOfFile?` — the unit that a file on disk belongs to;
* `Locator.globalUnit` — the unit whose declarations every other unit of the site can use.

Extensions are compared without regard to ASCII case.
-/

namespace SiteHost

/-- The naming rules of a site. -/
structure Convention where
  rootNamespace : String
  leafExtension : String
  markupSuffix : String
  deriving Repr, DecidableEq, Inhabited

/-- The convention where nothing else is configured. -/
def Convention.default : Convention := ⟨"Site", "ks", "html"⟩

/-- Whether a file name is a stem, a dot and the extension, in any ASCII case. -/
def endsWithExtension (extension fileName : String) : Bool :=
  let name := fileName.toList
  let tail := name.drop (name.length - (extension.length + 1))
  extension.length + 1 < name.length &&
    tail.map Char.toLower == '.' :: extension.toList.map Char.toLower

namespace Convention

/-- Whether a file name is that of a script. -/
def isLeafName (c : Convention) (fileName : String) : Bool :=
  endsWithExtension c.leafExtension fileName

/-- Whether a file name is that of markup. -/
def isMarkupName (c : Convention) (fileName : String) : Bool :=
  endsWithExtension (c.leafExtension ++ "." ++ c.markupSuffix) fileName

/-- Whether a file name belongs to a unit. -/
def isSourceName (c : Convention) (fileName : String) : Bool :=
  c.isLeafName fileName || c.isMarkupName fileName

/-- The script that a file name stands for: markup loses its suffix, a script is itself, and any
other name gets the extension. -/
def scriptName (c : Convention) (fileName : String) : String :=
  if c.isMarkupName fileName then
    String.ofList (fileName.toList.take (fileName.length - (c.markupSuffix.length + 1)))
  else if c.isLeafName fileName then fileName
  else fileName ++ "." ++ c.leafExtension

/-- A name in which dashes become underscores. -/
def typeSegment (name : String) : String := Text.substitute '-' ['_'] name

/-- A file name without its extension, if something is left of it. -/
def stem (c : Convention) (fileName : String) : String :=
  let n := c.leafExtension.length + 1
  if n < fileName.length then String.ofList (fileName.toList.take (fileName.length - n))
  else fileName

/-- The type segments of directories and a file. -/
def typeSegments (c : Convention) : List String → List String
  | [] => []
  | [fileName] => [typeSegment (c.stem fileName)]
  | dir :: rest => typeSegment dir :: c.typeSegments rest

/-- The type name of a file, from the names on the way to it. -/
def typeName (c : Convention) (names : List String) : String :=
  let scope := if c.rootNamespace = "" then [] else [c.rootNamespace]
  Text.joined "." (scope ++ c.typeSegments names)

end Convention

/-- The names on a path below the root, unless the path climbs. -/
def namesOf? : List Path.Component → Option (List String)
  | [] => some []
  | .parent :: _ => none
  | .name text :: rest => (namesOf? rest).map (text :: ·)
  | .root :: rest | .here :: rest => namesOf? rest

/-- A site's root directory and its naming rules. -/
structure Locator where
  root : String
  convention : Convention
  deriving Repr, DecidableEq, Inhabited

namespace Locator

/-- The unit of a script, from the names on the way to it. -/
def unitAt (l : Locator) (names : List String) : Identity :=
  ⟨names.foldl Path.join l.root, l.convention.typeName names⟩

/-- The names with the last one replaced by the script it stands for. -/
def toScript (l : Locator) (names : List String) : List String :=
  match names.getLast? with
  | some last => names.dropLast ++ [l.convention.scriptName last]
  | none => []

/-- The name that a path to a directory stands for. -/
def defaultDocument : String := "index"

/-- The unit of a request path. A backslash counts as a slash, and an absolute path has to lie under
the root. -/
def resolve (l : Locator) (raw : String) : Except Failure Identity := do
  let trimmed := Text.trim raw
  if trimmed = "" then throw (.invalidPath raw "path must not be empty")
  let path := Text.substitute '\\' ['/'] trimmed
  let steps ←
    if Path.isAbsolute path then
      match Path.under? l.root path with
      | some steps => pure steps
      | none => throw (.invalidPath raw "path is outside the site root")
    else pure (Path.components path)
  match namesOf? steps with
  | none => throw (.invalidPath raw "parent directory segments are not allowed")
  | some names =>
    let isDirectory := path.toList.getLast? == some '/' || names.isEmpty
    let names := if isDirectory then names ++ [defaultDocument] else names
    return l.unitAt (l.toScript names)

/-- The unit that a file on disk belongs to, if its name is that of a source under the root. -/
def unitOfFile? (l : Locator) (path : String) : Option Identity := do
  let steps ← Path.under? l.root path
  match steps.getLast? with
  | some (.name fileName) =>
    if l.convention.isSourceName fileName then
      return l.unitAt (l.toScript (← namesOf? steps))
    else none
  | _ => none

/-- The file name of the global unit. -/
def globalName (l : Locator) : String := "global." ++ l.convention.leafExtension

/-- The global unit. It need not exist. -/
def globalUnit (l : Locator) : Identity :=
  ⟨Path.join l.root l.globalName, l.convention.typeName [l.globalName]⟩

/-- Whether a unit is the global one. -/
def isGlobal (l : Locator) (i : Identity) : Bool := i.key == l.globalUnit.key

/-- The markup file that goes with a unit's script. -/
def markupPath (l : Locator) (i : Identity) : String := i.path ++ "." ++ l.convention.markupSuffix

end Locator

end SiteHost
