import SiteHost.Config.Check
import SiteHost.Disk.Basic
import SiteHost.Json.Read
import SiteHost.Text.Lossy
import SiteHost.Toml.Document

/-!
# Sources of configuration

Values come from files and from the environment, each source laid over those before it:
`config/default`, `kiln`, the file that is asked for, and the environment.

* `readFile` — the table of a file, which may be JSON or TOML;
* `environmentEntry?` — what a variable of the environment sets, if its name starts as it has to;
* `readDraft` — the draft that all sources make together.

Files that are not asked for may be missing, but one that is there has to hold a table.
-/

namespace SiteHost.Config

/-- A notation of configuration files. -/
inductive FileFormat where
  | json
  | toml
  deriving Repr, DecidableEq, Inhabited

namespace FileFormat

/-- The extension of a format's files. -/
def fileExtension : FileFormat → String
  | .json => "json"
  | .toml => "toml"

/-- Every format, in the order in which files are looked for. -/
def every : List FileFormat := [.json, .toml]

/-- The value that a text holds. -/
def parse? (format : FileFormat) (text : String) : Option Json :=
  match format with
  | .json => Json.parse? Json.fileDepth text.toList
  | .toml => Toml.parse? text.toList

end FileFormat

/-- The format of a file by its name. -/
def formatOf? (path : String) : Option FileFormat := do
  let fileName ← Path.fileName? path
  let (stem, ending) ← Text.splitLast? '.' fileName
  if stem = "" then none else FileFormat.every.find? fun f => f.fileExtension == ending

/-- The content of a file as text, without the mark that may stand at its start. -/
def contentText (content : ByteArray) : String :=
  let text := Text.decodeLossy content.toList
  match text.toList with
  | '\uFEFF' :: rest => String.ofList rest
  | _ => text

/-- The path of a file that is given without its extension. -/
def withExtension? (path : String) (format : FileFormat) : Option String :=
  (Path.fileName? path).map fun name => Path.withFileName path s!"{name}.{format.fileExtension}"

/-- The file that a path stands for, which may be given without its extension. -/
def findFile? (d : Disk) (path : String) : Option (FileFormat × ByteArray) :=
  match d.read path with
  | .ok content => (formatOf? path).map (·, content)
  | .error _ => FileFormat.every.findSome? fun format => do
    let content ← (d.read (← withExtension? path format)).toOption
    return (format, content)

/-- The table of a file. -/
def readFile (d : Disk) (isRequired : Bool) (path : String) :
    Except SettingsError (List (String × Json)) :=
  match findFile? d path with
  | none => if isRequired then .error .unreadable else .ok []
  | some (format, content) =>
    match format.parse? (contentText content) with
    | some (.object members) => .ok members
    | _ => .error .unreadable

/-- What the names of variables that set a value start with. -/
def environmentPrefix : String := "kiln__"

/-- Characters with a dot for every two underscores. -/
def separateNames : List Char → List Char
  | '_' :: '_' :: rest => '.' :: separateNames rest
  | c :: rest => c :: separateNames rest
  | [] => []

/-- What a variable of the environment sets. -/
def environmentEntry? (name value : String) : Option (String × Json) := do
  let rest ← Text.stripStart? environmentPrefix.toList (Text.lower name).toList
  return (String.ofList (separateNames rest), .text value)

/-- The files that are read if they are there. -/
def defaultFiles : List String := ["config/default", "kiln"]

/-- The draft that all sources make together. -/
def readDraft (d : Disk) (environment : List (String × String)) (configFile : Option String) :
    Except SettingsError Draft := do
  let defaults ← defaultFiles.mapM (readFile d false)
  let asked ← configFile.toList.mapM (readFile d true)
  let layers := defaults ++ asked ++ [environment.filterMap fun v => environmentEntry? v.1 v.2]
  match Draft.ofTree? (layers.foldl lay (.object [])) with
  | some draft => return draft
  | none => throw .unreadable

end SiteHost.Config
