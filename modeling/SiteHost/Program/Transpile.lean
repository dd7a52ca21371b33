import SiteHost.HostError

/-!
# Showing the script of a template

* `codeBehind?` — the script file that belongs to a markup file;
* `templateName` — the type name that a markup file's name gives;
* `transpileFile` — the script of a markup file.
-/

namespace SiteHost

/-- A file name without an extension and the dot before it. -/
def withoutExtension? (extension fileName : String) : Option String :=
  (Text.stripEnd? ('.' :: extension.toList) fileName.toList).map String.ofList

/-- The script file that stands beside a markup file. -/
def codeBehind? (compiler : CompilerSettings) (path : String) : Option String := do
  let stem ← withoutExtension? compiler.markupSuffix (← Path.fileName? path)
  return Path.withFileName path stem

/-- The type name of a template by its file's name. No type name has a dash. -/
def templateName (compiler : CompilerSettings) (fileName : String) : String :=
  let stem := (withoutExtension? compiler.markupSuffix fileName).getD fileName
  let stem := (withoutExtension? compiler.leafExtension stem).getD stem
  Text.substitute '-' ['_'] stem

/-- The script of a markup file, for a type of a given name or the one its own name gives. -/
def transpileFile (d : Disk) (compiler : CompilerSettings) (path : String)
    (typeName : Option String) : Except HostError String := do
  let markup ← (d.readText path).mapError .disk
  let hasCodeBehind := (codeBehind? compiler path).any d.exists?
  let typeName ← match typeName, Path.fileName? path with
    | some name, _ => pure name
    | none, some fileName => pure (templateName compiler fileName)
    | none, none => throw (.validation "markup path has no file name")
  match Template.script ⟨typeName, path, markup, hasCodeBehind⟩ with
  | .ok script => return script
  | .error diagnostic => throw (.validation diagnostic.render)

end SiteHost
