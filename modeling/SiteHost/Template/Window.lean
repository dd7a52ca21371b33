import SiteHost.Template.Segment
import SiteHost.Text.Pieces

/-!
# The script of a template

A template becomes a class named after its type with `Window` at the end. Its one method `Render`
writes every literal, as a verbatim text, and runs every piece of code in its place:

* `windowName` — the name of the class that a template of a type declares;
* `Template.script` — the source text of that class, in the namespace of the type.

With a code-behind the class derives from the type itself, by its short name; without one it
derives from the base page.
-/

namespace SiteHost

/-- The name of the class that a template declares for a type. -/
def windowName (typeName : String) : String := typeName ++ "Window"

/-- A template that is to become a script. -/
structure Template where
  typeName : String
  file : String
  markup : String
  hasCodeBehind : Bool
  deriving Repr, DecidableEq, Inhabited

namespace Template

/-- The base of a template without code-behind. -/
def defaultBase : String := "Kiln.Page"

/-- The namespace of a type name, if it has one, and its short name. -/
def splitTypeName (typeName : String) : Option String × String :=
  match Text.cutLast? '.' typeName.toList with
  | some (scope, short) => (some (String.ofList scope), String.ofList short)
  | none => (none, typeName)

/-- A text as a verbatim literal. -/
def verbatim (text : String) : String := "@\"" ++ Text.substitute '"' ['"', '"'] text ++ "\""

/-- The line that a segment becomes. -/
def segmentLine : Segment → String
  | .literal text => "Response.WriteLiteral(" ++ verbatim text ++ ");"
  | .code text => text

/-- The script of a template with the given segments. -/
def scriptOf (t : Template) (found : List Segment) : String :=
  let (scope, short) := splitTypeName t.typeName
  let base := if t.hasCodeBehind then short else defaultBase
  let indent := if scope.isSome then "    " else ""
  let opening := match scope with
    | some scope => "namespace " ++ scope ++ "\n\x7b\n"
    | none => ""
  let closing := if scope.isSome then "\x7d\n" else ""
  "using Kiln;\n\n" ++ opening ++
    indent ++ "public class " ++ windowName short ++ " : " ++ base ++ "\n" ++ indent ++ "\x7b\n" ++
    indent ++ "    public override void Render()\n" ++ indent ++ "    \x7b\n" ++
    String.join (found.map fun s => indent ++ "        " ++ segmentLine s ++ "\n") ++
    indent ++ "    \x7d\n" ++ indent ++ "\x7d\n" ++ closing

/-- The script of a template, or what is wrong with its markup. -/
def script (t : Template) : Except Diagnostic String :=
  (segments t.file t.markup).map t.scriptOf

end Template

end SiteHost
