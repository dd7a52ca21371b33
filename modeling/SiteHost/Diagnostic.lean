import SiteHost.Text.Pieces

/-!
# Diagnostics

What a compiler has to say about a source, and where:

* `Position` — a line and a column, both counted from 1;
* `Diagnostic` — a message of some severity, with the place it points at if it has one;
* `Diagnostic.render` — `file:line:column: error: message`, the place left out if there is none;
* `report` — the renderings of several diagnostics, one a line.
-/

namespace SiteHost

/-- A place in a text: line and column, both counted from 1. Neither gets further than the text is long, so that
32 bits hold them in every text of at most 2 ^ 32 - 2 characters. -/
structure Position where
  line : Nat
  column : Nat
  deriving Repr, DecidableEq, Inhabited

namespace Position

/-- The place of the first character of a text. -/
def start : Position := ⟨1, 1⟩

/-- The place after a character that stands at `p`. -/
def after (p : Position) (c : Char) : Position :=
  if c = '\n' then ⟨p.line + 1, 1⟩ else ⟨p.line, p.column + 1⟩

/-- The place after characters that begin at `p`. -/
def afterAll (p : Position) (cs : List Char) : Position := cs.foldl after p

@[simp] theorem afterAll_nil (p : Position) : p.afterAll [] = p := rfl

@[simp] theorem afterAll_cons (p : Position) (c : Char) (cs : List Char) :
    p.afterAll (c :: cs) = (p.after c).afterAll cs := rfl

theorem afterAll_append (p : Position) (cs ds : List Char) :
    p.afterAll (cs ++ ds) = (p.afterAll cs).afterAll ds := List.foldl_append

end Position

/-- How grave a diagnostic is. Only errors stop a compilation. -/
inductive Severity where
  | error
  | warning
  deriving Repr, DecidableEq, Inhabited

/-- The word for a severity. -/
def Severity.word : Severity → String
  | .error => "error"
  | .warning => "warning"

/-- A place in a source file. -/
structure Location where
  file : String
  position : Position
  deriving Repr, DecidableEq, Inhabited

/-- The location as `file:line:column`. -/
def Location.render (l : Location) : String :=
  s!"{l.file}:{l.position.line}:{l.position.column}"

/-- A message about a source. -/
structure Diagnostic where
  severity : Severity
  message : String
  location : Option Location
  deriving Repr, DecidableEq, Inhabited

namespace Diagnostic

/-- An error that points nowhere. -/
def error (message : String) : Diagnostic := ⟨.error, message, none⟩

/-- An error at a place in a file. -/
def errorAt (file : String) (position : Position) (message : String) : Diagnostic :=
  ⟨.error, message, some ⟨file, position⟩⟩

/-- Whether the diagnostic stops a compilation. -/
def isError (d : Diagnostic) : Bool := d.severity == .error

/-- The diagnostic as one text, its location first if it has one. -/
def render (d : Diagnostic) : String :=
  let body := s!"{d.severity.word}: {d.message}"
  match d.location with
  | some l => s!"{l.render}: {body}"
  | none => body

end Diagnostic

/-- Several diagnostics as one text, one a line. -/
def report (ds : List Diagnostic) : String := Text.joined "\n" (ds.map Diagnostic.render)

end SiteHost
