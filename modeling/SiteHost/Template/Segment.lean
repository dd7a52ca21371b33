import SiteHost.Diagnostic
import SiteHost.Text.Blank

/-!
# Segments of a template

Markup is literal text with blocks of code between `<%` and `%>`:

* `segments` — literals and code in order, or the place of a block that is never closed;
* a run between two equal quotes is literal throughout, so no block opens in it; a quote without
  its partner makes the rest of the text literal;
* empty literals are left out, code is trimmed, and empty code is left out too.
-/

namespace SiteHost.Template

/-- A piece of a template. -/
inductive Segment where
  | literal (text : String)
  | code (text : String)
  deriving Repr, DecidableEq, Inhabited

/-- Where a reader of markup stands: in plain text, behind a quote, or in the block of code that
was opened at a place. -/
inductive Mode where
  | plain
  | quoted (quote : Char)
  | code (opened : Position)
  deriving Repr, DecidableEq, Inhabited

/-- A literal of the characters read, backwards; none if there are none. -/
def literalOf (done : List Char) : List Segment :=
  if done.isEmpty then [] else [.literal (String.ofList done.reverse)]

/-- The code of the characters read, backwards; none if they are blank. -/
def codeOf (done : List Char) : List Segment :=
  let code := Text.trim (String.ofList done.reverse)
  if code.isEmpty then [] else [.code code]

/-- How a character outside code changes the mode. -/
def Mode.after : Mode → Char → Mode
  | .plain, c => if c = '"' ∨ c = '\'' then .quoted c else .plain
  | .quoted quote, c => if c = quote then .plain else .quoted quote
  | .code opened, _ => .code opened

/-- The segments of the characters at `p`, which follow the characters in `done`, backwards. -/
def segmentsFrom : Mode → List Char → Position → List Char → Except Position (List Segment)
  | .plain, done, p, '<' :: '%' :: rest => do
    return literalOf done ++ (← segmentsFrom (.code p) [] ((p.after '<').after '%') rest)
  | .code _, done, p, '%' :: '>' :: rest => do
    return codeOf done ++ (← segmentsFrom .plain [] ((p.after '%').after '>') rest)
  | mode, done, p, c :: rest => segmentsFrom (mode.after c) (c :: done) (p.after c) rest
  | .code opened, _, _, [] => .error opened
  | _, done, _, [] => .ok (literalOf done)

/-- What is said of a block that is never closed. -/
def openBlockMessage : String := "malformed template: code block opened with `<%` is never closed"

/-- The segments of a markup file, or the diagnostic of a block that is never closed. -/
def segments (file markup : String) : Except Diagnostic (List Segment) :=
  match segmentsFrom .plain [] .start markup.toList with
  | .ok found => .ok found
  | .error p => .error (.errorAt file p openBlockMessage)

end SiteHost.Template
