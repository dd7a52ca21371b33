import SiteHost.NameMap
import SiteHost.Text.Blank
import SiteHost.Text.Numeral

/-!
# Values, requests and responses

What goes into a script and comes out of it:

* `Value` — nothing, a 64-bit integer or text; `Value.render` is its text;
* `Request`, `Response` — what a handler is asked and what it answers;
* `InvokeError` — why a handler has no answer.
-/

namespace SiteHost.Script

/-- A value that a script computes or is given. -/
inductive Value where
  | nil
  | int (value : Int64)
  | text (value : String)
  deriving Repr, DecidableEq, Inhabited

namespace Value

/-- A value as text. Nothing has no characters. -/
def render : Value → String
  | .nil => ""
  | .int value => toString value.toInt
  | .text value => value

/-- A value as an integer; text counts as the number it spells, blanks around it aside. -/
def toInt? : Value → Option Int
  | .nil => none
  | .int value => some value.toInt
  | .text value => Text.readInt64? (Text.trim value)

end Value

/-- What a handler is asked. -/
structure Request where
  method : String
  path : String
  query : NameMap String
  headers : NameMap String
  deriving Repr, DecidableEq, Inhabited

/-- A request that asks nothing, which constructors see. -/
def Request.blank : Request := ⟨"", "", .empty, .empty⟩

/-- What a handler answers. -/
structure Response where
  status : Nat
  contentType : String
  body : String
  deriving Repr, DecidableEq, Inhabited

/-- The answer of a handler that does nothing. -/
def Response.initial : Response := ⟨200, "text/plain; charset=utf-8", ""⟩

/-- Why a handler has no answer. -/
inductive InvokeError where
  | unknownAction (typeName action : String)
  | runtime (typeName reason : String)
  deriving Repr, DecidableEq, Inhabited

/-- The error in words. -/
def InvokeError.message : InvokeError → String
  | .unknownAction typeName action => s!"unknown action `{action}` on `{typeName}`"
  | .runtime typeName reason => s!"handler `{typeName}` failed: {reason}"

end SiteHost.Script
