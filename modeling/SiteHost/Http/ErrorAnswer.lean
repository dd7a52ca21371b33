import SiteHost.Failure
import SiteHost.Script.Value

/-!
# Errors as answers

What a client is told of an error, and what is kept for the log:

* `ErrorAnswer.ofFailure` — of a lookup that failed;
* `ErrorAnswer.ofInvokeError` — of a handler that failed.

The public text never holds details.
-/

namespace SiteHost.Http

/-- An error as a client sees it, with the report that goes to the log. -/
structure ErrorAnswer where
  status : Nat
  body : String
  source : String
  messages : List String
  deriving Repr, DecidableEq, Inhabited

namespace ErrorAnswer

/-- The status and public text of a failed lookup. -/
def outline : Failure → Nat × String
  | .notFound _ => (404, "Not found")
  | .invalidPath .. => (400, "Invalid path")
  | .compile _ => (500, "Handler failed to compile")
  | .typeNotFound .. | .instantiation .. => (500, "Internal server error")

/-- The answer to a failed lookup. -/
def ofFailure (f : Failure) : ErrorAnswer :=
  let (status, body) := outline f
  ⟨status, body, "application::error::kiln_error_to_http_error", [f.message]⟩

/-- The status and public text of a failed handler. -/
def handlerOutline : Script.InvokeError → Nat × String
  | .unknownAction .. => (404, "Unknown action")
  | .runtime .. => (500, "Internal server error")

/-- The answer for a failed handler. -/
def ofInvokeError (e : Script.InvokeError) : ErrorAnswer :=
  let (status, body) := handlerOutline e
  ⟨status, body, "application::error::invoke_error_to_http_error", [e.message]⟩

end ErrorAnswer

end SiteHost.Http
