import SiteHost.Diagnostic

/-!
# Failures of a lookup

* `CompileError` — a unit that did not compile, with every diagnostic;
* `Failure` — why a request for an instance cannot be met;
* `Failure.message` — its text, and `Failure.kind` — the label it has in metrics.
-/

namespace SiteHost

/-- A unit that did not compile. -/
structure CompileError where
  unit : String
  diagnostics : List Diagnostic
  deriving Repr, DecidableEq, Inhabited

namespace CompileError

/-- A failure with one error that points nowhere. -/
def single (unit message : String) : CompileError := ⟨unit, [.error message]⟩

/-- The failure and its diagnostics as one text. -/
def message (e : CompileError) : String := s!"failed to compile {e.unit}:\n{report e.diagnostics}"

end CompileError

/-- Why a request for an instance cannot be met. No failure is ever remembered. -/
inductive Failure where
  | invalidPath (path reason : String)
  | notFound (path : String)
  | compile (error : CompileError)
  | typeNotFound (typeName unit : String)
  | instantiation (typeName reason : String)
  deriving Repr, DecidableEq, Inhabited

namespace Failure

/-- The label of a failure in metrics. -/
def kind : Failure → String
  | .invalidPath .. => "invalid_path"
  | .notFound .. => "not_found"
  | .compile .. => "compile"
  | .typeNotFound .. => "type_not_found"
  | .instantiation .. => "instantiation"

/-- The failure as text. -/
def message : Failure → String
  | .invalidPath path reason => s!"invalid source path `{path}`: {reason}"
  | .notFound path => s!"source not found: {path}"
  | .compile error => error.message
  | .typeNotFound typeName unit => s!"type `{typeName}` not found in {unit}"
  | .instantiation typeName reason => s!"failed to instantiate `{typeName}`: {reason}"

/-- A compile failure with one error that points nowhere. -/
def compileSingle (unit message : String) : Failure := .compile (.single unit message)

end Failure

end SiteHost
