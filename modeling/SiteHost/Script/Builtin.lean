import SiteHost.Script.Syntax

/-!
# What a script can name without declaring it

* `Builtin` — the calls every script can make, with their arities;
* `Property` — the dotted names that can be read;
* `Target.ofNames` — what the dotted name of a call refers to. The first segment decides: `this`,
  `base`, one of the built-in roots, or else the name of a type.
-/

namespace SiteHost.Script

/-- A call that every script can make. -/
inductive Builtin where
  | write
  | writeLiteral
  | status
  | contentType
  | query
  | header
  | argument
  | requireArguments
  | setField
  | getField
  | encode
  deriving Repr, DecidableEq, Inhabited

/-- The names under which scripts reach what is built in. -/
def builtinRoots : List String := ["Response", "Request", "Args", "Fields", "Html"]

namespace Builtin

/-- The call of a name. -/
def ofNames? : String → String → Option Builtin
  | "Response", "Write" => some .write
  | "Response", "WriteLiteral" => some .writeLiteral
  | "Response", "Status" => some .status
  | "Response", "ContentType" => some .contentType
  | "Request", "Query" => some .query
  | "Request", "Header" => some .header
  | "Args", "Get" => some .argument
  | "Args", "Require" => some .requireArguments
  | "Fields", "Set" => some .setField
  | "Fields", "Get" => some .getField
  | "Html", "Encode" => some .encode
  | _, _ => none

/-- The name of a call. -/
def name : Builtin → String
  | .write => "Response.Write"
  | .writeLiteral => "Response.WriteLiteral"
  | .status => "Response.Status"
  | .contentType => "Response.ContentType"
  | .query => "Request.Query"
  | .header => "Request.Header"
  | .argument => "Args.Get"
  | .requireArguments => "Args.Require"
  | .setField => "Fields.Set"
  | .getField => "Fields.Get"
  | .encode => "Html.Encode"

/-- How many arguments a call takes; none if it takes any number. -/
def arity? : Builtin → Option Nat
  | .write => none
  | .setField => some 2
  | _ => some 1

end Builtin

/-- A dotted name that can be read. -/
inductive Property where
  | requestPath
  | requestMethod
  | argumentCount
  deriving Repr, DecidableEq, Inhabited

/-- The property of a name. -/
def Property.ofNames? : String → String → Option Property
  | "Request", "Path" => some .requestPath
  | "Request", "Method" => some .requestMethod
  | "Args", "Count" => some .argumentCount
  | _, _ => none

/-- What a call refers to. -/
inductive Target where
  | fail
  | own (method : String)
  | inherited (method : String)
  | builtin (call : Builtin)
  | unknownMember (name : String)
  | static (type method : String)
  | empty
  deriving Repr, DecidableEq, Inhabited

/-- What the dotted name of a call refers to. -/
def Target.ofNames (names : List String) : Target :=
  match names with
  | [] => .empty
  | ["Fail"] => .fail
  | [method] => .own method
  | ["this", method] => .own method
  | ["base", method] => .inherited method
  | first :: rest =>
    if builtinRoots.contains first then
      match rest with
      | [member] =>
        match Builtin.ofNames? first member with
        | some call => .builtin call
        | none => .unknownMember (Text.joined "." names)
      | _ => .unknownMember (Text.joined "." names)
    else .static (Text.joined "." names.dropLast) (names.getLast?.getD first)

/-- The type that a call names as written, if it names one. -/
def writtenType? (names : List String) : Option String :=
  match Target.ofNames names, names with
  | .static type _, first :: _ => if first = "this" ∨ first = "base" then none else some type
  | _, _ => none

end SiteHost.Script
