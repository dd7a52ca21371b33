import SiteHost.NameMap
import SiteHost.Text.Lossy
import SiteHost.Text.Numeral
import SiteHost.Text.Pieces

/-!
# Request targets

What a request asks for, as path and query:

* `Target.of` — the parts of a target, which may be a path, a whole address or `*`;
* `Target.parameters` — the query as names with values. Of a name that is given twice the last
  value counts.

In a query `+` is a blank and `%` starts two hexadecimal digits. A `%` without them stands for
itself, and bytes that are no text become U+FFFD.
-/

namespace SiteHost.Http

/-- A request target. -/
structure Target where
  path : String
  query : String
  deriving Repr, DecidableEq, Inhabited

/-- Bytes with every escaped byte in place of its escape. -/
def unescape : List UInt8 → List UInt8
  | 0x25 :: a :: b :: rest =>
    match Text.hexValue? (Char.ofNat a.toNat), Text.hexValue? (Char.ofNat b.toNat) with
    | some high, some low => UInt8.ofNat (high * 16 + low) :: unescape rest
    | _, _ => 0x25 :: unescape (a :: b :: rest)
  | b :: rest => b :: unescape rest
  | [] => []

/-- The text of a name or a value. -/
def unescapeText (s : String) : String :=
  let spaced := Text.substitute '+' [' '] s
  Text.decodeLossy (unescape spaced.toUTF8.toList)

/-- The name and the value of one parameter. Without `=` the value is empty. -/
def parameter (piece : String) : String × String :=
  match Text.splitFirst? '=' piece with
  | some (name, value) => (unescapeText name, unescapeText value)
  | none => (unescapeText piece, "")

namespace Target

/-- Path and query of a text that starts with the path. What follows `#` is dropped. -/
def ofPath (text : String) : Target :=
  let text := match Text.splitFirst? '#' text with
    | some (before, _) => before
    | none => text
  match Text.splitFirst? '?' text with
  | some (path, query) => ⟨path, query⟩
  | none => ⟨text, ""⟩

/-- What follows the host of an address. -/
def afterHost (cs : List Char) : List Char :=
  cs.dropWhile fun c => c != '/' && c != '?' && c != '#'

/-- What follows the scheme of an address, if it has one. -/
def afterScheme? : List Char → Option (List Char)
  | ':' :: '/' :: '/' :: rest => some rest
  | _ :: rest => afterScheme? rest
  | [] => none

/-- The parts of a target. A host alone has no path. -/
def of (text : String) : Target :=
  if text = "*" ∨ text.toList.head? = some '/' then ofPath text
  else match afterScheme? text.toList with
    | some rest =>
      let t := ofPath (String.ofList (afterHost rest))
      { t with path := if t.path = "" then "/" else t.path }
    | none => ⟨"", ""⟩

/-- The query as names with values. -/
def parameters (t : Target) : NameMap String :=
  NameMap.ofList (((Text.pieces '&' t.query).filter (· != "")).map parameter)

end Target

end SiteHost.Http
