import SiteHost.Json.Value
import SiteHost.Text.Numeral

/-!
# Writing JSON

* `Json.compact` — without blanks;
* `Json.pretty` — two spaces a level, one item or member a line, `[]` and `{}` when empty.

Texts escape the quote, the backslash and control characters, the five common ones in their short
form. Floats are written by `toString` and arise in no value that the library writes.
-/

namespace SiteHost.Json

open SiteHost.Text

/-- A character as it stands in a text. -/
def escapeChar (c : Char) : List Char :=
  if c = '"' then ['\\', '"']
  else if c = '\\' then ['\\', '\\']
  else if c = '\n' then ['\\', 'n']
  else if c = '\r' then ['\\', 'r']
  else if c = '\t' then ['\\', 't']
  else if c = '\x08' then ['\\', 'b']
  else if c = '\x0c' then ['\\', 'f']
  else if c.toNat < 0x20 then
    ['\\', 'u', '0', '0', hexDigit (c.toNat / 16), hexDigit (c.toNat % 16)]
  else [c]

/-- A text in quotes. -/
def quote (s : String) : String := String.ofList ('"' :: s.toList.flatMap escapeChar ++ ['"'])

mutual

/-- A value without blanks. -/
def compact : Json → String
  | .null => "null"
  | .bool true => "true"
  | .bool false => "false"
  | .int n => toString n
  | .float f => toString f
  | .text s => quote s
  | .array items => "[" ++ ",".intercalate (compactItems items) ++ "]"
  | .object members => "\x7b" ++ ",".intercalate (compactMembers members) ++ "\x7d"

/-- Every item without blanks. -/
def compactItems : List Json → List String
  | [] => []
  | j :: rest => compact j :: compactItems rest

/-- Every member without blanks. -/
def compactMembers : List (String × Json) → List String
  | [] => []
  | (name, j) :: rest => (quote name ++ ":" ++ compact j) :: compactMembers rest

end

/-- The start of a line at a level. -/
def indentation (level : Nat) : String := "\n" ++ String.ofList (List.replicate (2 * level) ' ')

mutual

/-- A value laid out over lines, its first line at `level`. -/
def prettyAt (level : Nat) : Json → String
  | .array [] => "[]"
  | .array (j :: rest) =>
    "[" ++ ",".intercalate (prettyItems (level + 1) (j :: rest)) ++ indentation level ++ "]"
  | .object [] => "\x7b\x7d"
  | .object (m :: rest) =>
    "\x7b" ++ ",".intercalate (prettyMembers (level + 1) (m :: rest)) ++ indentation level ++ "\x7d"
  | j => compact j

/-- Every item on its line. -/
def prettyItems (level : Nat) : List Json → List String
  | [] => []
  | j :: rest => (indentation level ++ prettyAt level j) :: prettyItems level rest

/-- Every member on its line. -/
def prettyMembers (level : Nat) : List (String × Json) → List String
  | [] => []
  | (name, j) :: rest =>
    (indentation level ++ quote name ++ ": " ++ prettyAt level j) :: prettyMembers level rest

end

/-- A value laid out over lines. -/
def pretty (j : Json) : String := prettyAt 0 j

end SiteHost.Json
