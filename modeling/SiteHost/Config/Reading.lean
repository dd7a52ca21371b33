import SiteHost.Config.Tree
import SiteHost.Text.LowerCase
import SiteHost.Text.Shortest

/-!
# Reading configured values

A value is taken for what it is asked for if it can stand for it:

* `flag?` — true, false, the words for them, and numbers, of which only zero is false;
* `count?` — whole numbers and their decimal text, also flags and the words for them as 1 and 0, and
  rounded fractions;
* `text?` — texts, flags and numbers;
* `list?` — lists only;
* `fields?` — the values of a record: a table's by name, a list's by position.

Null stands for a value that is missing.
-/

namespace SiteHost.Config

/-- The words for true. -/
def trueWords : List String := ["true", "on", "yes"]

/-- The words for false. -/
def falseWords : List String := ["false", "off", "no"]

/-- A value as true or false. -/
def flag? : Json → Option Bool
  | .bool b => some b
  | .int n => some (n != 0)
  | .float f => some (f != 0.0)
  | .text s =>
    let word := Text.lower s
    if word = "1" ∨ word ∈ trueWords then some true
    else if word = "0" ∨ word ∈ falseWords then some false
    else none
  | _ => none

/-- A value as a number of 64 bits that is not negative. A half is rounded away from zero, and a
fraction out of range to the nearest such number. -/
def count? : Json → Option Nat
  | .bool b => some b.toNat
  | .int n => if 0 ≤ n ∧ n.toNat ≤ Text.uint64Max then some n.toNat else none
  | .float f => some f.round.toUInt64.toNat
  | .text s =>
    let word := Text.lower s
    if word ∈ trueWords then some 1
    else if word ∈ falseWords then some 0
    else Text.readUnsigned? Text.uint64Max s
  | _ => none

/-- A fraction as text. -/
def fractionText (f : Float) : String :=
  if f.isNaN then "NaN"
  else if f.isInf then (if f < 0.0 then "-inf" else "inf")
  else Text.shortest f

/-- A value as text. -/
def text? : Json → Option String
  | .text s => some s
  | .bool b => some (if b then "true" else "false")
  | .int n => some (toString n)
  | .float f => some (fractionText f)
  | _ => none

/-- A list whose items all can be read. -/
def list? {α : Type} (read : Json → Option α) : Json → Option (List α)
  | .array items => items.mapM read
  | _ => none

/-- A value that may be missing. -/
def optional? {α : Type} (read : Json → Option α) : Option Json → Option (Option α)
  | none | some .null => some none
  | some value => (read value).map some

/-- The values of a record with the given names. -/
def fields? (names : List String) : Json → Option (List (Option Json))
  | .object members =>
    some (names.map fun name => (members.reverse.lookup name))
  | .array items => some ((List.range names.length).map fun n => items[n]?)
  | _ => none

end SiteHost.Config
