import SiteHost.Toml.Scalar

/-!
# TOML documents

* `Item` — what a name in a table stands for while a document is read: a table remembers how it came
  to be, because that decides what may still be added to it;
* `openTable`, `openElement`, `define` — what a header, a header of a list of tables, and a key with
  its value do to a table;
* `parse?` — the tables of a whole document.

No name is given a value twice. A table that a value is written as is complete; a table with a
header of its own has that header once and is not added to by dotted keys.
-/

namespace SiteHost.Toml

/-- How a table came to be. -/
inductive TableKind where
  /-- It has a header of its own. -/
  | header
  /-- Its name stands in the header of a table within it. -/
  | implicit
  /-- Its name stands in a dotted key. -/
  | dotted
  deriving Repr, DecidableEq, Inhabited

/-- What a name stands for. -/
inductive Item where
  | value (value : Json)
  | table (kind : TableKind) (entries : List (String × Item))
  /-- A list of tables, the last one first. -/
  | tables (elements : List (List (String × Item)))
  deriving Inhabited

/-- The names of a table with what they stand for. -/
abbrev Entries := List (String × Item)

/-- Gives a name that is there another item. -/
def replaceItem (name : String) (item : Item) (entries : Entries) : Entries :=
  entries.map fun e => if e.1 = name then (name, item) else e

mutual

/-- An item as a value. -/
def Item.toJson : Item → Json
  | .value v => v
  | .table _ entries => .object (entriesJson entries)
  | .tables elements => .array (elementsJson elements).reverse

/-- The entries of a table as members. -/
def entriesJson : List (String × Item) → List (String × Json)
  | [] => []
  | (name, item) :: rest => (name, item.toJson) :: entriesJson rest

/-- Tables as values. -/
def elementsJson : List (List (String × Item)) → List Json
  | [] => []
  | entries :: rest => .object (entriesJson entries) :: elementsJson rest

end

/-- Changes the table that names lead to, and makes the tables on the way. A list of tables leads to
its last one. -/
def within (change : Entries → Option Entries) : List String → Entries → Option Entries
  | [], entries => change entries
  | name :: rest, entries =>
    match entries.lookup name with
    | none => (within change rest []).map fun inner => entries ++ [(name, .table .implicit inner)]
    | some (.table kind inner) =>
      (within change rest inner).map fun inner => replaceItem name (.table kind inner) entries
    | some (.tables (last :: others)) =>
      (within change rest last).map fun last =>
        replaceItem name (.tables (last :: others)) entries
    | some _ => none

/-- Gives a table its header. -/
def openTable (name : String) (entries : Entries) : Option Entries :=
  match entries.lookup name with
  | none => some (entries ++ [(name, .table .header [])])
  | some (.table .implicit inner) => some (replaceItem name (.table .header inner) entries)
  | some _ => none

/-- Starts the next table of a list. -/
def openElement (name : String) (entries : Entries) : Option Entries :=
  match entries.lookup name with
  | none => some (entries ++ [(name, .tables [[]])])
  | some (.tables elements) => some (replaceItem name (.tables ([] :: elements)) entries)
  | some _ => none

/-- Gives a key a value. The table that a dotted key leads to has to come from dotted keys. -/
def define (value : Json) : List String → Entries → Option Entries
  | [], _ => none
  | [name], entries =>
    if (entries.lookup name).isSome then none else some (entries ++ [(name, .value value)])
  | name :: rest, entries =>
    match entries.lookup name with
    | none => (define value rest []).map fun inner => entries ++ [(name, .table .dotted inner)]
    | some (.table kind inner) =>
      if kind = .dotted ∨ (kind = .implicit ∧ 1 < rest.length) then
        (define value rest inner).map fun inner => replaceItem name (.table kind inner) entries
      else none
    | some (.tables (last :: others)) =>
      if 1 < rest.length then
        (define value rest last).map fun last =>
          replaceItem name (.tables (last :: others)) entries
      else none
    | some _ => none

mutual

/-- A value. -/
def readValue? : (fuel : Nat) → Reader Json
  | 0, _ => none
  | fuel + 1, cs =>
    match cs with
    | '[' :: rest => (readItems? fuel rest).map fun (items, rest) => (.array items, rest)
    | '\x7b' :: rest =>
      (readPairs? fuel [] rest).map fun (entries, rest) => (.object (entriesJson entries), rest)
    | '"' :: _ | '\'' :: _ => (readText? cs).map fun (s, rest) => (.text s, rest)
    | _ => readScalar? cs

/-- The items of a list up to its closing bracket. A comma may stand behind the last one. -/
def readItems? : (fuel : Nat) → Reader (List Json)
  | 0, _ => none
  | fuel + 1, cs =>
    match skipLines cs.length cs with
    | ']' :: rest => some ([], rest)
    | cs =>
      match readValue? fuel cs with
      | none => none
      | some (item, rest) =>
        match skipLines rest.length rest with
        | ',' :: rest => (readItems? fuel rest).map fun (items, rest) => (item :: items, rest)
        | ']' :: rest => some ([item], rest)
        | _ => none

/-- The keys and values of a table in braces, up to the closing brace. -/
def readPairs? : (fuel : Nat) → Entries → Reader Entries
  | 0, _, _ => none
  | fuel + 1, entries, cs =>
    match skipLines cs.length cs with
    | '\x7d' :: rest => some (entries, rest)
    | cs =>
      match readKey? cs with
      | some (key, '=' :: rest) =>
        match readValue? fuel (skipBlanks rest) with
        | none => none
        | some (value, rest) =>
          match define value key entries with
          | none => none
          | some entries =>
            match skipLines rest.length rest with
            | ',' :: rest => readPairs? fuel entries rest
            | '\x7d' :: rest => some (entries, rest)
            | _ => none
      | _ => none

end

/-- A document that has been read up to some place. -/
structure Draft where
  root : Entries := []
  /-- The names that lead to the table that keys are put into. -/
  current : List String := []
  deriving Inhabited

/-- The header that names give, as a change of the table it stands in. -/
def Draft.open? (d : Draft) (names : List String)
    (change : String → Entries → Option Entries) : Option Draft := do
  let root ← within (change (← names.getLast?)) names.dropLast d.root
  return ⟨root, names⟩

/-- One line without the comment and the line break at its end. -/
def readStatement? (d : Draft) (cs : List Char) : Option (Draft × List Char) :=
  match cs with
  | '[' :: '[' :: rest =>
    match readKey? rest with
    | some (names, ']' :: ']' :: rest) => (d.open? names openElement).map (·, rest)
    | _ => none
  | '[' :: rest =>
    match readKey? rest with
    | some (names, ']' :: rest) => (d.open? names openTable).map (·, rest)
    | _ => none
  | _ =>
    match readKey? cs with
    | some (key, '=' :: rest) =>
      match readValue? (2 * rest.length + 2) (skipBlanks rest) with
      | some (value, rest) =>
        (within (define value key) d.current d.root).map fun root => (⟨root, d.current⟩, rest)
      | none => none
    | _ => none

/-- The rest of a document. -/
def readStatements? : (fuel : Nat) → Draft → List Char → Option Draft
  | 0, _, _ => none
  | fuel + 1, d, cs =>
    match skipLines (cs.length + 1) cs with
    | [] => some d
    | cs =>
      match readStatement? d cs with
      | none => none
      | some (d, rest) =>
        match skipComment (skipBlanks rest) with
        | [] => some d
        | rest =>
          match lineBreak? rest with
          | some rest => readStatements? fuel d rest
          | none => none

/-- The root table of a document. -/
def parse? (source : List Char) : Option Json :=
  (readStatements? (source.length + 1) {} source).map fun d => .object (entriesJson d.root)

end SiteHost.Toml
