/-!
# Cutting and joining text

* `cut` — a character list cut at every separator; the pieces are one more than the separators;
* `pieces`, `joined` — the same on `String`, and its inverse;
* `cutFirst?`, `cutLast?` — the two sides of the first or last separator; `splitFirst?` and
  `splitLast?` are the same on `String`;
* `substitute` — every occurrence of one character replaced by text;
* `stripEnd?`, `stripStart?` — text without a given ending or beginning.
-/

namespace SiteHost.Text

/-- The pieces between the separators, in order. Never the empty list. -/
def cut (sep : Char) : List Char → List (List Char)
  | [] => [[]]
  | c :: rest =>
    if c = sep then [] :: cut sep rest
    else match cut sep rest with
      | piece :: more => (c :: piece) :: more
      | [] => [[c]]

theorem cut_ne_nil (sep : Char) (cs : List Char) : cut sep cs ≠ [] := by
  cases cs with
  | nil => simp [cut]
  | cons c rest =>
    simp only [cut]
    split
    · simp
    · split <;> simp

/-- The pieces of a text between its separators. -/
def pieces (sep : Char) (s : String) : List String := (cut sep s.toList).map String.ofList

/-- Texts with a separator between each two. -/
def joined (sep : String) (parts : List String) : String := sep.intercalate parts

/-- What stands before and after the first separator. -/
def cutFirst? (sep : Char) (cs : List Char) : Option (List Char × List Char) :=
  match cs.dropWhile (· ≠ sep) with
  | [] => none
  | _ :: after => some (cs.takeWhile (· ≠ sep), after)

/-- What stands before and after the last separator. -/
def cutLast? (sep : Char) (cs : List Char) : Option (List Char × List Char) :=
  (cutFirst? sep cs.reverse).map fun (after, before) => (before.reverse, after.reverse)

/-- What stands before and after the first separator of a text. -/
def splitFirst? (sep : Char) (s : String) : Option (String × String) :=
  (cutFirst? sep s.toList).map fun (before, after) => (.ofList before, .ofList after)

/-- What stands before and after the last separator of a text. -/
def splitLast? (sep : Char) (s : String) : Option (String × String) :=
  (cutLast? sep s.toList).map fun (before, after) => (.ofList before, .ofList after)

/-- Text with every `c` replaced by other characters. -/
def substitute (c : Char) (other : List Char) (s : String) : String :=
  String.ofList (s.toList.flatMap fun d => if d = c then other else [d])

/-- Characters without the given ending. -/
def stripEnd? (ending cs : List Char) : Option (List Char) :=
  if ending.isSuffixOf cs then some (cs.take (cs.length - ending.length)) else none

/-- Characters without the given beginning. -/
def stripStart? (beginning cs : List Char) : Option (List Char) :=
  if beginning.isPrefixOf cs then some (cs.drop beginning.length) else none

end SiteHost.Text
