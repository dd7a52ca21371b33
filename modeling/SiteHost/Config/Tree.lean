import SiteHost.Json.Value
import SiteHost.Text.Numeral
import SiteHost.Text.Pieces

/-!
# Trees of configured values

Every source of configuration is a table, kept as the object of a `Json` value. Sources are laid one
over another:

* `overlay` — tables are merged name by name, any other value replaces what was there;
* `Route.parse?` — the way to a part of a tree, written `name.name[index]`;
* `alter` — changes the part at the end of a way and makes what is missing on it;
* `lay` — one table laid over a tree. Its outermost names are read as ways.
-/

namespace SiteHost.Config

/-- The members of a table; of any other value none. -/
def membersOf (tree : Json) : List (String × Json) := tree.members?.getD []

/-- The items of a list; of any other value none. -/
def itemsOf (tree : Json) : List Json := tree.items?.getD []

/-- The value of a name, null if there is none. -/
def valueOf (members : List (String × Json)) (name : String) : Json :=
  (members.lookup name).getD .null

/-- Gives a name a value, in the place of the one it has. -/
def put (name : String) (value : Json) : List (String × Json) → List (String × Json)
  | [] => [(name, value)]
  | (other, old) :: rest =>
    if other = name then (name, value) :: rest else (other, old) :: put name value rest

mutual

/-- A value laid over an older one. -/
def overlay (old : Json) : Json → Json
  | .object members => .object (overlayMembers (membersOf old) members)
  | value => value

/-- Members laid over older ones. Of two members with one name the last counts. -/
def overlayMembers (old : List (String × Json)) :
    List (String × Json) → List (String × Json)
  | [] => old
  | (name, value) :: rest =>
    if rest.any fun m => m.1 == name then overlayMembers old rest
    else overlayMembers (put name (overlay (valueOf old name) value) old) rest

end

/-- One step from a value to a part of it. -/
inductive Step where
  | name (text : String)
  /-- A place in a list, counted from its end if negative. -/
  | index (place : Int)
  deriving Repr, DecidableEq, Inhabited

/-- The way from the root of a tree to a part of it. -/
abbrev Route := List Step

namespace Route

/-- A character that a name in a route may have. -/
def isNameChar (c : Char) : Bool := c.isAlphanum || c == '_' || c == '-'

/-- A place in a list, with blanks around it. -/
def readPlace? (cs : List Char) : Option Int :=
  let isSpace (c : Char) : Bool := c == ' ' || c == '\t'
  let trimmed := ((cs.dropWhile isSpace).reverse.dropWhile isSpace).reverse
  if trimmed.head? = some '+' then none else Text.readInt64? (String.ofList trimmed)

/-- A place in brackets, without the closing one. -/
def readBracket? : List Char → Option Step
  | '[' :: inner => (readPlace? inner).map .index
  | _ => none

/-- A name and the places behind it. -/
def readPiece? (cs : List Char) : Option (List Step) :=
  let name := cs.takeWhile isNameChar
  let places := Text.cut ']' (cs.dropWhile isNameChar)
  if name.isEmpty || places.getLast? != some [] then none
  else (places.dropLast.mapM readBracket?).map (.name (String.ofList name) :: ·)

/-- The route that a text spells. -/
def parse? (text : String) : Option Route :=
  ((Text.cut '.' text.toList).mapM readPiece?).map List.flatten

/-- The route that a text stands for: what it spells, or else the one name that it is. -/
def ofText (text : String) : Route := (parse? text).getD [.name text]

end Route

/-- Changes the item at a place of a list, which grows as far as is needed, at its front for a place
before its first item. -/
def alterItem (f : Json → Json) (place : Int) (items : List Json) : List Json :=
  let before := List.replicate (-place - items.length).toNat Json.null
  let n := if 0 ≤ place then place.toNat else (items.length + place).toNat
  let after := List.replicate (n + 1 - items.length) Json.null
  (before ++ items ++ if 0 ≤ place then after else []).modify n f

/-- Changes the part of a tree at the end of a route. Whatever stands in the way becomes the table or
list that the route asks for. -/
def alter (f : Json → Json) : Route → Json → Json
  | [], tree => f tree
  | .name name :: rest, tree =>
    let members := membersOf tree
    .object (put name (alter f rest (valueOf members name)) members)
  | .index place :: rest, tree => .array (alterItem (alter f rest) place (itemsOf tree))

/-- Lays a value over the part of a tree that a text leads to. -/
def layAt (tree : Json) (name : String) (value : Json) : Json :=
  alter (overlay · value) (Route.ofText name) tree

/-- Lays a table over a tree. -/
def lay (tree : Json) : List (String × Json) → Json
  | [] => tree
  | (name, value) :: rest =>
    if rest.any fun m => m.1 == name then lay tree rest else lay (layAt tree name value) rest

end SiteHost.Config
