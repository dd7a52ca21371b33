import SiteHost.Json.Value
import SiteHost.Script.Syntax
import SiteHost.Text.Numeral

/-!
# Units as data

The stored form of syntax trees, in which a parsed unit can be kept and loaded again:

* `SourceUnit.toJson`, `SourceUnit.ofJson?` — a unit and its stored form;
* `exprOf?`, `stmtOf?`, `methodOf?`, `classOf?` — the parts of a unit.

A record may be given as an object, in which members of other names are passed over, or as the list
of its values. Line and column have 32 bits, integers 64.
-/

namespace SiteHost.Script

open SiteHost.Text (uint32Max)

/-- The values of a record's members, in the order of `names`. A member that is missing from an
object has no value; a list has to give them all. -/
def record? (names : List String) : Json → Option (List (Option Json))
  | .object members => some (names.map fun name => (Json.object members).field? name)
  | .array items => if items.length = names.length then some (items.map some) else none
  | _ => none

/-- The tag of a tagged record: the member `tag` of an object, the first item of a list. -/
def tagOf? (tag : String) : Json → Option Json
  | .object members => (Json.object members).field? tag
  | .array (first :: _) => some first
  | _ => none

/-- The values beside the tag, in the order of `names`, if all are there. -/
def taggedFields? (names : List String) : Json → Option (List Json)
  | .object members => names.mapM fun name => (Json.object members).field? name
  | .array (_ :: rest) => if rest.length = names.length then some rest else none
  | _ => none

theorem sizeOf_field? {name : String} {members : List (String × Json)} {v : Json}
    (h : (Json.object members).field? name = some v) : sizeOf v < sizeOf (Json.object members) := by
  simp only [Json.field?, Option.map_eq_some_iff] at h
  obtain ⟨m, hm, rfl⟩ := h
  have hmem : m ∈ members := by simpa using List.mem_of_find?_eq_some hm
  have := List.sizeOf_lt_of_mem hmem
  obtain ⟨k, v⟩ := m
  simp only [Prod.mk.sizeOf_spec, Json.object.sizeOf_spec] at *
  omega

theorem mem_mapM_field? {members : List (String × Json)} {names : List String} {vs : List Json}
    (h : (names.mapM fun name => (Json.object members).field? name) = some vs) {v : Json}
    (hv : v ∈ vs) : ∃ name, (Json.object members).field? name = some v := by
  induction names generalizing vs with
  | nil => simp at h; subst h; cases hv
  | cons name names ih =>
    simp only [List.mapM_cons, Option.bind_eq_bind, Option.bind_eq_some_iff, Option.pure_def,
      Option.some.injEq] at h
    obtain ⟨w, hw, ws, hws, rfl⟩ := h
    rcases List.mem_cons.1 hv with rfl | hv
    · exact ⟨name, hw⟩
    · exact ih hws hv

theorem sizeOf_taggedFields? {names : List String} {j v : Json} {vs : List Json}
    (h : taggedFields? names j = some vs) (hv : v ∈ vs) : sizeOf v < sizeOf j := by
  unfold taggedFields? at h
  split at h
  · obtain ⟨name, hn⟩ := mem_mapM_field? h hv
    exact sizeOf_field? hn
  · split at h
    · cases h
      have := List.sizeOf_lt_of_mem hv
      simp only [Json.array.sizeOf_spec, List.cons.sizeOf_spec]
      omega
    · cases h
  · cases h

/-- The kinds of expression, in the order of their numbers. -/
def exprTags : List String := ["str", "int", "path", "call", "concat"]

/-- The kind of an expression, which is given by its name or its number. -/
def exprTag? (j : Json) : Option String :=
  match tagOf? "expr" j with
  | some (.text name) => some name
  | some (.int n) => if n < 0 then none else exprTags[n.toNat]?
  | _ => none

/-- The place given by a line and a column. -/
def placeOf? (line column : Json) : Option Position := do
  return ⟨← line.nat? uint32Max, ← column.nat? uint32Max⟩

/-- An expression from its stored form. -/
def exprOf? (j : Json) : Option Expr :=
  match exprTag? j with
  | some "str" =>
    match taggedFields? ["value"] j with
    | some [v] => v.text?.map .text
    | _ => none
  | some "int" =>
    match taggedFields? ["value"] j with
    | some [v] => v.int64?.map .int
    | _ => none
  | some "path" =>
    match taggedFields? ["segments", "line", "column"] j with
    | some [s, l, c] => do return .path (← s.texts?) (← placeOf? l c)
    | _ => none
  | some "call" =>
    match _h : taggedFields? ["target", "args", "line", "column"] j with
    | some [t, .array items, l, c] => do
      let target ← t.texts?
      let args ← items.attach.mapM fun ⟨x, _hx⟩ => exprOf? x
      return .call target args (← placeOf? l c)
    | _ => none
  | some "concat" =>
    match _h : taggedFields? ["left", "right"] j with
    | some [l, r] => do return .concat (← exprOf? l) (← exprOf? r)
    | _ => none
  | _ => none
termination_by sizeOf j
decreasing_by
  · have := sizeOf_taggedFields? _h (v := .array items) (by simp)
    have := List.sizeOf_lt_of_mem _hx
    simp only [Json.array.sizeOf_spec] at *
    omega
  · exact sizeOf_taggedFields? _h (by simp)
  · exact sizeOf_taggedFields? _h (by simp)

/-- A statement from its stored form. Beside `return` an object may hold anything. -/
def stmtOf? (j : Json) : Option Stmt :=
  match tagOf? "stmt" j, j with
  | some (.text "return"), .object _ => some .leave
  | some (.text "return"), .array [_] => some .leave
  | some (.text "expr"), _ =>
    match taggedFields? ["expr"] j with
    | some [e] => (exprOf? e).map .expr
    | _ => none
  | _, _ => none

/-- The word for a visibility. -/
def Visibility.word : Visibility → String
  | .exposed => "public"
  | .hidden => "private"

/-- The visibility of a word. -/
def Visibility.ofWord? : String → Option Visibility
  | "public" => some .exposed
  | "private" => some .hidden
  | _ => none

/-- A visibility from its stored form: its word, or an object with nothing under its word. -/
def visibilityOf? : Json → Option Visibility
  | .text word => Visibility.ofWord? word
  | .object [(word, .null)] => Visibility.ofWord? word
  | _ => none

/-- A value that may be left out or null. -/
def optional? {α : Type} (read : Json → Option α) : Option Json → Option (Option α)
  | none | some .null => some none
  | some j => (read j).map some

/-- Every item of an array. -/
def each? {α : Type} (read : Json → Option α) (j : Json) : Option (List α) := do
  (← j.items?).mapM read

/-- A method from its stored form. -/
def methodOf? (j : Json) : Option Method := do
  match ← record? ["name", "visibility", "params", "body", "line", "column"] j with
  | [some name, some visibility, some params, some body, some line, some column] =>
    return ⟨← name.text?, ← visibilityOf? visibility, ← params.texts?, ← each? stmtOf? body,
      ← placeOf? line column⟩
  | _ => none

/-- A class from its stored form. -/
def classOf? (j : Json) : Option ClassDecl := do
  match ← record? ["name", "namespace", "base", "constructor", "methods", "line", "column"] j with
  | [some name, some scope, base, constructor?, some methods, some line, some column] =>
    return ⟨← name.text?, ← scope.text?, ← optional? Json.text? base,
      ← optional? methodOf? constructor?, ← each? methodOf? methods, ← placeOf? line column⟩
  | _ => none

/-- A unit from its stored form. -/
def SourceUnit.ofJson? (j : Json) : Option SourceUnit := do
  match ← record? ["file", "usings", "classes"] j with
  | [some file, some uses, some classes] =>
    return ⟨← file.text?, ← uses.texts?, ← each? classOf? classes⟩
  | _ => none

/-- The units of a stored module. -/
def unitsOf? (j : Json) : Option (List SourceUnit) := each? SourceUnit.ofJson? j

/-- Texts as an array. -/
def textsJson (names : List String) : Json := .array (names.map .text)

/-- A line and a column as members. -/
def placeMembers (p : Position) : List (String × Json) :=
  [("line", .int p.line), ("column", .int p.column)]

mutual

/-- The stored form of an expression. -/
def Expr.toJson : Expr → Json
  | .text value => .object [("expr", .text "str"), ("value", .text value)]
  | .int value => .object [("expr", .text "int"), ("value", .int value.toInt)]
  | .path segments p =>
    .object ([("expr", .text "path"), ("segments", textsJson segments)] ++ placeMembers p)
  | .call target args p =>
    .object ([("expr", .text "call"), ("target", textsJson target),
      ("args", .array (Expr.listToJson args))] ++ placeMembers p)
  | .concat left right =>
    .object [("expr", .text "concat"), ("left", left.toJson), ("right", right.toJson)]

/-- The stored forms of expressions. -/
def Expr.listToJson : List Expr → List Json
  | [] => []
  | e :: rest => e.toJson :: Expr.listToJson rest

end

/-- The stored form of a statement. -/
def Stmt.toJson : Stmt → Json
  | .expr e => .object [("stmt", .text "expr"), ("expr", e.toJson)]
  | .leave => .object [("stmt", .text "return")]

/-- The stored form of a method. -/
def Method.toJson (m : Method) : Json :=
  .object ([("name", .text m.name), ("visibility", .text m.visibility.word),
    ("params", textsJson m.params), ("body", .array (m.body.map Stmt.toJson))] ++
    placeMembers m.position)

/-- The stored form of a value that may be missing. -/
def optionJson {α : Type} (write : α → Json) : Option α → Json
  | some a => write a
  | none => .null

/-- The stored form of a class. -/
def ClassDecl.toJson (c : ClassDecl) : Json :=
  .object ([("name", .text c.name), ("namespace", .text c.scope),
    ("base", optionJson .text c.base), ("constructor", optionJson Method.toJson c.constructor?),
    ("methods", .array (c.methods.map Method.toJson))] ++ placeMembers c.position)

/-- The stored form of a unit. -/
def SourceUnit.toJson (u : SourceUnit) : Json :=
  .object [("file", .text u.file), ("usings", textsJson u.uses),
    ("classes", .array (u.classes.map ClassDecl.toJson))]

end SiteHost.Script
