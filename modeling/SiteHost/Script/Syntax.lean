import SiteHost.Diagnostic
import SiteHost.Text.Pieces

/-!
# The script language

A unit is one source file: names it uses and classes it declares. A class has at most one base
and one constructor; a method body is a list of statements over text and integer expressions.

Dotted names that are only looked up (namespaces, bases, uses) are kept as text. The names in an
expression are kept as their segments.
-/

namespace SiteHost.Script

/-- A value: text, a 64-bit integer, a dotted name, a call, or two values joined as text. -/
inductive Expr where
  | text (value : String)
  | int (value : Int64)
  | path (segments : List String) (position : Position)
  | call (target : List String) (args : List Expr) (position : Position)
  | concat (left right : Expr)
  deriving Repr, Inhabited

mutual

/-- Structural equality of expressions. -/
def Expr.decEq : (a b : Expr) → Decidable (a = b)
  | .text a, b => match b with
    | .text b => decidable_of_iff (a = b) (by simp)
    | .int _ | .path .. | .call .. | .concat .. => isFalse (by simp)
  | .int a, b => match b with
    | .int b => decidable_of_iff (a = b) (by simp)
    | .text _ | .path .. | .call .. | .concat .. => isFalse (by simp)
  | .path s p, b => match b with
    | .path t q => decidable_of_iff (s = t ∧ p = q) (by simp)
    | .text _ | .int _ | .call .. | .concat .. => isFalse (by simp)
  | .call s x p, b => match b with
    | .call t y q =>
      match Expr.decEqList x y with
      | isTrue h => decidable_of_iff (s = t ∧ p = q) (by simp [h])
      | isFalse h => isFalse (by simp [h])
    | .text _ | .int _ | .path .. | .concat .. => isFalse (by simp)
  | .concat l r, b => match b with
    | .concat l' r' =>
      match Expr.decEq l l', Expr.decEq r r' with
      | isTrue h, isTrue h' => isTrue (by simp [h, h'])
      | isFalse h, _ => isFalse (by simp [h])
      | _, isFalse h => isFalse (by simp [h])
    | .text _ | .int _ | .path .. | .call .. => isFalse (by simp)

/-- Structural equality of argument lists. -/
def Expr.decEqList : (a b : List Expr) → Decidable (a = b)
  | [], [] => isTrue rfl
  | [], _ :: _ | _ :: _, [] => isFalse (by simp)
  | a :: as, b :: bs =>
    match Expr.decEq a b, Expr.decEqList as bs with
    | isTrue h, isTrue h' => isTrue (by simp [h, h'])
    | isFalse h, _ => isFalse (by simp [h])
    | _, isFalse h => isFalse (by simp [h])

end

instance : DecidableEq Expr := Expr.decEq

/-- One step of a method body. -/
inductive Stmt where
  | expr (e : Expr)
  | leave
  deriving Repr, DecidableEq, Inhabited

/-- Whether a method may be called from outside as an action: `public` methods are exposed. -/
inductive Visibility where
  | exposed
  | hidden
  deriving Repr, DecidableEq, Inhabited

/-- A method or a constructor. -/
structure Method where
  name : String
  visibility : Visibility
  params : List String
  body : List Stmt
  position : Position
  deriving Repr, DecidableEq, Inhabited

/-- A class as declared: `name` is its full name and `base` its base as written. -/
structure ClassDecl where
  name : String
  scope : String
  base : Option String
  constructor? : Option Method
  methods : List Method
  position : Position
  deriving Repr, DecidableEq, Inhabited

/-- One source file. -/
structure SourceUnit where
  file : String
  uses : List String
  classes : List ClassDecl
  deriving Repr, DecidableEq, Inhabited

/-- A name inside a namespace, which may be empty. -/
def qualify (scope name : String) : String :=
  if scope = "" then name else s!"{scope}.{name}"

/-- The last segment of a dotted name. -/
def shortName (name : String) : String := ((Text.pieces '.' name).getLast?).getD name

end SiteHost.Script
