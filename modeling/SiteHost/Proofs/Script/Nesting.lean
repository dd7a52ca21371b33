import SiteHost.Proofs.Json.Reread
import SiteHost.Proofs.Script.Stored

/-!
# How deeply stored code nests

The stored form of a module is as deep as the expressions in it are, which the parser does not bound:

* `Expr.nesting` — how many containers the stored form of an expression consists of on its deepest way;
* `SourceUnit.isShallow` — whether no expression of a unit goes deeper than a limit, which is one more in
  constructors.

Principal results:

* `nesting_exportUnits_le_iff` — how deep a stored module is;
* `isWhole_exportUnits` — its numbers are whole ones of 64 bits.
-/

namespace SiteHost

open Json (nestingItems_map_le_iff areWholeItems_map_iff)

namespace Script

/-! ## Expressions -/

mutual

/-- How many containers the stored form of an expression consists of on its deepest way. -/
def Expr.nesting : Expr → Nat
  | .text _ | .int _ => 1
  | .path .. => 2
  | .call _ args _ => 2 + Expr.listNesting args
  | .concat left right => 1 + max left.nesting right.nesting

/-- The same of the deepest of several expressions. -/
def Expr.listNesting : List Expr → Nat
  | [] => 0
  | e :: rest => max e.nesting (Expr.listNesting rest)

end

/-- Texts stand in one container. -/
theorem nesting_textsJson (names : List String) : (textsJson names).nesting = 1 := by
  have hitems : Json.nestingItems (names.map .text) ≤ 0 :=
    nestingItems_map_le_iff.2 fun _ _ => Nat.le_refl 0
  rw [textsJson, Json.nesting]
  omega

mutual

/-- The stored form of an expression is as deep as the expression. -/
theorem nesting_toJson : ∀ e : Expr, e.toJson.nesting = e.nesting
  | .text _ | .int _ => rfl
  | .path segments p => by
    simp [Expr.toJson, Json.nesting, Json.nestingMembers, nesting_textsJson, placeMembers, Expr.nesting]
  | .call target args p => by
    have hargs := nestingItems_listToJson args
    simp only [Expr.toJson, Json.nesting, Json.nestingMembers, nesting_textsJson, placeMembers,
      Expr.nesting, hargs, List.cons_append, List.nil_append]
    omega
  | .concat left right => by
    have hleft := nesting_toJson left
    have hright := nesting_toJson right
    simp [Expr.toJson, Json.nesting, Json.nestingMembers, Expr.nesting, hleft, hright]

theorem nestingItems_listToJson : ∀ args : List Expr,
    Json.nestingItems (Expr.listToJson args) = Expr.listNesting args
  | [] => rfl
  | e :: args => by
    rw [Expr.listToJson, Json.nestingItems, nesting_toJson e, nestingItems_listToJson args,
      Expr.listNesting]

end

/-! ## Units -/

/-- Whether no expression of a method goes deeper than a limit. -/
def Method.isShallow (limit : Nat) (m : Method) : Bool :=
  m.body.all fun
    | .expr e => decide (e.nesting ≤ limit)
    | .leave => true

/-- Whether no expression of a class goes deeper than a limit, which is one more in its constructor. -/
def ClassDecl.isShallow (limit : Nat) (c : ClassDecl) : Bool :=
  c.constructor?.all (Method.isShallow (limit + 1)) && c.methods.all (Method.isShallow limit)

/-- Whether no expression of a unit goes deeper than a limit, which is one more in constructors. -/
def SourceUnit.isShallow (limit : Nat) (u : SourceUnit) : Bool :=
  u.classes.all (ClassDecl.isShallow limit)

variable {limit : Nat}

theorem nesting_method_le_iff (m : Method) :
    m.toJson.nesting ≤ 3 + limit ↔ m.isShallow limit = true := by
  have hbody : Json.nestingItems (m.body.map Stmt.toJson) ≤ 1 + limit ↔ m.isShallow limit = true := by
    rw [nestingItems_map_le_iff, Method.isShallow, List.all_eq_true]
    refine forall₂_congr fun s _ => ?_
    cases s with
    | expr e =>
      simp only [Stmt.toJson, Json.nesting, Json.nestingMembers, nesting_toJson, decide_eq_true_eq]
      omega
    | leave => simp [Stmt.toJson, Json.nesting, Json.nestingMembers]
  rw [← hbody]
  simp only [Method.toJson, placeMembers, List.cons_append, List.nil_append, Json.nesting,
    Json.nestingMembers, nesting_textsJson]
  omega

theorem nesting_class_le_iff (c : ClassDecl) :
    c.toJson.nesting ≤ 5 + limit ↔ c.isShallow limit = true := by
  have hmethods : Json.nestingItems (c.methods.map Method.toJson) ≤ 3 + limit ↔
      c.methods.all (Method.isShallow limit) = true := by
    rw [nestingItems_map_le_iff, List.all_eq_true]
    exact forall₂_congr fun m _ => nesting_method_le_iff m
  have hconstructor : (optionJson Method.toJson c.constructor?).nesting ≤ 4 + limit ↔
      c.constructor?.all (Method.isShallow (limit + 1)) = true := by
    cases c.constructor? with
    | none => simp [optionJson, Json.nesting]
    | some m =>
      rw [optionJson, Option.all_some, ← nesting_method_le_iff]
      omega
  have hbase : (optionJson Json.text c.base).nesting = 0 := by cases c.base <;> rfl
  rw [ClassDecl.isShallow, Bool.and_eq_true, ← hmethods, ← hconstructor]
  simp only [ClassDecl.toJson, placeMembers, List.cons_append, List.nil_append, Json.nesting,
    Json.nestingMembers, hbase]
  omega

theorem nesting_unit_le_iff (u : SourceUnit) :
    u.toJson.nesting ≤ 7 + limit ↔ u.isShallow limit = true := by
  have hclasses : Json.nestingItems (u.classes.map ClassDecl.toJson) ≤ 5 + limit ↔
      u.isShallow limit = true := by
    rw [nestingItems_map_le_iff, SourceUnit.isShallow, List.all_eq_true]
    exact forall₂_congr fun c _ => nesting_class_le_iff c
  rw [← hclasses]
  simp only [SourceUnit.toJson, Json.nesting, Json.nestingMembers, nesting_textsJson]
  omega

end Script

open Script

/-- **A stored module goes no deeper than its expressions do**, with eight containers around each in a
method. -/
theorem nesting_exportUnits_le_iff {limit : Nat} (m : Module) :
    (exportUnits m).nesting ≤ 8 + limit ↔ ∀ u ∈ m.units, u.isShallow limit = true := by
  have hunits : Json.nestingItems (m.units.map SourceUnit.toJson) ≤ 7 + limit ↔
      ∀ u ∈ m.units, u.isShallow limit = true := by
    rw [nestingItems_map_le_iff]
    exact forall₂_congr fun u _ => nesting_unit_le_iff u
  rw [← hunits, exportUnits, Json.nesting]
  omega

/-! ## Numbers -/

namespace Script

theorem isWhole_nat {n : Nat} (h : n ≤ Text.uint32Max) : (Json.int n).isWhole = true := by
  have hlarge : Text.uint32Max ≤ Text.uint64Max := by decide
  simp only [Json.isWhole, Bool.and_eq_true, decide_eq_true_eq]
  omega

theorem isWhole_int64 (value : Int64) : (Json.int value.toInt).isWhole = true := by
  have hmin : Int64.minValue.toInt = -(Text.int64Max + 1 : Int) := by decide
  have hmax : Int64.maxValue.toInt = Text.int64Max := by decide
  have hlarge : Text.int64Max ≤ Text.uint64Max := by decide
  have hlow := value.minValue_le_toInt
  have hhigh := value.toInt_le
  simp only [Json.isWhole, Bool.and_eq_true, decide_eq_true_eq]
  omega

theorem isWhole_textsJson (names : List String) : (textsJson names).isWhole = true :=
  areWholeItems_map_iff.2 fun _ _ => rfl

theorem areWholeMembers_place {p : Position} (h : p.fits = true) :
    Json.areWholeMembers (placeMembers p) = true := by
  simp only [Position.fits, Bool.and_eq_true, decide_eq_true_eq] at h
  simp [placeMembers, Json.areWholeMembers, isWhole_nat h.1, isWhole_nat h.2]

mutual

theorem isWhole_toJson : ∀ e : Expr, e.fits = true → e.toJson.isWhole = true
  | .text _, _ => rfl
  | .int value, _ => by
    rw [Expr.toJson, Json.isWhole, Json.areWholeMembers, Json.areWholeMembers, isWhole_int64]
    rfl
  | .path segments p, h => by
    have hplace := areWholeMembers_place (show p.fits = true from h)
    simp [Expr.toJson, Json.isWhole, Json.areWholeMembers, isWhole_textsJson, hplace]
  | .call target args p, h => by
    obtain ⟨hargs, hp⟩ := Bool.and_eq_true_iff.1 h
    have hitems := areWholeItems_listToJson args hargs
    have hplace := areWholeMembers_place hp
    simp [Expr.toJson, Json.isWhole, Json.areWholeMembers, isWhole_textsJson, hitems, hplace]
  | .concat left right, h => by
    obtain ⟨hleft, hright⟩ := Bool.and_eq_true_iff.1 h
    simp [Expr.toJson, Json.isWhole, Json.areWholeMembers, isWhole_toJson left hleft,
      isWhole_toJson right hright]

theorem areWholeItems_listToJson : ∀ args : List Expr, Expr.listFits args = true →
    Json.areWholeItems (Expr.listToJson args) = true
  | [], _ => rfl
  | e :: args, h => by
    obtain ⟨he, hargs⟩ := Bool.and_eq_true_iff.1 h
    simp [Expr.listToJson, Json.areWholeItems, isWhole_toJson e he, areWholeItems_listToJson args hargs]

end

theorem isWhole_stmt {s : Stmt} (h : s.fits = true) : s.toJson.isWhole = true := by
  cases s with
  | expr e => simp [Stmt.toJson, Json.isWhole, Json.areWholeMembers, isWhole_toJson e h]
  | leave => rfl

theorem isWhole_method {m : Method} (h : m.fits = true) : m.toJson.isWhole = true := by
  obtain ⟨hbody, hp⟩ := Bool.and_eq_true_iff.1 h
  have hstmts : Json.areWholeItems (m.body.map Stmt.toJson) = true :=
    areWholeItems_map_iff.2 fun s hs => isWhole_stmt (List.all_eq_true.1 hbody s hs)
  have hplace := areWholeMembers_place hp
  simp [Method.toJson, Json.isWhole, Json.areWholeMembers, isWhole_textsJson, hstmts, hplace]

theorem isWhole_class {c : ClassDecl} (h : c.fits = true) : c.toJson.isWhole = true := by
  simp only [ClassDecl.fits, Bool.and_eq_true] at h
  obtain ⟨⟨hconstructor, hmethods⟩, hp⟩ := h
  have hbase : (optionJson Json.text c.base).isWhole = true := by cases c.base <;> rfl
  have hconstructor : (optionJson Method.toJson c.constructor?).isWhole = true := by
    cases hc : c.constructor? with
    | none => rfl
    | some m =>
      rw [hc] at hconstructor
      exact isWhole_method hconstructor
  have hmethods : Json.areWholeItems (c.methods.map Method.toJson) = true :=
    areWholeItems_map_iff.2 fun m hm => isWhole_method (List.all_eq_true.1 hmethods m hm)
  have hplace := areWholeMembers_place hp
  simp [ClassDecl.toJson, Json.isWhole, Json.areWholeMembers, hbase, hconstructor, hmethods, hplace]

theorem isWhole_unit {u : SourceUnit} (h : u.fits = true) : u.toJson.isWhole = true := by
  have hclasses : Json.areWholeItems (u.classes.map ClassDecl.toJson) = true :=
    areWholeItems_map_iff.2 fun c hc => isWhole_class (List.all_eq_true.1 h c hc)
  simp [SourceUnit.toJson, Json.isWhole, Json.areWholeMembers, isWhole_textsJson, hclasses]

end Script

/-- **The numbers in a stored module are whole ones of 64 bits**, if its places can be stored. -/
theorem isWhole_exportUnits {m : Module} (h : ∀ u ∈ m.units, u.fits = true) :
    (exportUnits m).isWhole = true :=
  areWholeItems_map_iff.2 fun u hu => isWhole_unit (h u hu)

end SiteHost
