import SiteHost.Artifact

/-!
# What is stored is read back

A unit in stored form is read back as it was, provided that its lines and columns have 32 bits, and
else not at all:

* `Position.fits`, `Expr.fits`, `SourceUnit.fits` — whether lines and columns have 32 bits.

Principal results:

* `exprOf?_toJson`, `methodOf?_toJson`, `classOf?_toJson` — the parts of a unit;
* `ofJson?_toJson` — units;
* `loadPrebuilt_eq_ok_iff` — stored modules are linked as one batch of all their units.
-/

namespace SiteHost

/-! ## What can be stored -/

/-- Whether a line and a column have 32 bits. -/
def Position.fits (p : Position) : Bool :=
  decide (p.line ≤ Text.uint32Max) && decide (p.column ≤ Text.uint32Max)

namespace Script

mutual

/-- Whether the places in an expression have 32 bits. -/
def Expr.fits : Expr → Bool
  | .text _ | .int _ => true
  | .path _ position => position.fits
  | .call _ args position => Expr.listFits args && position.fits
  | .concat left right => left.fits && right.fits

/-- Whether the places in several expressions have 32 bits. -/
def Expr.listFits : List Expr → Bool
  | [] => true
  | e :: rest => e.fits && Expr.listFits rest

end

/-- Whether the places in a statement have 32 bits. -/
def Stmt.fits : Stmt → Bool
  | .expr e => e.fits
  | .leave => true

/-- Whether the places in a method have 32 bits. -/
def Method.fits (m : Method) : Bool := m.body.all Stmt.fits && m.position.fits

/-- Whether the places in a class have 32 bits. -/
def ClassDecl.fits (c : ClassDecl) : Bool :=
  c.constructor?.all Method.fits && c.methods.all Method.fits && c.position.fits

/-- Whether the places in a unit have 32 bits. -/
def SourceUnit.fits (u : SourceUnit) : Bool := u.classes.all ClassDecl.fits

/-! ## Lists and places -/

/-- Items that are read back one by one are read back together. -/
theorem mapM_guard {α : Type} {write : α → Json} {read : Json → Option α} {p : α → Bool}
    (h : ∀ a, read (write a) = Option.guard p a) (items : List α) :
    (items.map write).mapM read = Option.guard (·.all p) items := by
  induction items with
  | nil => rfl
  | cons a rest ih =>
    rw [List.map_cons, List.mapM_cons, ih, h]
    simp only [Option.guard, List.all_cons]
    by_cases ha : p a = true <;> by_cases hrest : rest.all p = true <;> simp [ha, hrest]

theorem each?_guard {α : Type} {write : α → Json} {read : Json → Option α} {p : α → Bool}
    (h : ∀ a, read (write a) = Option.guard p a) (items : List α) :
    each? read (.array (items.map write)) = Option.guard (·.all p) items :=
  mapM_guard h items

theorem texts?_textsJson (names : List String) : (textsJson names).texts? = some names := by
  have hread : ∀ name : String, (Json.text name).text? = Option.guard (fun _ => true) name :=
    fun _ => rfl
  refine (each?_guard hread names).trans ?_
  simp [Option.guard]

theorem placeOf?_members (p : Position) :
    placeOf? (.int p.line) (.int p.column) = Option.guard Position.fits p := by
  simp only [placeOf?, Json.nat?, Position.fits, Option.guard]
  by_cases hline : p.line ≤ Text.uint32Max <;>
    by_cases hcolumn : p.column ≤ Text.uint32Max <;> simp [hline, hcolumn]

theorem int64?_toInt (value : Int64) : (Json.int value.toInt).int64? = some value := by
  rw [Json.int64?, if_pos ⟨value.minValue_le_toInt, value.toInt_le⟩, Int64.ofInt_toInt]

/-! ## Expressions -/

theorem exprOf?_of_concat {j left right : Json} (htag : exprTag? j = some "concat")
    (hfields : taggedFields? ["left", "right"] j = some [left, right]) :
    exprOf? j = (exprOf? left).bind fun l => (exprOf? right).bind fun r => some (.concat l r) := by
  rw [exprOf?]
  simp only [htag]
  split
  · rename_i heq
    rw [hfields] at heq
    cases heq
    rfl
  · rename_i hnone
    exact absurd hfields (hnone left right)

theorem exprOf?_of_call {j target line column : Json} {items : List Json}
    (htag : exprTag? j = some "call")
    (hfields : taggedFields? ["target", "args", "line", "column"] j =
      some [target, .array items, line, column]) :
    exprOf? j = target.texts?.bind fun names => (items.mapM exprOf?).bind fun args =>
      (placeOf? line column).bind fun p => some (.call names args p) := by
  rw [exprOf?]
  simp only [htag]
  split
  · rename_i heq
    rw [hfields] at heq
    cases heq
    simp
  · rename_i hnone
    exact absurd hfields (hnone target items line column)

mutual

/-- **An expression is read back as it was**, if its places fit. -/
theorem exprOf?_toJson : ∀ e : Expr, exprOf? e.toJson = Option.guard Expr.fits e
  | .text value => by
    rw [Expr.toJson, exprOf?]
    simp [exprTag?, tagOf?, taggedFields?, Json.field?, Json.text?, Option.guard, Expr.fits]
  | .int value => by
    rw [Expr.toJson, exprOf?]
    simp [exprTag?, tagOf?, taggedFields?, Json.field?, int64?_toInt, Option.guard, Expr.fits]
  | .path segments p => by
    rw [Expr.toJson, exprOf?]
    by_cases hp : p.fits = true <;>
      simp [exprTag?, tagOf?, taggedFields?, Json.field?, placeMembers, texts?_textsJson,
        placeOf?_members, Option.guard, Expr.fits, hp]
  | .call target args p => by
    have htag : exprTag? (Expr.call target args p).toJson = some "call" := by
      simp [Expr.toJson, exprTag?, tagOf?, Json.field?, placeMembers]
    have hfields : taggedFields? ["target", "args", "line", "column"]
        (Expr.call target args p).toJson = some [textsJson target, .array (Expr.listToJson args),
          .int p.line, .int p.column] := by
      simp [Expr.toJson, taggedFields?, Json.field?, placeMembers]
    rw [exprOf?_of_call htag hfields, texts?_textsJson, mapM_listToJson args, placeOf?_members]
    by_cases hargs : Expr.listFits args = true <;> by_cases hp : p.fits = true <;>
      simp [Option.guard, Expr.fits, hargs, hp]
  | .concat left right => by
    have htag : exprTag? (Expr.concat left right).toJson = some "concat" := by
      simp [Expr.toJson, exprTag?, tagOf?, Json.field?]
    have hfields : taggedFields? ["left", "right"] (Expr.concat left right).toJson =
        some [left.toJson, right.toJson] := by
      simp [Expr.toJson, taggedFields?, Json.field?]
    rw [exprOf?_of_concat htag hfields, exprOf?_toJson left, exprOf?_toJson right]
    by_cases hleft : left.fits = true <;> by_cases hright : right.fits = true <;>
      simp [Option.guard, Expr.fits, hleft, hright]

theorem mapM_listToJson :
    ∀ es : List Expr, (Expr.listToJson es).mapM exprOf? = Option.guard Expr.listFits es
  | [] => rfl
  | e :: rest => by
    rw [Expr.listToJson, List.mapM_cons, exprOf?_toJson e, mapM_listToJson rest]
    by_cases he : e.fits = true <;> by_cases hrest : Expr.listFits rest = true <;>
      simp [Option.guard, Expr.listFits, he, hrest]

end

/-! ## Statements, methods, classes and units -/

theorem stmtOf?_toJson (stmt : Stmt) : stmtOf? stmt.toJson = Option.guard Stmt.fits stmt := by
  cases stmt with
  | leave => simp [Stmt.toJson, stmtOf?, tagOf?, Json.field?, Option.guard, Stmt.fits]
  | expr e =>
    by_cases he : e.fits = true <;>
      simp [Stmt.toJson, stmtOf?, tagOf?, taggedFields?, Json.field?, exprOf?_toJson, Option.guard,
        Stmt.fits, he]

theorem visibilityOf?_word (v : Visibility) : visibilityOf? (.text v.word) = some v := by
  cases v <;> rfl

theorem methodOf?_toJson (m : Method) : methodOf? m.toJson = Option.guard Method.fits m := by
  have hbody := each?_guard stmtOf?_toJson m.body
  have hplace := placeOf?_members m.position
  by_cases hb : m.body.all Stmt.fits = true <;> by_cases hp : m.position.fits = true <;>
    simp [Method.toJson, methodOf?, placeMembers, record?, Json.field?, Json.text?, hbody, hplace,
      texts?_textsJson, visibilityOf?_word, Option.guard, Method.fits, hb, hp]

/-- What may be missing is read back, if what is there is. -/
theorem optional?_optionJson {α : Type} {write : α → Json} {read : Json → Option α} {p : α → Bool}
    (h : ∀ a, read (write a) = Option.guard p a) (hnull : ∀ a, write a ≠ .null) (a? : Option α) :
    optional? read (some (optionJson write a?)) = Option.guard (·.all p) a? := by
  cases a? with
  | none => rfl
  | some a =>
    have hsome : optional? read (some (write a)) = (read (write a)).map some := by
      unfold optional?
      split
      · rename_i heq
        cases heq
      · rename_i heq
        exact absurd (Option.some.inj heq) (hnull a)
      · rename_i heq
        rw [Option.some.inj heq]
    rw [optionJson, hsome, h]
    by_cases ha : p a = true <;> simp [Option.guard, ha]

theorem classOf?_toJson (c : ClassDecl) : classOf? c.toJson = Option.guard ClassDecl.fits c := by
  have htext : ∀ name : String, (Json.text name).text? = Option.guard (fun _ => true) name :=
    fun _ => rfl
  have hbase := optional?_optionJson htext (fun _ h => by cases h) c.base
  have hconstructor := optional?_optionJson methodOf?_toJson (fun _ h => by cases h) c.constructor?
  have hmethods := each?_guard methodOf?_toJson c.methods
  have hplace := placeOf?_members c.position
  have hall : c.base.all (fun _ => true) = true := by cases c.base <;> rfl
  by_cases hc : c.constructor?.all Method.fits = true <;>
    by_cases hm : c.methods.all Method.fits = true <;> by_cases hp : c.position.fits = true <;>
    simp [ClassDecl.toJson, classOf?, placeMembers, record?, Json.field?, Json.text?, hbase,
      hconstructor, hmethods, hplace, Option.guard, ClassDecl.fits, hall, hc, hm, hp]

/-- **A unit is read back as it was**, if its places fit. -/
theorem ofJson?_toJson (u : SourceUnit) :
    SourceUnit.ofJson? u.toJson = Option.guard SourceUnit.fits u := by
  have hclasses := each?_guard classOf?_toJson u.classes
  by_cases hc : u.classes.all ClassDecl.fits = true <;>
    simp [SourceUnit.toJson, SourceUnit.ofJson?, record?, Json.field?, Json.text?, hclasses,
      texts?_textsJson, Option.guard, SourceUnit.fits, hc]

end Script

/-! ## Modules -/

open Script

theorem unitsOf?_exportUnits (m : Module) :
    unitsOf? (exportUnits m) = Option.guard (·.all SourceUnit.fits) m.units :=
  each?_guard ofJson?_toJson m.units

/-- Stored modules are read back, if the places in all of them fit. -/
theorem storedUnits_eq (explain : Json → String) (modules : List Module) (index : Nat)
    (h : ∀ m ∈ modules, ∀ u ∈ m.units, u.fits = true) :
    storedUnits explain index (modules.map exportUnits) = ([], modules.flatMap Module.units) := by
  induction modules generalizing index with
  | nil => rfl
  | cons m rest ih =>
    obtain ⟨hm, hrest⟩ := List.forall_mem_cons.1 h
    have hall : m.units.all SourceUnit.fits = true := List.all_eq_true.2 hm
    simp only [List.map_cons, storedUnits, ih (index + 1) hrest, unitsOf?_exportUnits, Option.guard,
      hall, if_true, List.flatMap_cons]

/-- If any place does not fit, its module is not read back. -/
theorem storedUnits_ne_nil (explain : Json → String) {modules : List Module} (index : Nat) {m : Module}
    (hm : m ∈ modules) (h : ¬ ∀ u ∈ m.units, u.fits = true) :
    (storedUnits explain index (modules.map exportUnits)).1 ≠ [] := by
  induction modules generalizing index with
  | nil => cases hm
  | cons first rest ih =>
    rw [List.map_cons]
    unfold storedUnits
    dsimp only
    rcases List.mem_cons.1 hm with rfl | hm
    · have hnone : unitsOf? (exportUnits m) = none := by
        rw [unitsOf?_exportUnits, Option.guard, if_neg]
        rwa [List.all_eq_true]
      rw [hnone]
      exact List.cons_ne_nil _ _
    · split
      · exact ih (index + 1) hm
      · exact List.cons_ne_nil _ _

/-- **Stored modules are linked as one batch of all their units**, if the places in them fit. -/
theorem loadPrebuilt_eq_ok_iff {explain : Json → String} {modules : List Module} {m : Module} :
    loadPrebuilt (modules.map exportUnits) explain = .ok m ↔
      (∀ k ∈ modules, ∀ u ∈ k.units, u.fits = true) ∧
        link (modules.flatMap Module.units) [] = .ok m := by
  unfold loadPrebuilt
  by_cases hfit : ∀ k ∈ modules, ∀ u ∈ k.units, u.fits = true
  · rw [storedUnits_eq explain modules 0 hfit]
    exact ⟨fun h => ⟨hfit, h⟩, fun h => h.2⟩
  · refine ⟨fun h => ?_, fun h => absurd h.1 hfit⟩
    obtain ⟨k, hk, hunfit⟩ : ∃ k ∈ modules, ¬ ∀ u ∈ k.units, u.fits = true := by
      simpa using hfit
    have hne := storedUnits_ne_nil explain 0 hk hunfit
    dsimp only at h
    rw [if_pos (by simpa using hne)] at h
    cases h

end SiteHost
