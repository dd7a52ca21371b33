import SiteHost.Proofs.Script.Declared
import SiteHost.Proofs.Script.Rendered

/-!
# Units that can be written

Not every syntax tree has a text: its names have to be names, and so on. What it takes is said of the tree,
and every unit that is read from a text has it:

* `Expr.Printable`, `Stmt.Printable`, `Method.Printable`, `ClassDecl.Printable`, `SourceUnit.Printable`.

Principal results:

* `IsExpr.writable_iff`, `AreStmts.writable_iff` — expressions and bodies can be written if and only if the
  tokens that they stand in can;
* `AreItems.printable` — so can the items that stand in tokens that can be written;
* `printable_of_parse` — every unit of a text can be written.
-/

namespace SiteHost.Script

open SiteHost.Config (isName isDottedName)
open SiteHost.Script.Parser

/-! ## What can be written -/

/-- At least one name, and nothing but names. -/
def AreNames (names : List String) : Prop := names ≠ [] ∧ ∀ w ∈ names, isName w.toList = true

mutual

/-- Whether an expression can be written: its names are names and its numbers have no sign. -/
def Expr.Printable : Expr → Prop
  | .text _ => True
  | .int value => 0 ≤ value.toInt
  | .path segments _ => AreNames segments
  | .call target args _ => AreNames target ∧ Expr.ListPrintable args
  | .concat left right => left.Printable ∧ right.Printable

/-- The same of several expressions. -/
def Expr.ListPrintable : List Expr → Prop
  | [] => True
  | e :: rest => e.Printable ∧ Expr.ListPrintable rest

end

/-- Whether a statement can be written. -/
def Stmt.Printable : Stmt → Prop
  | .expr e => e.Printable
  | .leave => True

/-- What it takes to write a method. -/
structure Method.Printable (m : Method) : Prop where
  name : isName m.name.toList = true
  params : ∀ w ∈ m.params, isName w.toList = true
  body : ∀ stmt ∈ m.body, stmt.Printable

/-- What it takes to write a class: its full name is a name inside its namespace, and this name is that of its
constructor, and no modifier, if it has a constructor. -/
structure ClassDecl.Printable (c : ClassDecl) : Prop where
  scope : c.scope = "" ∨ isDottedName c.scope = true
  short : isName (shortName c.name).toList = true
  name : c.name = qualify c.scope (shortName c.name)
  base : ∀ b, c.base = some b → isDottedName b = true
  constructor? : ∀ m, c.constructor? = some m →
    m.Printable ∧ m.name = shortName c.name ∧ m.name ∉ memberModifiers
  methods : ∀ m ∈ c.methods, m.Printable

/-- What it takes to write a unit: no name is used twice. -/
structure SourceUnit.Printable (u : SourceUnit) : Prop where
  nodup : u.uses.Nodup
  uses : ∀ name ∈ u.uses, isDottedName name = true
  classes : ∀ c ∈ u.classes, c.Printable

/-! ## Tokens that can be written -/

/-- Whether all of several tokens can be written. -/
def AllWritable (kinds : List TokenKind) : Prop := ∀ kind ∈ kinds, Writable kind

variable {used used' : List TokenKind} {kind : TokenKind} {scope className : String}

@[simp] theorem allWritable_nil : AllWritable [] := nofun

@[simp] theorem allWritable_cons : AllWritable (kind :: used) ↔ Writable kind ∧ AllWritable used :=
  List.forall_mem_cons

@[simp] theorem allWritable_append : AllWritable (used ++ used') ↔ AllWritable used ∧ AllWritable used' :=
  List.forall_mem_append

theorem allWritable_wordTokens {words : List String} :
    AllWritable (wordTokens words) ↔ ∀ w ∈ words, isName w.toList = true := List.forall_mem_map

theorem allWritable_nameTokens {names : List String} :
    AllWritable (nameTokens names) ↔ ∀ w ∈ names, isName w.toList = true := by
  cases names with
  | nil => simp [nameTokens]
  | cons first rest =>
    rw [nameTokens, allWritable_cons, List.forall_mem_cons, AllWritable, List.forall_mem_flatMap]
    refine and_congr_right fun _ => forall₂_congr fun w _ => ?_
    simp [Writable]

theorem allWritable_dotted {v : String} :
    AllWritable (nameTokens (Text.pieces '.' v)) ↔ isDottedName v = true := by
  rw [allWritable_nameTokens, isDottedName_iff]

/-! ## Expressions and bodies -/

theorem areNames_cons {first : String} {rest : List String} :
    AreNames (first :: rest) ↔ AllWritable (nameTokens (first :: rest)) := by
  rw [allWritable_nameTokens, AreNames]
  exact and_iff_right (List.cons_ne_nil first rest)

mutual

/-- **A term can be written if and only if its tokens can.** -/
theorem IsTerm.writable_iff : ∀ {used : List TokenKind} {e : Expr}, IsTerm used e →
    (AllWritable used ↔ e.Printable)
  | _, _, .text value => by simp [Writable, Expr.Printable]
  | _, _, .number value => by simp [Writable, Expr.Printable]
  | _, _, .parens he => by simpa [Writable] using IsExpr.writable_iff he
  | _, _, .path first rest position => by rw [Expr.Printable, areNames_cons]
  | _, _, .call first rest position => by
    rw [Expr.Printable, areNames_cons]
    simp [Writable, Expr.ListPrintable]
  | _, _, .callWith first rest position hargs => by
    rw [Expr.Printable, areNames_cons, ← AreArguments.writable_iff hargs]
    simp [Writable]

theorem IsSum.writable_iff : ∀ {left e : Expr} {used : List TokenKind}, IsSum left used e →
    (left.Printable ∧ AllWritable used ↔ e.Printable)
  | _, _, _, .done => by simp
  | _, _, _, .plus hright he => by
    rw [← IsSum.writable_iff he, Expr.Printable, ← IsTerm.writable_iff hright]
    simp [Writable, and_assoc]

/-- **An expression can be written if and only if its tokens can.** -/
theorem IsExpr.writable_iff : ∀ {used : List TokenKind} {e : Expr}, IsExpr used e →
    (AllWritable used ↔ e.Printable)
  | _, _, .sum hfirst he => by
    rw [← IsSum.writable_iff he, ← IsTerm.writable_iff hfirst, allWritable_append]

theorem AreArguments.writable_iff : ∀ {used : List TokenKind} {es : List Expr}, AreArguments used es →
    (AllWritable used ↔ Expr.ListPrintable es)
  | _, _, .one he => by simpa [Expr.ListPrintable] using IsExpr.writable_iff he
  | _, _, .more he hrest => by
    rw [Expr.ListPrintable, ← IsExpr.writable_iff he, ← AreArguments.writable_iff hrest]
    simp [Writable]

end

/-- **Statements can be written if and only if their tokens can.** -/
theorem AreStmts.writable_iff {body : List Stmt} (h : AreStmts used body) :
    AllWritable used ↔ ∀ stmt ∈ body, stmt.Printable := by
  induction h with
  | none => simp
  | leave _ ih =>
    have hreturn : isName "return".toList = true := by decide +kernel
    rw [List.forall_mem_cons, ← ih]
    simp only [allWritable_cons, Writable, hreturn, Stmt.Printable, true_and]
  | expr he _ _ ih =>
    rw [List.forall_mem_cons, ← ih, Stmt.Printable, ← he.writable_iff]
    simp [Writable]

/-! ## Declarations -/

theorem AreParams.names {params : List String} (h : AreParams used params) (hused : AllWritable used) :
    ∀ w ∈ params, isName w.toList = true := by
  have hparam {used : List TokenKind} {param : String} (h : IsParam used param) (hused : AllWritable used) :
      isName param.toList = true := by
    cases h with
    | plain => exact hused _ List.mem_cons_self
    | typed type => exact hused (.name param) (List.mem_cons_of_mem _ List.mem_cons_self)
  induction h with
  | one h => exact List.forall_mem_singleton.2 (hparam h hused)
  | more h _ ih =>
    simp only [allWritable_append, allWritable_cons] at hused
    exact List.forall_mem_cons.2 ⟨hparam h hused.1, ih hused.2.2⟩

theorem IsBody.printable {params : List String} {body : List Stmt} (h : IsBody used params body)
    (hused : AllWritable used) :
    (∀ w ∈ params, isName w.toList = true) ∧ ∀ stmt ∈ body, stmt.Printable := by
  cases h with
  | plain hbody =>
    simp only [allWritable_append, allWritable_cons] at hused
    exact ⟨nofun, hbody.writable_iff.1 hused.2.2.2.1⟩
  | params hparams hbody =>
    simp only [allWritable_append, allWritable_cons] at hused
    exact ⟨hparams.names hused.2.1, hbody.writable_iff.1 hused.2.2.2.2.1⟩

/-- What it takes to write a member: the constructor has the name of its class, which is no modifier. -/
structure PrintableMember (className : String) (m : Method × Bool) : Prop where
  method : m.1.Printable
  constructor? : m.2 = true → m.1.name = className ∧ m.1.name ∉ memberModifiers

theorem IsMember.printable {m : Method × Bool} (h : IsMember className used m) (hused : AllWritable used) :
    PrintableMember className m := by
  cases h with
  | method name position _ hbody =>
    simp only [allWritable_append, allWritable_cons] at hused
    obtain ⟨-, -, hname, hused⟩ := hused
    obtain ⟨hparams, hstmts⟩ := hbody.printable hused
    exact ⟨⟨hname, hparams, hstmts⟩, nofun⟩
  | constructor position _ hmodifier hbody =>
    simp only [allWritable_append, allWritable_cons] at hused
    obtain ⟨-, hname, hused⟩ := hused
    obtain ⟨hparams, hstmts⟩ := hbody.printable hused
    exact ⟨⟨hname, hparams, hstmts⟩, fun _ => ⟨rfl, hmodifier⟩⟩

theorem AreMembers.printable {ms : List (Method × Bool)} (h : AreMembers className used ms)
    (hused : AllWritable used) : ∀ m ∈ ms, PrintableMember className m := by
  induction h with
  | none => exact nofun
  | more hm _ ih =>
    rw [allWritable_append] at hused
    exact List.forall_mem_cons.2 ⟨hm.printable hused.1, ih hused.2⟩

theorem mem_of_constructorOf? {ms : List (Method × Bool)} {m : Method} (h : constructorOf? ms = some m) :
    (m, true) ∈ ms := by
  obtain ⟨⟨m', isConstructor⟩, hfind, rfl⟩ := Option.map_eq_some_iff.1 h
  obtain rfl : isConstructor = true := List.find?_some hfind
  exact List.mem_of_find?_eq_some hfind

theorem isDottedName_of_isBase {base : Option String} (h : IsBase used base) (hused : AllWritable used) :
    ∀ b, base = some b → isDottedName b = true := by
  cases h with
  | none => exact nofun
  | some first rest =>
    intro b hb
    obtain rfl := Option.some.inj hb
    rw [allWritable_cons, allWritable_nameTokens] at hused
    exact isDottedName_joined (List.cons_ne_nil first rest) hused.2

/-- **A class can be written if its tokens can**, and the name of its namespace. -/
theorem IsClass.printable {decl : ClassDecl} (h : IsClass scope used decl)
    (hscope : scope = "" ∨ isDottedName scope = true) (hused : AllWritable used) : decl.Printable := by
  cases h with
  | @mk words used used' base ms name position _ hbase hms _ =>
    simp only [allWritable_append, allWritable_cons] at hused
    obtain ⟨-, -, hname, hbaseUsed, -, hmsUsed, -⟩ := hused
    have hshort : shortName (qualify scope name) = name := shortName_qualify scope hname
    have hmembers := hms.printable hmsUsed
    refine ⟨hscope, ?_, ?_, isDottedName_of_isBase hbase hbaseUsed, fun m hm => ?_, fun m hm => ?_⟩
    · rw [hshort]
      exact hname
    · rw [hshort]
    · have hmember := hmembers _ (mem_of_constructorOf? hm)
      rw [hshort]
      exact ⟨hmember.method, hmember.constructor? rfl⟩
    · obtain ⟨member, hmember, rfl⟩ := List.mem_map.1 hm
      exact (hmembers _ (List.mem_filter.1 hmember).1).method

/-- Whether an item can be written. -/
def Parser.Item.Printable : Item → Prop
  | .use name => isDottedName name = true
  | .declares decl => decl.Printable

/-- **Items can be written if their tokens can**, and the name of their namespace. -/
theorem AreItems.printable {found : List Item} (h : AreItems scope used found)
    (hscope : scope = "" ∨ isDottedName scope = true) (hused : AllWritable used) :
    ∀ item ∈ found, item.Printable := by
  induction h with
  | none => exact nofun
  | use first more _ ih =>
    simp only [allWritable_append, allWritable_cons, allWritable_nameTokens] at hused
    obtain ⟨-, hname, -, hrest⟩ := hused
    exact List.forall_mem_cons.2 ⟨isDottedName_joined (List.cons_ne_nil first more) hname, ih hscope hrest⟩
  | within first more _ _ ih ih' =>
    simp only [allWritable_append, allWritable_cons, allWritable_nameTokens] at hused
    obtain ⟨-, hname, -, hnested, -, hrest⟩ := hused
    have hinner := isDottedName_joined (List.cons_ne_nil first more) hname
    exact List.forall_mem_append.2 ⟨ih (.inr (isDottedName_qualify hscope hinner)) hnested, ih' hscope hrest⟩
  | declares hdecl _ ih =>
    rw [allWritable_append] at hused
    exact List.forall_mem_cons.2 ⟨hdecl.printable hscope hused.1, ih hscope hused.2⟩

/-! ## Units -/

theorem nodup_withoutRepeats (names : List String) : (withoutRepeats names).Nodup := by
  have hfold (seen : List String) (hseen : seen.Nodup) : (names.foldl (fun seen name =>
      if seen.contains name then seen else seen ++ [name]) seen).Nodup := by
    induction names generalizing seen with
    | nil => exact hseen
    | cons name rest ih =>
      rw [List.foldl_cons]
      split
      · exact ih seen hseen
      · rename_i hnew
        rw [List.contains_iff_mem] at hnew
        refine ih _ (List.nodup_append.2 ⟨hseen, by simp, fun a ha b hb hab => hnew ?_⟩)
        rwa [← List.mem_singleton.1 hb, ← hab]
  exact hfold [] List.nodup_nil

theorem withoutRepeats_of_nodup {names : List String} (h : names.Nodup) : withoutRepeats names = names := by
  have hfold (seen : List String) (hseen : (seen ++ names).Nodup) : names.foldl (fun seen name =>
      if seen.contains name then seen else seen ++ [name]) seen = seen ++ names := by
    clear h
    induction names generalizing seen with
    | nil => exact (List.append_nil seen).symm
    | cons first rest ih =>
      have hnew : first ∉ seen := fun hmem =>
        (List.nodup_append.1 hseen).2.2 first hmem first List.mem_cons_self rfl
      rw [List.foldl_cons, if_neg (by rwa [List.contains_iff_mem])]
      rw [List.append_cons] at hseen
      rw [ih _ hseen, List.append_assoc, List.singleton_append]
  exact hfold [] h

theorem withoutRepeats_sublist (names : List String) : (withoutRepeats names).Sublist names := by
  have hfold (seen : List String) : (names.foldl (fun seen name =>
      if seen.contains name then seen else seen ++ [name]) seen).Sublist (seen ++ names) := by
    induction names generalizing seen with
    | nil => exact (List.append_nil seen).symm ▸ .refl seen
    | cons first rest ih =>
      rw [List.foldl_cons]
      split
      · exact (ih seen).trans ((List.sublist_cons_self first rest).append_left seen)
      · have hrest := ih (seen ++ [first])
        rwa [List.append_assoc] at hrest
  exact hfold []

/-- **Every unit of a text can be written.** -/
theorem printable_of_parse {file source : String} {u : SourceUnit} (h : parse file source = .ok u) :
    u.Printable := by
  obtain ⟨s, found, hscan, hitems, rfl⟩ := areItems_of_parse h
  have hprintable := hitems.printable (.inl rfl) (writable_of_scan hscan)
  refine ⟨nodup_withoutRepeats _, fun name hname => ?_, fun c hc => ?_⟩
  · obtain ⟨item, hitem, hname⟩ := List.mem_filterMap.1 ((withoutRepeats_sublist _).mem hname)
    cases item with
    | use other =>
      cases hname
      exact hprintable _ hitem
    | declares => cases hname
  · obtain ⟨item, hitem, hc⟩ := List.mem_filterMap.1 hc
    cases item with
    | use => cases hc
    | declares decl =>
      cases hc
      exact hprintable _ hitem

end SiteHost.Script
