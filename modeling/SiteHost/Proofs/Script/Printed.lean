import SiteHost.Proofs.Script.Foundation
import SiteHost.Proofs.Script.Printable

/-!
# Units as text

A unit is printed token by token: its uses, and then its classes one by one, each in a namespace of its own.
Everything that the grammar leaves open is written in one way: a constructor stands before the methods,
parameters have no types, and a statement and the operands of `+` stand in parentheses.

* `TokenKind.gap`, `printed` — tokens as text, with gaps where words would run together and where lines end;
* `Expr.tokens`, `Stmt.tokens`, `Method.tokens`, `ClassDecl.tokens`, `SourceUnit.tokens` — what syntax is
  printed as;
* `SourceUnit.print` — the text of a unit.

Principal results:

* `lexes_printed` — tokens that can be written are read again;
* `Expr.isExpr_tokens`, `ClassDecl.isClass_tokens`, `SourceUnit.areItems_tokens` — what syntax is printed as
  stands for it by the rules;
* `parse_print` — parsing inverts printing.
-/

namespace SiteHost.Script

open SiteHost.Config (isName isDottedName)
open SiteHost.Text
open SiteHost.Script.Parser

variable {kind : TokenKind} {kinds : List TokenKind} {c : Char} {next : List Char}

/-! ## Tokens as text -/

namespace TokenKind

/-- What is printed between a token and the next one: a line ends behind a semicolon and a brace, and a blank
stands elsewhere, but not around dots, inside parentheses and before what belongs to the token. -/
def gap : TokenKind → Option TokenKind → List Char
  | .semicolon, _ | .openBrace, _ | .closeBrace, _ => ['\n']
  | .dot, _ | .openParen, _ | .name _, some .openParen => []
  | _, none | _, some .dot | _, some .comma | _, some .semicolon | _, some .closeParen => []
  | _, _ => [' ']

end TokenKind

/-- Tokens as text. -/
def printed : List TokenKind → List Char
  | [] => []
  | kind :: rest => kind.chars ++ (kind.gap rest.head? ++ printed rest)

theorem isBlank_of_mem_gap {after : Option TokenKind} (h : c ∈ kind.gap after) : isBlank c = true := by
  unfold TokenKind.gap at h
  split at h <;> simp at h <;> subst h <;> decide

/-- Every token ends before a mark. -/
theorem endsBefore_mark {mark : TokenKind} (h : TokenKind.ofMark? c = some mark) :
    kind.EndsBefore (c :: next) := by
  rw [TokenKind.ofMark?_eq_some_iff] at h
  have hplain : isNamePart c = false ∧ c.isDigit = false ∧ c ≠ '"' := by
    cases mark <;> cases h <;> decide +kernel
  cases kind with
  | name => exact fun d hd => Option.some.inj hd ▸ hplain.1
  | number => exact fun d hd => Option.some.inj hd ▸ hplain.2.1
  | text => exact fun hquote => hplain.2.2 (Option.some.inj hquote)
  | _ => exact trivial

theorem endsBefore_blank (h : isBlank c = true) : kind.EndsBefore (c :: next) := by
  refine Separates.endsBefore (fun d hd => ?_) kind
  obtain rfl := Option.some.inj hd
  exact .inl h

/-- **Every token ends before its gap** and what is printed next. -/
theorem endsBefore_gap (kind : TokenKind) (rest : List TokenKind) :
    kind.EndsBefore (kind.gap rest.head? ++ printed rest) := by
  cases rest with
  | nil => cases kind <;> first | exact trivial | exact nofun
  | cons after rest =>
    cases kind with
    | name | text | number =>
      -- where no gap is left, a mark comes next
      cases after <;> first | exact endsBefore_blank (by decide) | exact endsBefore_mark rfl
    | _ => exact trivial

/-- **Printed tokens are read again.** -/
theorem lexes_printed (h : AllWritable kinds) : Lexes (printed kinds) kinds [] := by
  induction kinds with
  | nil => exact .nil
  | cons kind rest ih =>
    obtain ⟨hkind, hrest⟩ := allWritable_cons.1 h
    have hends := endsBefore_gap kind rest
    rw [← List.append_nil (_ ++ printed rest)] at hends
    exact (spells_of_writes (writes_chars hkind) hends).lexes.append
      ((lexes_blanks fun c hc => isBlank_of_mem_gap hc).append (ih hrest))

/-! ## Syntax as tokens -/

/-- Tokens in parentheses. -/
def inParens (inner : List TokenKind) : List TokenKind := .openParen :: (inner ++ [.closeParen])

mutual

/-- The tokens that an expression is printed as. -/
def Expr.tokens : Expr → List TokenKind
  | .text value => [.text value]
  | .int value => [.number value]
  | .path segments _ => nameTokens segments
  | .call target args _ => nameTokens target ++ inParens (Expr.listTokens args)
  | .concat left right => inParens left.tokens ++ .plus :: inParens right.tokens

/-- The tokens that arguments are printed as. -/
def Expr.listTokens : List Expr → List TokenKind
  | [] => []
  | [e] => e.tokens
  | e :: rest => e.tokens ++ .comma :: Expr.listTokens rest

end

/-- The tokens that a statement is printed as. -/
def Stmt.tokens : Stmt → List TokenKind
  | .expr e => inParens e.tokens ++ [.semicolon]
  | .leave => [.name "return", .semicolon]

/-- The tokens that parameters are printed as. -/
def paramTokens : List String → List TokenKind
  | [] => []
  | [param] => [.name param]
  | param :: rest => .name param :: .comma :: paramTokens rest

/-- The modifiers that a visibility is printed as. -/
def Visibility.modifiers : Visibility → List String
  | .exposed => ["public"]
  | .hidden => []

namespace Method

/-- The tokens that the name, the parameters and the body of a method are printed as. -/
def signatureTokens (m : Method) : List TokenKind :=
  .name m.name :: (inParens (paramTokens m.params) ++
    .openBrace :: (m.body.flatMap Stmt.tokens ++ [.closeBrace]))

/-- The tokens that a constructor is printed as. -/
def constructorTokens (m : Method) : List TokenKind :=
  wordTokens m.visibility.modifiers ++ m.signatureTokens

/-- The tokens that another method is printed as. -/
def tokens (m : Method) : List TokenKind :=
  wordTokens m.visibility.modifiers ++ .name "void" :: m.signatureTokens

end Method

/-- The tokens that a base is printed as. -/
def baseTokens : Option String → List TokenKind
  | none => []
  | some base => .colon :: nameTokens (pieces '.' base)

namespace ClassDecl

/-- The tokens that a class is printed as, without its namespace. -/
def ownTokens (c : ClassDecl) : List TokenKind :=
  wordTokens ["public", "class", shortName c.name] ++ baseTokens c.base ++
    .openBrace :: (c.constructor?.toList.flatMap Method.constructorTokens ++
      c.methods.flatMap Method.tokens ++ [.closeBrace])

/-- The tokens that a class is printed as. -/
def tokens (c : ClassDecl) : List TokenKind :=
  if c.scope = "" then c.ownTokens
  else .name "namespace" :: (nameTokens (pieces '.' c.scope) ++
    .openBrace :: (c.ownTokens ++ [.closeBrace]))

end ClassDecl

namespace SourceUnit

/-- The tokens that a unit is printed as. -/
def tokens (u : SourceUnit) : List TokenKind :=
  u.uses.flatMap (fun name => .name "using" :: (nameTokens (pieces '.' name) ++ [.semicolon])) ++
    u.classes.flatMap ClassDecl.tokens

/-- The text of a unit. -/
def print (u : SourceUnit) : String := String.ofList (printed u.tokens)

end SourceUnit

/-! ## What is printed stands by the rules -/

theorem IsTerm.isExpr {used : List TokenKind} {e : Expr} (h : IsTerm used e) : IsExpr used e := by
  have hexpr := IsExpr.sum h .done
  rwa [List.append_nil] at hexpr

mutual

/-- **What an expression is printed as is that expression.** -/
theorem Expr.isExpr_tokens : ∀ e : Expr, e.Printable → IsExpr e.tokens e
  | .text value, _ => (IsTerm.text value).isExpr
  | .int value, _ => (IsTerm.number value).isExpr
  | .path [] _, h => absurd rfl h.1
  | .path (first :: rest) position, _ => (IsTerm.path first rest position).isExpr
  | .call [] _ _, h => absurd rfl h.1.1
  | .call (first :: rest) [] position, _ => (IsTerm.call first rest position).isExpr
  | .call (first :: rest) (e :: more) position, h =>
    (IsTerm.callWith first rest position
      (Expr.areArguments_tokens (e :: more) h.2 (List.cons_ne_nil e more))).isExpr
  | .concat left right, h =>
    .sum (.parens (Expr.isExpr_tokens left h.1)) (List.append_nil (inParens right.tokens) ▸
      .plus (.parens (Expr.isExpr_tokens right h.2)) .done)

theorem Expr.areArguments_tokens : ∀ es : List Expr, Expr.ListPrintable es → es ≠ [] →
    AreArguments (Expr.listTokens es) es
  | [], _, hne => absurd rfl hne
  | [e], h, _ => .one (Expr.isExpr_tokens e h.1)
  | e :: e' :: rest, h, _ =>
    .more (Expr.isExpr_tokens e h.1) (Expr.areArguments_tokens (e' :: rest) h.2 (List.cons_ne_nil e' rest))

end

theorem areStmts_tokens {body : List Stmt} (h : ∀ stmt ∈ body, stmt.Printable) :
    AreStmts (body.flatMap Stmt.tokens) body := by
  induction body with
  | nil => exact .none
  | cons stmt rest ih =>
    obtain ⟨hstmt, hrest⟩ := List.forall_mem_cons.1 h
    cases stmt with
    | leave => exact .leave (ih hrest)
    | expr e =>
      have hterm := (IsTerm.parens (e.isExpr_tokens hstmt)).isExpr
      rw [List.flatMap_cons, Stmt.tokens, List.append_assoc]
      exact .expr hterm nofun (ih hrest)

theorem areParams_tokens (params : List String) (hne : params ≠ []) :
    AreParams (paramTokens params) params := by
  induction params with
  | nil => exact absurd rfl hne
  | cons param rest ih =>
    cases rest with
    | nil => exact .one (.plain param)
    | cons => exact .more (.plain param) (ih (List.cons_ne_nil _ _))

theorem Method.isBody_tokens {m : Method} (h : m.Printable) :
    ∃ used, m.signatureTokens = .name m.name :: used ∧ IsBody used m.params m.body := by
  have hbody := areStmts_tokens h.body
  refine ⟨_, rfl, ?_⟩
  by_cases hparams : m.params = []
  · rw [hparams]
    exact .plain hbody
  · rw [inParens, List.cons_append, List.append_assoc]
    exact .params (areParams_tokens m.params hparams) hbody

theorem visibilityOf_modifiers (v : Visibility) : visibilityOf v.modifiers = v := by
  cases v <;> rfl

theorem mem_memberModifiers_of_mem_modifiers (v : Visibility) : ∀ w ∈ v.modifiers, w ∈ memberModifiers := by
  cases v <;> decide

theorem Method.isMember_tokens {m : Method} (h : m.Printable) (className : String) :
    IsMember className m.tokens (m, false) := by
  obtain ⟨used, hused, hbody⟩ := m.isBody_tokens h
  have hmember : IsMember className
      (wordTokens m.visibility.modifiers ++ .name "void" :: .name m.name :: used)
      (⟨m.name, visibilityOf m.visibility.modifiers, m.params, m.body, m.position⟩, false) :=
    .method m.name m.position (mem_memberModifiers_of_mem_modifiers m.visibility) hbody
  rw [visibilityOf_modifiers] at hmember
  rw [Method.tokens, hused]
  exact hmember

theorem Method.isMember_constructorTokens {m : Method} (h : m.Printable) (hname : m.name ∉ memberModifiers) :
    IsMember m.name m.constructorTokens (m, true) := by
  obtain ⟨used, hused, hbody⟩ := m.isBody_tokens h
  have hmember := IsMember.constructor m.position
    (mem_memberModifiers_of_mem_modifiers m.visibility) hname hbody
  rw [visibilityOf_modifiers] at hmember
  rw [Method.constructorTokens, hused]
  exact hmember

/-- The members of a class in the order in which they are printed. -/
def ClassDecl.members (c : ClassDecl) : List (Method × Bool) :=
  c.constructor?.toList.map (·, true) ++ c.methods.map (·, false)

/-- The constructor and the methods of a class are told apart in the list of its members. -/
theorem ClassDecl.members_spec (c : ClassDecl) : constructorOf? c.members = c.constructor? ∧
    methodsOf c.members = c.methods ∧ (c.members.filter Prod.snd).length ≤ 1 := by
  have hnone : (c.methods.map (·, false)).filter Prod.snd = [] :=
    List.filter_eq_nil_iff.2 (List.forall_mem_map.2 fun _ _ => Bool.false_ne_true)
  have hall : (c.methods.map (·, false)).filter (fun m => !m.2) = c.methods.map (·, false) :=
    List.filter_eq_self.2 (List.forall_mem_map.2 fun _ _ => rfl)
  have hmethods : methodsOf (c.methods.map (·, false)) = c.methods := by
    rw [methodsOf, hall, List.map_map]
    exact List.map_id _
  unfold members
  cases c.constructor? with
  | none =>
    refine ⟨?_, hmethods, Nat.le_succ_of_le (Nat.le_of_eq (congrArg List.length hnone))⟩
    rw [constructorOf?, ← List.head?_filter]
    exact congrArg (fun ms => (List.head? ms).map Prod.fst) hnone
  | some m => exact ⟨rfl, hmethods, Nat.le_of_eq (congrArg (fun ms => List.length ms + 1) hnone)⟩

theorem ClassDecl.areMembers_tokens {c : ClassDecl} (h : c.Printable) :
    AreMembers (shortName c.name) (c.constructor?.toList.flatMap Method.constructorTokens ++
      c.methods.flatMap Method.tokens) c.members := by
  have hmethods : AreMembers (shortName c.name) (c.methods.flatMap Method.tokens)
      (c.methods.map (·, false)) := by
    have hall := h.methods
    generalize c.methods = ms at hall
    induction ms with
    | nil => exact .none
    | cons m rest ih =>
      obtain ⟨hm, hrest⟩ := List.forall_mem_cons.1 hall
      exact .more (m.isMember_tokens hm _) (ih hrest)
  unfold members
  cases hconstructor : c.constructor? with
  | none => exact hmethods
  | some m =>
    obtain ⟨hm, hname, hmodifier⟩ := h.constructor? m hconstructor
    have hmember := m.isMember_constructorTokens hm hmodifier
    rw [hname] at hmember
    rw [Option.toList_some, List.flatMap_singleton]
    exact .more hmember hmethods

theorem isBase_tokens (base : Option String) : IsBase (baseTokens base) base := by
  cases base with
  | none => exact .none
  | some b =>
    obtain ⟨first, rest, hpieces, hjoined⟩ := exists_pieces b
    rw [baseTokens, hpieces, ← hjoined]
    exact .some first rest

/-- **What a class is printed as is that class.** -/
theorem ClassDecl.isClass_tokens {c : ClassDecl} (h : c.Printable) : IsClass c.scope c.ownTokens c := by
  obtain ⟨hconstructor, hmethods, hone⟩ := c.members_spec
  have hpublic : ∀ w ∈ ["public"], w ∈ classModifiers := by decide
  have hclass : IsClass c.scope c.ownTokens ⟨qualify c.scope (shortName c.name), c.scope, c.base,
      constructorOf? c.members, methodsOf c.members, c.position⟩ :=
    .mk (shortName c.name) c.position hpublic (isBase_tokens c.base) (ClassDecl.areMembers_tokens h) hone
  rw [← h.name, hconstructor, hmethods] at hclass
  exact hclass

/-- A class is printed with its namespace. -/
theorem ClassDecl.areItems_tokens {c : ClassDecl} (h : c.Printable) {used : List TokenKind}
    {rest : List Item} (hrest : AreItems "" used rest) :
    AreItems "" (c.tokens ++ used) (.declares c :: rest) := by
  have hclass := c.isClass_tokens h
  unfold ClassDecl.tokens
  split
  · rename_i hscope
    rw [hscope] at hclass
    exact .declares hclass hrest
  · obtain ⟨first, more, hpieces, hjoined⟩ := exists_pieces c.scope
    -- the namespace stands in no other, so that its name is the one that is written
    have hnested : AreItems (qualify "" (joined "." (first :: more))) (c.ownTokens ++ []) [.declares c] := by
      rw [hjoined]
      exact .declares hclass .none
    rw [List.append_nil] at hnested
    have hitems := AreItems.within first more hnested hrest
    simpa only [hpieces, List.cons_append, List.append_assoc, List.nil_append] using hitems

namespace SourceUnit

/-- The items of a unit in the order in which they are printed. -/
def items (u : SourceUnit) : List Item := u.uses.map .use ++ u.classes.map .declares

theorem ofItems_items {u : SourceUnit} (h : u.Printable) : SourceUnit.ofItems u.file u.items = u := by
  have hnone {α β : Type} (l : List α) : l.filterMap (fun _ => (none : Option β)) = [] :=
    List.filterMap_eq_nil_iff.2 fun _ _ => rfl
  rw [SourceUnit.ofItems, items, List.filterMap_append, List.filterMap_append, List.filterMap_map,
    List.filterMap_map, List.filterMap_map, List.filterMap_map]
  show (⟨u.file, withoutRepeats (u.uses.filterMap some ++ u.classes.filterMap fun _ => none),
    (u.uses.filterMap fun _ => none) ++ u.classes.filterMap some⟩ : SourceUnit) = u
  rw [List.filterMap_some, List.filterMap_some, hnone, hnone, List.append_nil, List.nil_append,
    withoutRepeats_of_nodup h.nodup]

/-- **What a unit is printed as is that unit.** -/
theorem areItems_tokens {u : SourceUnit} (h : u.Printable) : AreItems "" u.tokens u.items := by
  have hclasses : AreItems "" (u.classes.flatMap ClassDecl.tokens) (u.classes.map .declares) := by
    have hall := h.classes
    generalize u.classes = classes at hall
    induction classes with
    | nil => exact .none
    | cons c rest ih =>
      obtain ⟨hc, hrest⟩ := List.forall_mem_cons.1 hall
      exact ClassDecl.areItems_tokens hc (ih hrest)
  unfold tokens items
  induction u.uses with
  | nil => exact hclasses
  | cons name rest ih =>
    obtain ⟨first, more, hpieces, hjoined⟩ := exists_pieces name
    have hitems := AreItems.use first more ih
    rw [hjoined, ← hpieces] at hitems
    simpa using hitems

end SourceUnit

/-! ## What is printed can be written -/

theorem allWritable_flatMap {α : Type} {l : List α} {f : α → List TokenKind} :
    AllWritable (l.flatMap f) ↔ ∀ a ∈ l, AllWritable (f a) := List.forall_mem_flatMap

theorem allWritable_paramTokens {params : List String} (h : ∀ w ∈ params, isName w.toList = true) :
    AllWritable (paramTokens params) := by
  induction params with
  | nil => exact allWritable_nil
  | cons param rest ih =>
    obtain ⟨hparam, hrest⟩ := List.forall_mem_cons.1 h
    cases rest with
    | nil => exact allWritable_cons.2 ⟨hparam, allWritable_nil⟩
    | cons => exact allWritable_cons.2 ⟨hparam, allWritable_cons.2 ⟨trivial, ih hrest⟩⟩

/-- The words that are printed for themselves are names. -/
theorem isName_of_keyword : ∀ w ∈ ["using", "namespace", "public", "class", "void"],
    isName w.toList = true := by
  decide +kernel

namespace Method

variable {m : Method}

theorem writable_signatureTokens (h : m.Printable) : AllWritable m.signatureTokens := by
  have hbody := (areStmts_tokens h.body).writable_iff.2 h.body
  have hparams := allWritable_paramTokens h.params
  simp [signatureTokens, inParens, Writable, h.name, hparams, hbody]

theorem writable_modifiers (v : Visibility) : AllWritable (wordTokens v.modifiers) := by
  cases v with
  | exposed => exact allWritable_cons.2 ⟨isName_of_keyword _ (by decide), allWritable_nil⟩
  | hidden => exact allWritable_nil

theorem writable_constructorTokens (h : m.Printable) : AllWritable m.constructorTokens :=
  allWritable_append.2 ⟨writable_modifiers m.visibility, m.writable_signatureTokens h⟩

theorem writable_tokens (h : m.Printable) : AllWritable m.tokens :=
  allWritable_append.2 ⟨writable_modifiers m.visibility,
    allWritable_cons.2 ⟨isName_of_keyword _ (by decide), m.writable_signatureTokens h⟩⟩

end Method

theorem writable_baseTokens {base : Option String} (h : ∀ b, base = some b → isDottedName b = true) :
    AllWritable (baseTokens base) := by
  cases base with
  | none => exact allWritable_nil
  | some b => exact allWritable_cons.2 ⟨trivial, allWritable_dotted.2 (h b rfl)⟩

namespace ClassDecl

variable {c : ClassDecl}

theorem writable_ownTokens (h : c.Printable) : AllWritable c.ownTokens := by
  have hhead : AllWritable (wordTokens ["public", "class", shortName c.name]) := by
    refine allWritable_wordTokens.2 (List.forall_mem_cons.2 ⟨isName_of_keyword _ (by decide), ?_⟩)
    exact List.forall_mem_cons.2 ⟨isName_of_keyword _ (by decide), List.forall_mem_singleton.2 h.short⟩
  have hconstructor : AllWritable (c.constructor?.toList.flatMap Method.constructorTokens) :=
    allWritable_flatMap.2 fun m hm =>
      m.writable_constructorTokens (h.constructor? m (Option.mem_toList.1 hm)).1
  have hmethods : AllWritable (c.methods.flatMap Method.tokens) :=
    allWritable_flatMap.2 fun m hm => m.writable_tokens (h.methods m hm)
  simp [ownTokens, Writable, hhead, writable_baseTokens h.base, hconstructor, hmethods]

theorem writable_tokens (h : c.Printable) : AllWritable c.tokens := by
  have hown := c.writable_ownTokens h
  unfold tokens
  split
  · exact hown
  · rename_i hscope
    have hdotted := allWritable_dotted.2 (h.scope.resolve_left hscope)
    simp only [allWritable_cons, allWritable_append, allWritable_nil, and_true]
    exact ⟨isName_of_keyword _ (by decide), hdotted, trivial, hown, trivial⟩

end ClassDecl

theorem SourceUnit.writable_tokens {u : SourceUnit} (h : u.Printable) : AllWritable u.tokens := by
  refine allWritable_append.2 ⟨allWritable_flatMap.2 fun name hname => ?_, ?_⟩
  · simp only [allWritable_cons, allWritable_append, allWritable_nil, and_true]
    exact ⟨isName_of_keyword _ (by decide), allWritable_dotted.2 (h.uses name hname), trivial⟩
  · exact allWritable_flatMap.2 fun c hc => c.writable_tokens (h.classes c hc)

/-! ## Parsing inverts printing -/

/-- A unit that can be written is read again from its text. -/
theorem exists_parse_print {u : SourceUnit} (h : u.Printable) :
    ∃ u', parse u.file u.print = .ok u' ∧ u'.unplaced = u.unplaced := by
  obtain ⟨s, hscan, hkinds⟩ := scan_of_lexes (lexes_printed (SourceUnit.writable_tokens h))
  have hitems : AreItems "" s.kinds u.items := by
    rw [TokenStream.kinds, hkinds]
    exact SourceUnit.areItems_tokens h
  obtain ⟨found, hfound, hsame⟩ := itemsOf_eq_ok hitems
  refine ⟨.ofItems u.file found, parse_eq_ok hscan hfound, ?_⟩
  rw [← SourceUnit.ofItems_unplaced, hsame, SourceUnit.ofItems_unplaced, SourceUnit.ofItems_items h]

/-- **Parsing inverts printing.** A unit that can be written is read again from its text, up to places; every
unit that is read from a text can be written, and so is the same as what is read from its text. -/
theorem parse_print :
    (∀ u : SourceUnit, u.Printable → ∃ u', parse u.file u.print = .ok u' ∧ u'.unplaced = u.unplaced) ∧
    ∀ (file source : String) (u : SourceUnit), parse file source = .ok u →
      u.Printable ∧ ∃ u', parse file u.print = .ok u' ∧ u'.unplaced = u.unplaced := by
  refine ⟨fun u h => exists_parse_print h, fun file source u h => ?_⟩
  have hfile : u.file = file := by
    obtain ⟨s, found, -, -, rfl⟩ := areItems_of_parse h
    rfl
  have hprintable := printable_of_parse h
  exact ⟨hprintable, hfile ▸ exists_parse_print hprintable⟩

/-- A unit whose one class has a word of the grammar for its name, and so has its constructor. -/
def voidUnit : SourceUnit :=
  ⟨"void.ks", ["A.B"], [⟨"N.M.void", "N.M", some "Base",
    some ⟨"void", .hidden, ["x"], [.leave], .start⟩,
    [⟨"new", .exposed, [], [.expr (.concat (.int 1) (.path ["x"] .start))], .start⟩], .start⟩]⟩

example : voidUnit.print = "using A.B;
namespace N.M \x7b
public class void : Base \x7b
void(x) \x7b
return;
\x7d
public void new() \x7b
((1) + (x));
\x7d
\x7d
\x7d
" := by cbv

/-- The unit can be written, and the base library is one that was read from a text. -/
theorem parse_print_library :
    (voidUnit.Printable ∧
      ∃ u', parse voidUnit.file voidUnit.print = .ok u' ∧ u'.unplaced = voidUnit.unplaced) ∧
    parse foundationSource.path foundationSource.text = .ok libraryUnit ∧ libraryUnit.Printable ∧
      ∃ u', parse foundationSource.path libraryUnit.print = .ok u' ∧ u'.unplaced = libraryUnit.unplaced := by
  have hnames : ∀ w ∈ ["void", "new", "x"], isName w.toList = true := by decide +kernel
  have hconstructor : Method.Printable ⟨"void", .hidden, ["x"], [.leave], .start⟩ :=
    ⟨hnames _ (by decide), List.forall_mem_singleton.2 (hnames _ (by decide)),
      List.forall_mem_singleton.2 trivial⟩
  have hmethod : Method.Printable
      ⟨"new", .exposed, [], [.expr (.concat (.int 1) (.path ["x"] .start))], .start⟩ :=
    ⟨hnames _ (by decide), nofun, List.forall_mem_singleton.2
      ⟨(by decide : (0 : Int) ≤ 1), List.cons_ne_nil _ _, List.forall_mem_singleton.2 (hnames _ (by decide))⟩⟩
  have hvoid : voidUnit.Printable := by
    refine ⟨by decide, List.forall_mem_singleton.2 (by decide +kernel), List.forall_mem_singleton.2 ?_⟩
    refine ⟨.inr (by decide +kernel), by decide +kernel, by decide +kernel, fun b hb => ?_, fun m hm => ?_,
      List.forall_mem_singleton.2 hmethod⟩
    · obtain rfl := Option.some.inj hb
      decide +kernel
    · obtain rfl := Option.some.inj hm
      exact ⟨hconstructor, by decide +kernel, by decide⟩
  exact ⟨⟨hvoid, parse_print.1 voidUnit hvoid⟩, parse_library, parse_print.2 _ _ _ parse_library⟩

end SiteHost.Script
