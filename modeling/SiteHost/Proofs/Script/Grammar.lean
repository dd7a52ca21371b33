import SiteHost.Proofs.Script.Steps

/-!
# The grammar

What the parser reads is given by rules over kinds of tokens, which say nothing of fuel and of what comes
next:

* `IsTerm`, `IsExpr`, `AreArguments`, `AreStmts` — the tokens of expressions and of bodies;
* `Expr.unplaced`, `Stmt.unplaced` — syntax without the places it was found at;
* `ReadsExprs` — whether so much fuel is enough for whatever is so short.

Principal results:

* `expr_gives`, `stmts_gives` — what is read stands in the tokens by the rules;
* `ReadsExprs.step`, `readsExprs`, `stmts_takes` — what stands in the tokens by the rules is read, up to
  places, if the tokens behind it do not go on with it and the fuel is about four times their number.
-/

namespace SiteHost.Script

open SiteHost.Script.Parser

/-! ## Syntax without places -/

mutual

/-- An expression without places. -/
def Expr.unplaced : Expr → Expr
  | .text value => .text value
  | .int value => .int value
  | .path segments _ => .path segments .start
  | .call target args _ => .call target (Expr.listUnplaced args) .start
  | .concat left right => .concat left.unplaced right.unplaced

/-- Expressions without places. -/
def Expr.listUnplaced : List Expr → List Expr
  | [] => []
  | e :: rest => e.unplaced :: Expr.listUnplaced rest

end

/-- A statement without places. -/
def Stmt.unplaced : Stmt → Stmt
  | .expr e => .expr e.unplaced
  | .leave => .leave

/-! ## Rules -/

/-- The tokens of a dotted name. -/
def nameTokens : List String → List TokenKind
  | [] => []
  | first :: rest => .name first :: rest.flatMap fun word => [.dot, .name word]

mutual

/-- Tokens that are a term. -/
inductive IsTerm : List TokenKind → Expr → Prop where
  | text (value : String) : IsTerm [.text value] (.text value)
  | number (value : Int64) : IsTerm [.number value] (.int value)
  | parens {used : List TokenKind} {e : Expr} : IsExpr used e →
    IsTerm (.openParen :: (used ++ [.closeParen])) e
  | path (first : String) (rest : List String) (position : Position) :
    IsTerm (nameTokens (first :: rest)) (.path (first :: rest) position)
  | call (first : String) (rest : List String) (position : Position) :
    IsTerm (nameTokens (first :: rest) ++ [.openParen, .closeParen]) (.call (first :: rest) [] position)
  | callWith (first : String) (rest : List String) (position : Position) {used : List TokenKind}
    {args : List Expr} : AreArguments used args →
    IsTerm (nameTokens (first :: rest) ++ .openParen :: (used ++ [.closeParen]))
      (.call (first :: rest) args position)

/-- Tokens that, after an expression, make another one. -/
inductive IsSum : Expr → List TokenKind → Expr → Prop where
  | done {e : Expr} : IsSum e [] e
  | plus {left right e : Expr} {used used' : List TokenKind} : IsTerm used right →
    IsSum (.concat left right) used' e → IsSum left (.plus :: (used ++ used')) e

/-- Tokens that are an expression. -/
inductive IsExpr : List TokenKind → Expr → Prop where
  | sum {first e : Expr} {used used' : List TokenKind} : IsTerm used first → IsSum first used' e →
    IsExpr (used ++ used') e

/-- Tokens that are one argument or more. -/
inductive AreArguments : List TokenKind → List Expr → Prop where
  | one {e : Expr} {used : List TokenKind} : IsExpr used e → AreArguments used [e]
  | more {e : Expr} {rest : List Expr} {used used' : List TokenKind} : IsExpr used e →
    AreArguments used' rest → AreArguments (used ++ .comma :: used') (e :: rest)

end

/-- Tokens that are statements. No expression that stands alone begins with `return`. -/
inductive AreStmts : List TokenKind → List Stmt → Prop where
  | none : AreStmts [] []
  | leave {rest : List Stmt} {used : List TokenKind} : AreStmts used rest →
    AreStmts (.name "return" :: .semicolon :: used) (.leave :: rest)
  | expr {e : Expr} {rest : List Stmt} {used used' : List TokenKind} : IsExpr used e →
    used.head? ≠ some (.name "return") → AreStmts used' rest →
    AreStmts (used ++ .semicolon :: used') (.expr e :: rest)

theorem AreStmts.append {used used' : List TokenKind} {body body' : List Stmt} (h : AreStmts used body)
    (h' : AreStmts used' body') : AreStmts (used ++ used') (body ++ body') := by
  induction h with
  | none => exact h'
  | leave _ ih => exact .leave ih
  | expr he hleave _ ih =>
    rw [List.append_assoc, List.cons_append]
    exact .expr he hleave ih

/-! ## What is read stands in the tokens -/

theorem moreSegments_gives (n : Nat) : Gives (moreSegments n) fun used rest =>
    used = rest.flatMap fun word => [.dot, .name word] := by
  induction n with
  | zero => exact .fail
  | succ n ih =>
    refine .accept (.name fun word => ?_) (.pure rfl)
    exact ih.bind fun rest used hused => .pure (by rw [List.append_nil, hused]; rfl)

theorem segments_gives (n : Nat) : Gives (segments n) fun used names =>
    ∃ first rest, names = first :: rest ∧ used = nameTokens names := by
  refine .name fun first => (moreSegments_gives n).bind fun rest used hused => .pure ?_
  exact ⟨first, rest, rfl, by rw [List.append_nil, hused]; rfl⟩

/-- One step of reading a term. Stated once, since the equation is too large to be made anew. -/
theorem term_succ (n : Nat) : term (n + 1) = (do
    match ← peek with
    | some (.text value) =>
      advance
      return .text value
    | some (.number value) =>
      advance
      return .int value
    | some .openParen =>
      advance
      let inner ← expr n
      expect .closeParen
      return inner
    | some (.name _) =>
      let p ← here
      let names ← segments n
      if ← accept .openParen then
        if ← accept .closeParen then return .call names [] p
        let args ← arguments n
        expect .closeParen
        return .call names args p
      else return .path names p
    | found => fail (.expectedExpr found)) := rfl

theorem expr_gives_all (n : Nat) : Gives (expr n) IsExpr ∧ (∀ left, Gives (sum n left) (IsSum left)) ∧
    Gives (term n) IsTerm ∧ Gives (arguments n) AreArguments := by
  induction n with
  | zero => exact ⟨.fail, fun _ => .fail, .fail, .fail⟩
  | succ n ih =>
    obtain ⟨hexpr, hsum, hterm, hargs⟩ := ih
    refine ⟨?_, fun left => ?_, ?_, ?_⟩
    · rw [expr]
      exact hterm.bind fun first used hfirst =>
        (hsum first).mono fun used' e he => .sum hfirst he
    · rw [sum]
      refine .accept ?_ (.pure .done)
      refine hterm.bind fun right used hright => (hsum _).mono fun used' e he => .plus hright he
    · rw [term_succ]
      refine .peek fun found => ?_
      rcases found with _ | kind
      · exact Gives.at .fail _
      cases kind with
      | text value => exact .advance (.pure (.text value))
      | number value => exact .advance (.pure (.number value))
      | openParen =>
        refine .advance (hexpr.bind fun e used he => .expect (.pure ?_))
        exact .parens he
      | name word =>
        refine Gives.at (.here fun position => ?_) _
        refine (segments_gives n).bind fun names used hnames => ?_
        obtain ⟨first, rest, rfl, rfl⟩ := hnames
        refine .accept (.accept (.pure ?_) ?_) (.pure ?_)
        · exact .call first rest position
        · refine hargs.bind fun args used hargs => .expect (.pure ?_)
          exact .callWith first rest position hargs
        · rw [List.append_nil]
          exact .path first rest position
      | _ => exact Gives.at .fail _
    · rw [arguments]
      refine hexpr.bind fun e used he => .accept ?_ (.pure ?_)
      · refine hargs.bind fun rest used' hrest => .pure ?_
        rw [List.append_nil]
        exact .more he hrest
      · rw [List.append_nil]
        exact .one he

theorem expr_gives (n : Nat) : Gives (expr n) IsExpr := (expr_gives_all n).1

theorem stmts_gives (n : Nat) : Gives (stmts n) AreStmts := by
  induction n with
  | zero => exact .fail
  | succ n ih =>
    rw [stmts]
    refine .peek fun found => ?_
    split
    · exact Gives.at (.pure .none) _
    · exact Gives.at .fail _
    · refine .advance (.expect (ih.bind fun rest used hrest => .pure ?_))
      rw [List.append_nil]
      exact .leave hrest
    · rename_i hclose hnone hleave
      intro s a s' hs hrun
      have hgives : Gives (do
          let e ← expr n
          expect .semicolon
          return .expr e :: (← stmts n)) fun used body => ∃ e rest used₁ used₂, IsExpr used₁ e ∧
            AreStmts used₂ rest ∧ used = used₁ ++ .semicolon :: used₂ ∧ body = .expr e :: rest := by
        refine (expr_gives n).bind fun e used he => .expect (ih.bind fun rest used' hrest => .pure ?_)
        exact ⟨e, rest, used, used', he, hrest, by rw [List.append_nil], rfl⟩
      obtain ⟨used, hused, e, rest, used₁, used₂, he, hrest, rfl, rfl⟩ := hgives s a s' hrun
      refine ⟨_, hused, .expr he (fun hhead => hleave ?_) hrest⟩
      rw [← hs, hused, List.append_assoc, List.head?_append, hhead]
      rfl

/-! ## What stands in the tokens is read -/

/-- Tokens that do not go on with a dotted name. -/
def EndsName (next : List TokenKind) : Prop := next.head? ≠ some .dot

/-- Tokens that do not go on with a term. -/
def EndsTerm (next : List TokenKind) : Prop := EndsName next ∧ next.head? ≠ some .openParen

/-- Tokens that do not go on with an expression. -/
def EndsExpr (next : List TokenKind) : Prop := EndsTerm next ∧ next.head? ≠ some .plus

theorem moreSegments_takes {next : List TokenKind} (rest : List String) (hnext : EndsName next)
    {n : Nat} (hn : rest.length < n) :
    Takes (moreSegments n) (rest.flatMap fun word => [.dot, .name word]) next (· = rest) := by
  induction rest generalizing n with
  | nil =>
    obtain ⟨n, rfl⟩ := Nat.exists_eq_add_of_lt hn
    exact .decline hnext (.pure rfl)
  | cons word rest ih =>
    obtain ⟨n, rfl⟩ := Nat.exists_eq_add_of_lt hn
    refine .accept (.name ?_)
    exact .map ((ih (by simp at *; omega)).mono fun _ h => h ▸ rfl)

theorem length_nameTokens (first : String) (rest : List String) :
    (nameTokens (first :: rest)).length = 2 * rest.length + 1 := by
  rw [nameTokens, List.length_cons]
  induction rest with
  | nil => rfl
  | cons word rest ih =>
    rw [List.flatMap_cons, List.length_append, List.length_cons]
    simp only [List.length_cons, List.length_nil]
    omega

theorem segments_takes {next : List TokenKind} (first : String) (rest : List String)
    (hnext : EndsName next) {n : Nat} (hn : rest.length < n) :
    Takes (segments n) (nameTokens (first :: rest)) next (· = first :: rest) :=
  .name (.map ((moreSegments_takes rest hnext hn).mono fun _ h => h ▸ rfl))

/-- Whether a token may begin an expression. -/
def TokenKind.StartsExpr : TokenKind → Prop
  | .text _ | .number _ | .openParen | .name _ => True
  | _ => False

theorem IsTerm.starts {used : List TokenKind} {e : Expr} (h : IsTerm used e) :
    ∃ first rest, used = first :: rest ∧ first.StartsExpr := by
  cases h <;> exact ⟨_, _, rfl, trivial⟩

theorem IsExpr.starts {used : List TokenKind} {e : Expr} (h : IsExpr used e) :
    ∃ first rest, used = first :: rest ∧ first.StartsExpr := by
  cases h with
  | sum hfirst _ =>
    obtain ⟨first, rest, rfl, hstarts⟩ := hfirst.starts
    exact ⟨first, _, rfl, hstarts⟩

theorem AreArguments.starts {used : List TokenKind} {es : List Expr} (h : AreArguments used es) :
    ∃ first rest, used = first :: rest ∧ first.StartsExpr := by
  cases h with
  | one he => exact he.starts
  | more he _ =>
    obtain ⟨first, rest, rfl, hstarts⟩ := he.starts
    exact ⟨first, _, rfl, hstarts⟩

theorem IsTerm.length_pos {used : List TokenKind} {e : Expr} (h : IsTerm used e) :
    0 < used.length := by
  obtain ⟨first, rest, rfl, -⟩ := h.starts
  exact Nat.succ_pos _

theorem IsExpr.length_pos {used : List TokenKind} {e : Expr} (h : IsExpr used e) :
    0 < used.length := by
  obtain ⟨first, rest, rfl, -⟩ := h.starts
  exact Nat.succ_pos _

theorem IsSum.endsTerm {left e : Expr} {used next : List TokenKind} (h : IsSum left used e)
    (hnext : EndsExpr next) : EndsTerm (used ++ next) := by
  cases h with
  | done => exact hnext.1
  | plus _ _ => exact ⟨fun h => (by cases h), fun h => (by cases h)⟩

/-- A token that an expression does not go on with. -/
theorem endsExpr_cons {kind : TokenKind} {next : List TokenKind} (h : kind ∉ [.dot, .openParen, .plus]) :
    EndsExpr (kind :: next) := by
  simp only [List.mem_cons, List.not_mem_nil, or_false, not_or] at h
  obtain ⟨hdot, hopen, hplus⟩ := h
  exact ⟨⟨mt Option.some.inj hdot, mt Option.some.inj hopen⟩, mt Option.some.inj hplus⟩

/-- Whether all that stands in the tokens by the rules is read with so much fuel, up to places. The bounds differ
by what one step spends before it comes to the next: from arguments to an expression, a term and what follows. -/
structure ReadsExprs (n : Nat) : Prop where
  ofExpr : ∀ {used next : List TokenKind} {e : Expr}, IsExpr used e → EndsExpr next →
    4 * used.length ≤ n + 1 → Takes (expr n) used next (·.unplaced = e.unplaced)
  ofSum : ∀ {used next : List TokenKind} {left left' e : Expr}, left'.unplaced = left.unplaced →
    IsSum left used e → EndsExpr next → 4 * used.length < n →
    Takes (sum n left') used next (·.unplaced = e.unplaced)
  ofTerm : ∀ {used next : List TokenKind} {e : Expr}, IsTerm used e → EndsTerm next →
    4 * used.length ≤ n + 2 → Takes (term n) used next (·.unplaced = e.unplaced)
  ofArguments : ∀ {used next : List TokenKind} {es : List Expr}, AreArguments used es → EndsExpr next →
    next.head? ≠ some .comma → 4 * used.length ≤ n →
    Takes (arguments n) used next fun es' => Expr.listUnplaced es' = Expr.listUnplaced es

namespace ReadsExprs

variable {n : Nat} {used next : List TokenKind} {left left' e : Expr} {es : List Expr}

/-- Nothing is so short that no fuel would be enough. -/
theorem zero : ReadsExprs 0 := by
  refine ⟨fun he _ hn => ?_, fun _ _ _ hn => ?_, fun he _ hn => ?_, fun hes _ _ hn => ?_⟩
  · have := he.length_pos
    omega
  · omega
  · have := he.length_pos
    omega
  · cases hes with
    | one he => have := he.length_pos; omega
    | more he _ => simp at hn

theorem stepExpr (h : ReadsExprs n) (he : IsExpr used e) (hnext : EndsExpr next)
    (hn : 4 * used.length ≤ n + 1 + 1) : Takes (expr (n + 1)) used next (·.unplaced = e.unplaced) := by
  cases he with
  | @sum first _ used used' hfirst he =>
    have := hfirst.length_pos
    rw [List.length_append] at hn
    rw [expr]
    refine (h.ofTerm hfirst (he.endsTerm hnext) (by omega)).bind fun first' hfirst' => ?_
    exact h.ofSum hfirst' he hnext (by omega)

theorem stepSum (h : ReadsExprs n) (hleft : left'.unplaced = left.unplaced) (he : IsSum left used e)
    (hnext : EndsExpr next) (hn : 4 * used.length < n + 1) :
    Takes (sum (n + 1) left') used next (·.unplaced = e.unplaced) := by
  rw [sum]
  cases he with
  | done => exact .decline hnext.2 (.pure hleft)
  | @plus _ right _ used used' hright he =>
    simp only [List.length_cons, List.length_append] at hn
    refine .accept ?_
    refine (h.ofTerm hright (he.endsTerm hnext) (by omega)).bind fun right' hright' => ?_
    refine h.ofSum ?_ he hnext (by omega)
    rw [Expr.unplaced, Expr.unplaced, hleft, hright']

theorem stepTerm (h : ReadsExprs n) (he : IsTerm used e) (hnext : EndsTerm next)
    (hn : 4 * used.length ≤ n + 1 + 2) : Takes (term (n + 1)) used next (·.unplaced = e.unplaced) := by
  rw [term_succ]
  cases he with
  | text value => exact .peek (.advance (.pure rfl))
  | number value => exact .peek (.advance (.pure rfl))
  | @parens used e he =>
    simp only [List.length_cons, List.length_append, List.length_nil] at hn
    refine .peek (.advance ?_)
    exact (h.ofExpr he (endsExpr_cons (by decide)) (by omega)).bind fun e' he' => .expect (.pure he')
  | path first rest position =>
    rw [length_nameTokens] at hn
    refine .peek (.here fun position' => ?_)
    refine (segments_takes first rest hnext.1 (by omega)).bind_nil fun names hnames => ?_
    subst hnames
    exact .decline hnext.2 (.pure rfl)
  | call first rest position =>
    simp only [List.length_append, length_nameTokens, List.length_cons, List.length_nil] at hn
    refine .peek (.here fun position' => ?_)
    refine (segments_takes first rest (fun h => (by cases h)) (by omega)).bind fun names hnames => ?_
    subst hnames
    exact .accept (.accept (.pure rfl))
  | @callWith first rest position used args hes =>
    simp only [List.length_append, length_nameTokens, List.length_cons, List.length_nil] at hn
    refine .peek (.here fun position' => ?_)
    refine (segments_takes first rest (fun h => (by cases h)) (by omega)).bind fun names hnames => ?_
    subst hnames
    refine .accept (.decline ?_ ?_)
    · obtain ⟨first, rest, rfl, hstarts⟩ := hes.starts
      intro hhead
      cases hhead
      exact hstarts
    · refine (h.ofArguments hes (endsExpr_cons (by decide)) (fun h => (by cases h)) (by omega)).bind
        fun args' hargs' => .expect (.pure ?_)
      rw [Expr.unplaced, Expr.unplaced, hargs']

theorem stepArguments (h : ReadsExprs n) (hes : AreArguments used es) (hnext : EndsExpr next)
    (hcomma : next.head? ≠ some .comma) (hn : 4 * used.length ≤ n + 1) :
    Takes (arguments (n + 1)) used next fun es' => Expr.listUnplaced es' = Expr.listUnplaced es := by
  rw [arguments]
  cases hes with
  | one he =>
    refine (h.ofExpr he hnext (by omega)).bind_nil fun e' he' => ?_
    exact .decline hcomma (.pure (by simp only [Expr.listUnplaced, he']))
  | @more e rest used used' he hrest =>
    simp only [List.length_append, List.length_cons] at hn
    refine (h.ofExpr he (endsExpr_cons (by decide)) (by omega)).bind fun e' he' => .accept ?_
    refine .map ((h.ofArguments hrest hnext hcomma (by omega)).mono fun rest' hrest' => ?_)
    rw [Expr.listUnplaced, Expr.listUnplaced, he', hrest']

theorem step (h : ReadsExprs n) : ReadsExprs (n + 1) :=
  ⟨h.stepExpr, h.stepSum, h.stepTerm, h.stepArguments⟩

end ReadsExprs

/-- **What stands in the tokens by the rules is read**, up to places. -/
theorem readsExprs (n : Nat) : ReadsExprs n := by
  induction n with
  | zero => exact .zero
  | succ n ih => exact ih.step

/-- **Statements are read up to the closing brace.** -/
theorem stmts_takes {used next : List TokenKind} {body : List Stmt} (h : AreStmts used body)
    (hnext : next.head? = some .closeBrace) {n : Nat} (hn : 4 * used.length < n) :
    Takes (stmts n) used next fun body' => body'.map Stmt.unplaced = body.map Stmt.unplaced := by
  induction h generalizing n with
  | none =>
    obtain ⟨n, rfl⟩ := Nat.exists_eq_add_of_lt hn
    refine .peek ?_
    rw [List.nil_append, hnext]
    exact .pure rfl
  | @leave rest used hrest ih =>
    obtain ⟨n, rfl⟩ := Nat.exists_eq_add_of_lt hn
    refine .peek (.advance (.expect ?_))
    refine .map ((ih (by simp only [List.length_cons]; omega)).mono fun rest' hrest' => ?_)
    rw [List.map_cons, List.map_cons, hrest']
  | @expr e rest used used' he hleave hrest ih =>
    obtain ⟨n, rfl⟩ := Nat.exists_eq_add_of_lt hn
    simp only [List.length_append, List.length_cons]
    obtain ⟨first, more, rfl, hstarts⟩ := he.starts
    have hread : Takes (do
        let e ← expr (4 * ((first :: more).length + (used'.length + 1)) + n)
        expect .semicolon
        return .expr e :: (← stmts (4 * ((first :: more).length + (used'.length + 1)) + n)))
        (first :: more ++ .semicolon :: used') next
        fun body' => body'.map Stmt.unplaced = (Stmt.expr e :: rest).map Stmt.unplaced := by
      refine ((readsExprs _).ofExpr he (endsExpr_cons (by decide)) (by omega)).bind fun e' he' => .expect ?_
      refine .map ((ih (by omega)).mono fun rest' hrest' => ?_)
      rw [List.map_cons, List.map_cons, hrest', Stmt.unplaced, Stmt.unplaced, he']
    refine .peek ?_
    split
    · rename_i hfirst
      cases hfirst
      exact absurd hstarts id
    · rename_i hfirst
      cases hfirst
    · rename_i hfirst
      cases hfirst
      exact absurd rfl hleave
    · exact hread

end SiteHost.Script
