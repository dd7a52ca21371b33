import SiteHost.Proofs.Script.Grammar

/-!
# The grammar of declarations

The rules for members, classes and units, on top of those for expressions and bodies:

* `IsBody`, `IsMember`, `AreMembers`, `IsClass`, `AreItems` — the tokens of declarations. A member is
  listed with whether it is the constructor;
* `Method.unplaced`, `ClassDecl.unplaced`, `SourceUnit.unplaced` — declarations without places;
* `bodyOf?` — the statements that a text has as a body of its own, between braces.

Principal results:

* `items_takes`, `itemsOf_eq_ok` — what stands in the tokens by the rules is read, up to places, with the
  fuel that every unit is given;
* `bodyOf?_eq_some`, `exists_bodyOf?` — a text is a body of its own if and only if its tokens are
  statements by the rules.
-/

namespace SiteHost.Script

open SiteHost.Script.Parser

/-! ## Declarations without places -/

/-- A method without places. -/
def Method.unplaced (m : Method) : Method :=
  { m with body := m.body.map Stmt.unplaced, position := .start }

/-- A class without places. -/
def ClassDecl.unplaced (c : ClassDecl) : ClassDecl :=
  { c with
    constructor? := c.constructor?.map Method.unplaced
    methods := c.methods.map Method.unplaced
    position := .start }

/-- An item without places. -/
def Parser.Item.unplaced : Item → Item
  | .use name => .use name
  | .declares decl => .declares decl.unplaced

/-- A unit without places. -/
def SourceUnit.unplaced (u : SourceUnit) : SourceUnit :=
  { u with classes := u.classes.map ClassDecl.unplaced }

/-- Items without places are a unit without places. -/
theorem SourceUnit.ofItems_unplaced (file : String) (found : List Parser.Item) :
    SourceUnit.ofItems file (found.map Item.unplaced) = (SourceUnit.ofItems file found).unplaced := by
  rw [SourceUnit.ofItems, SourceUnit.ofItems, SourceUnit.unplaced, List.filterMap_map, List.filterMap_map,
    List.map_filterMap]
  congr 1
  · refine congrArg (fun f => withoutRepeats (found.filterMap f)) (funext fun item => ?_)
    cases item <;> rfl
  · refine congrArg (fun f => found.filterMap f) (funext fun item => ?_)
    cases item <;> rfl

/-! ## Rules -/

/-- The tokens of words. -/
def wordTokens (words : List String) : List TokenKind := words.map .name

/-- Tokens that are one parameter. A type before it is not kept. -/
inductive IsParam : List TokenKind → String → Prop where
  | plain (param : String) : IsParam [.name param] param
  | typed (type param : String) : IsParam [.name type, .name param] param

/-- Tokens that are one parameter or more. -/
inductive AreParams : List TokenKind → List String → Prop where
  | one {used : List TokenKind} {param : String} : IsParam used param → AreParams used [param]
  | more {used used' : List TokenKind} {param : String} {rest : List String} : IsParam used param →
    AreParams used' rest → AreParams (used ++ .comma :: used') (param :: rest)

/-- Tokens that are the parameters and the body of a method. -/
inductive IsBody : List TokenKind → List String → List Stmt → Prop where
  | plain {used : List TokenKind} {body : List Stmt} : AreStmts used body →
    IsBody (.openParen :: .closeParen :: .openBrace :: (used ++ [.closeBrace])) [] body
  | params {used used' : List TokenKind} {params : List String} {body : List Stmt} :
    AreParams used params → AreStmts used' body →
    IsBody (.openParen :: (used ++ .closeParen :: .openBrace :: (used' ++ [.closeBrace]))) params body

/-- The visibility that modifiers give. -/
def visibilityOf (words : List String) : Visibility :=
  if words.contains "public" then .exposed else .hidden

/-- Tokens that are a member of a class, with whether it is the constructor. No modifier can be the name
of a constructor. -/
inductive IsMember (className : String) : List TokenKind → Method × Bool → Prop where
  | method {words : List String} {used : List TokenKind} {params : List String} {body : List Stmt}
    (name : String) (position : Position) : (∀ w ∈ words, w ∈ memberModifiers) →
    IsBody used params body →
    IsMember className (wordTokens words ++ .name "void" :: .name name :: used)
      (⟨name, visibilityOf words, params, body, position⟩, false)
  | constructor {words : List String} {used : List TokenKind} {params : List String} {body : List Stmt}
    (position : Position) : (∀ w ∈ words, w ∈ memberModifiers) → className ∉ memberModifiers →
    IsBody used params body →
    IsMember className (wordTokens words ++ .name className :: used)
      (⟨className, visibilityOf words, params, body, position⟩, true)

/-- Tokens that are members of a class. -/
inductive AreMembers (className : String) : List TokenKind → List (Method × Bool) → Prop where
  | none : AreMembers className [] []
  | more {used used' : List TokenKind} {m : Method × Bool} {rest : List (Method × Bool)} :
    IsMember className used m → AreMembers className used' rest →
    AreMembers className (used ++ used') (m :: rest)

/-- The constructor among members. -/
def constructorOf? (ms : List (Method × Bool)) : Option Method := (ms.find? Prod.snd).map Prod.fst

/-- The other members. -/
def methodsOf (ms : List (Method × Bool)) : List Method := (ms.filter fun m => !m.2).map Prod.fst

/-- Tokens that name a base, if there is one. -/
inductive IsBase : List TokenKind → Option String → Prop where
  | none : IsBase [] none
  | some (first : String) (rest : List String) :
    IsBase (.colon :: nameTokens (first :: rest)) (some (Text.joined "." (first :: rest)))

/-- Tokens that are a class of a namespace. -/
inductive IsClass (scope : String) : List TokenKind → ClassDecl → Prop where
  | mk {words : List String} {used used' : List TokenKind} {base : Option String}
    {ms : List (Method × Bool)} (name : String) (position : Position) :
    (∀ w ∈ words, w ∈ classModifiers) → IsBase used base → AreMembers name used' ms →
    (ms.filter Prod.snd).length ≤ 1 →
    IsClass scope
      (wordTokens words ++ .name "class" :: .name name :: (used ++ .openBrace :: (used' ++ [.closeBrace])))
      ⟨qualify scope name, scope, base, constructorOf? ms, methodsOf ms, position⟩

/-- Tokens that are items of a namespace. -/
inductive AreItems : String → List TokenKind → List Item → Prop where
  | none {scope : String} : AreItems scope [] []
  | use {scope : String} {used : List TokenKind} {rest : List Item} (first : String) (more : List String) :
    AreItems scope used rest →
    AreItems scope (.name "using" :: (nameTokens (first :: more) ++ .semicolon :: used))
      (.use (Text.joined "." (first :: more)) :: rest)
  | within {scope : String} {used used' : List TokenKind} {nested rest : List Item} (first : String)
    (more : List String) : AreItems (qualify scope (Text.joined "." (first :: more))) used nested →
    AreItems scope used' rest →
    AreItems scope (.name "namespace" :: (nameTokens (first :: more) ++
      .openBrace :: (used ++ .closeBrace :: used'))) (nested ++ rest)
  | declares {scope : String} {used used' : List TokenKind} {decl : ClassDecl} {rest : List Item} :
    IsClass scope used decl → AreItems scope used' rest →
    AreItems scope (used ++ used') (.declares decl :: rest)

/-! ## What stands in the tokens is read -/

variable {α : Type} {used next : List TokenKind}

theorem qualifiedName_takes (first : String) (rest : List String) (hnext : EndsName next) {n : Nat}
    (hn : rest.length < n) : Takes (qualifiedName n) (nameTokens (first :: rest)) next
      (· = Text.joined "." (first :: rest)) :=
  .map ((segments_takes first rest hnext hn).mono fun _ h => h ▸ rfl)

theorem AreParams.starts {params : List String} (h : AreParams used params) :
    ∃ first rest, used = .name first :: rest := by
  cases h with
  | one hparam => cases hparam <;> exact ⟨_, _, rfl⟩
  | more hparam _ => cases hparam <;> exact ⟨_, _, rfl⟩

/-- A parameter is read wherever no other name follows. -/
theorem param_takes {param : String} {rest : List TokenKind} {f : String → Parser α} {post : α → Prop}
    (h : IsParam used param) (hrest : ∀ word, (rest ++ next).head? ≠ some (.name word))
    (hf : Takes (f param) rest next post) :
    Takes (name >>= fun first => peek >>= fun found => match found with
      | some (.name _) => name >>= f
      | _ => pure first >>= f) (used ++ rest) next post := by
  cases h with
  | plain _ =>
    refine .name (.peek ?_)
    show Takes (match (rest ++ next).head? with
      | some (.name _) => name >>= f
      | _ => pure param >>= f) rest next post
    split
    · rename_i word hword
      exact absurd hword (hrest word)
    · rw [pure_bind]
      exact hf
  | typed type _ => exact .name (.peek (.name hf))

theorem paramNames_takes {params : List String} (h : AreParams used params)
    (hnext : next.head? = some .closeParen) {n : Nat} (hn : used.length ≤ n) :
    Takes (paramNames n) used next (· = params) := by
  induction h generalizing n with
  | @one used param hparam =>
    obtain ⟨n, rfl⟩ : ∃ k, n = k + 1 := ⟨n - 1, by cases hparam <;> simp at hn <;> omega⟩
    rw [← List.append_nil used]
    refine param_takes hparam (fun word => by rw [List.nil_append, hnext]; exact fun h => by cases h) ?_
    exact .decline (by rw [List.nil_append, hnext]; exact fun h => by cases h) (.pure rfl)
  | @more used used' param rest hparam hrest ih =>
    simp only [List.length_append, List.length_cons] at hn
    obtain ⟨n, rfl⟩ : ∃ k, n = k + 1 := ⟨n - 1, by omega⟩
    refine param_takes hparam (fun word h => by cases h) (.accept ?_)
    exact .map ((ih (by omega)).mono fun _ h => h ▸ rfl)

/-! ## Members -/

theorem modifiers_takes {words allowed : List String} (hwords : ∀ w ∈ words, w ∈ allowed)
    (hnext : ∀ w, next.head? = some (.name w) → w ∉ allowed) {n : Nat} (hn : words.length < n) :
    Takes (modifiers allowed n) (wordTokens words) next (· = words) := by
  induction words generalizing n with
  | nil =>
    obtain ⟨n, rfl⟩ := Nat.exists_eq_add_of_lt hn
    refine .peek ?_
    rw [wordTokens, List.map_nil, List.nil_append]
    split
    · rename_i word hword
      rw [if_neg (by simpa using hnext word hword)]
      exact .pure rfl
    · exact .pure rfl
  | cons word rest ih =>
    obtain ⟨n, rfl⟩ := Nat.exists_eq_add_of_lt hn
    refine .peek ?_
    show Takes (if allowed.contains word then _ else _) _ _ _
    rw [if_pos (by simpa using hwords word List.mem_cons_self)]
    refine .advance (.map ((ih (fun w hw => hwords w (List.mem_cons_of_mem word hw)) ?_).mono fun _ h => ?_))
    · simp only [List.length_cons]
      omega
    · rw [h]

theorem block_takes {body : List Stmt} (h : AreStmts used body) {n : Nat} (hn : 4 * used.length < n) :
    Takes (block n) (.openBrace :: (used ++ [.closeBrace])) next
      fun body' => body'.map Stmt.unplaced = body.map Stmt.unplaced :=
  .expect ((stmts_takes h rfl hn).bind fun _ hbody => .expect (.pure hbody))

/-- The parameters and the body of a method are read one after the other. -/
theorem body_takes {params : List String} {body : List Stmt} (h : IsBody used params body) {n : Nat}
    (hn : 4 * used.length < n) {f : List String → List Stmt → Parser α} {post : α → Prop}
    (hf : ∀ body', body'.map Stmt.unplaced = body.map Stmt.unplaced →
      Takes (f params body') [] next post) :
    Takes (Parser.params n >>= fun names => block n >>= f names) used next post := by
  cases h with
  | @plain used body hbody =>
    simp only [List.length_cons, List.length_append, List.length_nil] at hn
    have hnames : Takes (Parser.params n) [.openParen, .closeParen]
        (.openBrace :: (used ++ [.closeBrace]) ++ next) (· = []) := .expect (.accept (.pure rfl))
    show Takes (Parser.params n >>= fun names => block n >>= f names)
      ([.openParen, .closeParen] ++ .openBrace :: (used ++ [.closeBrace])) next post
    refine hnames.bind fun names hnames => ?_
    subst hnames
    exact (block_takes hbody (by omega)).bind_nil hf
  | @params used used' params body hparams hbody =>
    simp only [List.length_cons, List.length_append, List.length_nil] at hn
    have hnames : Takes (Parser.params n) (.openParen :: (used ++ [.closeParen]))
        (.openBrace :: (used' ++ [.closeBrace]) ++ next) (· = params) := by
      refine .expect (.decline ?_ ?_)
      · obtain ⟨first, rest, rfl⟩ := hparams.starts
        exact fun h => by cases h
      · exact (paramNames_takes hparams rfl (by omega)).bind fun names hnames => .expect (.pure hnames)
    have happend : .openParen :: (used ++ .closeParen :: .openBrace :: (used' ++ [.closeBrace])) =
        .openParen :: (used ++ [.closeParen]) ++ .openBrace :: (used' ++ [.closeBrace]) := by
      simp
    rw [happend]
    refine hnames.bind fun names hnames => ?_
    subst hnames
    exact (block_takes hbody (by omega)).bind_nil hf

/-- **A member is read**, and told from a constructor. -/
theorem member_takes {className : String} {m : Method × Bool} (h : IsMember className used m) {n : Nat}
    (hn : 4 * used.length ≤ n) :
    Takes (member n className) used next fun m' => m'.1.unplaced = m.1.unplaced ∧ m'.2 = m.2 := by
  cases h with
  | @method words used params body name position hwords hbody =>
    simp only [List.length_append, List.length_cons, wordTokens, List.length_map] at hn
    rw [member]
    refine (modifiers_takes hwords ?_ (by omega)).bind fun words' h => ?_
    · intro w hw
      cases hw
      decide
    subst h
    refine .get fun s hs => ?_
    have hahead : (s.tokens.map Token.kind).take 2 = [.name "void", .name name] := by
      rw [← TokenStream.kinds, hs]
      rfl
    have hmethod : ((s.tokens.map Token.kind).take 2 == [.name className, .openParen]) = false := by
      rw [hahead]
      simp
    dsimp only
    rw [hmethod]
    refine .atWord (.advance (.placedName fun position' => ?_))
    refine body_takes hbody (by omega) fun body' hbody' => .pure ⟨?_, rfl⟩
    simp only [Method.unplaced, hbody', visibilityOf]
  | @constructor words used params body position hwords hname hbody =>
    simp only [List.length_append, List.length_cons, wordTokens, List.length_map] at hn
    rw [member]
    refine (modifiers_takes hwords ?_ (by omega)).bind fun words' h => ?_
    · intro w hw
      cases hw
      exact hname
    subst h
    refine .get fun s hs => ?_
    have hahead : (s.tokens.map Token.kind).take 2 = [.name className, .openParen] := by
      rw [← TokenStream.kinds, hs]
      cases hbody <;> rfl
    dsimp only
    rw [hahead, BEq.rfl]
    refine .placedName fun position' => ?_
    refine body_takes hbody (by omega) fun body' hbody' => .pure ⟨?_, rfl⟩
    simp only [Method.unplaced, hbody', visibilityOf]

theorem IsMember.starts {className : String} {m : Method × Bool} (h : IsMember className used m) :
    ∃ word rest, used = .name word :: rest := by
  cases h with
  | @method words _ _ _ _ _ _ _ => cases words <;> exact ⟨_, _, rfl⟩
  | @constructor words _ _ _ _ _ _ _ => cases words <;> exact ⟨_, _, rfl⟩

theorem constructorOf?_cons (m : Method) (isConstructor : Bool) (rest : List (Method × Bool)) :
    constructorOf? ((m, isConstructor) :: rest) = if isConstructor then some m else constructorOf? rest := by
  cases isConstructor <;> rfl

/-- Members are read up to the closing brace, the constructor apart. -/
theorem members_takes {className : String} {ms : List (Method × Bool)} (h : AreMembers className used ms)
    (hnext : next.head? = some .closeBrace) {n : Nat} (hn : 4 * used.length < n)
    (known : Option Method) (hone : (ms.filter Prod.snd).length + known.toList.length ≤ 1) :
    Takes (members className n known) used next fun found =>
      found.1.map Method.unplaced = (known.or (constructorOf? ms)).map Method.unplaced ∧
      found.2.map Method.unplaced = (methodsOf ms).map Method.unplaced := by
  induction h generalizing n known with
  | none =>
    obtain ⟨n, rfl⟩ := Nat.exists_eq_add_of_lt hn
    refine .peek ?_
    rw [List.nil_append, hnext]
    exact .pure ⟨by cases known <;> rfl, rfl⟩
  | @more used used' m rest hm hrest ih =>
    obtain ⟨n, rfl⟩ := Nat.exists_eq_add_of_lt hn
    obtain ⟨word, more, hused⟩ := hm.starts
    have hpos : 0 < used.length := by
      rw [hused]
      exact Nat.succ_pos _
    have hlength : (used ++ used').length = used.length + used'.length := List.length_append
    refine .peek ?_
    rw [hused]
    dsimp only [List.cons_append, List.head?_cons]
    rw [← List.cons_append, ← hused]
    refine (member_takes hm (by omega)).bind fun found hfound => ?_
    obtain ⟨m', isConstructor'⟩ := found
    obtain ⟨m, isConstructor⟩ := m
    obtain ⟨hm', hsame⟩ := hfound
    dsimp only at hm' hsame ⊢
    subst hsame
    cases isConstructor' with
    | true =>
      simp only [List.filter_cons_of_pos, List.length_cons] at hone
      have hnone : known = none := by
        cases known with
        | none => rfl
        | some _ => simp at hone
      subst hnone
      refine (ih (by omega) (some m') (by simpa using hone)).mono fun found hfound => ⟨?_, ?_⟩
      · rw [hfound.1, constructorOf?_cons, Option.some_or, Option.none_or, if_pos rfl, Option.map_some,
          Option.map_some, hm']
      · exact hfound.2
    | false =>
      refine .map ((ih (by omega) known (by simpa using hone)).mono fun found hfound => ⟨?_, ?_⟩)
      · rw [hfound.1, constructorOf?_cons]
        rfl
      · simp only [List.map_cons, hfound.2, hm', methodsOf, List.filter_cons]
        rfl

/-! ## Classes and units -/

/-- The members of a class are read with their braces. -/
theorem classBody_takes {scope name : String} {ms : List (Method × Bool)} (h : AreMembers name used ms)
    (hone : (ms.filter Prod.snd).length ≤ 1) (base : Option String) (position position' : Position) {n : Nat}
    (hn : 4 * used.length < n) :
    Takes (do
        expect .openBrace
        let (constructor?, methods) ← members name n none
        expect .closeBrace
        return (⟨qualify scope name, scope, base, constructor?, methods, position'⟩ : ClassDecl))
      (.openBrace :: (used ++ [.closeBrace])) next
      fun decl' => decl'.unplaced = ClassDecl.unplaced
        ⟨qualify scope name, scope, base, constructorOf? ms, methodsOf ms, position⟩ := by
  refine .expect ((members_takes h rfl (by omega) none (by simpa using hone)).bind
    fun found hfound => .expect (.pure ?_))
  simp only [ClassDecl.unplaced, hfound.1, hfound.2, Option.none_or]

/-- **A class is read.** -/
theorem classDecl_takes {scope : String} {decl : ClassDecl} (h : IsClass scope used decl) {n : Nat}
    (hn : 4 * used.length ≤ n) :
    Takes (classDecl n scope) used next fun decl' => decl'.unplaced = decl.unplaced := by
  cases h with
  | @mk words used used' base ms name position hwords hbase hms hone =>
    simp only [List.length_append, List.length_cons, wordTokens, List.length_map] at hn
    rw [classDecl]
    refine (modifiers_takes hwords ?_ (by omega)).bind fun words' _ => ?_
    · intro w hw
      cases hw
      decide
    refine .atWord (.advance (.placedName fun position' => ?_))
    cases hbase with
    | none =>
      exact .decline (fun h => by cases h) (classBody_takes hms hone none position position' (by omega))
    | some first rest =>
      rw [List.length_cons, length_nameTokens] at hn
      refine .accept ?_
      rw [if_pos rfl, bind_map_left]
      refine (qualifiedName_takes first rest (fun h => by cases h) (by omega)).bind fun base hbase => ?_
      subst hbase
      exact classBody_takes hms hone _ position position' (by omega)

theorem IsClass.starts {scope : String} {decl : ClassDecl} (h : IsClass scope used decl) :
    ∃ word rest, used = .name word :: rest ∧ (word ∈ classModifiers ∨ word = "class") := by
  cases h with
  | @mk words _ _ _ _ _ _ hwords _ _ _ =>
    cases words with
    | nil => exact ⟨_, _, rfl, .inr rfl⟩
    | cons word _ => exact ⟨_, _, rfl, .inl (hwords word List.mem_cons_self)⟩

/-- **Items are read up to the end, or to the brace that closes their namespace.** -/
theorem items_takes {scope : String} {found : List Item} (h : AreItems scope used found)
    (hnext : next.head? = none ∨ next.head? = some .closeBrace) {n : Nat} (hn : 4 * used.length < n) :
    Takes (items n scope) used next fun found' => found'.map Item.unplaced = found.map Item.unplaced := by
  induction h generalizing n next with
  | none =>
    obtain ⟨n, rfl⟩ := Nat.exists_eq_add_of_lt hn
    refine .peek ?_
    rw [List.nil_append]
    rcases hnext with hnext | hnext <;> rw [hnext] <;> exact .pure rfl
  | @use scope used rest first more hrest ih =>
    simp only [List.length_cons, List.length_append, length_nameTokens] at hn
    obtain ⟨n, rfl⟩ : ∃ k, n = k + 1 := ⟨n - 1, by omega⟩
    refine .peek (.advance ?_)
    refine (qualifiedName_takes first more (fun h => by cases h) (by omega)).bind fun used' hused => ?_
    subst hused
    refine .expect (.map ((ih hnext (by omega)).mono fun rest' hrest' => ?_))
    rw [List.map_cons, List.map_cons, hrest']
  | @within scope used used' nested rest first more hnested hrest ih ih' =>
    simp only [List.length_cons, List.length_append, length_nameTokens] at hn
    obtain ⟨n, rfl⟩ : ∃ k, n = k + 1 := ⟨n - 1, by omega⟩
    refine .peek (.advance ?_)
    refine (qualifiedName_takes first more (fun h => by cases h) (by omega)).bind fun inner hinner => ?_
    subst hinner
    refine .expect ((ih (.inr rfl) (by omega)).bind fun nested' hnested' => .expect ?_)
    refine .map ((ih' hnext (by omega)).mono fun rest' hrest' => ?_)
    rw [List.map_append, List.map_append, hnested', hrest']
  | @declares scope used used' decl rest hdecl hrest ih =>
    have hlength : (used ++ used').length = used.length + used'.length := List.length_append
    obtain ⟨word, more, hused, hword⟩ := hdecl.starts
    have hpos : 0 < used.length := by
      rw [hused]
      exact Nat.succ_pos _
    obtain ⟨n, rfl⟩ : ∃ k, n = k + 1 := ⟨n - 1, by omega⟩
    have hread : Takes (do
        let decl ← classDecl n scope
        return .declares decl :: (← items n scope)) (used ++ used') next
        fun found' => found'.map Item.unplaced = (Item.declares decl :: rest).map Item.unplaced := by
      refine (classDecl_takes hdecl (by omega)).bind fun decl' hdecl' => ?_
      refine .map ((ih hnext (by omega)).mono fun rest' hrest' => ?_)
      rw [List.map_cons, List.map_cons, hrest', Item.unplaced, Item.unplaced, hdecl']
    have hhead : (used ++ used' ++ next).head? = some (.name word) := by
      rw [hused]
      rfl
    refine .peek ?_
    rw [hhead]
    split
    · rename_i hfirst
      cases hfirst
    · rename_i hfirst
      cases hfirst
    · rename_i hfirst
      cases hfirst
      exact absurd hword (by decide)
    · rename_i hfirst
      cases hfirst
      exact absurd hword (by decide)
    · exact hread

/-- **A text whose tokens are items is a unit.** -/
theorem itemsOf_eq_ok {s : TokenStream} {found : List Item} (h : AreItems "" s.kinds found) :
    ∃ found', itemsOf s = .ok found' ∧ found'.map Item.unplaced = found.map Item.unplaced := by
  have hread : Takes (Parser.unit (fuelFor s)) s.kinds []
      fun found' => found'.map Item.unplaced = found.map Item.unplaced := by
    have hfuel : 4 * s.kinds.length < fuelFor s := by
      rw [TokenStream.kinds, List.length_map, fuelFor]
      omega
    exact (items_takes h (.inl rfl) hfuel).bind_nil fun found' hfound => .peek (.pure hfound)
  obtain ⟨found', s', hrun, -, hfound⟩ := hread s (List.append_nil _).symm
  refine ⟨found', ?_, hfound⟩
  rw [itemsOf, StateT.run']
  show Prod.fst <$> (Parser.unit (fuelFor s)).run s = _
  rw [hrun]
  rfl

theorem parse_eq_ok {file source : String} {s : TokenStream} {found : List Parser.Item}
    (hscan : scan source = .ok s) (hitems : itemsOf s = .ok found) :
    parse file source = .ok (.ofItems file found) := by
  unfold parse
  rw [hscan]
  dsimp only
  rw [hitems]

/-! ## Bodies on their own -/

/-- The statements that a text has as a body of its own, between braces. -/
def bodyOf? (code : String) : Option (List Stmt) :=
  match scan code with
  | .error _ => none
  | .ok s =>
    let braced : TokenStream :=
      ⟨⟨.openBrace, .start⟩ :: (s.tokens ++ [⟨.closeBrace, s.stop⟩]), s.stop⟩
    match (Parser.block (fuelFor braced)).run braced with
    | .ok (body, ⟨[], _⟩) => some body
    | _ => none

theorem block_gives (n : Nat) : Gives (Parser.block n) fun used body =>
    ∃ inner, used = .openBrace :: (inner ++ [.closeBrace]) ∧ AreStmts inner body :=
  .expect ((stmts_gives n).bind fun _ inner hbody => .expect (.pure ⟨inner, rfl, hbody⟩))

/-- **A text that is a body of its own has tokens that are statements.** -/
theorem bodyOf?_eq_some {code : String} {body : List Stmt} (h : bodyOf? code = some body) :
    ∃ s, scan code = .ok s ∧ AreStmts s.kinds body := by
  unfold bodyOf? at h
  split at h
  · cases h
  · rename_i s hs
    dsimp only at h
    split at h
    · rename_i body' stop hrun
      cases h
      obtain ⟨used, hused, inner, rfl, hinner⟩ := block_gives _ _ _ _ hrun
      refine ⟨s, hs, ?_⟩
      have hsame : s.kinds = inner := by
        simpa [TokenStream.kinds] using hused
      exact hsame ▸ hinner
    · cases h

/-- **A text whose tokens are statements is a body of its own**, up to places. -/
theorem exists_bodyOf? {code : String} {s : TokenStream} {body : List Stmt} (hs : scan code = .ok s)
    (h : AreStmts s.kinds body) :
    ∃ body', bodyOf? code = some body' ∧ body'.map Stmt.unplaced = body.map Stmt.unplaced := by
  let braced : TokenStream := ⟨⟨.openBrace, .start⟩ :: (s.tokens ++ [⟨.closeBrace, s.stop⟩]), s.stop⟩
  have hfuel : 4 * s.kinds.length < fuelFor braced := by
    simp only [TokenStream.kinds, List.length_map, fuelFor, braced, List.length_cons, List.length_append]
    omega
  have hread : Takes (Parser.block (fuelFor braced)) (.openBrace :: (s.kinds ++ [.closeBrace])) []
      fun body' => body'.map Stmt.unplaced = body.map Stmt.unplaced := block_takes h hfuel
  obtain ⟨body', s', hrun, hs', hbody⟩ := hread braced (by simp [TokenStream.kinds, braced])
  obtain ⟨tokens, stop⟩ := s'
  obtain rfl : tokens = [] := by simpa [TokenStream.kinds] using hs'
  refine ⟨body', ?_, hbody⟩
  unfold bodyOf?
  rw [hs]
  dsimp only
  rw [hrun]

end SiteHost.Script
