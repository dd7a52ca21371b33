import SiteHost.Proofs.Script.Declarations

/-!
# What declarations were read from

The other direction of the grammar of declarations: whatever is read stands in the tokens by the rules.

* `modifiers_stops` — behind modifiers no further modifier comes, so that no modifier is the name of a
  constructor;
* `member_gives`, `members_gives`, `classDecl_gives`, `items_gives` — members, classes and items;
* `areItems_of_parse` — a unit was read from tokens that are its items.
-/

namespace SiteHost.Script

open SiteHost.Script.Parser

/-! ## Words and parameters -/

theorem qualifiedName_gives (n : Nat) : Gives (qualifiedName n) fun used name =>
    ∃ first rest, used = nameTokens (first :: rest) ∧ name = Text.joined "." (first :: rest) := by
  refine (segments_gives n).bind fun names used hnames => .pure ?_
  obtain ⟨first, rest, rfl, rfl⟩ := hnames
  exact ⟨first, rest, List.append_nil _, rfl⟩

theorem modifiers_gives (allowed : List String) (n : Nat) : Gives (modifiers allowed n) fun used words =>
    used = wordTokens words ∧ ∀ w ∈ words, w ∈ allowed := by
  induction n with
  | zero => exact .fail
  | succ n ih =>
    have hnone : Gives (pure [] : Parser (List String)) fun used words =>
        used = wordTokens words ∧ ∀ w ∈ words, w ∈ allowed := .pure ⟨rfl, fun _ hw => nomatch hw⟩
    refine .peek fun found => ?_
    split
    · rename_i word
      split
      · rename_i hword
        refine .advance (ih.bind fun rest used hrest => .pure ?_)
        obtain ⟨rfl, hall⟩ := hrest
        exact ⟨by rw [List.append_nil]; rfl, List.forall_mem_cons.2 ⟨by simpa using hword, hall⟩⟩
      · exact hnone.at _
    · exact hnone.at _

/-- **Modifiers are read as far as they go.** -/
theorem modifiers_stops {allowed words : List String} {n : Nat} {s s' : TokenStream}
    (h : (modifiers allowed n).run s = .ok (words, s')) {word : String}
    (hword : s'.kinds.head? = some (.name word)) : word ∉ allowed := by
  induction n generalizing s words with
  | zero => exact absurd h (run_fail_ne_ok _)
  | succ n ih =>
    rw [modifiers, run_peek_bind] at h
    split at h
    · rename_i first hfirst
      split at h
      · obtain ⟨_, s₂, -, hmore⟩ := run_bind_eq_ok.1 h
        obtain ⟨rest, s₃, hread, hdone⟩ := run_bind_eq_ok.1 hmore
        obtain ⟨-, rfl⟩ := run_pure_eq_ok.1 hdone
        exact ih hread
      · rename_i hnot
        obtain ⟨-, rfl⟩ := run_pure_eq_ok.1 h
        cases hfirst.symm.trans hword
        simpa using hnot
    · rename_i hnone
      obtain ⟨-, rfl⟩ := run_pure_eq_ok.1 h
      exact absurd hword (hnone word)

theorem paramNames_gives (n : Nat) : Gives (paramNames n) AreParams := by
  induction n with
  | zero => exact .fail
  | succ n ih =>
    have hrest {used : List TokenKind} {param : String} (h : IsParam used param) :
        Gives (do if ← accept .comma then return param :: (← paramNames n) else return [param])
          fun used' names => AreParams (used ++ used') names := by
      refine .accept (ih.bind fun names used' hnames => .pure ?_) (.pure ?_)
      · rw [List.append_nil]
        exact .more h hnames
      · rw [List.append_nil]
        exact .one h
    refine .name fun first => .peek fun found => ?_
    split
    · exact Gives.at (.name fun param => hrest (.typed first param)) _
    · rw [pure_bind]
      exact Gives.at (hrest (.plain first)) _

/-- The parameters and the body of a method stand one after the other. -/
theorem body_gives {α : Type} {f : List String → List Stmt → Parser α} {post : List TokenKind → α → Prop}
    (n : Nat) (h : ∀ used params body, IsBody used params body →
      Gives (f params body) fun used' a => post (used ++ used') a) :
    Gives (Parser.params n >>= fun names => block n >>= f names) post := by
  have hparams : Gives (Parser.params n) fun used names =>
      used = [.openParen, .closeParen] ∧ names = [] ∨
        ∃ inner, used = .openParen :: (inner ++ [.closeParen]) ∧ AreParams inner names := by
    refine .expect (.accept (.pure (.inl ⟨rfl, rfl⟩)) ?_)
    exact (paramNames_gives n).bind fun names inner hnames => .expect (.pure (.inr ⟨inner, rfl, hnames⟩))
  refine hparams.bind fun names used hnames => (block_gives n).bind fun body used' hbody => ?_
  obtain ⟨inner, rfl, hbody⟩ := hbody
  refine (h (used ++ .openBrace :: (inner ++ [.closeBrace])) names body ?_).mono fun more a ha => ?_
  · obtain ⟨rfl, rfl⟩ | ⟨inner', rfl, hnames⟩ := hnames
    · exact .plain hbody
    · rw [List.cons_append, List.append_assoc]
      exact .params hnames hbody
  · rwa [← List.append_assoc]

/-! ## Members -/

/-- What comes behind the modifiers and `void`: a name, the parameters and the body. -/
theorem signature_gives (n : Nat) (visibility : Visibility) (isConstructor : Bool) :
    Gives (placedName >>= fun found => Parser.params n >>= fun names => block n >>= fun body =>
        pure ((⟨found.1, visibility, names, body, found.2⟩ : Method), isConstructor))
      fun used m => ∃ name used' params body position, used = .name name :: used' ∧
        IsBody used' params body ∧ m = (⟨name, visibility, params, body, position⟩, isConstructor) := by
  refine .placedName fun name position => body_gives n fun used params body hbody => .pure ?_
  exact ⟨name, used, params, body, position, by rw [List.append_nil], hbody, rfl⟩

/-- **A member stands in the tokens by the rules.** -/
theorem member_gives (className : String) (n : Nat) : Gives (member n className) (IsMember className) := by
  intro s m s' hrun
  rw [member] at hrun
  obtain ⟨words, s₁, hwords, hrun⟩ := run_bind_eq_ok.1 hrun
  obtain ⟨used, hs, rfl, hallowed⟩ := modifiers_gives _ _ _ _ _ hwords
  obtain ⟨s₂, s₃, hget, hrun⟩ := run_bind_eq_ok.1 hrun
  obtain ⟨rfl, rfl⟩ := Prod.mk.inj (Except.ok.inj hget)
  dsimp only at hrun
  -- the next two tokens tell a constructor from a method
  by_cases hahead : (s₁.tokens.map Token.kind).take 2 = [.name className, .openParen]
  · rw [hahead, BEq.rfl] at hrun
    obtain ⟨used', hs₁, name, used₂, params, body, position, rfl, hbody, rfl⟩ :=
      signature_gives n (visibilityOf words) true s₁ m s' hrun
    have hhead : s₁.kinds.head? = some (.name className) := by
      rw [TokenStream.kinds, ← List.take_append_drop 2 (s₁.tokens.map Token.kind), hahead]
      rfl
    have hname : name = className := by
      rw [hs₁] at hhead
      cases hhead
      rfl
    subst hname
    refine ⟨wordTokens words ++ .name name :: used₂, by rw [hs, hs₁, List.append_assoc], ?_⟩
    exact .constructor position hallowed (modifiers_stops hwords hhead) hbody
  · rw [beq_eq_false_iff_ne.2 hahead] at hrun
    have hmethod : ∀ used' m, (∃ name used₂ params body position, used' = .name name :: used₂ ∧
        IsBody used₂ params body ∧ m = (⟨name, visibilityOf words, params, body, position⟩, false)) →
        IsMember className (wordTokens words ++ .name "void" :: used') m := by
      rintro _ _ ⟨name, used₂, params, body, position, rfl, hbody, rfl⟩
      exact .method name position hallowed hbody
    have hgives := (signature_gives n (visibilityOf words) false).mono hmethod
    obtain ⟨used', hs₁, hm⟩ : ∃ used', s₁.kinds = used' ++ s'.kinds ∧
        IsMember className (wordTokens words ++ used') m := Gives.word hgives s₁ m s' hrun
    exact ⟨_, by rw [hs, hs₁, List.append_assoc], hm⟩

/-- Members stand in the tokens by the rules, and at most one of them is the constructor. -/
theorem members_gives (className : String) (n : Nat) (known : Option Method) :
    Gives (members className n known) fun used found => ∃ ms, AreMembers className used ms ∧
      (ms.filter Prod.snd).length + known.toList.length ≤ 1 ∧
      found = (known.or (constructorOf? ms), methodsOf ms) := by
  induction n generalizing known with
  | zero => exact .fail
  | succ n ih =>
    rw [members]
    refine .peek fun found => ?_
    split
    · refine Gives.at (.pure ⟨[], .none, ?_, ?_⟩) _
      · cases known <;> simp
      · cases known <;> rfl
    · exact Gives.at .fail _
    · refine Gives.at ((member_gives className n).bind fun m used hm => ?_) _
      obtain ⟨m, isConstructor⟩ := m
      cases isConstructor with
      | true =>
        cases known with
        | some _ => exact .failAt_bind
        | none =>
          refine (ih (some m)).mono fun used' found hfound => ?_
          obtain ⟨ms, hms, hone, rfl⟩ := hfound
          refine ⟨(m, true) :: ms, .more hm hms, ?_, rfl⟩
          simpa using hone
      | false =>
        refine (ih known).bind fun found used' hfound => .pure ?_
        obtain ⟨ms, hms, hone, rfl⟩ := hfound
        refine ⟨(m, false) :: ms, ?_, hone, rfl⟩
        rw [List.append_nil]
        exact .more hm hms

/-! ## Classes and units -/

/-- The members behind the head of a class complete it. -/
theorem classBody_gives {words : List String} {base : Option String}
    (hwords : ∀ w ∈ words, w ∈ classModifiers) (hbase : IsBase used base) (name : String)
    (position : Position) (n : Nat) : Gives (do
      expect .openBrace
      let (constructor?, methods) ← members name n none
      expect .closeBrace
      return (⟨qualify scope name, scope, base, constructor?, methods, position⟩ : ClassDecl))
      fun used' decl => IsClass scope
        (wordTokens words ++ .name "class" :: .name name :: (used ++ used')) decl := by
  refine .expect ((members_gives name n none).bind fun found used' hfound => .expect (.pure ?_))
  obtain ⟨ms, hms, hone, rfl⟩ := hfound
  rw [Option.none_or]
  exact .mk name position hwords hbase hms hone

/-- **A class stands in the tokens by the rules.** -/
theorem classDecl_gives (n : Nat) (scope : String) : Gives (classDecl n scope) (IsClass scope) := by
  rw [classDecl]
  refine (modifiers_gives classModifiers n).bind fun words used hwords => ?_
  obtain ⟨rfl, hallowed⟩ := hwords
  refine .word (.placedName fun name position => ?_)
  refine .accept ?_ ?_
  · rw [if_pos rfl, bind_map_left]
    refine (qualifiedName_gives n).bind fun base used hbase => ?_
    obtain ⟨first, rest, rfl, rfl⟩ := hbase
    exact classBody_gives hallowed (.some first rest) name position n
  · exact classBody_gives hallowed .none name position n

/-- **Items stand in the tokens by the rules.** -/
theorem items_gives (n : Nat) (scope : String) : Gives (items n scope) (AreItems scope) := by
  induction n generalizing scope with
  | zero => exact .fail
  | succ n ih =>
    rw [items]
    refine .peek fun found => ?_
    split
    · exact Gives.at (.pure .none) _
    · exact Gives.at (.pure .none) _
    · refine .advance ((qualifiedName_gives n).bind fun name used hname => .expect ?_)
      obtain ⟨first, more, rfl, rfl⟩ := hname
      refine (ih scope).bind fun rest used' hrest => .pure ?_
      rw [List.append_nil]
      exact .use first more hrest
    · refine .advance ((qualifiedName_gives n).bind fun name used hname => .expect ?_)
      obtain ⟨first, more, rfl, rfl⟩ := hname
      refine (ih _).bind fun nested used' hnested => .expect ?_
      refine (ih scope).bind fun rest used'' hrest => .pure ?_
      rw [List.append_nil]
      exact .within first more hnested hrest
    · refine Gives.at ((classDecl_gives n scope).bind fun decl used hdecl => ?_) _
      refine (ih scope).bind fun rest used' hrest => .pure ?_
      rw [List.append_nil]
      exact .declares hdecl hrest

/-- **The items of a text stand in its tokens by the rules.** -/
theorem areItems_of_itemsOf {s : TokenStream} {found : List Item} (h : itemsOf s = .ok found) :
    AreItems "" s.kinds found := by
  obtain ⟨s', hrun⟩ : ∃ s', (Parser.unit (fuelFor s)).run s = .ok (found, s') := by
    rw [itemsOf, StateT.run'] at h
    change Prod.fst <$> (Parser.unit (fuelFor s)).run s = _ at h
    cases hrun : (Parser.unit (fuelFor s)).run s with
    | error e =>
      rw [hrun] at h
      cases h
    | ok result =>
      rw [hrun] at h
      cases h
      exact ⟨result.2, rfl⟩
  obtain ⟨found', s₁, hitems, hrest⟩ := run_bind_eq_ok.1 hrun
  obtain ⟨used, hs, hfound⟩ := items_gives _ "" s found' s₁ hitems
  rw [run_peek_bind] at hrest
  split at hrest
  · rename_i hnext
    obtain ⟨rfl, -⟩ := run_pure_eq_ok.1 hrest
    rw [List.head?_eq_none_iff.1 hnext, List.append_nil] at hs
    rwa [hs]
  · exact absurd hrest (run_fail_ne_ok _)

/-- **A unit was read from tokens that are its items.** -/
theorem areItems_of_parse {file source : String} {u : SourceUnit} (h : parse file source = .ok u) :
    ∃ s found, scan source = .ok s ∧ AreItems "" s.kinds found ∧ u = .ofItems file found := by
  unfold parse at h
  split at h
  · cases h
  · rename_i s hscan
    split at h
    · cases h
    · rename_i found hitems
      cases h
      exact ⟨s, found, hscan, areItems_of_itemsOf hitems, rfl⟩

end SiteHost.Script
