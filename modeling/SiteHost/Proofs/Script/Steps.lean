import SiteHost.Script.Parse

/-!
# What steps over tokens take

The parser looks at kinds of tokens only, and hands their places on. What a step does is said in terms of
the kinds it takes:

* `TokenStream.kinds` — the kinds of the tokens that are left;
* `Takes` — a step that takes certain kinds wherever certain others follow, and what it then gives;
* `Gives` — what is known of the kinds that a step has taken, whenever it succeeds.

There is one rule of each sort for every step that the parser is made of. `Takes` is for text that is
known to be well-formed, `Gives` for text that was found to be.
-/

namespace SiteHost.Script

/-- The kinds of the tokens that are left. -/
def TokenStream.kinds (s : TokenStream) : List TokenKind := s.tokens.map Token.kind

/-- Whether a step takes the kinds `used` wherever the kinds `next` follow, and gives something of which
`post` holds. -/
def Takes {α : Type} (p : Parser α) (used next : List TokenKind) (post : α → Prop) : Prop :=
  ∀ s : TokenStream, s.kinds = used ++ next →
    ∃ a s', p.run s = .ok (a, s') ∧ s'.kinds = next ∧ post a

/-- Whether a step that gives something has taken kinds of which `post` holds with it. -/
def Gives {α : Type} (p : Parser α) (post : List TokenKind → α → Prop) : Prop :=
  ∀ (s : TokenStream) (a : α) (s' : TokenStream), p.run s = .ok (a, s') →
    ∃ used, s.kinds = used ++ s'.kinds ∧ post used a

/-- The same of a step that starts where a certain kind comes next. -/
def GivesAt {α : Type} (found : Option TokenKind) (p : Parser α)
    (post : List TokenKind → α → Prop) : Prop :=
  ∀ (s : TokenStream) (a : α) (s' : TokenStream), s.kinds.head? = found → p.run s = .ok (a, s') →
    ∃ used, s.kinds = used ++ s'.kinds ∧ post used a

variable {α β : Type} {p : Parser α} {f : α → Parser β} {used used' next : List TokenKind}
  {kind : TokenKind}

namespace Parser

/-! ## The steps as functions of the stream -/

theorem run_bind_eq_ok {s s' : TokenStream} {b : β} : (p >>= f).run s = .ok (b, s') ↔
    ∃ a s₁, p.run s = .ok (a, s₁) ∧ (f a).run s₁ = .ok (b, s') := by
  rw [StateT.run_bind]
  show Except.bind (p.run s) (fun a => (f a.1).run a.2) = _ ↔ _
  cases hp : p.run s with
  | error e =>
    refine ⟨fun h => (by cases h), ?_⟩
    rintro ⟨a, s₁, h, -⟩
    cases h
  | ok found =>
    refine ⟨fun h => ⟨found.1, found.2, rfl, h⟩, ?_⟩
    rintro ⟨a, s₁, h, h'⟩
    cases h
    exact h'

theorem run_pure_eq_ok {s s' : TokenStream} {a b : α} :
    (pure a : Parser α).run s = .ok (b, s') ↔ a = b ∧ s = s' := by
  rw [StateT.run_pure]
  show Except.ok (a, s) = _ ↔ _
  rw [Except.ok.injEq, Prod.mk.injEq]

theorem run_peek (s : TokenStream) : peek.run s = .ok (s.kinds.head?, s) := by
  show Except.ok (s.tokens.head?.map Token.kind, s) = _
  rw [TokenStream.kinds, List.head?_map]

theorem run_peek_bind (f : Option TokenKind → Parser β) (s : TokenStream) :
    (peek >>= f).run s = (f s.kinds.head?).run s := by
  rw [StateT.run_bind, run_peek]
  rfl

theorem run_advance (s : TokenStream) : advance.run s = .ok ((), ⟨s.tokens.tail, s.stop⟩) := rfl

theorem kinds_tail (s : TokenStream) : TokenStream.kinds ⟨s.tokens.tail, s.stop⟩ = s.kinds.tail :=
  List.map_tail

theorem kinds_eq_cons {s : TokenStream} (h : s.kinds.head? = some kind) :
    s.kinds = kind :: s.kinds.tail := by
  obtain ⟨rest, hrest⟩ := List.head?_eq_some_iff.1 h
  rw [hrest, List.tail_cons]

theorem run_fail_ne_ok (cause : SyntaxCause) {s s' : TokenStream} {a : α} :
    (fail cause : Parser α).run s ≠ .ok (a, s') := by
  intro h
  cases h

theorem run_failAt_ne_ok (position : Position) (cause : SyntaxCause) {s s' : TokenStream} {a : α} :
    (failAt position cause : Parser α).run s ≠ .ok (a, s') := by
  intro h
  cases h

end Parser

open SiteHost.Script.Parser

/-! ## Taking what is known to be there -/

namespace Takes

variable {post : α → Prop} {post' : β → Prop}

theorem pure {a : α} (h : post a) : Takes (Pure.pure a) [] next post :=
  fun s hs => ⟨a, s, rfl, hs, h⟩

theorem bind (h : Takes p used (used' ++ next) post) (h' : ∀ a, post a → Takes (f a) used' next post') :
    Takes (p >>= f) (used ++ used') next post' := by
  intro s hs
  obtain ⟨a, s₁, hrun, hs₁, ha⟩ := h s (by rw [hs, List.append_assoc])
  obtain ⟨b, s₂, hrun', hs₂, hb⟩ := h' a ha s₁ hs₁
  exact ⟨b, s₂, run_bind_eq_ok.2 ⟨a, s₁, hrun, hrun'⟩, hs₂, hb⟩

theorem mono {post₀ : α → Prop} (h : Takes p used next post₀) (h' : ∀ a, post₀ a → post a) :
    Takes p used next post := by
  intro s hs
  obtain ⟨a, s', hrun, hs', ha⟩ := h s hs
  exact ⟨a, s', hrun, hs', h' a ha⟩

/-- A step behind which nothing more is taken. -/
theorem bind_nil (h : Takes p used next post) (h' : ∀ a, post a → Takes (f a) [] next post') :
    Takes (p >>= f) used next post' := by
  have hboth : Takes (p >>= f) (used ++ []) next post' := bind h h'
  rwa [List.append_nil] at hboth

/-- The last step of several. -/
theorem map {g : α → β} (h : Takes p used next fun a => post' (g a)) :
    Takes (p >>= fun a => Pure.pure (g a)) used next post' := by
  intro s hs
  obtain ⟨a, s', hrun, hs', ha⟩ := h s hs
  exact ⟨g a, s', run_bind_eq_ok.2 ⟨a, s', hrun, rfl⟩, hs', ha⟩

theorem peek {f : Option TokenKind → Parser β}
    (h : Takes (f (used ++ next).head?) used next post') : Takes (Parser.peek >>= f) used next post' := by
  intro s hs
  obtain ⟨b, s', hrun, hs', hb⟩ := h s hs
  exact ⟨b, s', by rw [run_peek_bind, hs, hrun], hs', hb⟩

theorem here {f : Position → Parser β} (h : ∀ position, Takes (f position) used next post') :
    Takes (Parser.here >>= f) used next post' := by
  intro s hs
  obtain ⟨b, s', hrun, hs', hb⟩ := h _ s hs
  exact ⟨b, s', run_bind_eq_ok.2 ⟨_, s, rfl, hrun⟩, hs', hb⟩

theorem get {f : TokenStream → Parser β}
    (h : ∀ s : TokenStream, s.kinds = used ++ next → Takes (f s) used next post') :
    Takes (get >>= f) used next post' := by
  intro s hs
  obtain ⟨b, s', hrun, hs', hb⟩ := h s hs s hs
  exact ⟨b, s', run_bind_eq_ok.2 ⟨_, s, rfl, hrun⟩, hs', hb⟩

theorem atWord {f : Bool → Parser β} {word : String}
    (h : Takes (f ((used ++ next).head? = some (.name word))) used next post') :
    Takes (Parser.atWord word >>= f) used next post' := by
  have hword : Takes (Parser.atWord word) [] (used ++ next)
      (· = decide ((used ++ next).head? = some (.name word))) := peek (pure rfl)
  show Takes (Parser.atWord word >>= f) ([] ++ used) next post'
  exact bind hword fun b hb => hb ▸ h

theorem advance {f : Unit → Parser β} (h : Takes (f ()) used next post') :
    Takes (Parser.advance >>= f) (kind :: used) next post' := by
  intro s hs
  obtain ⟨b, s', hrun, hs', hb⟩ :=
    h ⟨s.tokens.tail, s.stop⟩ (by rw [kinds_tail, hs]; rfl)
  exact ⟨b, s', run_bind_eq_ok.2 ⟨(), _, run_advance s, hrun⟩, hs', hb⟩

theorem expect {f : Unit → Parser β} (h : Takes (f ()) used next post') :
    Takes (Parser.expect kind >>= f) (kind :: used) next post' := by
  have htaken : Takes (Parser.expect kind) [kind] (used ++ next) fun _ => True := by
    refine peek ?_
    show Takes (if some kind = some kind then _ else _) _ _ _
    rw [if_pos rfl]
    intro s hs
    exact ⟨(), _, run_advance s, by rw [kinds_tail, hs]; rfl, trivial⟩
  show Takes (Parser.expect kind >>= f) ([kind] ++ used) next post'
  exact bind htaken fun _ _ => h

theorem accept {f : Bool → Parser β} (h : Takes (f true) used next post') :
    Takes (Parser.accept kind >>= f) (kind :: used) next post' := by
  have htaken : Takes (Parser.accept kind) [kind] (used ++ next) (· = true) := by
    refine peek ?_
    show Takes (if some kind = some kind then _ else _) _ _ _
    rw [if_pos rfl]
    exact advance (pure rfl)
  show Takes (Parser.accept kind >>= f) ([kind] ++ used) next post'
  exact bind htaken fun b hb => hb ▸ h

theorem decline {f : Bool → Parser β} (hne : (used ++ next).head? ≠ some kind)
    (h : Takes (f false) used next post') : Takes (Parser.accept kind >>= f) used next post' := by
  have hleft : Takes (Parser.accept kind) [] (used ++ next) (· = false) := by
    refine peek ?_
    rw [List.nil_append, if_neg hne]
    exact pure rfl
  show Takes (Parser.accept kind >>= f) ([] ++ used) next post'
  exact bind hleft fun b hb => hb ▸ h

theorem name {f : String → Parser β} {word : String} (h : Takes (f word) used next post') :
    Takes (Parser.name >>= f) (.name word :: used) next post' := by
  have htaken : Takes Parser.name [.name word] (used ++ next) (· = word) := peek (advance (pure rfl))
  show Takes (Parser.name >>= f) ([.name word] ++ used) next post'
  exact bind htaken fun _ hb => hb ▸ h

theorem placedName {f : String × Position → Parser β} {word : String}
    (h : ∀ position, Takes (f (word, position)) used next post') :
    Takes (Parser.placedName >>= f) (.name word :: used) next post' := by
  have htaken : Takes Parser.placedName [.name word] (used ++ next) fun a => a.1 = word :=
    here fun _ => name (pure rfl)
  show Takes (Parser.placedName >>= f) ([.name word] ++ used) next post'
  refine bind htaken fun a ha => ?_
  obtain ⟨_, position⟩ := a
  cases ha
  exact h position

end Takes

/-! ## What was there -/

namespace Gives

variable {post : List TokenKind → α → Prop} {post' : List TokenKind → β → Prop}

theorem pure {a : α} (h : post [] a) : Gives (Pure.pure a) post := by
  intro s b s' hrun
  obtain ⟨rfl, rfl⟩ := run_pure_eq_ok.1 hrun
  exact ⟨[], rfl, h⟩

theorem fail {cause : SyntaxCause} : Gives (Parser.fail cause) post :=
  fun _ _ _ hrun => absurd hrun (run_fail_ne_ok cause)

theorem failAt {position : Position} {cause : SyntaxCause} : Gives (Parser.failAt position cause) post :=
  fun _ _ _ hrun => absurd hrun (run_failAt_ne_ok position cause)

theorem bind (h : Gives p post)
    (h' : ∀ a used, post used a → Gives (f a) fun used' b => post' (used ++ used') b) :
    Gives (p >>= f) post' := by
  intro s b s' hrun
  obtain ⟨a, s₁, hrun₁, hrun₂⟩ := run_bind_eq_ok.1 hrun
  obtain ⟨used, hs, ha⟩ := h s a s₁ hrun₁
  obtain ⟨used', hs₁, hb⟩ := h' a used ha s₁ b s' hrun₂
  exact ⟨used ++ used', by rw [hs, hs₁, List.append_assoc], hb⟩

/-- What comes behind a failure does not count. -/
theorem fail_bind {cause : SyntaxCause} : Gives (Parser.fail cause >>= f) post' := by
  have hnever : Gives (Parser.fail cause : Parser α) fun _ _ => False := fail
  exact hnever.bind fun _ _ h => h.elim

theorem failAt_bind {position : Position} {cause : SyntaxCause} :
    Gives (Parser.failAt position cause >>= f) post' := by
  have hnever : Gives (Parser.failAt position cause : Parser α) fun _ _ => False := failAt
  exact hnever.bind fun _ _ h => h.elim

theorem mono {post₀ : List TokenKind → α → Prop} (h : Gives p post₀)
    (h' : ∀ used a, post₀ used a → post used a) : Gives p post := by
  intro s a s' hrun
  obtain ⟨used, hs, ha⟩ := h s a s' hrun
  exact ⟨used, hs, h' used a ha⟩

theorem peek {f : Option TokenKind → Parser β} (h : ∀ found, GivesAt found (f found) post') :
    Gives (Parser.peek >>= f) post' := by
  intro s b s' hrun
  rw [run_peek_bind] at hrun
  exact h _ s b s' rfl hrun

theorem here {f : Position → Parser β} (h : ∀ position, Gives (f position) post') :
    Gives (Parser.here >>= f) post' := by
  intro s b s' hrun
  obtain ⟨position, s₁, hrun₁, hrun₂⟩ := run_bind_eq_ok.1 hrun
  cases hrun₁
  exact h _ s b s' hrun₂

end Gives

theorem Gives.at {post : List TokenKind → α → Prop} (h : Gives p post) (found : Option TokenKind) :
    GivesAt found p post :=
  fun s a s' _ hrun => h s a s' hrun

theorem GivesAt.advance {f : Unit → Parser β} {post : List TokenKind → β → Prop}
    (h : Gives (f ()) fun used b => post (kind :: used) b) :
    GivesAt (some kind) (Parser.advance >>= f) post := by
  intro s b s' hs hrun
  obtain ⟨_, s₁, hrun₁, hrun₂⟩ := run_bind_eq_ok.1 hrun
  cases hrun₁
  obtain ⟨used, hused, hb⟩ := h _ b s' hrun₂
  refine ⟨kind :: used, ?_, hb⟩
  rw [kinds_tail] at hused
  rw [List.cons_append, ← hused]
  exact kinds_eq_cons hs

namespace Gives

variable {post : List TokenKind → β → Prop}

theorem expect {f : Unit → Parser β} (h : Gives (f ()) fun used b => post (kind :: used) b) :
    Gives (Parser.expect kind >>= f) post := by
  have hgiven : Gives (Parser.expect kind) fun used _ => used = [kind] := by
    refine peek fun found => ?_
    split
    · rename_i hfound
      subst hfound
      intro s a s' hs hrun
      rw [run_advance] at hrun
      cases hrun
      exact ⟨[kind], by rw [kinds_tail]; exact kinds_eq_cons hs, rfl⟩
    · exact fail.at _
  refine hgiven.bind fun _ used hused => ?_
  subst hused
  exact h

theorem accept {f : Bool → Parser β} (h : Gives (f true) fun used b => post (kind :: used) b)
    (h' : Gives (f false) post) : Gives (Parser.accept kind >>= f) post := by
  have hgiven : Gives (Parser.accept kind) fun used b =>
      used = [kind] ∧ b = true ∨ used = [] ∧ b = false := by
    refine peek fun found => ?_
    split
    · rename_i hfound
      subst hfound
      exact .advance (pure (.inl ⟨rfl, rfl⟩))
    · exact (pure (.inr ⟨rfl, rfl⟩)).at _
  refine hgiven.bind fun b used hused => ?_
  obtain ⟨rfl, rfl⟩ | ⟨rfl, rfl⟩ := hused
  · exact h
  · exact h'

theorem name {f : String → Parser β}
    (h : ∀ word, Gives (f word) fun used b => post (.name word :: used) b) :
    Gives (Parser.name >>= f) post := by
  have hgiven : Gives Parser.name fun used word => used = [.name word] := by
    refine peek fun found => ?_
    split
    · exact .advance (pure rfl)
    · exact fail.at _
  refine hgiven.bind fun word used hused => ?_
  subst hused
  exact h word

theorem placedName {f : String × Position → Parser β}
    (h : ∀ word position, Gives (f (word, position)) fun used b => post (.name word :: used) b) :
    Gives (Parser.placedName >>= f) post := by
  have hgiven : Gives Parser.placedName fun used a => used = [.name a.1] :=
    here fun _ => name fun _ => pure rfl
  refine hgiven.bind fun a used hused => ?_
  subst hused
  exact h a.1 a.2

/-- Where a word has to come next. -/
theorem word {f : Unit → Parser β} {word : String} {cause : Option TokenKind → SyntaxCause}
    (h : Gives (f ()) fun used b => post (.name word :: used) b) :
    Gives (Parser.atWord word >>= fun found =>
      if found then Parser.advance >>= f else Parser.peek >>= fun other => Parser.fail (cause other) >>= f)
      post := by
  have hfail : Gives (Parser.peek >>= fun other => Parser.fail (cause other) >>= f) post :=
    peek fun _ => Gives.at fail_bind _
  intro s b s' hrun
  obtain ⟨found, s₁, hword, hrest⟩ := run_bind_eq_ok.1 hrun
  rw [Parser.atWord, run_peek_bind] at hword
  obtain ⟨rfl, rfl⟩ := run_pure_eq_ok.1 hword
  split at hrest
  · rename_i hhead
    exact GivesAt.advance h s b s' (of_decide_eq_true hhead) hrest
  · exact hfail s b s' hrest

end Gives

end SiteHost.Script
