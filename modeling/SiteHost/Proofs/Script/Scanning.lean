import SiteHost.Proofs.Text.Digits
import SiteHost.Script.Scan

/-!
# What text is read as

A text is read from left to right and a token ends where it cannot go on, so that a part of a text has
tokens of its own only together with what follows it:

* `Spells` — characters that are one token wherever certain characters follow;
* `Lexes` — a text that is read as tokens of certain kinds wherever certain characters follow.

Principal results:

* `spells_mark`, `spells_word`, `spells_number`, `spells_verbatim`, `spells_escaped` — marks, names, numbers
  and literals are read as what they are;
* `lexes_of_scan` — a text that has tokens of its own has the same tokens before a line feed, whatever
  comes then;
* `scan_of_lexes` — a text has the tokens it is read as.
-/

namespace SiteHost.Script

open SiteHost.Text

/-- Whether a text is read as tokens of certain kinds wherever the characters `next` follow. -/
def Lexes (cs : List Char) (kinds : List TokenKind) (next : List Char) : Prop :=
  ∀ (done : List Token) (p : Position), ∃ (tokens : List Token) (p' : Position),
    tokens.map Token.kind = kinds ∧
      scanFrom done ⟨cs ++ next, p⟩ = scanFrom (tokens.reverse ++ done) ⟨next, p'⟩

variable {c : Char} {cs ds rest next : List Char} {kinds kinds' : List TokenKind} {kind : TokenKind}
  {p : Position} {k k₁ : Cursor} {done : List Token}

namespace Lexes

theorem nil : Lexes [] [] next := fun _ p => ⟨[], p, rfl, rfl⟩

/-- Texts are read one after the other. -/
theorem append (h : Lexes cs kinds (ds ++ next)) (h' : Lexes ds kinds' next) :
    Lexes (cs ++ ds) (kinds ++ kinds') next := by
  intro done p
  obtain ⟨tokens, p₁, rfl, hscan⟩ := h done p
  obtain ⟨tokens', p₂, rfl, hscan'⟩ := h' (tokens.reverse ++ done) p₁
  refine ⟨tokens ++ tokens', p₂, List.map_append, ?_⟩
  rw [List.append_assoc, hscan, hscan', List.reverse_append, List.append_assoc]

end Lexes

/-! ## Blanks and comments -/

theorem skipTrivia_eq (cs : List Char) (p : Position) : skipTrivia ⟨cs, p⟩ =
    match cs with
    | '/' :: '/' :: rest => skipTrivia (Cursor.skip (· ≠ '\n') ⟨rest, (p.after '/').after '/'⟩)
    | '/' :: '*' :: rest =>
      match blockComment? rest ((p.after '/').after '*') with
      | some next => skipTrivia next
      | none => .error ⟨.openComment, p⟩
    | c :: rest => if isBlank c then skipTrivia ⟨rest, p.after c⟩ else .ok ⟨c :: rest, p⟩
    | [] => .ok ⟨[], p⟩ := by
  rw [skipTrivia]
  dsimp only
  split
  · rfl
  · split <;> rename_i hstep <;> simp only [hstep]
  · rename_i c rest hline hblock
    generalize hstep : (if isBlank c = true then skipTrivia ⟨rest, p.after c⟩
      else Except.ok ⟨c :: rest, p⟩) = step
    split
    · rename_i heq
      cases heq
      exact (hline _ rfl rfl).elim
    · rename_i heq
      cases heq
      exact (hblock _ rfl rfl).elim
    · rename_i heq
      cases heq
      exact hstep.symm
    · rename_i heq
      cases heq
  · rfl

theorem skipTrivia_of_blank (h : isBlank c = true) (rest : List Char) (p : Position) :
    skipTrivia ⟨c :: rest, p⟩ = skipTrivia ⟨rest, p.after c⟩ := by
  have hslash : c ≠ '/' := by
    rintro rfl
    exact absurd h (by decide)
  rw [skipTrivia_eq]
  split
  · rename_i heq
    exact absurd (List.cons.inj heq).1 hslash
  · rename_i heq
    exact absurd (List.cons.inj heq).1 hslash
  · rename_i heq
    cases heq
    rw [if_pos h]
  · rename_i heq
    cases heq

theorem skipTrivia_of_not (h : isBlank c = false)
    (hopen : c = '/' → rest.head? ≠ some '/' ∧ rest.head? ≠ some '*') (p : Position) :
    skipTrivia ⟨c :: rest, p⟩ = .ok ⟨c :: rest, p⟩ := by
  rw [skipTrivia_eq]
  split
  · rename_i heq
    cases heq
    exact absurd rfl (hopen rfl).1
  · rename_i heq
    cases heq
    exact absurd rfl (hopen rfl).2
  · rename_i heq
    cases heq
    rw [if_neg (by rw [h]; exact Bool.false_ne_true)]
  · rename_i heq
    cases heq

/-- One token and the rest. -/
theorem scanFrom_eq (done : List Token) (k : Cursor) : scanFrom done k =
    match skipTrivia k with
    | .error e => .error e
    | .ok ⟨[], stop⟩ => .ok ⟨done.reverse, stop⟩
    | .ok ⟨c :: rest, p⟩ =>
      match lexeme c rest p with
      | .error e => .error e
      | .ok (kind, next) => scanFrom (⟨kind, p⟩ :: done) next := by
  rw [scanFrom]
  split
  · rename_i hk
    rw [hk]
  · rename_i hk
    rw [hk]
  · rename_i hk
    rw [hk]
    dsimp only
    split
    · rename_i hl
      rw [hl]
    · rename_i hl
      rw [hl]

/-- What is skipped before a token does not count. -/
theorem scanFrom_congr {k k' : Cursor} (h : skipTrivia k = skipTrivia k') (done : List Token) :
    scanFrom done k = scanFrom done k' := by
  rw [scanFrom_eq, scanFrom_eq, h]

/-- A token is put before the tokens that follow. -/
theorem scanFrom_of_lexeme {k' : Cursor} (hskip : skipTrivia k = .ok ⟨c :: rest, p⟩)
    (h : lexeme c rest p = .ok (kind, k')) (done : List Token) :
    scanFrom done k = scanFrom (⟨kind, p⟩ :: done) k' := by
  rw [scanFrom_eq, hskip]
  dsimp only
  rw [h]

theorem lexes_blank (h : isBlank c = true) : Lexes [c] [] next := by
  intro done p
  exact ⟨[], p.after c, rfl, scanFrom_congr (skipTrivia_of_blank h next p) done⟩

theorem lexes_blanks (h : ∀ c ∈ cs, isBlank c = true) : Lexes cs [] next := by
  induction cs with
  | nil => exact .nil
  | cons c rest ih =>
    exact (lexes_blank (h c List.mem_cons_self)).append
      (ih fun d hd => h d (List.mem_cons_of_mem c hd))

/-! ## Single tokens -/

/-- Whether characters are one token wherever they stand and the characters `next` follow. -/
def Spells (cs : List Char) (kind : TokenKind) (next : List Char) : Prop :=
  ∃ c rest, cs = c :: rest ∧ isBlank c = false ∧ c ≠ '/' ∧
    ∀ p, lexeme c (rest ++ next) p = .ok (kind, ⟨next, p.afterAll cs⟩)

namespace Spells

/-- A token stands where its first character does. -/
theorem scanFrom_eq (h : Spells cs kind next) (done : List Token) (p : Position) :
    scanFrom done ⟨cs ++ next, p⟩ = scanFrom (⟨kind, p⟩ :: done) ⟨next, p.afterAll cs⟩ := by
  obtain ⟨c, rest, rfl, hblank, hslash, hlexeme⟩ := h
  exact scanFrom_of_lexeme (skipTrivia_of_not hblank (fun heq => absurd heq hslash) p) (hlexeme p) done

theorem lexes (h : Spells cs kind next) : Lexes cs [kind] next :=
  fun done p => ⟨[⟨kind, p⟩], p.afterAll cs, rfl, h.scanFrom_eq done p⟩

end Spells

theorem spells_mark (h : kind.mark? = some c) : Spells [c] kind next := by
  have hmark : TokenKind.ofMark? c = some kind := TokenKind.ofMark?_eq_some_iff.2 h
  have hplain : isBlank c = false ∧ c ≠ '/' := by
    cases kind <;> cases h <;> decide
  refine ⟨c, [], rfl, hplain.1, hplain.2, fun p => ?_⟩
  unfold lexeme
  rw [hmark]
  rfl

theorem lexes_mark (h : kind.mark? = some c) : Lexes [c] [kind] next := (spells_mark h).lexes

theorem contains_cons_cons (low high n : Nat) (bounds : InversionList) :
    InversionList.contains (low :: high :: bounds) n = true ↔
      low ≤ n ∧ (n < high ∨ InversionList.contains bounds n = true) := by
  by_cases hlow : n < low
  · rw [InversionList.contains_of_lt hlow]
    exact ⟨fun h => (by cases h), fun h => absurd h.1 (Nat.not_le.2 hlow)⟩
  · rw [InversionList.contains_of_le (Nat.not_lt.1 hlow)]
    by_cases hhigh : n < high
    · rw [InversionList.contains_of_lt hhigh]
      exact ⟨fun _ => ⟨Nat.not_lt.1 hlow, .inl hhigh⟩, fun _ => rfl⟩
    · rw [InversionList.contains_of_le (Nat.not_lt.1 hhigh), Bool.not_not]
      exact ⟨fun h => ⟨Nat.not_lt.1 hlow, .inr h⟩, fun h => h.2.resolve_left hhigh⟩

/-- The blanks one by one. -/
def blanks : List Nat :=
  [9, 10, 11, 12, 13, 32, 133, 160, 5760, 8192, 8193, 8194, 8195, 8196, 8197, 8198, 8199, 8200, 8201,
    8202, 8232, 8233, 8239, 8287, 12288]

theorem mem_blanks (h : isBlank c = true) : c.toNat ∈ blanks := by
  have hnil : InversionList.contains [] c.toNat = false := rfl
  unfold isBlank blankBounds at h
  simp only [contains_cons_cons, hnil, Bool.false_eq_true, or_false] at h
  simp only [blanks, List.mem_cons, List.not_mem_nil, or_false]
  omega

/-- A property of single characters holds of all characters whose numbers are listed. -/
theorem of_mem_toNat {ns : List Nat} {q : Char → Prop} (h : ∀ n ∈ ns, q (Char.ofNat n))
    (hc : c.toNat ∈ ns) : q c :=
  c.ofNat_toNat ▸ h c.toNat hc

theorem isNameStart_of_isBlank (h : isBlank c = true) : isNameStart c = false := by
  have hblanks : ∀ n ∈ blanks, isNameStart (Char.ofNat n) = false := by decide +kernel
  exact of_mem_toNat (q := fun c => isNameStart c = false) hblanks (mem_blanks h)

theorem mem_of_isDigit (h : c.isDigit = true) : c.toNat ∈ [48, 49, 50, 51, 52, 53, 54, 55, 56, 57] := by
  simp only [Char.isDigit, Bool.and_eq_true, decide_eq_true_eq, ge_iff_le, UInt32.le_iff_toNat_le] at h
  have hval : c.toNat = c.val.toNat := rfl
  simp only [List.mem_cons, List.not_mem_nil, or_false]
  simp at h
  omega

theorem isNameStart_of_isDigit (h : c.isDigit = true) : isNameStart c = false :=
  of_mem_toNat (q := fun c => isNameStart c = false) (by decide +kernel) (mem_of_isDigit h)

/-- The characters that begin a name begin nothing else. -/
theorem plain_of_isNameStart (h : isNameStart c = true) : TokenKind.ofMark? c = none ∧ c ≠ '"' ∧
    c ≠ '@' ∧ c.isDigit = false ∧ isBlank c = false ∧ c ≠ '/' := by
  refine ⟨?_, ?_, ?_, ?_, ?_, ?_⟩
  · cases hmark : TokenKind.ofMark? c with
    | none => rfl
    | some kind =>
      rw [TokenKind.ofMark?_eq_some_iff] at hmark
      cases kind <;> cases hmark <;> exact absurd h (by decide)
  · rintro rfl
    exact absurd h (by decide)
  · rintro rfl
    exact absurd h (by decide)
  · cases hdigit : c.isDigit with
    | false => rfl
    | true =>
      rw [isNameStart_of_isDigit hdigit] at h
      cases h
  · cases hblank : isBlank c with
    | false => rfl
    | true =>
      rw [isNameStart_of_isBlank hblank] at h
      cases h
  · rintro rfl
    exact absurd h (by decide)

/-- **A name is read as far as it goes.** -/
theorem spells_word (h : isNameStart c = true) (hcs : ∀ d ∈ cs, isNamePart d = true)
    (hnext : ∀ d, next.head? = some d → isNamePart d = false) :
    Spells (c :: cs) (.name (String.ofList (c :: cs))) next := by
  obtain ⟨hmark, hquote, hat, hdigit, hblank, hslash⟩ := plain_of_isNameStart h
  refine ⟨c, cs, rfl, hblank, hslash, fun p => ?_⟩
  unfold lexeme
  rw [hmark]
  dsimp only
  rw [if_neg hquote, if_neg hat, if_neg (by rw [hdigit]; exact Bool.false_ne_true), if_pos h, Cursor.skip,
    takeWhile_append_of_head? hcs hnext, dropWhile_append_of_head? hcs hnext, Position.afterAll_cons]

/-- The characters that begin a number begin nothing else. -/
theorem plain_of_isDigit (h : c.isDigit = true) :
    TokenKind.ofMark? c = none ∧ c ≠ '"' ∧ c ≠ '@' ∧ isBlank c = false ∧ c ≠ '/' :=
  of_mem_toNat (q := fun c => TokenKind.ofMark? c = none ∧ c ≠ '"' ∧ c ≠ '@' ∧ isBlank c = false ∧ c ≠ '/')
    (by decide) (mem_of_isDigit h)

/-- **A number is read as the value of its digits.** -/
theorem spells_number (hne : ds ≠ []) (hds : ∀ d ∈ ds, d.isDigit = true) (hvalue : digitsValue ds ≤ int64Max)
    (hnext : ∀ d, next.head? = some d → d.isDigit = false) :
    Spells ds (.number (Int64.ofNat (digitsValue ds))) next := by
  obtain ⟨c, cs, rfl⟩ := List.exists_cons_of_ne_nil hne
  have hdigit := hds c List.mem_cons_self
  have hcs : ∀ d ∈ cs, d.isDigit = true := fun d hd => hds d (List.mem_cons_of_mem c hd)
  obtain ⟨hmark, hquote, hat, hblank, hslash⟩ := plain_of_isDigit hdigit
  refine ⟨c, cs, rfl, hblank, hslash, fun p => ?_⟩
  unfold lexeme
  rw [hmark]
  dsimp only
  rw [if_neg hquote, if_neg hat, if_pos hdigit, Cursor.skip, takeWhile_append_of_head? hcs hnext,
    dropWhile_append_of_head? hcs hnext, if_pos hvalue, Position.afterAll_cons]

/-- Characters with every quote written twice. -/
def doubled (t : List Char) : List Char := t.flatMap fun d => if d = '"' then ['"', '"'] else [d]

/-- Doubled characters are read as they are, whatever follows. -/
theorem verbatimText_doubled (t next : List Char) (start : Position) (done : List Char) (p : Position) :
    verbatimText start done (doubled t ++ next) p =
      verbatimText start (t.reverse ++ done) next (p.afterAll (doubled t)) := by
  induction t generalizing done p with
  | nil => rfl
  | cons d rest ih =>
    have hcons : doubled (d :: rest) = (if d = '"' then ['"', '"'] else [d]) ++ doubled rest :=
      List.flatMap_cons
    rw [List.reverse_cons, List.append_assoc, List.singleton_append, hcons]
    by_cases hquote : d = '"'
    · subst hquote
      rw [if_pos rfl]
      exact ih ('"' :: done) ((p.after '"').after '"')
    · rw [if_neg hquote, List.append_assoc, List.singleton_append, verbatimText]
      · exact ih (d :: done) (p.after d)
      · exact fun _ heq _ => hquote heq
      · exact hquote

/-- A verbatim literal ends in a quote that stands alone. -/
theorem verbatimText_quote (hnext : next.head? ≠ some '"') (start : Position) (done : List Char) (p : Position) :
    verbatimText start done ('"' :: next) p = .ok (.text (String.ofList done.reverse), ⟨next, p.after '"'⟩) := by
  rw [verbatimText]
  rintro rest rfl
  exact hnext rfl

/-- **A verbatim literal is read as its text**, every quote of which is written twice. -/
theorem spells_verbatim (t : List Char) (hnext : next.head? ≠ some '"') :
    Spells ('@' :: '"' :: (doubled t ++ ['"'])) (.text (String.ofList t)) next := by
  refine ⟨'@', '"' :: (doubled t ++ ['"']), rfl, by decide, by decide, fun p => ?_⟩
  have htext := verbatimText_doubled t ('"' :: next) p [] ((p.after '@').after '"')
  rw [verbatimText_quote hnext, List.append_nil, List.reverse_reverse] at htext
  rw [List.cons_append, List.append_assoc, Position.afterAll_cons, Position.afterAll_cons,
    Position.afterAll_append]
  exact htext

theorem lexes_verbatim (t : List Char) (hnext : next.head? ≠ some '"') :
    Lexes ('@' :: '"' :: (doubled t ++ ['"'])) [.text (String.ofList t)] next :=
  (spells_verbatim t hnext).lexes

/-- Characters between quotes that stand for a text: a backslash with the character of an escape, or a
character that needs none. -/
inductive Escapes : List Char → List Char → Prop
  | nil : Escapes [] []
  | escape {c d : Char} {cs t : List Char} (h : escaped? c = some d) (rest : Escapes cs t) :
      Escapes ('\\' :: c :: cs) (d :: t)
  | plain {c : Char} {cs t : List Char} (hquote : c ≠ '"') (hescape : c ≠ '\\') (hline : c ≠ '\n')
      (rest : Escapes cs t) : Escapes (c :: cs) (c :: t)

/-- Escaped characters are read as what they stand for, whatever follows. -/
theorem escapedText_of_escapes {t : List Char} (h : Escapes cs t) (next : List Char) (start : Position)
    (done : List Char) (p : Position) :
    escapedText start done (cs ++ next) p = escapedText start (t.reverse ++ done) next (p.afterAll cs) := by
  induction h generalizing done p with
  | nil => rfl
  | @escape c d cs t hescape rest ih =>
    rw [List.cons_append, List.cons_append, escapedText, List.reverse_cons, List.append_assoc]
    simp only [hescape]
    exact ih (d :: done) ((p.after '\\').after c)
  | @plain c cs t hquote hescape hline rest ih =>
    rw [List.cons_append, escapedText, List.reverse_cons, List.append_assoc]
    · exact ih (c :: done) (p.after c)
    · exact hquote
    · exact fun _ _ heq _ => hescape heq
    · exact fun heq _ => hescape heq
    · exact hline

/-- **A literal with escapes is read as its text.** -/
theorem spells_escaped {t : List Char} (h : Escapes cs t) :
    Spells ('"' :: (cs ++ ['"'])) (.text (String.ofList t)) next := by
  refine ⟨'"', cs ++ ['"'], rfl, by decide, by decide, fun p => ?_⟩
  have htext := escapedText_of_escapes h ('"' :: next) p [] (p.after '"')
  rw [List.append_nil, escapedText, List.reverse_reverse] at htext
  rw [List.append_assoc, Position.afterAll_cons, Position.afterAll_append]
  exact htext

/-! ## Texts with tokens of their own -/

theorem blockComment?_append (h : blockComment? cs p = some k) (next : List Char) (p' : Position) :
    ∃ q, blockComment? (cs ++ next) p' = some ⟨k.rest ++ next, q⟩ := by
  fun_induction blockComment? cs p generalizing p' with
  | case1 rest p =>
    cases h
    exact ⟨_, rfl⟩
  | case2 c rest p hopen ih =>
    obtain ⟨q, hq⟩ := ih h (p'.after c)
    refine ⟨q, ?_⟩
    rw [List.cons_append, blockComment?]
    · exact hq
    · intro rest' hstar heq
      cases rest with
      | nil => cases h
      | cons d rest => exact hopen rest hstar (by rw [(List.cons.inj heq).1])
  | case3 => cases h

/-- What is skipped is skipped before a line feed, too; and so is the line feed if nothing else comes. -/
theorem skipTrivia_append (h : skipTrivia k = .ok k₁) (next : List Char) (p : Position) :
    ∃ q, skipTrivia ⟨k.rest ++ '\n' :: next, p⟩ = if k₁.rest = [] then skipTrivia ⟨next, q⟩
      else .ok ⟨k₁.rest ++ '\n' :: next, q⟩ := by
  fun_induction skipTrivia k generalizing p with
  | case1 k rest hk ih =>
    obtain ⟨q, hq⟩ := ih h (((p.after '/').after '/').afterAll
      ((rest ++ '\n' :: next).takeWhile (· ≠ '\n')))
    refine ⟨q, ?_⟩
    rw [hk, List.cons_append, List.cons_append, skipTrivia_eq]
    have hdrop : (rest ++ '\n' :: next).dropWhile (· ≠ '\n') =
        rest.dropWhile (· ≠ '\n') ++ '\n' :: next := by
      rw [List.dropWhile_append]
      split
      · rename_i hnil
        rw [List.isEmpty_iff.1 hnil]
        rfl
      · rfl
    simp only [Cursor.skip, hdrop]
    exact hq
  | case2 k rest hk step hstep ih =>
    obtain ⟨q, hq⟩ := blockComment?_append hstep ('\n' :: next) ((p.after '/').after '*')
    obtain ⟨q', hq'⟩ := ih h q
    refine ⟨q', ?_⟩
    rw [hk, List.cons_append, List.cons_append, skipTrivia_eq]
    simp only [hq]
    exact hq'
  | case3 => cases h
  | case4 k c rest hline hblock hk hblank ih =>
    obtain ⟨q, hq⟩ := ih h (p.after c)
    refine ⟨q, ?_⟩
    rw [hk, List.cons_append, skipTrivia_of_blank hblank]
    exact hq
  | case5 k c rest hline hblock hk hblank =>
    cases h
    refine ⟨p, ?_⟩
    rw [hk, if_neg (List.cons_ne_nil c rest), List.cons_append, skipTrivia_of_not (by simpa using hblank)]
    rintro rfl
    cases rest with
    | nil => exact ⟨fun heq => (by cases heq), fun heq => (by cases heq)⟩
    | cons d rest =>
      refine ⟨fun heq => ?_, fun heq => ?_⟩
      · cases heq
        exact hline rest rfl rfl
      · cases heq
        exact hblock rest rfl rfl
  | case6 k hk =>
    cases h
    refine ⟨p.after '\n', ?_⟩
    rw [hk, if_pos rfl, List.nil_append, skipTrivia_of_blank (by decide)]

theorem escapedText_append {start : Position} {read : List Char}
    (h : escapedText start read cs p = .ok (kind, k)) (next : List Char) (start' p' : Position) :
    ∃ q, escapedText start' read (cs ++ next) p' = .ok (kind, ⟨k.rest ++ next, q⟩) := by
  fun_induction escapedText start read cs p generalizing p' with
  | case1 =>
    cases h
    exact ⟨_, rfl⟩
  | case2 read c rest p _ d hd ih =>
    obtain ⟨q, hq⟩ := ih h ((p'.after '\\').after c)
    refine ⟨q, ?_⟩
    rw [List.cons_append, List.cons_append, escapedText]
    simp only [hd]
    exact hq
  | case3 => cases h
  | case4 => cases h
  | case5 => cases h
  | case6 read c rest p hquote hescape hlast hline ih =>
    obtain ⟨q, hq⟩ := ih h (p'.after c)
    refine ⟨q, ?_⟩
    rw [List.cons_append, escapedText]
    · exact hq
    · exact hquote
    · intro d rest' hc heq
      cases rest with
      | nil => exact hlast hc rfl
      | cons e rest => exact hescape e rest hc rfl
    · intro hc heq
      cases rest with
      | nil => exact hlast hc rfl
      | cons e rest => cases heq
    · exact hline
  | case7 => cases h

theorem verbatimText_append {start : Position} {read : List Char}
    (h : verbatimText start read cs p = .ok (kind, k)) (next : List Char) (start' p' : Position) :
    ∃ q, verbatimText start' read (cs ++ '\n' :: next) p' = .ok (kind, ⟨k.rest ++ '\n' :: next, q⟩) := by
  fun_induction verbatimText start read cs p generalizing p' with
  | case1 read rest p ih =>
    obtain ⟨q, hq⟩ := ih h ((p'.after '"').after '"')
    exact ⟨q, hq⟩
  | case2 read rest p hquote =>
    cases h
    refine ⟨p'.after '"', ?_⟩
    rw [List.cons_append, verbatimText]
    intro rest' heq
    cases rest with
    | nil => cases heq
    | cons d rest => exact hquote rest (by rw [(List.cons.inj heq).1])
  | case3 read c rest p hdouble hquote ih =>
    obtain ⟨q, hq⟩ := ih h (p'.after c)
    refine ⟨q, ?_⟩
    rw [List.cons_append, verbatimText]
    · exact hq
    · exact fun _ hc _ => hquote hc
    · exact hquote
  | case4 => cases h

theorem skip_append (q : Char → Bool) (hline : q '\n' = false) (cs next : List Char) :
    (cs ++ '\n' :: next).takeWhile q = cs.takeWhile q ∧
      (cs ++ '\n' :: next).dropWhile q = cs.dropWhile q ++ '\n' :: next := by
  induction cs with
  | nil => simp [hline]
  | cons c rest ih =>
    cases hc : q c with
    | true => simp [hc, ih]
    | false => simp [hc]

/-- A token is read before a line feed as it is read at the end. -/
theorem lexeme_append (h : lexeme c rest p = .ok (kind, k)) (next : List Char) (p' : Position) :
    ∃ q, lexeme c (rest ++ '\n' :: next) p' = .ok (kind, ⟨k.rest ++ '\n' :: next, q⟩) := by
  unfold lexeme at h ⊢
  split at h
  · cases h
    exact ⟨_, rfl⟩
  · dsimp only at h ⊢
    split at h
    · rename_i hquote
      rw [if_pos hquote]
      exact escapedText_append h _ _ _
    · rename_i hquote
      rw [if_neg hquote]
      split at h
      · rename_i hat
        rw [if_pos hat]
        split at h
        · exact verbatimText_append h _ _ _
        · cases h
      · rename_i hat
        rw [if_neg hat]
        split at h
        · rename_i hdigit
          rw [if_pos hdigit]
          obtain ⟨htake, hdrop⟩ := skip_append Char.isDigit (by decide) rest next
          rw [htake]
          split at h
          · rename_i hvalue
            rw [if_pos hvalue]
            cases h
            exact ⟨_, by rw [Cursor.skip, hdrop]; rfl⟩
          · cases h
        · rename_i hdigit
          rw [if_neg hdigit]
          obtain ⟨htake, hdrop⟩ := skip_append isNamePart (by decide) rest next
          rw [htake]
          split at h
          · rename_i hstart
            rw [if_pos hstart]
            cases h
            exact ⟨_, by rw [Cursor.skip, hdrop]; rfl⟩
          · cases h

/-- The tokens that a text has of its own come before those that follow a line feed. -/
theorem lexes_of_scanFrom {s : TokenStream} (h : scanFrom done k = .ok s) :
    ∃ kinds, s.tokens.map Token.kind = (done.map Token.kind).reverse ++ kinds ∧
      ∀ next, Lexes (k.rest ++ ['\n']) kinds next := by
  fun_induction scanFrom done k with
  | case1 => cases h
  | case2 done k stop hk =>
    cases h
    refine ⟨[], by rw [List.map_reverse, List.append_nil], fun next before p => ?_⟩
    obtain ⟨q, hq⟩ := skipTrivia_append hk next p
    refine ⟨[], q, rfl, ?_⟩
    rw [List.append_assoc]
    exact scanFrom_congr hq before
  | case3 => cases h
  | case4 done k c rest p hk kind after hl ih =>
    obtain ⟨kinds, hkinds, hlexes⟩ := ih h
    refine ⟨kind :: kinds, by rw [hkinds]; simp, fun next before p' => ?_⟩
    obtain ⟨q, hq⟩ := skipTrivia_append hk next p'
    rw [if_neg (List.cons_ne_nil c rest)] at hq
    obtain ⟨q', hq'⟩ := lexeme_append hl next q
    obtain ⟨tokens, q'', rfl, hscan⟩ := hlexes next (⟨kind, q⟩ :: before) q'
    refine ⟨⟨kind, q⟩ :: tokens, q'', rfl, ?_⟩
    rw [List.append_assoc] at hscan ⊢
    rw [List.singleton_append, scanFrom_of_lexeme hq hq', List.reverse_cons, List.append_assoc]
    exact hscan

/-- **A text that has tokens of its own has the same before a line feed**, whatever follows. -/
theorem lexes_of_scan {source : String} {s : TokenStream} (h : scan source = .ok s) :
    Lexes (source.toList ++ ['\n']) (s.tokens.map Token.kind) next := by
  obtain ⟨kinds, hkinds, hlexes⟩ := lexes_of_scanFrom h
  rw [hkinds]
  exact hlexes next

/-- The tokens of a text that is given by its characters. -/
theorem scan_ofList {source : String} {cs : List Char} (h : source = String.ofList cs) :
    scan source = scanFrom [] ⟨cs, .start⟩ := by
  rw [h, scan, String.toList_ofList]

/-- **A text has the tokens it is read as.** -/
theorem scan_of_lexes (h : Lexes cs kinds []) :
    ∃ s, scan (String.ofList cs) = .ok s ∧ s.tokens.map Token.kind = kinds := by
  obtain ⟨tokens, q, rfl, hscan⟩ := h [] .start
  refine ⟨⟨tokens, q⟩, ?_, rfl⟩
  rw [scan, String.toList_ofList]
  rw [List.append_nil] at hscan
  rw [hscan, scanFrom_eq, skipTrivia_eq]
  simp

end SiteHost.Script
