import SiteHost.Proofs.Script.Names

/-!
# Tokens written out and read again

A list of tokens may be written in many ways: texts as verbatim literals or with escapes, numbers with zeros
in front, and anything between two tokens that does not count. All of them are read as the same tokens:

* `Gap` — blanks, comments up to the end of a line and comments in between, in any order;
* `Writes` — the characters that a token may be written with, `TokenKind.chars` among them;
* `TokenKind.EndsBefore` — characters that do not go on with a token;
* `Written`, `Rendering`, `textOf` — tokens as they are written, with a gap behind each, and the whole text;
* `placeAfter` — the place behind characters at the start of a text, by its line feeds;
* `placed` — the tokens with the places of their first characters.

Principal results:

* `skipTrivia_gap` — a gap is skipped;
* `spells_of_writes` — what a token may be written with is read as the token;
* `exists_writes_iff`, `writable_of_scan` — which tokens can be written at all, and that texts have no others;
* `scan_rendering` — every rendering is read as its tokens.
-/

namespace SiteHost.Script

open SiteHost.Text

variable {c : Char} {cs ds next lead before : List Char} {kind : TokenKind} {p : Position}

/-! ## Places -/

/-- The place behind characters that begin a text: a line further for every line feed, a column further for
every character behind the last of them. -/
def placeAfter (before : List Char) : Position :=
  ⟨before.count '\n' + 1, (before.reverse.takeWhile (· ≠ '\n')).length + 1⟩

theorem placeAfter_append_singleton (before : List Char) (c : Char) :
    placeAfter (before ++ [c]) = (placeAfter before).after c := by
  rw [placeAfter, placeAfter, Position.after, List.count_append, List.reverse_append, List.reverse_singleton,
    List.singleton_append]
  by_cases hline : c = '\n'
  · subst hline
    rfl
  · rw [if_neg hline, List.takeWhile_cons_of_pos (by simpa using hline), List.length_cons,
      List.count_singleton, if_neg (by simpa using hline), Nat.add_zero]

/-- Places are counted as the characters are read. -/
theorem afterAll_placeAfter (before cs : List Char) :
    (placeAfter before).afterAll cs = placeAfter (before ++ cs) := by
  induction cs generalizing before with
  | nil => rw [Position.afterAll_nil, List.append_nil]
  | cons c rest ih =>
    rw [Position.afterAll_cons, ← placeAfter_append_singleton, ih, List.append_assoc, List.singleton_append]

/-- No place is further than the text is long. -/
theorem placeAfter_le (before : List Char) :
    (placeAfter before).line ≤ before.length + 1 ∧ (placeAfter before).column ≤ before.length + 1 := by
  have hcolumn := (List.takeWhile_sublist (fun d => decide (d ≠ '\n')) (l := before.reverse)).length_le
  rw [List.length_reverse] at hcolumn
  exact ⟨Nat.succ_le_succ List.count_le_length, Nat.succ_le_succ hcolumn⟩

/-- **Lines and columns have 32 bits** while a text is read that has at most 2 ^ 32 - 2 characters. -/
theorem placeAfter_lt_size {text : List Char} (h : before <+: text) (hshort : text.length + 1 < UInt32.size) :
    (placeAfter before).line < UInt32.size ∧ (placeAfter before).column < UInt32.size := by
  have hlength := h.length_le
  obtain ⟨hline, hcolumn⟩ := placeAfter_le before
  exact ⟨by omega, by omega⟩

/-! ## Gaps -/

/-- Characters that do not count: blanks, comments to the end of a line, and comments that end before any
other end of a comment. -/
inductive Gap : List Char → Prop
  | nil : Gap []
  | blank {c : Char} {cs : List Char} (h : isBlank c = true) (rest : Gap cs) : Gap (c :: cs)
  | line {text cs : List Char} (h : '\n' ∉ text) (rest : Gap cs) : Gap ('/' :: '/' :: (text ++ '\n' :: cs))
  | block {text cs : List Char} (h : ¬ ['*', '/'] <:+: text) (rest : Gap cs) :
      Gap ('/' :: '*' :: (text ++ '*' :: '/' :: cs))

/-- A block comment ends where its end stands first. -/
theorem blockComment?_of_not_infix (h : ¬ ['*', '/'] <:+: cs) (next : List Char) (p : Position) :
    blockComment? (cs ++ '*' :: '/' :: next) p = some ⟨next, p.afterAll (cs ++ ['*', '/'])⟩ := by
  induction cs generalizing p with
  | nil => rfl
  | cons c rest ih =>
    have hrest := ih (fun hinside => h (hinside.trans (List.suffix_cons c rest).isInfix)) (p.after c)
    rw [List.cons_append, blockComment?]
    · exact hrest
    · -- the comment would end here
      rintro more rfl heq
      cases rest with
      | nil => cases heq
      | cons d rest =>
        obtain rfl : d = '/' := (List.cons.inj heq).1
        exact h ⟨[], rest, rfl⟩

/-- **A gap is skipped.** -/
theorem skipTrivia_gap (h : Gap cs) (next : List Char) (p : Position) :
    skipTrivia ⟨cs ++ next, p⟩ = skipTrivia ⟨next, p.afterAll cs⟩ := by
  induction h generalizing p with
  | nil => rfl
  | blank hblank _ ih =>
    rw [List.cons_append, skipTrivia_of_blank hblank, ih, Position.afterAll_cons]
  | @line text cs hline _ ih =>
    have hkeep : ∀ d ∈ text, decide (d ≠ '\n') = true := fun d hd =>
      decide_eq_true fun heq => hline (heq ▸ hd)
    have hstop : ∀ d, ('\n' :: (cs ++ next)).head? = some d → decide (d ≠ '\n') = false := by
      intro d hd
      obtain rfl := Option.some.inj hd
      rfl
    rw [List.cons_append, List.cons_append, List.append_assoc, List.cons_append, skipTrivia_eq]
    simp only [Cursor.skip]
    rw [takeWhile_append_of_head? hkeep hstop, dropWhile_append_of_head? hkeep hstop,
      skipTrivia_of_blank isBlank_newline, ih]
    rw [Position.afterAll_cons, Position.afterAll_cons, Position.afterAll_append, Position.afterAll_cons]
  | @block text cs hblock _ ih =>
    have hend := blockComment?_of_not_infix hblock (cs ++ next) ((p.after '/').after '*')
    have hchars : '/' :: '*' :: (text ++ '*' :: '/' :: cs) ++ next =
        '/' :: '*' :: (text ++ '*' :: '/' :: (cs ++ next)) := by simp
    rw [hchars, skipTrivia_eq]
    simp only [hend]
    rw [ih, Position.afterAll_cons, Position.afterAll_cons, ← Position.afterAll_append, List.append_assoc]
    rfl

/-- What may stand behind a token: nothing, a blank or a comment. -/
def Separates (next : List Char) : Prop := ∀ d, next.head? = some d → isBlank d = true ∨ d = '/'

theorem Gap.separates (h : Gap cs) (hnext : cs = [] → next = []) : Separates (cs ++ next) := by
  intro d hd
  cases h with
  | nil =>
    rw [hnext rfl] at hd
    cases hd
  | blank hblank =>
    obtain rfl := Option.some.inj hd
    exact .inl hblank
  | line => exact .inr (Option.some.inj hd).symm
  | block => exact .inr (Option.some.inj hd).symm

/-- Characters that do not go on with a token: no part of a name behind a name, no digit behind a number, and
no quote behind a literal. -/
def TokenKind.EndsBefore : TokenKind → List Char → Prop
  | .name _, next => ∀ d, next.head? = some d → isNamePart d = false
  | .number _, next => ∀ d, next.head? = some d → d.isDigit = false
  | .text _, next => next.head? ≠ some '"'
  | _, _ => True

/-- Every token ends where nothing or a gap follows. -/
theorem Separates.endsBefore (h : Separates next) (kind : TokenKind) : kind.EndsBefore next := by
  have hstops (d : Char) (hd : next.head? = some d) :
      isNamePart d = false ∧ d.isDigit = false ∧ d ≠ '"' := by
    rcases h d hd with hblank | rfl
    · exact of_mem_toNat (q := fun d => isNamePart d = false ∧ d.isDigit = false ∧ d ≠ '"')
        (by decide +kernel) (mem_blanks hblank)
    · decide +kernel
  cases kind with
  | name => exact fun d hd => (hstops d hd).1
  | number => exact fun d hd => (hstops d hd).2.1
  | text => exact fun hquote => (hstops '"' hquote).2.2 rfl
  | _ => exact trivial

/-! ## Tokens as they are written -/

/-- The characters that a token may be written with. -/
inductive Writes : TokenKind → List Char → Prop
  | mark {kind : TokenKind} {c : Char} (h : kind.mark? = some c) : Writes kind [c]
  | name {word : String} (h : Config.isName word.toList = true) : Writes (.name word) word.toList
  | number {n : Int64} {digits : List Char} (hne : digits ≠ []) (hdigits : ∀ d ∈ digits, d.isDigit = true)
      (hvalue : (digitsValue digits : Int) = n.toInt) : Writes (.number n) digits
  | verbatim (text : String) : Writes (.text text) ('@' :: '"' :: (doubled text.toList ++ ['"']))
  | escaped {text : String} {cs : List Char} (h : Escapes cs text.toList) :
      Writes (.text text) ('"' :: (cs ++ ['"']))

theorem ofNat_of_toInt {n : Int64} {value : Nat} (h : (value : Int) = n.toInt) :
    value ≤ int64Max ∧ Int64.ofNat value = n := by
  have hbound : n.toInt < 2 ^ 63 := n.toInt_lt
  have hlt : value < 2 ^ 63 := by omega
  refine ⟨by unfold int64Max; omega, ?_⟩
  rw [← Int64.toInt_inj, Int64.toInt_ofNat_of_lt hlt, h]

/-- **What a token may be written with is read as the token.** -/
theorem spells_of_writes (h : Writes kind cs) (hnext : kind.EndsBefore next) : Spells cs kind next := by
  cases h with
  | mark h => exact spells_mark h
  | name h => exact spells_name h hnext
  | number hne hdigits hvalue =>
    obtain ⟨hbound, hsame⟩ := ofNat_of_toInt hvalue
    have hnumber := spells_number hne hdigits hbound hnext
    rwa [hsame] at hnumber
  | verbatim text =>
    have htext := spells_verbatim text.toList hnext
    rwa [String.ofList_toList] at htext
  | @escaped text cs h =>
    have htext : Spells _ (.text (String.ofList text.toList)) next := spells_escaped h
    rwa [String.ofList_toList] at htext

/-- The tokens that can be written at all: names that are names, and numbers without a sign. -/
def Writable : TokenKind → Prop
  | .name word => Config.isName word.toList = true
  | .number n => 0 ≤ n.toInt
  | _ => True

/-- The characters that a token is written with where nothing speaks for others: a text as a verbatim literal,
a number without zeros in front. -/
def TokenKind.chars : TokenKind → List Char
  | .name word => word.toList
  | .text value => '@' :: '"' :: (doubled value.toList ++ ['"'])
  | .number value => Nat.toDigits 10 value.toInt.toNat
  | mark => mark.mark?.toList

theorem writes_chars (h : Writable kind) : Writes kind kind.chars := by
  cases kind with
  | name word => exact .name h
  | text value => exact .verbatim value
  | number value =>
    refine .number Nat.toDigits_ne_nil (fun d hd => isDigit_of_mem_toDigits hd) ?_
    rw [TokenKind.chars, digitsValue_toDigits, Int.toNat_of_nonneg h]
  | _ => exact .mark rfl

/-- **Which tokens can be written at all.** -/
theorem exists_writes_iff : (∃ cs, Writes kind cs) ↔ Writable kind := by
  refine ⟨?_, fun h => ⟨_, writes_chars h⟩⟩
  rintro ⟨cs, h⟩
  cases h with
  | mark h => cases kind <;> first | exact trivial | cases h
  | name h => exact h
  | number _ _ hvalue =>
    rw [Writable, ← hvalue]
    exact Int.natCast_nonneg _
  | verbatim => exact trivial
  | escaped => exact trivial

/-! ## The tokens that texts have -/

theorem escapedText_kind {start : Position} {done : List Char} {k : Cursor}
    (h : escapedText start done cs p = .ok (kind, k)) : ∃ text, kind = .text text := by
  fun_induction escapedText start done cs p with
  | case1 =>
    cases h
    exact ⟨_, rfl⟩
  | case2 _ _ _ _ _ _ _ ih => exact ih h
  | case6 _ _ _ _ _ _ _ _ ih => exact ih h
  | case3 | case4 | case5 | case7 => cases h

theorem verbatimText_kind {start : Position} {done : List Char} {k : Cursor}
    (h : verbatimText start done cs p = .ok (kind, k)) : ∃ text, kind = .text text := by
  fun_induction verbatimText start done cs p with
  | case1 _ _ _ ih => exact ih h
  | case2 =>
    cases h
    exact ⟨_, rfl⟩
  | case3 _ _ _ _ _ _ ih => exact ih h
  | case4 => cases h

theorem writable_of_lexeme {rest : List Char} {k : Cursor} (h : lexeme c rest p = .ok (kind, k)) :
    Writable kind := by
  unfold lexeme at h
  split at h
  · rename_i mark hmark
    cases h
    exact exists_writes_iff.1 ⟨_, .mark (TokenKind.ofMark?_eq_some_iff.1 hmark)⟩
  · split at h
    · obtain ⟨text, rfl⟩ := escapedText_kind h
      exact trivial
    · split at h
      · split at h
        · obtain ⟨text, rfl⟩ := verbatimText_kind h
          exact trivial
        · cases h
      · split at h
        · dsimp only at h
          split at h
          · rename_i hvalue
            cases h
            unfold int64Max at hvalue
            rw [Writable, Int64.toInt_ofNat_of_lt (by omega)]
            exact Int.natCast_nonneg _
          · cases h
        · split at h
          · rename_i hstart
            cases h
            rw [Writable, String.toList_ofList, Config.isName, Bool.and_eq_true]
            exact ⟨hstart, List.all_takeWhile⟩
          · cases h

/-- **Every token of a text can be written.** -/
theorem writable_of_scan {source : String} {s : TokenStream} (h : scan source = .ok s) :
    ∀ kind ∈ s.kinds, Writable kind := by
  have hscan (done : List Token) (k : Cursor) (hdone : ∀ t ∈ done, Writable t.kind)
      (h : scanFrom done k = .ok s) : ∀ t ∈ s.tokens, Writable t.kind := by
    fun_induction scanFrom done k with
    | case1 => cases h
    | case2 =>
      cases h
      exact fun t ht => hdone t (List.mem_reverse.1 ht)
    | case3 => cases h
    | case4 done k c rest p hk kind next hl ih =>
      exact ih (List.forall_mem_cons.2 ⟨writable_of_lexeme hl, hdone⟩) h
  exact List.forall_mem_map.2 (hscan [] _ (List.forall_mem_nil _) h)

/-! ## Renderings -/

/-- A token as it is written, with the gap behind it. -/
structure Written where
  kind : TokenKind
  chars : List Char
  gap : List Char

/-- Whether tokens are written as they may be. A gap may be left out behind the last of them only. -/
def Rendering : List Written → Prop
  | [] => True
  | w :: rest => Writes w.kind w.chars ∧ Gap w.gap ∧ (w.gap = [] → rest = []) ∧ Rendering rest

/-- The characters of tokens as they are written. -/
def textOf (pieces : List Written) : List Char := pieces.flatMap fun w => w.chars ++ w.gap

/-- Tokens with their places behind the characters in front of them. -/
def placed (before : List Char) : List Written → List Token
  | [] => []
  | w :: rest => ⟨w.kind, placeAfter before⟩ :: placed (before ++ (w.chars ++ w.gap)) rest

theorem map_kind_placed (before : List Char) (pieces : List Written) :
    (placed before pieces).map Token.kind = pieces.map Written.kind := by
  induction pieces generalizing before with
  | nil => rfl
  | cons w rest ih => rw [placed, List.map_cons, List.map_cons, ih]

/-- Every token has its place behind a part of the text. -/
theorem place_of_mem_placed {pieces : List Written} {t : Token} (h : t ∈ placed before pieces) :
    ∃ front, front <+: before ++ textOf pieces ∧ t.position = placeAfter front := by
  induction pieces generalizing before with
  | nil => cases h
  | cons w rest ih =>
    rcases List.mem_cons.1 h with rfl | h
    · exact ⟨before, List.prefix_append _ _, rfl⟩
    · obtain ⟨front, hfront, hplace⟩ := ih h
      refine ⟨front, ?_, hplace⟩
      rwa [List.append_assoc] at hfront

/-- The tokens of a rendering are read one after the other. -/
theorem scanFrom_rendering {pieces : List Written} (h : Rendering pieces) (before : List Char)
    (done : List Token) :
    scanFrom done ⟨textOf pieces, placeAfter before⟩ =
      .ok ⟨done.reverse ++ placed before pieces, placeAfter (before ++ textOf pieces)⟩ := by
  induction pieces generalizing before done with
  | nil =>
    rw [textOf, List.flatMap_nil, scanFrom_eq, skipTrivia_eq]
    simp [placed]
  | cons w rest ih =>
    obtain ⟨hwrites, hgap, hlast, hrest⟩ := h
    have htext : textOf (w :: rest) = w.chars ++ (w.gap ++ textOf rest) := by
      rw [textOf, List.flatMap_cons, List.append_assoc, textOf]
    have hnext : Separates (w.gap ++ textOf rest) := hgap.separates fun hnil => by
      rw [hlast hnil]
      rfl
    have hspells := spells_of_writes hwrites (hnext.endsBefore _)
    have hplace : ((placeAfter before).afterAll w.chars).afterAll w.gap =
        placeAfter (before ++ (w.chars ++ w.gap)) := by
      rw [afterAll_placeAfter, afterAll_placeAfter, List.append_assoc]
    rw [htext, hspells.scanFrom_eq, scanFrom_congr (skipTrivia_gap hgap _ _), hplace, ih hrest, placed]
    simp

/-- **The lexer inverts rendering.** Tokens that are written as they may be, with gaps between them and
perhaps in front of the first and behind the last, are read as these tokens, each at the place of its first
character, and the text ends where it does. No line and no column needs more than 32 bits if the text has at
most 2 ^ 32 - 2 characters, so that even the column behind the last of them has no more. -/
theorem scan_rendering {lead : List Char} {pieces : List Written} (hlead : Gap lead) (h : Rendering pieces) :
    ∃ stream, scan (String.ofList (lead ++ textOf pieces)) = .ok stream ∧
      stream.tokens = placed lead pieces ∧ stream.tokens.map Token.kind = pieces.map Written.kind ∧
      stream.stop = placeAfter (lead ++ textOf pieces) ∧
      ((lead ++ textOf pieces).length + 1 < UInt32.size →
        ∀ p ∈ stream.stop :: stream.tokens.map Token.position,
          p.line < UInt32.size ∧ p.column < UInt32.size) := by
  refine ⟨⟨placed lead pieces, placeAfter (lead ++ textOf pieces)⟩, ?_, rfl, map_kind_placed _ _, rfl, ?_⟩
  · have hstart : Position.start.afterAll lead = placeAfter lead := afterAll_placeAfter [] lead
    rw [scan_ofList rfl, scanFrom_congr (skipTrivia_gap hlead _ _), hstart, scanFrom_rendering h]
    rfl
  · intro hshort p hp
    obtain ⟨front, hfront, rfl⟩ : ∃ front, front <+: lead ++ textOf pieces ∧ p = placeAfter front := by
      rcases List.mem_cons.1 hp with rfl | hp
      · exact ⟨_, List.prefix_rfl, rfl⟩
      · obtain ⟨t, ht, rfl⟩ := List.mem_map.1 hp
        exact place_of_mem_placed ht
    exact placeAfter_lt_size hfront hshort

/-- A comment, a literal on two lines, another comment and a number with a zero in front. -/
theorem scan_rendering_lines :
    Gap "/**/".toList ∧
    Rendering [⟨.text "a\"\n", "@\"a\"\"\n\"".toList, "//\n".toList⟩, ⟨.number 7, "07".toList, []⟩] ∧
    ∃ stream, scan "/**/@\"a\"\"\n\"//\n07" = .ok stream ∧
      stream.tokens = [⟨.text "a\"\n", ⟨1, 5⟩⟩, ⟨.number 7, ⟨3, 1⟩⟩] ∧ stream.stop = ⟨3, 3⟩ := by
  have hlead : Gap "/**/".toList := .block (show ¬ ['*', '/'] <:+: [] by simp) .nil
  have hpieces : Rendering [⟨.text "a\"\n", "@\"a\"\"\n\"".toList, "//\n".toList⟩,
      ⟨.number 7, "07".toList, []⟩] :=
    ⟨.verbatim "a\"\n", .line (show '\n' ∉ [] by simp) .nil, nofun,
      .number (by decide) (by simp) (by decide), .nil, fun _ => rfl, trivial⟩
  obtain ⟨stream, hscan, htokens, -, hstop, -⟩ := scan_rendering hlead hpieces
  exact ⟨hlead, hpieces, stream, hscan, htokens, hstop⟩

end SiteHost.Script
