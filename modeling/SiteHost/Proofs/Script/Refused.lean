import SiteHost.Proofs.Script.Rendered

/-!
# Texts that have no tokens

A text has no tokens if something in it is none, and the error tells what that is and where it stands:

* `Whole` — tokens as they may be written, with gaps between them;
* `Bare`, `OpenComment` — what may stand behind a gap;
* `Flawed` — what stands where no token can be read, for every cause of an error;
* `Refused` — a flaw behind whole tokens;
* `LexCause.reported` — the place that an error gives for a flaw.

Principal results:

* `exists_gap`, `Bare.cases` — what is skipped is a gap, and what stands behind it is a token as it may be
  written, or a flaw;
* `scanFrom_whole`, `scanFrom_of_flawed` — whole tokens are read, and none where a flaw stands;
* `scan_eq_error_iff` — the texts without tokens are those with a flaw behind whole tokens;
* `place_of_error` — an error points to the first character of what cannot be read, and to the backslash of an
  unknown escape, unless a line feed stands behind that.
-/

namespace SiteHost.Script

open SiteHost.Text

variable {c : Char} {cs rest next whole front read : List Char} {kind : TokenKind} {p start : Position}
  {k k₁ : Cursor} {done : List Token} {e : LexError} {cause : LexCause}

/-! ## Flaws -/

/-- Tokens as they may be written, with gaps between them, where certain characters follow. A text with escapes
ends by itself; every other token has to end before what follows. -/
inductive Whole : List Char → List Char → Prop
  | gap {lead next : List Char} (h : Gap lead) : Whole lead next
  | token {lead chars more next : List Char} {kind : TokenKind} (hlead : Gap lead) (h : Writes kind chars)
      (hends : chars.head? ≠ some '"' → kind.EndsBefore (more ++ next)) (hmore : Whole more next) :
      Whole (lead ++ (chars ++ more)) next

/-- Whether a text begins with something that is neither blank nor comment. -/
def Bare (cs : List Char) : Prop := ∃ c rest, cs = c :: rest ∧ isBlank c = false ∧
  (c = '/' → rest.head? ≠ some '/' ∧ rest.head? ≠ some '*')

/-- Whether a text is a comment that is left open. -/
def OpenComment (cs : List Char) : Prop := ∃ text, cs = '/' :: '*' :: text ∧ ¬ ['*', '/'] <:+: text

/-- What stands where no token can be read. The first characters are those that are read of it before the flaw
shows: none, but for an unknown escape. -/
inductive Flawed : LexCause → List Char → List Char → Prop
  | unexpected {c : Char} {rest : List Char} (htoken : ¬ ∃ kind chars, Writes kind (c :: chars))
      (hbare : Bare (c :: rest)) : Flawed (.unexpected c) [] (c :: rest)
  | noQuoteAfterAt {rest : List Char} (h : rest.head? ≠ some '"') : Flawed .noQuoteAfterAt [] ('@' :: rest)
  | openText {cs t rest : List Char} (h : Escapes cs t)
      (hrest : rest = [] ∨ rest = ['\\'] ∨ rest.head? = some '\n') : Flawed .openText [] ('"' :: (cs ++ rest))
  | openVerbatim (t : List Char) : Flawed .openVerbatim [] ('@' :: '"' :: doubled t)
  | openComment {rest : List Char} (h : OpenComment rest) : Flawed .openComment [] rest
  | unknownEscape {cs t rest : List Char} {c : Char} (h : Escapes cs t) (hc : escaped? c = none) :
      Flawed (.unknownEscape c) ('"' :: cs) ('\\' :: c :: rest)
  | numberOutOfRange {digits rest : List Char} (hne : digits ≠ []) (hdigits : ∀ d ∈ digits, d.isDigit = true)
      (hvalue : int64Max < digitsValue digits) (hrest : ∀ d, rest.head? = some d → d.isDigit = false) :
      Flawed (.numberOutOfRange (String.ofList digits)) [] (digits ++ rest)

/-- A flaw behind whole tokens. -/
def Refused (cause : LexCause) (front rest : List Char) : Prop :=
  ∃ whole read, front = whole ++ read ∧ Whole whole (read ++ rest) ∧ Flawed cause read rest

/-- The place that an error gives for a flaw: where it is, unless a line feed is escaped. -/
def LexCause.reported (cause : LexCause) (p : Position) : Position :=
  if cause = .unknownEscape '\n' then ⟨p.line + 1, 0⟩ else p

theorem Flawed.ne_nil (h : Flawed cause read rest) : rest ≠ [] := by
  cases h with
  | openComment h =>
    obtain ⟨text, rfl, -⟩ := h
    exact List.cons_ne_nil _ _
  | numberOutOfRange hne => exact List.append_ne_nil_of_left_ne_nil hne _
  | _ => exact List.cons_ne_nil _ _

/-! ## What is skipped -/

theorem blockComment?_eq_some (h : blockComment? cs p = some k) :
    ∃ text, ¬ ['*', '/'] <:+: text ∧ cs = text ++ '*' :: '/' :: k.rest := by
  fun_induction blockComment? cs p with
  | case1 rest p =>
    cases h
    exact ⟨[], by simp, rfl⟩
  | case2 c rest p hopen ih =>
    obtain ⟨text, hinside, rfl⟩ := ih h
    refine ⟨c :: text, fun hinfix => ?_, rfl⟩
    rcases List.infix_cons_iff.1 hinfix with ⟨more, heq⟩ | hinfix
    · obtain ⟨rfl, htail⟩ := List.cons.inj heq
      exact hopen (more ++ '*' :: '/' :: k.rest) rfl (congrArg (· ++ '*' :: '/' :: k.rest) htail.symm)
    · exact hinside hinfix
  | case3 => cases h

theorem blockComment?_eq_none_iff : blockComment? cs p = none ↔ ¬ ['*', '/'] <:+: cs := by
  constructor
  · intro h
    fun_induction blockComment? cs p with
    | case1 => cases h
    | case2 c rest p hopen ih =>
      intro hinfix
      rcases List.infix_cons_iff.1 hinfix with ⟨more, heq⟩ | hinfix
      · obtain ⟨rfl, htail⟩ := List.cons.inj heq
        exact hopen more rfl htail.symm
      · exact ih h hinfix
    | case3 => simp
  · intro h
    cases hend : blockComment? cs p with
    | none => rfl
    | some k =>
      obtain ⟨text, -, rfl⟩ := blockComment?_eq_some hend
      exact absurd ⟨text, k.rest, by simp⟩ h

theorem bare_cons (hblank : isBlank c = false) (hslash : c ≠ '/') (rest : List Char) : Bare (c :: rest) :=
  ⟨c, rest, rfl, hblank, fun heq => absurd heq hslash⟩

theorem head?_ne_newline (h : Bare cs ∨ OpenComment cs) : cs ≠ [] ∧ cs.head? ≠ some '\n' := by
  rcases h with ⟨c, rest, rfl, hblank, -⟩ | ⟨text, rfl, -⟩
  · refine ⟨List.cons_ne_nil _ _, fun hhead => ?_⟩
    obtain rfl := Option.some.inj hhead
    exact absurd hblank (by decide)
  · exact ⟨List.cons_ne_nil _ _, by simp⟩

/-- A gap that begins in a comment to the end of a line, if something stands behind it. -/
theorem Gap.of_line {gap : List Char} (hgap : Gap gap) (hcs : cs.dropWhile (· ≠ '\n') = gap ++ rest)
    (hrest : rest ≠ []) (hline : rest.head? ≠ some '\n') :
    Gap ('/' :: '/' :: (cs.takeWhile (· ≠ '\n') ++ gap)) := by
  have hhead := List.head?_dropWhile_not (fun d => decide (d ≠ '\n')) cs
  rw [hcs] at hhead
  cases hgap with
  | nil =>
    obtain ⟨d, more, rfl⟩ := List.exists_cons_of_ne_nil hrest
    refine absurd ?_ hline
    simpa using hhead
  | @blank d more hblank hmore =>
    obtain rfl : d = '\n' := by simpa using hhead
    refine .line (fun hmem => ?_) hmore
    simpa using List.all_eq_true.1 List.all_takeWhile _ hmem
  | line => simp at hhead
  | block => simp at hhead

/-- **A text goes on behind a gap**, unless nothing else comes. -/
theorem exists_gap (k : Cursor) : (∃ stop, skipTrivia k = .ok ⟨[], stop⟩) ∨
    ∃ gap rest, k.rest = gap ++ rest ∧ Gap gap ∧ (Bare rest ∨ OpenComment rest) := by
  fun_induction skipTrivia k with
  | case1 k rest hk ih =>
    refine ih.imp_right ?_
    rintro ⟨gap, rest', hsplit, hgap, hrest⟩
    obtain ⟨hne, hline⟩ := head?_ne_newline hrest
    refine ⟨_, rest', ?_, hgap.of_line hsplit hne hline, hrest⟩
    rw [hk, List.cons_append, List.cons_append, List.append_assoc, ← hsplit]
    exact congrArg (fun cs => '/' :: '/' :: cs) List.takeWhile_append_dropWhile.symm
  | case2 k rest hk step hstep ih =>
    refine ih.imp_right ?_
    rintro ⟨gap, rest', hsplit, hgap, hrest⟩
    obtain ⟨text, hinside, hchars⟩ := blockComment?_eq_some hstep
    refine ⟨'/' :: '*' :: (text ++ '*' :: '/' :: gap), rest', ?_, .block hinside hgap, hrest⟩
    rw [hk, hchars, hsplit]
    simp
  | case3 k rest hk hstep =>
    exact .inr ⟨[], k.rest, rfl, .nil, .inr ⟨rest, hk, blockComment?_eq_none_iff.1 hstep⟩⟩
  | case4 k c rest hline hblock hk hblank ih =>
    refine ih.imp_right ?_
    rintro ⟨gap, rest', hsplit, hgap, hrest⟩
    exact ⟨c :: gap, rest', by rw [hk, List.cons_append, ← hsplit], .blank hblank hgap, hrest⟩
  | case5 k c rest hline hblock hk hblank =>
    refine .inr ⟨[], k.rest, rfl, .nil, .inl ⟨c, rest, hk, by simpa using hblank, ?_⟩⟩
    rintro rfl
    refine ⟨fun hhead => ?_, fun hhead => ?_⟩
    · obtain ⟨more, rfl⟩ := List.head?_eq_some_iff.1 hhead
      exact hline more rfl rfl
    · obtain ⟨more, rfl⟩ := List.head?_eq_some_iff.1 hhead
      exact hblock more rfl rfl
  | case6 k hk => exact .inl ⟨k.position, by rw [← hk]⟩

/-! ## What is read -/

/-- Characters behind a quote stand for a text as far as the next quote, or else there is a flaw. -/
theorem exists_escapes (cs : List Char) : ∃ body t rest, cs = body ++ rest ∧ Escapes body t ∧
    ((∃ next, rest = '"' :: next) ∨ (rest = [] ∨ rest = ['\\'] ∨ rest.head? = some '\n') ∨
      ∃ c next, rest = '\\' :: c :: next ∧ escaped? c = none) := by
  -- the recursion of the lexer, wherever the literal begins
  obtain ⟨start, done, p⟩ : Position × List Char × Position := ⟨.start, [], .start⟩
  fun_induction escapedText start done cs p with
  | case1 done rest => exact ⟨[], [], _, rfl, .nil, .inl ⟨rest, rfl⟩⟩
  | case2 done c rest p next d hc ih =>
    obtain ⟨body, t, rest', rfl, hescapes, hrest⟩ := ih
    exact ⟨'\\' :: c :: body, d :: t, rest', rfl, .escape hc hescapes, hrest⟩
  | case3 done c rest p next hc => exact ⟨[], [], _, rfl, .nil, .inr (.inr ⟨c, rest, rfl, hc⟩)⟩
  | case4 => exact ⟨[], [], _, rfl, .nil, .inr (.inl (.inr (.inl rfl)))⟩
  | case5 => exact ⟨[], [], _, rfl, .nil, .inr (.inl (.inr (.inr rfl)))⟩
  | case6 done c rest p hquote hescape hlast hline ih =>
    obtain ⟨body, t, rest', rfl, hescapes, hrest⟩ := ih
    refine ⟨c :: body, c :: t, rest', rfl, .plain hquote (fun hc => ?_) hline hescapes, hrest⟩
    cases hmore : body ++ rest' with
    | nil => exact hlast hc hmore
    | cons d more => exact hescape d more hc hmore
  | case7 => exact ⟨[], [], [], rfl, .nil, .inr (.inl (.inl rfl))⟩

/-- Characters of a verbatim literal are doubled as far as a quote that stands alone. -/
theorem exists_doubled (cs : List Char) : ∃ t rest, cs = doubled t ++ rest ∧
    (rest = [] ∨ ∃ next, rest = '"' :: next ∧ next.head? ≠ some '"') := by
  -- the recursion of the lexer, wherever the literal begins
  obtain ⟨start, done, p⟩ : Position × List Char × Position := ⟨.start, [], .start⟩
  fun_induction verbatimText start done cs p with
  | case1 done rest p ih =>
    obtain ⟨t, rest', rfl, hrest⟩ := ih
    exact ⟨'"' :: t, rest', rfl, hrest⟩
  | case2 done rest p hdouble =>
    refine ⟨[], _, rfl, .inr ⟨rest, rfl, fun hhead => ?_⟩⟩
    obtain ⟨more, rfl⟩ := List.head?_eq_some_iff.1 hhead
    exact hdouble more rfl
  | case3 done c rest p hdouble hquote ih =>
    obtain ⟨t, rest', rfl, hrest⟩ := ih
    refine ⟨c :: t, rest', ?_, hrest⟩
    rw [show doubled (c :: t) = c :: doubled t by rw [doubled, List.flatMap_cons, if_neg hquote]; rfl]
    rfl
  | case4 => exact ⟨[], [], rfl, .inl rfl⟩

theorem writes_word (h : isNameStart c = true) (hcs : ∀ d ∈ cs, isNamePart d = true) :
    Writes (.name (String.ofList (c :: cs))) (c :: cs) := by
  have hname : Config.isName (String.ofList (c :: cs)).toList = true := by
    rw [String.toList_ofList, Config.isName, Bool.and_eq_true]
    exact ⟨h, List.all_eq_true.2 hcs⟩
  have hword := Writes.name hname
  rwa [String.toList_ofList] at hword

theorem writes_digits {digits : List Char} (hne : digits ≠ []) (hdigits : ∀ d ∈ digits, d.isDigit = true)
    (hvalue : digitsValue digits ≤ int64Max) : Writes (.number (Int64.ofNat (digitsValue digits))) digits := by
  refine .number hne hdigits ?_
  unfold int64Max at hvalue
  rw [Int64.toInt_ofNat_of_lt (by omega)]

/-- The characters that tokens begin with. -/
theorem exists_writes_cons_iff : (∃ kind chars, Writes kind (c :: chars)) ↔
    (∃ kind, TokenKind.ofMark? c = some kind) ∨ isNameStart c = true ∨ c.isDigit = true ∨
      c = '@' ∨ c = '"' := by
  constructor
  · rintro ⟨kind, chars, hwrites⟩
    generalize hcs : c :: chars = cs at hwrites
    cases hwrites with
    | mark h =>
      obtain ⟨rfl, -⟩ := List.cons.inj hcs
      exact .inl ⟨kind, TokenKind.ofMark?_eq_some_iff.2 h⟩
    | name h =>
      rw [← hcs, Config.isName, Bool.and_eq_true] at h
      exact .inr (.inl h.1)
    | number hne hdigits hvalue => exact .inr (.inr (.inl (hdigits c (hcs ▸ List.mem_cons_self))))
    | verbatim text => exact .inr (.inr (.inr (.inl (List.cons.inj hcs).1)))
    | escaped h => exact .inr (.inr (.inr (.inr (List.cons.inj hcs).1)))
  · rintro (⟨kind, hmark⟩ | hname | hdigit | rfl | rfl)
    · exact ⟨kind, [], .mark (TokenKind.ofMark?_eq_some_iff.1 hmark)⟩
    · exact ⟨_, [], writes_word hname (List.forall_mem_nil _)⟩
    · have hvalue : digitsValue [c] ≤ int64Max :=
        of_mem_toNat (q := fun c => digitsValue [c] ≤ int64Max) (by decide) (mem_of_isDigit hdigit)
      exact ⟨_, [], writes_digits (List.cons_ne_nil c []) (List.forall_mem_singleton.2 hdigit) hvalue⟩
    · exact ⟨_, _, .verbatim ""⟩
    · have hempty : Writes (.text "") ('"' :: ([] ++ ['"'])) := .escaped .nil
      exact ⟨_, _, hempty⟩

theorem of_head?_dropWhile {q : Char → Bool} {d : Char} (h : (cs.dropWhile q).head? = some d) : q d = false := by
  have hnot := List.head?_dropWhile_not q cs
  rwa [h] at hnot

/-- A mark ends before whatever follows. -/
theorem endsBefore_of_mark (h : kind.mark? = some c) : kind.EndsBefore next := by
  cases kind <;> first | exact trivial | cases h

/-- **What stands where a gap ends is a token as it may be written, or a flaw.** -/
theorem Bare.cases (h : Bare cs) :
    (∃ kind chars next, cs = chars ++ next ∧ Writes kind chars ∧
      (chars.head? ≠ some '"' → kind.EndsBefore next)) ∨
    ∃ cause read rest, cs = read ++ rest ∧ Flawed cause read rest := by
  have hbare := h
  obtain ⟨c, rest, rfl, -⟩ := h
  by_cases htoken : ∃ kind chars, Writes kind (c :: chars)
  · rcases exists_writes_cons_iff.1 htoken with ⟨kind, hmark⟩ | hname | hdigit | rfl | rfl
    · have hwrites := TokenKind.ofMark?_eq_some_iff.1 hmark
      exact .inl ⟨kind, [c], rest, rfl, .mark hwrites, fun _ => endsBefore_of_mark hwrites⟩
    · have hsplit : c :: rest = c :: rest.takeWhile isNamePart ++ rest.dropWhile isNamePart := by
        rw [List.cons_append, List.takeWhile_append_dropWhile]
      have hword := writes_word hname (List.all_eq_true.1 (List.all_takeWhile (l := rest)))
      exact .inl ⟨_, _, _, hsplit, hword, fun _ d hd => of_head?_dropWhile hd⟩
    · have hsplit : c :: rest = c :: rest.takeWhile Char.isDigit ++ rest.dropWhile Char.isDigit := by
        rw [List.cons_append, List.takeWhile_append_dropWhile]
      have hdigits : ∀ d ∈ c :: rest.takeWhile Char.isDigit, d.isDigit = true :=
        List.forall_mem_cons.2 ⟨hdigit, List.all_eq_true.1 List.all_takeWhile⟩
      have hends : ∀ d, (rest.dropWhile Char.isDigit).head? = some d → d.isDigit = false :=
        fun d hd => of_head?_dropWhile hd
      by_cases hvalue : digitsValue (c :: rest.takeWhile Char.isDigit) ≤ int64Max
      · exact .inl ⟨_, _, _, hsplit, writes_digits (List.cons_ne_nil _ _) hdigits hvalue, fun _ => hends⟩
      · exact .inr ⟨_, [], _, hsplit,
          .numberOutOfRange (List.cons_ne_nil _ _) hdigits (Nat.lt_of_not_le hvalue) hends⟩
    · by_cases hquote : rest.head? = some '"'
      · obtain ⟨inner, rfl⟩ := List.head?_eq_some_iff.1 hquote
        obtain ⟨t, rest', rfl, rfl | ⟨next, rfl, hnext⟩⟩ := exists_doubled inner
        · exact .inr ⟨_, [], _, rfl, by rw [List.append_nil]; exact .openVerbatim t⟩
        · have hverbatim := Writes.verbatim (String.ofList t)
          rw [String.toList_ofList] at hverbatim
          exact .inl ⟨_, _, next, by simp, hverbatim, fun _ => hnext⟩
      · exact .inr ⟨_, [], _, rfl, .noQuoteAfterAt hquote⟩
    · obtain ⟨body, t, rest', rfl, hescapes, hrest⟩ := exists_escapes rest
      rcases hrest with ⟨next, rfl⟩ | hopen | ⟨d, next, rfl, hd⟩
      · have hescaped : Writes (.text (String.ofList t)) ('"' :: (body ++ ['"'])) :=
          .escaped (by rwa [String.toList_ofList])
        exact .inl ⟨_, _, next, by simp, hescaped, fun hne => absurd rfl hne⟩
      · exact .inr ⟨_, [], _, rfl, .openText hescapes hopen⟩
      · exact .inr ⟨_, '"' :: body, _, rfl, .unknownEscape hescapes hd⟩
  · exact .inr ⟨_, [], _, rfl, .unexpected htoken hbare⟩

/-! ## What a scan makes of it -/

theorem spells_of_ends (h : Writes kind cs) (hends : cs.head? ≠ some '"' → kind.EndsBefore next) :
    Spells cs kind next := by
  by_cases hquote : cs.head? = some '"'
  · cases h with
    | mark h => exact spells_mark h
    | @name word h =>
      obtain ⟨rest, hword⟩ := List.head?_eq_some_iff.1 hquote
      rw [hword, Config.isName, Bool.and_eq_true] at h
      exact absurd h.1 (by decide)
    | number hne hdigits hvalue => exact absurd (hdigits '"' (List.mem_of_head? hquote)) (by decide)
    | verbatim text => exact absurd hquote (by simp)
    | @escaped text cs h =>
      have htext : Spells _ (.text (String.ofList text.toList)) next := spells_escaped h
      rwa [String.ofList_toList] at htext
  · exact spells_of_writes h (hends hquote)

/-- Whole tokens are read, and the rest is left. -/
theorem scanFrom_whole (h : Whole whole next) (done : List Token) (p : Position) :
    ∃ done', scanFrom done ⟨whole ++ next, p⟩ = scanFrom done' ⟨next, p.afterAll whole⟩ := by
  induction h generalizing done p with
  | gap h => exact ⟨done, scanFrom_congr (skipTrivia_gap h _ p) done⟩
  | @token lead chars more next kind hlead h hends _ ih =>
    have hspells := spells_of_ends h hends
    obtain ⟨done', hmore⟩ := ih (⟨kind, p.afterAll lead⟩ :: done) ((p.afterAll lead).afterAll chars)
    refine ⟨done', ?_⟩
    rw [List.append_assoc, List.append_assoc, scanFrom_congr (skipTrivia_gap hlead _ p), hspells.scanFrom_eq,
      hmore, Position.afterAll_append, Position.afterAll_append]

theorem reported_unknownEscape (c : Char) (p : Position) : (LexCause.unknownEscape c).reported p =
    ⟨((p.after '\\').after c).line, ((p.after '\\').after c).column - 2⟩ := by
  by_cases hline : c = '\n'
  · subst hline
    rfl
  · rw [LexCause.reported, if_neg (by simpa using hline), Position.after, if_neg hline]
    rfl

theorem scanFrom_of_lexeme_error (h : Bare (c :: rest)) (hlexeme : lexeme c rest p = .error e)
    (done : List Token) : scanFrom done ⟨c :: rest, p⟩ = .error e := by
  obtain ⟨_, _, heq, hblank, hopen⟩ := h
  cases heq
  rw [scanFrom_eq, skipTrivia_of_not hblank hopen]
  dsimp only
  rw [hlexeme]

/-- **No token is read where a flaw stands.** -/
theorem scanFrom_of_flawed (h : Flawed cause read rest) (done : List Token) (p : Position) :
    scanFrom done ⟨read ++ rest, p⟩ = .error ⟨cause, cause.reported (p.afterAll read)⟩ := by
  cases h with
  | @unexpected c rest htoken hbare =>
    rw [exists_writes_cons_iff] at htoken
    simp only [not_or] at htoken
    obtain ⟨hmark, hname, hdigit, hat, hquote⟩ := htoken
    refine scanFrom_of_lexeme_error hbare ?_ done
    unfold lexeme
    rw [Option.eq_none_iff_forall_ne_some.2 fun kind hkind => hmark ⟨kind, hkind⟩]
    dsimp only
    rw [if_neg hquote, if_neg hat, if_neg hdigit, if_neg hname]
    rfl
  | @noQuoteAfterAt rest h =>
    refine scanFrom_of_lexeme_error (bare_cons (by decide) (by decide) _) ?_ done
    unfold lexeme
    rw [show TokenKind.ofMark? '@' = none from rfl]
    dsimp only
    rw [if_neg (by decide), if_pos rfl]
    split
    · exact absurd rfl h
    · rfl
  | @openText cs t rest h hrest =>
    refine scanFrom_of_lexeme_error (bare_cons (by decide) (by decide) _) ?_ done
    refine (escapedText_of_escapes h rest p [] (p.after '"')).trans ?_
    rcases hrest with rfl | rfl | hline
    · rfl
    · rfl
    · obtain ⟨more, rfl⟩ := List.head?_eq_some_iff.1 hline
      rfl
  | openVerbatim t =>
    refine scanFrom_of_lexeme_error (bare_cons (by decide) (by decide) _) ?_ done
    have htext := verbatimText_doubled t [] p [] ((p.after '@').after '"')
    rw [List.append_nil] at htext
    exact htext
  | openComment h =>
    obtain ⟨text, rfl, hinside⟩ := h
    rw [List.nil_append, scanFrom_eq, skipTrivia_eq]
    simp only [blockComment?_eq_none_iff.2 hinside]
    rfl
  | @unknownEscape cs t rest c h hc =>
    refine scanFrom_of_lexeme_error (bare_cons (by decide) (by decide) _) ?_ done
    refine (escapedText_of_escapes h ('\\' :: c :: rest) p [] (p.after '"')).trans ?_
    rw [escapedText, reported_unknownEscape]
    simp only [hc]
    rfl
  | @numberOutOfRange digits rest hne hdigits hvalue hrest =>
    obtain ⟨c, ds, rfl⟩ := List.exists_cons_of_ne_nil hne
    obtain ⟨hdigit, hds⟩ := List.forall_mem_cons.1 hdigits
    obtain ⟨hmark, hquote, hat, hblank, hslash⟩ := plain_of_isDigit hdigit
    refine scanFrom_of_lexeme_error (bare_cons hblank hslash (ds ++ rest)) ?_ done
    unfold lexeme
    rw [hmark]
    dsimp only
    rw [if_neg hquote, if_neg hat, if_pos hdigit, takeWhile_append_of_head? hds hrest,
      if_neg (Nat.not_le.2 hvalue)]
    rfl

/-- **A scan that fails meets a flaw behind whole tokens.** -/
theorem exists_flaw (h : scanFrom done k = .error e) : ∃ whole read rest, k.rest = whole ++ (read ++ rest) ∧
    Whole whole (read ++ rest) ∧ Flawed e.cause read rest ∧
      e.position = e.cause.reported (k.position.afterAll (whole ++ read)) := by
  -- a token takes a character at least, so that what is left gets shorter
  induction hn : k.rest.length using Nat.strongRecOn generalizing k done with
  | ind n ih =>
    obtain ⟨cs, p⟩ := k
    rcases exists_gap ⟨cs, p⟩ with ⟨stop, hstop⟩ | ⟨gap, rest, rfl, hgap, hrest⟩
    · rw [scanFrom_eq, hstop] at h
      cases h
    · rw [scanFrom_congr (skipTrivia_gap hgap rest p)] at h
      have hcases : (∃ kind chars next, rest = chars ++ next ∧ Writes kind chars ∧
          (chars.head? ≠ some '"' → kind.EndsBefore next)) ∨
          ∃ cause read rest', rest = read ++ rest' ∧ Flawed cause read rest' := by
        rcases hrest with hbare | hopen
        · exact hbare.cases
        · exact .inr ⟨_, [], _, rfl, .openComment hopen⟩
      rcases hcases with ⟨kind, chars, next, rfl, hwrites, hends⟩ | ⟨cause, read, rest', rfl, hflaw⟩
      · have hspells := spells_of_ends hwrites hends
        rw [hspells.scanFrom_eq] at h
        have hshorter : next.length < n := by
          obtain ⟨c, more, rfl, -⟩ := hspells
          rw [← hn]
          simp
          omega
        obtain ⟨whole, read, rest', hsplit, hwhole, hflaw, hplace⟩ := ih next.length hshorter h rfl
        dsimp only at hsplit
        subst hsplit
        refine ⟨gap ++ (chars ++ whole), read, rest', by simp, .token hgap hwrites hends hwhole, hflaw, ?_⟩
        rw [hplace]
        simp only [Position.afterAll_append]
      · rw [scanFrom_of_flawed hflaw] at h
        cases h
        refine ⟨gap, read, rest', rfl, .gap hgap, hflaw, ?_⟩
        rw [Position.afterAll_append]

/-- **The texts without tokens are those with a flaw behind whole tokens**, which the error tells of. -/
theorem scan_eq_error_iff {source : String} : scan source = .error e ↔ ∃ front rest,
    source.toList = front ++ rest ∧ Refused e.cause front rest ∧
      e.position = e.cause.reported (placeAfter front) := by
  have hstart (cs : List Char) : Position.start.afterAll cs = placeAfter cs := afterAll_placeAfter [] cs
  constructor
  · intro h
    obtain ⟨whole, read, rest, hsplit, hwhole, hflaw, hplace⟩ := exists_flaw h
    rw [hstart] at hplace
    rw [← List.append_assoc] at hsplit
    exact ⟨whole ++ read, rest, hsplit, ⟨whole, read, rfl, hwhole, hflaw⟩, hplace⟩
  · rintro ⟨front, rest, hsource, ⟨whole, read, rfl, hwhole, hflaw⟩, hplace⟩
    obtain ⟨done, hscan⟩ := scanFrom_whole hwhole [] .start
    rw [scan, hsource, List.append_assoc, hscan, scanFrom_of_flawed hflaw, ← Position.afterAll_append, hstart,
      ← hplace]

/-- **An error points to the character that cannot be read.** That is the first character of a literal, a
comment or a number that cannot be read, the character that begins no token, and the backslash of an unknown
escape; but if it is a line feed that is escaped, the error points in front of the next line. No line and no
column needs more than 32 bits if the text has at most 2 ^ 32 - 2 characters. -/
theorem place_of_error {source : String} (h : scan source = .error e) : ∃ front c rest,
    source.toList = front ++ c :: rest ∧ Refused e.cause front (c :: rest) ∧
      (e.cause ≠ .unknownEscape '\n' → e.position = placeAfter front) ∧
      (e.cause = .unknownEscape '\n' → e.position = ⟨(placeAfter front).line + 1, 0⟩) ∧
      1 ≤ e.position.line ∧ (1 ≤ e.position.column ↔ e.cause ≠ .unknownEscape '\n') ∧
      (source.length + 1 < UInt32.size → e.position.line < UInt32.size ∧ e.position.column < UInt32.size) := by
  obtain ⟨front, rest, hsource, hrefused, hplace⟩ := scan_eq_error_iff.1 h
  obtain ⟨c, rest, rfl⟩ : ∃ c rest', rest = c :: rest' := by
    obtain ⟨_, _, -, -, hflaw⟩ := hrefused
    exact List.exists_cons_of_ne_nil hflaw.ne_nil
  have hlength : source.length = front.length + (rest.length + 1) := by
    rw [← String.length_toList, hsource, List.length_append, List.length_cons]
  obtain ⟨hline, hcolumn⟩ := placeAfter_le front
  have hlow : 1 ≤ (placeAfter front).line ∧ 1 ≤ (placeAfter front).column :=
    ⟨Nat.le_add_left _ _, Nat.le_add_left _ _⟩
  refine ⟨front, c, rest, hsource, hrefused, ?_⟩
  by_cases hescape : e.cause = .unknownEscape '\n'
  · rw [LexCause.reported, if_pos hescape] at hplace
    rw [hplace]
    refine ⟨fun hne => absurd hescape hne, fun _ => rfl, Nat.le_add_left _ _, ?_, ?_⟩
    · exact iff_of_false (Nat.not_succ_le_zero 0) fun hne => hne hescape
    · dsimp only
      omega
  · rw [LexCause.reported, if_neg hescape] at hplace
    rw [hplace]
    refine ⟨fun _ => rfl, fun heq => absurd heq hescape, hlow.1, iff_of_true hlow.2 hescape, ?_⟩
    omega

/-- A line feed is escaped behind the quote, and a letter on the next line. -/
theorem place_of_error_escaped :
    (scan "\"\\\n\"" = .error ⟨.unknownEscape '\n', ⟨2, 0⟩⟩ ∧ ¬ 1 ≤ (⟨2, 0⟩ : Position).column) ∧
    (scan ";\n \"\\x" = .error ⟨.unknownEscape 'x', ⟨2, 3⟩⟩ ∧ ∃ front c rest,
      ";\n \"\\x".toList = front ++ c :: rest ∧ placeAfter front = ⟨2, 3⟩) := by
  have hline : scan "\"\\\n\"" = .error ⟨.unknownEscape '\n', ⟨2, 0⟩⟩ :=
    scan_eq_error_iff.2 ⟨['"'], ['\\', '\n', '"'], rfl,
      ⟨[], ['"'], rfl, .gap .nil, .unknownEscape .nil rfl⟩, rfl⟩
  have hmark : Whole [';', '\n', ' '] ['"', '\\', 'x'] :=
    .token .nil (.mark (show TokenKind.semicolon.mark? = some ';' from rfl)) (fun _ => trivial)
      (.gap (.blank (by decide) (.blank (by decide) .nil)))
  have hletter : scan ";\n \"\\x" = .error ⟨.unknownEscape 'x', ⟨2, 3⟩⟩ :=
    scan_eq_error_iff.2 ⟨[';', '\n', ' ', '"'], ['\\', 'x'], rfl,
      ⟨[';', '\n', ' '], ['"'], rfl, hmark, .unknownEscape .nil rfl⟩, rfl⟩
  obtain ⟨_, _, _, -, -, -, -, -, hcolumn, -⟩ := place_of_error hline
  obtain ⟨front, c, rest, hsource, -, hplace, -⟩ := place_of_error hletter
  exact ⟨⟨hline, fun h => hcolumn.1 h rfl⟩, hletter, front, c, rest, hsource, (hplace (by decide)).symm⟩

end SiteHost.Script
