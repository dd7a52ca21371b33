import SiteHost.Template.Segment
import SiteHost.Proofs.Script.Rendered

/-!
# What markup consists of

Markup is literal text with blocks of code in it. Said without a reader that goes from left to right:

* `IsLiteral` — text without `<%` outside of quoted runs, which are all closed, or all but one at the end;
* `Block` — code between `<%` and `%>`, with the literal before it;
* `Decomposes` — markup as blocks and a literal behind them;
* `LeavesOpen` — markup as blocks, a literal, and a `<%` that is never closed.

Principal results:

* `exists_reading` — all markup is one or the other;
* `Decomposes.unique` — in one way only;
* `segmentsFrom_blocks` — blocks are read one after the other;
* `segments_unique_decomposition` — markup has segments if and only if it decomposes, and then those of its
  only decomposition; else the diagnostic stands at the `<%` that is never closed.
-/

namespace SiteHost.Template

/-! ## The grammar of markup -/

/-- A character that opens a quoted run, and closes it when it comes again. -/
def IsQuote (c : Char) : Prop := c = '"' ∨ c = '\''

/-- Text without `<%` outside of quoted runs. All runs are closed, but one that lasts to the end of the text
where that is allowed. -/
inductive IsLiteral (mayLast : Prop) : List Char → Prop
  | nil : IsLiteral mayLast []
  | plain {c : Char} {rest : List Char} (hquote : ¬ IsQuote c) (hopen : ¬ ['<', '%'] <+: c :: rest)
    (hrest : IsLiteral mayLast rest) : IsLiteral mayLast (c :: rest)
  | quoted {quote : Char} {run rest : List Char} (hquote : IsQuote quote) (hrun : quote ∉ run)
    (hrest : IsLiteral mayLast rest) : IsLiteral mayLast (quote :: (run ++ quote :: rest))
  | lasting {quote : Char} {run : List Char} (hlast : mayLast) (hquote : IsQuote quote) (hrun : quote ∉ run) :
    IsLiteral mayLast (quote :: run)

/-- Code with the literal before it. -/
structure Block where
  literal : List Char
  code : List Char

/-- Whether all quoted runs are closed before the block begins, and the block is not closed before its end. -/
structure Block.IsProper (b : Block) : Prop where
  literal : IsLiteral False b.literal
  code : ¬ ['%', '>'] <:+: b.code

/-- A block as it is written. -/
def Block.text (b : Block) : List Char := b.literal ++ '<' :: '%' :: (b.code ++ ['%', '>'])

/-- Blocks as they are written. -/
def blocksText (blocks : List Block) : List Char := blocks.flatMap Block.text

/-- Whether markup consists of blocks and a literal behind them. -/
structure Decomposes (markup : List Char) (blocks : List Block) (last : List Char) : Prop where
  isProper : ∀ b ∈ blocks, b.IsProper
  isLiteral : IsLiteral True last
  eq_text : markup = blocksText blocks ++ last

/-- Whether markup consists of blocks, a literal, and a `<%` that is never closed. -/
structure LeavesOpen (markup : List Char) (blocks : List Block) (last code : List Char) : Prop where
  isProper : ∀ b ∈ blocks, b.IsProper
  isLiteral : IsLiteral False last
  isOpen : ¬ ['%', '>'] <:+: code
  eq_text : markup = blocksText blocks ++ (last ++ '<' :: '%' :: code)

/-- The segment of a literal, none if it is empty. -/
def literalSegments (text : List Char) : List Segment :=
  if text = [] then [] else [.literal (String.ofList text)]

/-- The segment of code, none if it is blank. -/
def codeSegments (code : List Char) : List Segment :=
  if Text.trim (String.ofList code) = "" then [] else [.code (Text.trim (String.ofList code))]

/-- The segments of blocks and a literal behind them. -/
def segmentsOf (blocks : List Block) (last : List Char) : List Segment :=
  blocks.flatMap (fun b => literalSegments b.literal ++ codeSegments b.code) ++ literalSegments last

variable {mayLast : Prop} {c quote : Char} {text run rest rest' done code code' literal literal' last last' markup :
  List Char} {file source : String} {p opened : Position} {b : Block} {blocks blocks' : List Block}

/-! ## In one way only -/

theorem not_isQuote_opener : ¬ IsQuote '<' := by
  rintro (h | h) <;> cases h

/-- Runs between equal quotes end at the same place. -/
theorem run_unique {run' : List Char} (hrun : quote ∉ run) (hrun' : quote ∉ run')
    (h : run ++ quote :: rest = run' ++ quote :: rest') : run = run' ∧ rest = rest' := by
  induction run generalizing run' with
  | nil =>
    cases run' with
    | nil => exact ⟨rfl, (List.cons.inj h).2⟩
    | cons d run' => exact absurd ((List.cons.inj h).1 ▸ List.mem_cons_self) hrun'
  | cons d run ih =>
    cases run' with
    | nil => exact absurd ((List.cons.inj h).1 ▸ List.mem_cons_self) hrun
    | cons d' run' =>
      obtain ⟨rfl, htail⟩ := List.cons.inj h
      obtain ⟨rfl, rfl⟩ := ih (List.not_mem_of_not_mem_cons hrun) (List.not_mem_of_not_mem_cons hrun') htail
      exact ⟨rfl, rfl⟩

/-- A literal at a `<%` is empty, if the text behind it ends or begins with one. -/
theorem IsLiteral.eq_nil (h : IsLiteral mayLast literal) (hend : rest = [] ∨ ['<', '%'] <+: rest)
    (hstart : ['<', '%'] <+: literal ++ rest) : literal = [] := by
  cases h with
  | nil => rfl
  | @plain c tail _ hopen _ =>
    rw [List.cons_append, List.cons_prefix_cons] at hstart
    cases tail with
    | nil => rcases hend with rfl | ⟨behind, rfl⟩ <;> simp at hstart
    | cons d tail => exact absurd (by simpa using hstart) hopen
  | quoted hquote _ _ => exact absurd ((List.cons_prefix_cons.1 hstart).1 ▸ hquote) not_isQuote_opener
  | lasting _ hquote _ => exact absurd ((List.cons_prefix_cons.1 hstart).1 ▸ hquote) not_isQuote_opener

/-- A closed literal goes on to the first `<%` outside of its runs. Any other literal at the start of the
same text, behind which the text ends or a block begins, is the same. -/
theorem IsLiteral.unique (h : IsLiteral False literal) (h' : IsLiteral mayLast literal')
    (hend : rest' = [] ∨ ¬ mayLast ∧ ['<', '%'] <+: rest')
    (heq : literal ++ '<' :: '%' :: rest = literal' ++ rest') : literal = literal' := by
  -- beside an empty literal any other is empty
  have hempty : ∀ {text}, IsLiteral False text → text ++ '<' :: '%' :: rest = rest' → text = [] := by
    intro text htext heq
    rcases hend with rfl | ⟨-, hstart⟩
    · simp at heq
    · exact htext.eq_nil (.inr ⟨rest, rfl⟩) (heq ▸ hstart)
  induction h generalizing literal' with
  | nil => exact (h'.eq_nil (hend.imp_right And.right) (heq ▸ ⟨rest, rfl⟩)).symm
  | @plain c tail hquote hopen htail ih =>
    cases h' with
    | nil => exact hempty (.plain hquote hopen htail) heq
    | plain _ _ hrest' =>
      obtain ⟨rfl, hbehind⟩ := List.cons.inj heq
      rw [ih hrest' hbehind]
    | quoted hquote' _ _ => exact absurd ((List.cons.inj heq).1 ▸ hquote') hquote
    | lasting _ hquote' _ => exact absurd ((List.cons.inj heq).1 ▸ hquote') hquote
  | @quoted quote run tail hquote hrun htail ih =>
    cases h' with
    | nil => exact hempty (.quoted hquote hrun htail) heq
    | plain hquote' _ _ => exact absurd ((List.cons.inj heq).1 ▸ hquote) hquote'
    | quoted _ hrun' hrest' =>
      simp only [List.cons_append, List.append_assoc, List.cons.injEq] at heq
      obtain ⟨rfl, hruns⟩ := heq
      obtain ⟨rfl, hbehind⟩ := run_unique hrun hrun' hruns
      rw [ih hrest' hbehind]
    | lasting hlast _ hrun' =>
      simp only [List.cons_append, List.append_assoc, List.cons.injEq] at heq
      obtain ⟨rfl, hruns⟩ := heq
      rcases hend with rfl | ⟨hnot, -⟩
      · rw [List.append_nil] at hruns
        exact absurd (by simp [← hruns]) hrun'
      · exact absurd hlast hnot
  | lasting hlast _ _ => exact hlast.elim

/-- Code ends at the first `%>`. -/
theorem code_unique (h : ¬ ['%', '>'] <:+: code) (h' : ¬ ['%', '>'] <:+: code')
    (heq : code ++ '%' :: '>' :: rest = code' ++ '%' :: '>' :: rest') : code = code' ∧ rest = rest' := by
  induction code generalizing code' with
  | nil =>
    cases code' with
    | nil => exact ⟨rfl, by simpa using heq⟩
    | cons d tail =>
      obtain ⟨rfl, htail⟩ := List.cons.inj heq
      cases tail with
      | nil => simp at htail
      | cons e tail => exact absurd (by simp_all [List.infix_cons_iff]) h'
  | cons c tail ih =>
    rw [List.infix_cons_iff, not_or] at h
    cases code' with
    | nil =>
      obtain ⟨rfl, htail⟩ := List.cons.inj heq
      cases tail with
      | nil => simp at htail
      | cons e tail => exact absurd (by simp_all) h.1
    | cons d tail' =>
      rw [List.infix_cons_iff, not_or] at h'
      obtain ⟨rfl, htail⟩ := List.cons.inj heq
      obtain ⟨rfl, hrest⟩ := ih h.2 h'.2 htail
      exact ⟨rfl, hrest⟩

theorem Block.text_append (b : Block) (rest : List Char) :
    b.text ++ rest = b.literal ++ '<' :: '%' :: (b.code ++ '%' :: '>' :: rest) := by
  simp [Block.text]

theorem blocksText_cons (b : Block) (blocks : List Block) (rest : List Char) :
    blocksText (b :: blocks) ++ rest = b.text ++ (blocksText blocks ++ rest) := by
  rw [blocksText, List.flatMap_cons, List.append_assoc, blocksText]

/-- A block begins with one literal and ends at one place. -/
theorem Block.IsProper.unique {b' : Block} (h : b.IsProper) (h' : b'.IsProper)
    (heq : b.text ++ rest = b'.text ++ rest') : b = b' ∧ rest = rest' := by
  rw [Block.text_append, Block.text_append] at heq
  have hliteral := h.literal.unique h'.literal (.inr ⟨not_false, by simp⟩) heq
  rw [hliteral, List.append_cancel_left_eq, List.cons.injEq, List.cons.injEq] at heq
  obtain ⟨hcode, hrest⟩ := code_unique h.code h'.code heq.2.2
  obtain ⟨literal, code⟩ := b
  exact ⟨by simp_all, hrest⟩

/-- Text that does not begin with a block. -/
def IsEnd (text : List Char) : Prop := ∀ (b : Block) (rest : List Char), b.IsProper → text ≠ b.text ++ rest

/-- No block begins in a literal that ends the text. -/
theorem IsLiteral.isEnd (h : IsLiteral True text) : IsEnd text := by
  intro b rest hb heq
  rw [Block.text_append, ← List.append_nil text] at heq
  have hliteral := hb.literal.unique h (.inl rfl) heq.symm
  rw [hliteral, List.append_cancel_left_eq] at heq
  cases heq

/-- The blocks at the start of a text are known if no block follows. -/
theorem blocks_unique (h : ∀ b ∈ blocks, b.IsProper) (h' : ∀ b ∈ blocks', b.IsProper) (hend : IsEnd rest)
    (hend' : IsEnd rest') (heq : blocksText blocks ++ rest = blocksText blocks' ++ rest') :
    blocks = blocks' ∧ rest = rest' := by
  induction blocks generalizing blocks' with
  | nil =>
    cases blocks' with
    | nil => exact ⟨rfl, heq⟩
    | cons b' tail' => exact (hend b' _ (h' b' List.mem_cons_self) (heq.trans (blocksText_cons b' tail' rest'))).elim
  | cons b tail ih =>
    cases blocks' with
    | nil => exact (hend' b _ (h b List.mem_cons_self) (heq.symm.trans (blocksText_cons b tail rest))).elim
    | cons b' tail' =>
      rw [blocksText_cons, blocksText_cons] at heq
      obtain ⟨rfl, htail⟩ := (h b List.mem_cons_self).unique (h' b' List.mem_cons_self) heq
      obtain ⟨rfl, hrest⟩ := ih (List.forall_mem_cons.1 h).2 (List.forall_mem_cons.1 h').2 htail
      exact ⟨rfl, hrest⟩

/-- **Markup decomposes in one way.** -/
theorem Decomposes.unique (h : Decomposes markup blocks last) (h' : Decomposes markup blocks' last') :
    blocks = blocks' ∧ last = last' :=
  blocks_unique h.isProper h'.isProper h.isLiteral.isEnd h'.isLiteral.isEnd (h.eq_text.symm.trans h'.eq_text)

/-! ## One way there is -/

/-- A text is a literal, or has a first `<%` outside of closed runs. -/
theorem exists_literal (text : List Char) : IsLiteral True text ∨
    ∃ literal rest, IsLiteral False literal ∧ text = literal ++ '<' :: '%' :: rest := by
  match text with
  | [] => exact .inl .nil
  | c :: tail =>
    by_cases hquote : IsQuote c
    · by_cases hmem : c ∈ tail
      · obtain ⟨run, tail, rfl, hrun⟩ := List.eq_append_cons_of_mem hmem
        rcases exists_literal tail with h | ⟨literal, rest, h, rfl⟩
        · exact .inl (.quoted hquote hrun h)
        · exact .inr ⟨_, rest, .quoted hquote hrun h, by simp⟩
      · exact .inl (.lasting trivial hquote hmem)
    · by_cases hopen : ['<', '%'] <+: c :: tail
      · obtain ⟨rest, hrest⟩ := hopen
        exact .inr ⟨[], rest, .nil, hrest.symm⟩
      · rcases exists_literal tail with h | ⟨literal, rest, h, rfl⟩
        · exact .inl (.plain hquote hopen h)
        · exact .inr ⟨c :: literal, rest, .plain hquote (fun hstart => hopen (hstart.trans ⟨_, rfl⟩)) h, rfl⟩
termination_by text.length

/-- A text is code throughout, or has a first `%>`. -/
theorem exists_code (text : List Char) : ¬ ['%', '>'] <:+: text ∨
    ∃ code rest, ¬ ['%', '>'] <:+: code ∧ text = code ++ '%' :: '>' :: rest := by
  induction text with
  | nil => exact .inl (by simp)
  | cons c tail ih =>
    by_cases hclose : ['%', '>'] <+: c :: tail
    · obtain ⟨rest, hrest⟩ := hclose
      exact .inr ⟨[], rest, by simp, hrest.symm⟩
    · rcases ih with h | ⟨code, rest, h, rfl⟩
      · exact .inl (by rw [List.infix_cons_iff]; exact not_or.2 ⟨hclose, h⟩)
      · refine .inr ⟨c :: code, rest, ?_, rfl⟩
        rw [List.infix_cons_iff]
        exact not_or.2 ⟨fun hstart => hclose (hstart.trans ⟨_, rfl⟩), h⟩

/-- **All markup decomposes or leaves a block open.** -/
theorem exists_reading (markup : List Char) : (∃ blocks last, Decomposes markup blocks last) ∨
    ∃ blocks last code, LeavesOpen markup blocks last code := by
  rcases exists_literal markup with h | ⟨literal, behind, h, heq⟩
  · exact .inl ⟨[], markup, ⟨List.forall_mem_nil _, h, rfl⟩⟩
  · rcases exists_code behind with hcode | ⟨code, rest, hcode, rfl⟩
    · exact .inr ⟨[], literal, behind, ⟨List.forall_mem_nil _, h, hcode, heq⟩⟩
    · have hblock : Block.IsProper ⟨literal, code⟩ := ⟨h, hcode⟩
      have hshorter : rest.length < markup.length := by
        simp only [heq, List.length_append, List.length_cons]
        omega
      rcases exists_reading rest with ⟨blocks, last, hrest⟩ | ⟨blocks, last, code', hrest⟩
      · refine .inl ⟨⟨literal, code⟩ :: blocks, last, List.forall_mem_cons.2 ⟨hblock, hrest.isProper⟩,
          hrest.isLiteral, ?_⟩
        rw [blocksText_cons, ← hrest.eq_text, Block.text_append, heq]
      · refine .inr ⟨⟨literal, code⟩ :: blocks, last, code', List.forall_mem_cons.2 ⟨hblock, hrest.isProper⟩,
          hrest.isLiteral, hrest.isOpen, ?_⟩
        rw [blocksText_cons, ← hrest.eq_text, Block.text_append, heq]
termination_by markup.length

/-! ## What is read -/

theorem segmentsFrom_open : segmentsFrom .plain done p ('<' :: '%' :: rest) =
    (literalOf done ++ ·) <$> segmentsFrom (.code p) [] ((p.after '<').after '%') rest := by
  rw [segmentsFrom]
  rfl

theorem segmentsFrom_close : segmentsFrom (.code opened) done p ('%' :: '>' :: rest) =
    (codeOf done ++ ·) <$> segmentsFrom .plain [] ((p.after '%').after '>') rest := by
  rw [segmentsFrom]
  rfl

/-- A character that neither opens nor closes a block. -/
theorem segmentsFrom_step {mode : Mode} (hopen : mode = .plain → ¬ ['<', '%'] <+: c :: rest)
    (hclose : ∀ opened, mode = .code opened → ¬ ['%', '>'] <+: c :: rest) :
    segmentsFrom mode done p (c :: rest) = segmentsFrom (mode.after c) (c :: done) (p.after c) rest := by
  rw [segmentsFrom]
  · rintro rest' hmode rfl rfl
    exact hopen hmode (by simp)
  · rintro opened rest' hmode rfl rfl
    exact hclose opened hmode (by simp)

theorem after_of_isQuote (h : IsQuote c) : Mode.plain.after c = .quoted c := if_pos h

theorem after_of_not_isQuote (h : ¬ IsQuote c) : Mode.plain.after c = .plain := if_neg h

theorem after_of_ne (h : c ≠ quote) : (Mode.quoted quote).after c = .quoted quote := if_neg h

theorem after_self (quote : Char) : (Mode.quoted quote).after quote = .plain := if_pos rfl

/-- A quoted run is literal throughout. -/
theorem segmentsFrom_run (hrun : quote ∉ run) (rest : List Char) : segmentsFrom (.quoted quote) done p (run ++ rest) =
    segmentsFrom (.quoted quote) (run.reverse ++ done) (p.afterAll run) rest := by
  induction run generalizing done p with
  | nil => rfl
  | cons c run ih =>
    have hc : c ≠ quote := (List.ne_of_not_mem_cons hrun).symm
    rw [List.cons_append, segmentsFrom_step (by simp) (by simp), after_of_ne hc,
      ih (List.not_mem_of_not_mem_cons hrun)]
    simp

/-- A closed literal is read up to its end. -/
theorem segmentsFrom_literal (h : IsLiteral False literal) (hnext : ¬ ['%'] <+: rest) :
    segmentsFrom .plain done p (literal ++ rest) =
      segmentsFrom .plain (literal.reverse ++ done) (p.afterAll literal) rest := by
  induction h generalizing done p with
  | nil => rfl
  | @plain c tail hquote hopen _ ih =>
    have hopen' : ¬ ['<', '%'] <+: c :: (tail ++ rest) := by
      intro hstart
      rw [List.cons_prefix_cons] at hstart hopen
      cases tail with
      | nil => exact hnext hstart.2
      | cons d tail => exact hopen ⟨hstart.1, by simpa using hstart.2⟩
    rw [List.cons_append, segmentsFrom_step (fun _ => hopen') (by simp), after_of_not_isQuote hquote, ih]
    simp
  | @quoted quote run tail hquote hrun _ ih =>
    have hopen : ¬ ['<', '%'] <+: quote :: (run ++ (quote :: (tail ++ rest))) := fun hstart =>
      not_isQuote_opener ((List.cons_prefix_cons.1 hstart).1 ▸ hquote)
    rw [List.cons_append, List.append_assoc, List.cons_append, segmentsFrom_step (fun _ => hopen) (by simp),
      after_of_isQuote hquote, segmentsFrom_run hrun, segmentsFrom_step (by simp) (by simp), after_self, ih]
    simp [Position.afterAll_append]
  | lasting hlast _ _ => exact hlast.elim

/-- A literal that ends the text is one segment. -/
theorem segmentsFrom_last (h : IsLiteral True last) :
    segmentsFrom .plain done p last = .ok (literalOf (last.reverse ++ done)) := by
  induction h generalizing done p with
  | nil => rfl
  | @plain c tail hquote hopen _ ih =>
    rw [segmentsFrom_step (fun _ => hopen) (by simp), after_of_not_isQuote hquote, ih]
    simp
  | @quoted quote run tail hquote hrun _ ih =>
    have hopen : ¬ ['<', '%'] <+: quote :: (run ++ quote :: tail) := fun hstart =>
      not_isQuote_opener ((List.cons_prefix_cons.1 hstart).1 ▸ hquote)
    rw [segmentsFrom_step (fun _ => hopen) (by simp), after_of_isQuote hquote, segmentsFrom_run hrun,
      segmentsFrom_step (by simp) (by simp), after_self, ih]
    simp
  | @lasting quote run _ hquote hrun =>
    have hopen : ¬ ['<', '%'] <+: quote :: run := fun hstart =>
      not_isQuote_opener ((List.cons_prefix_cons.1 hstart).1 ▸ hquote)
    have hread : segmentsFrom (.quoted quote) (quote :: done) (p.after quote) (run ++ []) = _ :=
      segmentsFrom_run hrun []
    rw [List.append_nil] at hread
    rw [segmentsFrom_step (fun _ => hopen) (by simp), after_of_isQuote hquote, hread, segmentsFrom]
    · simp
    · simp

/-- Code is read up to the first `%>`. -/
theorem segmentsFrom_code (h : ¬ ['%', '>'] <:+: code) (hnext : ¬ ['>'] <+: rest) :
    segmentsFrom (.code opened) done p (code ++ rest) =
      segmentsFrom (.code opened) (code.reverse ++ done) (p.afterAll code) rest := by
  induction code generalizing done p with
  | nil => rfl
  | cons c tail ih =>
    rw [List.infix_cons_iff, not_or] at h
    have hclose : ¬ ['%', '>'] <+: c :: (tail ++ rest) := by
      intro hstart
      rw [List.cons_prefix_cons] at hstart h
      cases tail with
      | nil => exact hnext hstart.2
      | cons d tail => exact h.1 ⟨hstart.1, by simpa using hstart.2⟩
    rw [List.cons_append, segmentsFrom_step (by simp) (fun _ _ => hclose), Mode.after, ih h.2]
    simp

/-- Code that is never closed is reported at its beginning. -/
theorem segmentsFrom_unclosed (h : ¬ ['%', '>'] <:+: code) :
    segmentsFrom (.code opened) done p code = .error opened := by
  have hcode : segmentsFrom (.code opened) done p (code ++ []) = _ := segmentsFrom_code h (by simp)
  rw [List.append_nil, segmentsFrom] at hcode
  exact hcode

theorem literalOf_reverse (text : List Char) : literalOf text.reverse = literalSegments text := by
  simp [literalOf, literalSegments]

theorem codeOf_reverse (code : List Char) : codeOf code.reverse = codeSegments code := by
  simp [codeOf, codeSegments]

/-- A block is read as its literal and its code. -/
theorem segmentsFrom_block (h : b.IsProper) (rest : List Char) : segmentsFrom .plain [] p (b.text ++ rest) =
    (literalSegments b.literal ++ codeSegments b.code ++ ·) <$>
      segmentsFrom .plain [] (p.afterAll b.text) rest := by
  rw [Block.text_append, segmentsFrom_literal h.literal (by simp), segmentsFrom_open,
    segmentsFrom_code h.code (by simp), segmentsFrom_close, List.append_nil, List.append_nil, literalOf_reverse,
    codeOf_reverse]
  simp [Block.text, Position.afterAll_append]

/-- **Blocks are read one after the other.** -/
theorem segmentsFrom_blocks (h : ∀ b ∈ blocks, b.IsProper) (rest : List Char) :
    segmentsFrom .plain [] p (blocksText blocks ++ rest) =
      (blocks.flatMap (fun b => literalSegments b.literal ++ codeSegments b.code) ++ ·) <$>
        segmentsFrom .plain [] (p.afterAll (blocksText blocks)) rest := by
  induction blocks generalizing p with
  | nil => simp [blocksText]
  | cons b tail ih =>
    obtain ⟨hb, htail⟩ := List.forall_mem_cons.1 h
    rw [blocksText_cons, segmentsFrom_block hb, ih htail]
    simp [blocksText, Position.afterAll_append]

/-! ## The result -/

theorem afterAll_start (cs : List Char) : Position.start.afterAll cs = Script.placeAfter cs :=
  Script.afterAll_placeAfter [] cs

/-- Markup that decomposes has the segments of its parts. -/
theorem Decomposes.segments_eq (h : Decomposes source.toList blocks last) :
    segments file source = .ok (segmentsOf blocks last) := by
  have hread := segmentsFrom_blocks (p := .start) h.isProper last
  rw [segmentsFrom_last h.isLiteral, List.append_nil, literalOf_reverse, ← h.eq_text] at hread
  rw [segments, hread]
  rfl

/-- The `<%` that is never closed stands behind blocks and a literal. -/
theorem LeavesOpen.isPrefix_front (h : LeavesOpen markup blocks last code) :
    blocksText blocks ++ last <+: markup :=
  ⟨'<' :: '%' :: code, by rw [h.eq_text, List.append_assoc]⟩

/-- A block that is never closed is reported at its beginning. -/
theorem LeavesOpen.segments_eq (h : LeavesOpen source.toList blocks last code) : segments file source =
    .error (.errorAt file (Script.placeAfter (blocksText blocks ++ last)) openBlockMessage) := by
  have hread := segmentsFrom_blocks (p := .start) h.isProper (last ++ '<' :: '%' :: code)
  rw [segmentsFrom_literal h.isLiteral (by simp), segmentsFrom_open, segmentsFrom_unclosed h.isOpen,
    ← h.eq_text] at hread
  rw [segments, hread, ← afterAll_start, Position.afterAll_append]
  rfl

/-- **Markup is segmented as it decomposes**: it has segments if and only if it consists of blocks behind
closed literals and a last literal, and then the segments of these, which are the only ones it consists of;
otherwise what is reported is the place of the `<%` that is never closed. The line and the column of that place
need no more than 32 bits if the markup has at most 2 ^ 32 - 2 characters, nor do those of any place before
or behind it. -/
theorem segments_unique_decomposition (file source : String) :
    ((∃ found, segments file source = .ok found) ↔ ∃ blocks last, Decomposes source.toList blocks last) ∧
    (∀ blocks last, Decomposes source.toList blocks last →
      segments file source = .ok (segmentsOf blocks last) ∧
        ∀ blocks' last', Decomposes source.toList blocks' last' → blocks' = blocks ∧ last' = last) ∧
    (∀ d, segments file source = .error d ↔ ∃ blocks last code, LeavesOpen source.toList blocks last code ∧
      d = .errorAt file (Script.placeAfter (blocksText blocks ++ last)) openBlockMessage) ∧
    (source.length + 1 < UInt32.size →
      (∀ d, segments file source = .error d → ∃ p, d = .errorAt file p openBlockMessage ∧
        p.line < UInt32.size ∧ p.column < UInt32.size) ∧
      ∀ before, before <+: source.toList →
        (Position.start.afterAll before).line < UInt32.size ∧
          (Position.start.afterAll before).column < UInt32.size) := by
  refine ⟨⟨?_, ?_⟩, fun blocks last h => ⟨h.segments_eq, fun _ _ h' => h'.unique h⟩, fun d => ⟨?_, ?_⟩,
    fun hshort => ⟨?_, ?_⟩⟩
  · rintro ⟨found, hfound⟩
    rcases exists_reading source.toList with h | ⟨blocks, last, code, h⟩
    · exact h
    · rw [h.segments_eq] at hfound
      cases hfound
  · rintro ⟨blocks, last, h⟩
    exact ⟨_, h.segments_eq⟩
  · intro hd
    rcases exists_reading source.toList with ⟨blocks, last, h⟩ | ⟨blocks, last, code, h⟩
    · rw [h.segments_eq] at hd
      cases hd
    · rw [h.segments_eq] at hd
      exact ⟨blocks, last, code, h, (Except.error.inj hd).symm⟩
  · rintro ⟨blocks, last, code, h, rfl⟩
    exact h.segments_eq
  · intro d hd
    rcases exists_reading source.toList with ⟨blocks, last, h⟩ | ⟨blocks, last, code, h⟩
    · rw [h.segments_eq] at hd
      cases hd
    · rw [h.segments_eq] at hd
      exact ⟨_, (Except.error.inj hd).symm, Script.placeAfter_lt_size h.isPrefix_front hshort⟩
  · intro before hbefore
    rw [afterAll_start]
    exact Script.placeAfter_lt_size hbefore hshort

/-- A `<%>` opens a block and does not close it, a `%%>` closes one, and no block opens behind a quote. -/
example : (segments "a.ks.html" "<%>%%>'<% %>").toOption = some [.code ">%", .literal "'<% %>"] := by
  decide +kernel

end SiteHost.Template
