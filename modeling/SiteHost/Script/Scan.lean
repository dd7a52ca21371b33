import SiteHost.Script.Token
import SiteHost.Text.Blank
import SiteHost.Text.Letter
import SiteHost.Text.Numeral

/-!
# From text to tokens

Tokens are separated by blanks, `//` comments and `/* */` comments, none of which is needed where
two tokens cannot be mistaken for one:

* `skipTrivia` — to the first character that is neither blank nor comment;
* `lexeme` — one token: a mark, a name, a number of at most 64 bits with its sign bit clear, a
  text with escapes on one line, or a verbatim text in which a quote is written twice;
* `scan` — all tokens of a text, or the first error with its place.

`lexeme_shortens` says that every token takes a character, which is why `scan` ends.
-/

namespace SiteHost.Script

open SiteHost.Text

/-- What is wrong with a text that has no tokens. -/
inductive LexCause where
  | unexpected (c : Char)
  | noQuoteAfterAt
  | openText
  | openVerbatim
  | openComment
  | unknownEscape (c : Char)
  | numberOutOfRange (digits : String)
  deriving Repr, DecidableEq, Inhabited

/-- The cause in words. -/
def LexCause.message : LexCause → String
  | .unexpected c => s!"unexpected character `{c}`"
  | .noQuoteAfterAt => "expected `\"` after `@`"
  | .openText => "unterminated string literal"
  | .openVerbatim => "unterminated verbatim string literal"
  | .openComment => "unterminated block comment"
  | .unknownEscape c => s!"unknown escape sequence `\\{c}`"
  | .numberOutOfRange digits => s!"integer literal `{digits}` is out of range"

/-- Why and where a text has no tokens. -/
structure LexError where
  cause : LexCause
  position : Position
  deriving Repr, DecidableEq, Inhabited

/-- The characters still to be read and the place of the first of them. -/
structure Cursor where
  rest : List Char
  position : Position
  deriving Repr, DecidableEq, Inhabited

/-- The cursor behind the leading characters that satisfy `p`. -/
def Cursor.skip (p : Char → Bool) (k : Cursor) : Cursor :=
  ⟨k.rest.dropWhile p, k.position.afterAll (k.rest.takeWhile p)⟩

/-- To the end of a block comment whose opening has been read, if it ends. -/
def blockComment? : List Char → Position → Option Cursor
  | '*' :: '/' :: rest, p => some ⟨rest, (p.after '*').after '/'⟩
  | c :: rest, p => blockComment? rest (p.after c)
  | [], _ => none

theorem length_dropWhile_le (p : Char → Bool) (cs : List Char) :
    (cs.dropWhile p).length ≤ cs.length :=
  (List.dropWhile_sublist p).length_le

theorem blockComment?_length {cs : List Char} {p : Position} {k : Cursor}
    (h : blockComment? cs p = some k) : k.rest.length ≤ cs.length := by
  fun_induction blockComment? cs p with
  | case1 => cases h; simp; omega
  | case2 _ _ _ _ ih => have := ih h; simp; omega
  | case3 => simp at h

/-- To the first character that is neither blank nor comment. -/
def skipTrivia (k : Cursor) : Except LexError Cursor :=
  match _h : k.rest with
  | '/' :: '/' :: rest =>
    skipTrivia (Cursor.skip (· ≠ '\n') ⟨rest, (k.position.after '/').after '/'⟩)
  | '/' :: '*' :: rest =>
    match _hk : blockComment? rest ((k.position.after '/').after '*') with
    | some next => skipTrivia next
    | none => .error ⟨.openComment, k.position⟩
  | c :: rest => if isBlank c then skipTrivia ⟨rest, k.position.after c⟩ else .ok k
  | [] => .ok k
termination_by k.rest.length
decreasing_by
  · have := length_dropWhile_le (· ≠ '\n') rest
    simp only [Cursor.skip, _h, List.length_cons]
    omega
  · have := blockComment?_length _hk
    simp only [_h, List.length_cons]
    omega
  · simp [_h]

/-- The character that an escape stands for. -/
def escaped? : Char → Option Char
  | 'n' => some '\n'
  | 't' => some '\t'
  | 'r' => some '\r'
  | '0' => some '\x00'
  | '"' => some '"'
  | '\'' => some '\''
  | '\\' => some '\\'
  | _ => none

/-- The rest of a text literal whose opening quote stands at `start`; `done` is what has been read
of it, backwards. The place of an unknown escape is two columns before the character after it. -/
def escapedText (start : Position) (done : List Char) :
    List Char → Position → Except LexError (TokenKind × Cursor)
  | '"' :: rest, p => .ok (.text (String.ofList done.reverse), ⟨rest, p.after '"'⟩)
  | '\\' :: c :: rest, p =>
    let next := (p.after '\\').after c
    match escaped? c with
    | some d => escapedText start (d :: done) rest next
    | none => .error ⟨.unknownEscape c, ⟨next.line, next.column - 2⟩⟩
  | '\\' :: [], _ => .error ⟨.openText, start⟩
  | '\n' :: _, _ => .error ⟨.openText, start⟩
  | c :: rest, p => escapedText start (c :: done) rest (p.after c)
  | [], _ => .error ⟨.openText, start⟩

/-- The rest of a verbatim literal, in which two quotes stand for one. -/
def verbatimText (start : Position) (done : List Char) :
    List Char → Position → Except LexError (TokenKind × Cursor)
  | '"' :: '"' :: rest, p =>
    verbatimText start ('"' :: done) rest ((p.after '"').after '"')
  | '"' :: rest, p => .ok (.text (String.ofList done.reverse), ⟨rest, p.after '"'⟩)
  | c :: rest, p => verbatimText start (c :: done) rest (p.after c)
  | [], _ => .error ⟨.openVerbatim, start⟩

/-- A character that may start a name. -/
def isNameStart (c : Char) : Bool := isAlphabetic c || c == '_'

/-- A character that may continue a name. -/
def isNamePart (c : Char) : Bool := isAlphanumeric c || c == '_'

/-- The token that begins with `c`, which stands at `p` before `rest`. -/
def lexeme (c : Char) (rest : List Char) (p : Position) :
    Except LexError (TokenKind × Cursor) :=
  match TokenKind.ofMark? c with
  | some mark => .ok (mark, ⟨rest, p.after c⟩)
  | none =>
    if c = '"' then escapedText p [] rest (p.after c)
    else if c = '@' then
      match rest with
      | '"' :: inner => verbatimText p [] inner ((p.after '@').after '"')
      | _ => .error ⟨.noQuoteAfterAt, p⟩
    else if c.isDigit then
      let digits := c :: rest.takeWhile Char.isDigit
      let value := digitsValue digits
      if value ≤ int64Max then
        .ok (.number (Int64.ofNat value), Cursor.skip Char.isDigit ⟨rest, p.after c⟩)
      else .error ⟨.numberOutOfRange (String.ofList digits), p⟩
    else if isNameStart c then
      .ok (.name (String.ofList (c :: rest.takeWhile isNamePart)),
        Cursor.skip isNamePart ⟨rest, p.after c⟩)
    else .error ⟨.unexpected c, p⟩

theorem skipTrivia_length {k next : Cursor} (h : skipTrivia k = .ok next) :
    next.rest.length ≤ k.rest.length := by
  fun_induction skipTrivia k with
  | case1 k rest hk ih =>
    have := ih h
    have := length_dropWhile_le (· ≠ '\n') rest
    simp only [Cursor.skip] at *
    simp only [hk, List.length_cons]
    omega
  | case2 k rest hk step hstep ih =>
    have := ih h
    have := blockComment?_length hstep
    simp only [hk, List.length_cons]
    omega
  | case3 => simp at h
  | case4 k c rest _ _ hk _ ih => have := ih h; simp [hk] at *; omega
  | case5 => cases h; exact Nat.le_refl _
  | case6 => cases h; exact Nat.le_refl _

theorem escapedText_length {start p : Position} {done cs : List Char} {kind : TokenKind}
    {k : Cursor} (h : escapedText start done cs p = .ok (kind, k)) :
    k.rest.length ≤ cs.length := by
  fun_induction escapedText start done cs p with
  | case1 => cases h; simp
  | case2 _ _ _ _ _ _ _ ih => have := ih h; simp; omega
  | case3 => simp at h
  | case4 => simp at h
  | case5 => simp at h
  | case6 _ _ _ _ _ _ _ _ ih => have := ih h; simp; omega
  | case7 => simp at h

theorem verbatimText_length {start p : Position} {done cs : List Char} {kind : TokenKind}
    {k : Cursor} (h : verbatimText start done cs p = .ok (kind, k)) :
    k.rest.length ≤ cs.length := by
  fun_induction verbatimText start done cs p with
  | case1 _ _ _ ih => have := ih h; simp; omega
  | case2 => cases h; simp
  | case3 _ _ _ _ _ _ ih => have := ih h; simp; omega
  | case4 => simp at h

/-- A token takes at least its first character. -/
theorem lexeme_shortens {c : Char} {rest : List Char} {p : Position} {kind : TokenKind}
    {k : Cursor} (h : lexeme c rest p = .ok (kind, k)) : k.rest.length ≤ rest.length := by
  unfold lexeme at h
  split at h
  · cases h; exact Nat.le_refl _
  · split at h
    · exact escapedText_length h
    · split at h
      · split at h
        · have := verbatimText_length h
          simp only [List.length_cons]
          omega
        · cases h
      · split at h
        · simp only at h
          split at h
          · cases h; exact length_dropWhile_le _ _
          · cases h
        · split at h
          · cases h; exact length_dropWhile_le _ _
          · cases h

/-- The tokens from a cursor on, as they come before the tokens in `done`, read backwards. -/
def scanFrom (done : List Token) (k : Cursor) : Except LexError TokenStream :=
  match _hk : skipTrivia k with
  | .error e => .error e
  | .ok ⟨[], stop⟩ => .ok ⟨done.reverse, stop⟩
  | .ok ⟨c :: rest, p⟩ =>
    match _hl : lexeme c rest p with
    | .error e => .error e
    | .ok (kind, next) => scanFrom (⟨kind, p⟩ :: done) next
termination_by k.rest.length
decreasing_by
  have h1 := skipTrivia_length _hk
  have h2 := lexeme_shortens _hl
  simp only [List.length_cons] at h1
  omega

/-- The tokens of a text. -/
def scan (source : String) : Except LexError TokenStream :=
  scanFrom [] ⟨source.toList, .start⟩

end SiteHost.Script
