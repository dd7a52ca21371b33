import SiteHost.Diagnostic

/-!
# Tokens of the script language

* `TokenKind` — names, text literals, number literals and eight marks;
* `Token` — a kind with the place of its first character;
* `TokenStream` — the tokens of a text in order, with the place at which the text ends;
* `TokenKind.describe` — how a message speaks of a token.
-/

namespace SiteHost.Script

/-- What a token is, with the value of a name or a literal. -/
inductive TokenKind where
  | name (word : String)
  | text (value : String)
  | number (value : Int64)
  | dot
  | comma
  | semicolon
  | colon
  | plus
  | openParen
  | closeParen
  | openBrace
  | closeBrace
  deriving Repr, DecidableEq, Inhabited

namespace TokenKind

/-- The character of a mark. -/
def mark? : TokenKind → Option Char
  | .dot => some '.'
  | .comma => some ','
  | .semicolon => some ';'
  | .colon => some ':'
  | .plus => some '+'
  | .openParen => some '('
  | .closeParen => some ')'
  | .openBrace => some '\x7b'
  | .closeBrace => some '\x7d'
  | _ => none

/-- The mark that a character is. -/
def ofMark? : Char → Option TokenKind
  | '.' => some .dot
  | ',' => some .comma
  | ';' => some .semicolon
  | ':' => some .colon
  | '+' => some .plus
  | '(' => some .openParen
  | ')' => some .closeParen
  | '\x7b' => some .openBrace
  | '\x7d' => some .closeBrace
  | _ => none

theorem ofMark?_eq_some_iff {c : Char} {k : TokenKind} :
    ofMark? c = some k ↔ k.mark? = some c := by
  constructor
  · intro h
    unfold ofMark? at h
    split at h <;> cases h <;> rfl
  · intro h
    cases k <;> simp [mark?] at h <;> subst h <;> rfl

/-- How a message speaks of a token. -/
def describe : TokenKind → String
  | .name word => s!"`{word}`"
  | .text _ => "string literal"
  | .number _ => "integer literal"
  | .dot => "`.`"
  | .comma => "`,`"
  | .semicolon => "`;`"
  | .colon => "`:`"
  | .plus => "`+`"
  | .openParen => "`(`"
  | .closeParen => "`)`"
  | .openBrace => "`\x7b`"
  | .closeBrace => "`\x7d`"

end TokenKind

/-- A token and the place of its first character. -/
structure Token where
  kind : TokenKind
  position : Position
  deriving Repr, DecidableEq, Inhabited

/-- The tokens of a text, and the place at which the text ends. -/
structure TokenStream where
  tokens : List Token
  stop : Position
  deriving Repr, DecidableEq, Inhabited

end SiteHost.Script
