import SiteHost.Text.Numeral

/-!
# Texts and keys of TOML

* `skipBlanks`, `skipLines` — what may stand between two tokens, on one line or on several;
* `readText?` — a text in any of the four notations: basic or literal, on one line or on several;
* `readKey?` — the names of a key, which are bare or quoted and stand between dots.

Each reader takes what it reads from the start of the characters and gives back the rest.
-/

namespace SiteHost.Toml

/-- What a reader finds and what follows it. -/
abbrev Reader (α : Type) := List Char → Option (α × List Char)

/-- A character that stands between tokens of one line. -/
def isBlank (c : Char) : Bool := c == ' ' || c == '\t'

/-- Characters without the leading blanks. -/
def skipBlanks (cs : List Char) : List Char := cs.dropWhile isBlank

/-- A control character other than the tab, which no text and no comment may hold. -/
def isControl (c : Char) : Bool := (c.toNat < 0x20 && c != '\t') || c.toNat == 0x7F

/-- What follows a line break at the start of characters. -/
def lineBreak? : List Char → Option (List Char)
  | '\n' :: rest => some rest
  | '\r' :: '\n' :: rest => some rest
  | _ => none

/-- What follows a comment that starts here, if there is one: the end of its line. -/
def skipComment : List Char → List Char
  | '#' :: rest => rest.dropWhile fun c => !isControl c
  | cs => cs

/-- What follows the blanks, comments and line breaks. -/
def skipLines : (fuel : Nat) → List Char → List Char
  | 0, cs => cs
  | fuel + 1, cs =>
    let cs := skipComment (skipBlanks cs)
    match lineBreak? cs with
    | some rest => skipLines fuel rest
    | none => cs

/-- The number that hexadecimal digits stand for. -/
def hexNumber? (digits : List Char) : Option Nat :=
  digits.foldlM (fun n c => (Text.hexValue? c).map (n * 16 + ·)) 0

/-- The character of a code point. Surrogates have none. -/
def character? (n : Nat) : Option Char :=
  if h : n.isValidChar then some (Char.ofNatAux n h) else none

/-- How many hexadecimal digits follow the letter of an escape. -/
def escapeDigits : Char → Nat
  | 'x' => 2
  | 'u' => 4
  | 'U' => 8
  | _ => 0

/-- The character of an escape without digits. -/
def shortEscape? : Char → Option Char
  | 'b' => some '\x08'
  | 't' => some '\t'
  | 'n' => some '\n'
  | 'f' => some '\x0c'
  | 'r' => some '\r'
  | 'e' => some '\x1b'
  | '"' => some '"'
  | '\\' => some '\\'
  | _ => none

/-- The character of an escape behind its backslash. -/
def readEscape? : Reader Char
  | [] => none
  | letter :: rest =>
    let count := escapeDigits letter
    if count = 0 then (shortEscape? letter).map (·, rest)
    else if rest.length < count then none
    else ((hexNumber? (rest.take count)).bind character?).map (·, rest.drop count)

/-- What follows a backslash at the end of a line: the next character that is neither blank nor a
line break. -/
def joinLines? (cs : List Char) : Option (List Char) :=
  (lineBreak? (skipBlanks cs)).map fun rest =>
    rest.dropWhile fun c => isBlank c || c == '\n' || c == '\r'

/-- Which notation a text is written in. -/
structure Quotes where
  mark : Char
  /-- Whether a backslash starts an escape. -/
  hasEscapes : Bool
  spansLines : Bool
  deriving Repr, DecidableEq

/-- What follows the closing quotes, if they stand here, and the quotes before them that belong to
the text. -/
def Quotes.close? (q : Quotes) (cs : List Char) : Option (List Char × List Char) :=
  let run := (cs.takeWhile (· == q.mark)).length
  if q.spansLines then
    if run < 3 then none
    else some (List.replicate (min (run - 3) 2) q.mark, cs.drop (min run 5))
  else if run = 0 then none
  else some ([], cs.drop 1)

/-- The rest of a text behind its opening quotes. -/
def readQuoted? (q : Quotes) : (fuel : Nat) → (done : List Char) → Reader String
  | 0, _, _ => none
  | fuel + 1, done, cs =>
    match q.close? cs with
    | some (quotes, rest) => some (String.ofList (done.reverse ++ quotes), rest)
    | none =>
      match cs with
      | [] => none
      | c :: rest =>
        if c = '\\' && q.hasEscapes then
          match (if q.spansLines then joinLines? rest else none) with
          | some rest => readQuoted? q fuel done rest
          | none =>
            match readEscape? rest with
            | some (d, rest) => readQuoted? q fuel (d :: done) rest
            | none => none
        else match (if q.spansLines then lineBreak? (c :: rest) else none) with
          | some rest => readQuoted? q fuel ('\n' :: done) rest
          | none => if isControl c then none else readQuoted? q fuel (c :: done) rest

/-- The rest of a text on several lines. A line break right behind the quotes does not count. -/
def readLines? (q : Quotes) : Reader String := fun cs =>
  readQuoted? q (cs.length + 1) [] ((lineBreak? cs).getD cs)

/-- A text on one line. -/
def readLine? : Reader String
  | '"' :: rest => readQuoted? ⟨'"', true, false⟩ (rest.length + 1) [] rest
  | '\'' :: rest => readQuoted? ⟨'\'', false, false⟩ (rest.length + 1) [] rest
  | _ => none

/-- A text in any notation. -/
def readText? : Reader String
  | '"' :: '"' :: '"' :: rest => readLines? ⟨'"', true, true⟩ rest
  | '\'' :: '\'' :: '\'' :: rest => readLines? ⟨'\'', false, true⟩ rest
  | cs => readLine? cs

/-- A character of a bare name. -/
def isBare (c : Char) : Bool := c.isAlphanum || c == '_' || c == '-'

/-- One name of a key. -/
def readName? : Reader String := fun cs =>
  let bare := cs.takeWhile isBare
  if bare.isEmpty then readLine? cs else some (String.ofList bare, cs.dropWhile isBare)

/-- The names of a key. -/
def readNames? : (fuel : Nat) → Reader (List String)
  | 0, _ => none
  | fuel + 1, cs =>
    match readName? (skipBlanks cs) with
    | none => none
    | some (name, rest) =>
      match skipBlanks rest with
      | '.' :: rest => (readNames? fuel rest).map fun (names, rest) => (name :: names, rest)
      | rest => some ([name], rest)

/-- A key. -/
def readKey? : Reader (List String) := fun cs => readNames? (cs.length + 1) cs

end SiteHost.Toml
