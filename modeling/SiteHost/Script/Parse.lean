import SiteHost.Script.Scan
import SiteHost.Script.Syntax

/-!
# From tokens to syntax

A recursive descent over a token stream that stops at the first error:

* `expr` — terms joined by `+`, to the left; a term is a literal, a dotted name, a call or an
  expression in parentheses;
* `block`, `member`, `classDecl` — bodies, methods and classes; modifiers are accepted in any
  number, and of them only `public` on a member has a meaning;
* `items` — uses, classes and nested namespaces;
* `parse` — the unit of a source text, or one diagnostic.

Every recursive step spends fuel; `parse` gives four times as much as there are tokens and a little
more, and no step takes fuel thrice without taking a token.
-/

namespace SiteHost.Script

/-- What is wrong with a token stream that is no unit. -/
inductive SyntaxCause where
  | expectedToken (wanted : TokenKind) (found : Option TokenKind)
  | expectedEnd (found : Option TokenKind)
  | expectedName (found : Option TokenKind)
  | expectedClass (found : Option TokenKind)
  | expectedMember (found : Option TokenKind)
  | expectedExpr (found : Option TokenKind)
  | openClass (name : String)
  | openBody
  | secondConstructor (name : String)
  | exhausted
  deriving Repr, DecidableEq, Inhabited

/-- How a message speaks of what stands at a place: a token, or the end of the text. -/
def describeFound : Option TokenKind → String
  | some kind => kind.describe
  | none => "end of file"

/-- The cause in words. -/
def SyntaxCause.message : SyntaxCause → String
  | .expectedToken wanted found => s!"expected {wanted.describe}, found {describeFound found}"
  | .expectedEnd found => s!"expected end of file, found {describeFound found}"
  | .expectedName found => s!"expected identifier, found {describeFound found}"
  | .expectedClass found => s!"expected `class`, found {describeFound found}"
  | .expectedMember found => s!"expected `void` or a constructor, found {describeFound found}"
  | .expectedExpr found => s!"expected expression, found {describeFound found}"
  | .openClass name => s!"class `{name}` is never closed"
  | .openBody => "method body is never closed"
  | .secondConstructor name => s!"class `{name}` declares more than one constructor"
  | .exhausted => "the unit is too deeply nested"

/-- Why and where a token stream is no unit. -/
structure SyntaxError where
  cause : SyntaxCause
  position : Position
  deriving Repr, DecidableEq, Inhabited

/-- A step over the token stream that may fail. -/
abbrev Parser := StateT TokenStream (Except SyntaxError)

namespace Parser

/-- The next token's kind, or none at the end. -/
def peek : Parser (Option TokenKind) := do return (← get).tokens.head?.map Token.kind

/-- The place of the next token, or of the end. -/
def here : Parser Position := do
  let s ← get
  return (s.tokens.head?.map Token.position).getD s.stop

/-- Leaves the next token behind. -/
def advance : Parser Unit := modify fun s => { s with tokens := s.tokens.tail }

/-- Fails at a place. -/
def failAt {α : Type} (position : Position) (cause : SyntaxCause) : Parser α :=
  throw ⟨cause, position⟩

/-- Fails at the next token. -/
def fail {α : Type} (cause : SyntaxCause) : Parser α := do failAt (← here) cause

/-- Takes a token that must be of the kind `wanted`. -/
def expect (wanted : TokenKind) : Parser Unit := do
  let found ← peek
  if found = some wanted then advance else fail (.expectedToken wanted found)

/-- Takes the next token if it is of the kind `wanted`. -/
def accept (wanted : TokenKind) : Parser Bool := do
  if (← peek) = some wanted then
    advance
    return true
  else return false

/-- Whether the next token is the name `word`. -/
def atWord (word : String) : Parser Bool := do return (← peek) = some (.name word)

/-- Takes a name. -/
def name : Parser String := do
  match ← peek with
  | some (.name word) =>
    advance
    return word
  | found => fail (.expectedName found)

/-- A name with its place. -/
def placedName : Parser (String × Position) := do
  let p ← here
  return (← name, p)

/-- The segments that follow a name: a dot and a name, any number of times. -/
def moreSegments : Nat → Parser (List String)
  | 0 => fail .exhausted
  | n + 1 => do
    if ← accept .dot then
      let segment ← name
      return segment :: (← moreSegments n)
    else return []

/-- Names separated by dots. -/
def segments (fuel : Nat) : Parser (List String) := do
  let first ← name
  return first :: (← moreSegments fuel)

/-- A dotted name as text. -/
def qualifiedName (fuel : Nat) : Parser String := do
  return Text.joined "." (← segments fuel)

mutual

/-- Terms joined by `+`. -/
def expr : Nat → Parser Expr
  | 0 => fail .exhausted
  | n + 1 => do sum n (← term n)

/-- What `+` adds to an expression already read. -/
def sum : Nat → Expr → Parser Expr
  | 0, _ => fail .exhausted
  | n + 1, left => do
    if ← accept .plus then
      let right ← term n
      sum n (.concat left right)
    else return left

/-- A literal, a dotted name, a call or an expression in parentheses. -/
def term : Nat → Parser Expr
  | 0 => fail .exhausted
  | n + 1 => do
    match ← peek with
    | some (.text value) =>
      advance
      return .text value
    | some (.number value) =>
      advance
      return .int value
    | some .openParen =>
      advance
      let inner ← expr n
      expect .closeParen
      return inner
    | some (.name _) =>
      let p ← here
      let names ← segments n
      if ← accept .openParen then
        if ← accept .closeParen then return .call names [] p
        let args ← arguments n
        expect .closeParen
        return .call names args p
      else return .path names p
    | found => fail (.expectedExpr found)

/-- One argument or more, separated by commas. -/
def arguments : Nat → Parser (List Expr)
  | 0 => fail .exhausted
  | n + 1 => do
    let first ← expr n
    if ← accept .comma then return first :: (← arguments n)
    else return [first]

end

/-- One parameter or more. A parameter is a name, or a type and a name. -/
def paramNames : Nat → Parser (List String)
  | 0 => fail .exhausted
  | n + 1 => do
    let first ← name
    let param ← match ← peek with
      | some (.name _) => name
      | _ => pure first
    if ← accept .comma then return param :: (← paramNames n)
    else return [param]

/-- The parameters of a method in their parentheses. -/
def params (fuel : Nat) : Parser (List String) := do
  expect .openParen
  if ← accept .closeParen then return []
  let names ← paramNames fuel
  expect .closeParen
  return names

/-- Statements up to the closing brace of their body. -/
def stmts : Nat → Parser (List Stmt)
  | 0 => fail .exhausted
  | n + 1 => do
    match ← peek with
    | some .closeBrace => return []
    | none => fail .openBody
    | some (.name "return") =>
      advance
      expect .semicolon
      return .leave :: (← stmts n)
    | _ =>
      let e ← expr n
      expect .semicolon
      return .expr e :: (← stmts n)

/-- A method body in its braces. -/
def block (fuel : Nat) : Parser (List Stmt) := do
  expect .openBrace
  let body ← stmts fuel
  expect .closeBrace
  return body

/-- The words that may stand before `class`. -/
def classModifiers : List String :=
  ["public", "private", "protected", "internal", "sealed", "abstract", "static", "partial"]

/-- The words that may stand before a member. -/
def memberModifiers : List String :=
  ["public", "private", "protected", "internal", "override", "virtual", "static", "sealed", "new"]

/-- Takes the modifiers that come next and says which they were. -/
def modifiers (words : List String) : Nat → Parser (List String)
  | 0 => fail .exhausted
  | n + 1 => do
    match ← peek with
    | some (.name word) =>
      if words.contains word then
        advance
        return word :: (← modifiers words n)
      else return []
    | _ => return []

/-- A member of a class: a method and whether it is the constructor, which is a member that has the
name of the class and no `void` before it. -/
def member (fuel : Nat) (className : String) : Parser (Method × Bool) := do
  let words ← modifiers memberModifiers fuel
  let visibility := if words.contains "public" then Visibility.exposed else .hidden
  let ahead := (← get).tokens.map Token.kind
  let isConstructor := ahead.take 2 == [.name className, .openParen]
  if !isConstructor then
    if ← atWord "void" then advance else fail (.expectedMember (← peek))
  let (methodName, p) ← placedName
  let names ← params fuel
  let body ← block fuel
  return (⟨methodName, visibility, names, body, p⟩, isConstructor)

/-- The members of a class, to the closing brace. -/
def members (className : String) : Nat → Option Method → Parser (Option Method × List Method)
  | 0, _ => fail .exhausted
  | n + 1, constructor? => do
    match ← peek with
    | some .closeBrace => return (constructor?, [])
    | none => fail (.openClass className)
    | _ =>
      let (method, isConstructor) ← member n className
      if isConstructor then
        if constructor?.isSome then failAt method.position (.secondConstructor className)
        members className n (some method)
      else
        let (found, methods) ← members className n constructor?
        return (found, method :: methods)

/-- A class declared in a namespace. -/
def classDecl (fuel : Nat) (scope : String) : Parser ClassDecl := do
  let _ ← modifiers classModifiers fuel
  if ← atWord "class" then advance else fail (.expectedClass (← peek))
  let (className, p) ← placedName
  let base ← if ← accept .colon then some <$> qualifiedName fuel else pure none
  expect .openBrace
  let (constructor?, methods) ← members className fuel none
  expect .closeBrace
  return ⟨qualify scope className, scope, base, constructor?, methods, p⟩

/-- What a unit consists of. -/
inductive Item where
  | use (name : String)
  | declares (decl : ClassDecl)
  deriving Repr, Inhabited

/-- Items up to the end of the text or the closing brace of their namespace. -/
def items : Nat → String → Parser (List Item)
  | 0, _ => fail .exhausted
  | n + 1, scope => do
    match ← peek with
    | none | some .closeBrace => return []
    | some (.name "using") =>
      advance
      let used ← qualifiedName n
      expect .semicolon
      return .use used :: (← items n scope)
    | some (.name "namespace") =>
      advance
      let inner ← qualifiedName n
      expect .openBrace
      let nested ← items n (qualify scope inner)
      expect .closeBrace
      return nested ++ (← items n scope)
    | _ =>
      let decl ← classDecl n scope
      return .declares decl :: (← items n scope)

/-- A whole unit: items, and nothing after them. -/
def unit (fuel : Nat) : Parser (List Item) := do
  let found ← items fuel ""
  match ← peek with
  | none => return found
  | other => fail (.expectedEnd other)

end Parser

/-- Names without those that came before. -/
def withoutRepeats (names : List String) : List String :=
  names.foldl (fun seen name => if seen.contains name then seen else seen ++ [name]) []

/-- The unit of a file that consists of `found`. -/
def SourceUnit.ofItems (file : String) (found : List Parser.Item) : SourceUnit where
  file := file
  uses := withoutRepeats (found.filterMap fun | .use name => some name | .declares _ => none)
  classes := found.filterMap fun | .use _ => none | .declares decl => some decl

/-- As much fuel as a stream of tokens can need. -/
def fuelFor (s : TokenStream) : Nat := 4 * s.tokens.length + 8

/-- The items of a token stream. -/
def itemsOf (s : TokenStream) : Except SyntaxError (List Parser.Item) := (Parser.unit (fuelFor s)).run' s

/-- The unit of a source text, or the first error in it. -/
def parse (file source : String) : Except Diagnostic SourceUnit :=
  match scan source with
  | .error e => .error (.errorAt file e.position e.cause.message)
  | .ok stream =>
    match itemsOf stream with
    | .error e => .error (.errorAt file e.position e.cause.message)
    | .ok found => .ok (.ofItems file found)

end SiteHost.Script
