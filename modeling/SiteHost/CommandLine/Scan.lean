import SiteHost.CommandLine.Grammar

/-!
# Reading a command line

Arguments are taken one by one. The value of an option is looked at when the next option or operand
starts, or at the end, unless it is written into the same argument:

* `Scan` — the values that were looked at, and the parameter whose value was not;
* `Scan.settle` — looks at that value;
* `scan` — takes arguments until they end or a command is found;
* `readAll` — the values of a grammar without commands.

An argument that starts with a dash is never the value of an option, a lone dash excepted. After
`--` every argument is an operand.
-/

namespace SiteHost.CommandLine

/-- Values by the names of their parameters, in the order in which they were given. -/
abbrev Values := List (String × Value)

/-- Arguments that were taken. -/
structure Scan where
  values : Values := []
  /-- The parameter whose value was not looked at, and the value if it was given. -/
  pending : Option (Parameter × Option String) := none
  operandsTaken : Nat := 0
  deriving Inhabited

namespace Scan

/-- Whether an option waits for its value. -/
def isAwaiting (s : Scan) : Bool :=
  match s.pending with
  | some (_, none) => true
  | _ => false

/-- Gives the waiting option its value. -/
def give (s : Scan) (text : String) : Scan :=
  { s with pending := s.pending.map fun (p, _) => (p, some text) }

/-- Looks at the pending value. -/
def settle (s : Scan) : Except Stop Scan := do
  match s.pending with
  | none => return s
  | some (p, none) => throw (.missingValue p.shown)
  | some (p, some text) =>
    if !p.repeats && s.values.any fun v => v.1 == p.name then throw (.repeated p.shown)
    let value ← p.read text
    return { s with values := s.values ++ [(p.name, value)], pending := none }

/-- Starts a parameter. -/
def start (s : Scan) (p : Parameter) (text : Option String) : Except Stop Scan := do
  return { ← s.settle with pending := some (p, text) }

end Scan

/-- The form of an argument. -/
inductive Shape where
  /-- The mark behind which there are operands only. -/
  | closing
  /-- A name behind two dashes, and the value behind an equals sign. -/
  | long (name : String) (value : Option String)
  /-- The first letter behind one dash. -/
  | short (letter : Char)
  | plain
  deriving Repr, DecidableEq, Inhabited

/-- The form that an argument has. -/
def shapeOf (arg : String) : Shape :=
  match arg.toList with
  | ['-', '-'] => .closing
  | '-' :: '-' :: rest =>
    match Text.cutFirst? '=' rest with
    | some (name, value) => .long (String.ofList name) (some (String.ofList value))
    | none => .long (String.ofList rest) none
  | '-' :: letter :: _ => .short letter
  | _ => .plain

/-- The program's name. -/
def programName : String := "kiln"

/-- The answer to a question for the version. -/
def versionText : String := programName ++ " 0.1.0\n"

/-- The flag of a name, as the stop that it asks for. -/
def flag? (g : Grammar) (name : String) : Option Stop :=
  if name = "help" then some (.help g.help)
  else if name = "version" ∧ g.hasVersion then some (.version versionText)
  else none

/-- The flag of a letter. -/
def letterFlag? (g : Grammar) (letter : Char) : Option Stop :=
  if letter = 'h' then flag? g "help" else if letter = 'V' then flag? g "version" else none

/-- Takes an argument that is a long option or flag. -/
def takeLong (g : Grammar) (s : Scan) (arg name : String) (value : Option String) :
    Except Stop Scan :=
  match g.option? name with
  | some p => do
    let s ← s.start p value
    if value.isSome then s.settle else return s
  | none =>
    match flag? g name, value with
    | some stop, none => do
      let _ ← s.settle
      throw stop
    | some _, some value => throw (.unexpectedValue s!"--{name}" value)
    | none, _ => throw (.unknownArgument arg)

/-- Takes an argument that is neither an option nor its value. -/
def takeOperand (g : Grammar) (isClosed : Bool) (s : Scan) (arg : String) : Except Stop Scan :=
  match g.operands[s.operandsTaken]? with
  | some p => do
    let s ← s.start p (some arg)
    return { s with operandsTaken := s.operandsTaken + 1 }
  | none =>
    if g.commands.isEmpty || isClosed && g.commands.any (fun c => c.1 == arg) then
      throw (.unknownArgument arg)
    else throw (.unknownCommand arg)

/-- Takes arguments. Stops at a command, which is given back with what follows it. -/
def scan (g : Grammar) (isClosed : Bool) (s : Scan) :
    List String → Except Stop (Scan × Option (String × List String))
  | [] => return (s, none)
  | arg :: rest => do
    if isClosed then scan g true (← takeOperand g true s arg) rest
    else if !s.isAwaiting && g.commands.any fun c => c.1 == arg then return (s, some (arg, rest))
    else match shapeOf arg with
      | .closing => scan g true s rest
      | .long name value => scan g false (← takeLong g s arg name value) rest
      | .short letter =>
        match letterFlag? g letter with
        | some stop =>
          let _ ← s.settle
          throw stop
        | none => throw (.unknownArgument arg)
      | .plain =>
        if s.isAwaiting then scan g false (s.give arg) rest
        else scan g false (← takeOperand g false s arg) rest

/-- The values of a command line without commands, in which nothing that is required is missing. -/
def readAll (g : Grammar) (args : List String) : Except Stop Values := do
  let (s, _) ← scan g false {} args
  let s ← s.settle
  match (g.operands ++ g.options).find? fun p =>
      p.isRequired && !s.values.any fun v => v.1 == p.name with
  | some p => throw (.missingParameter p.name)
  | none => return s.values

namespace Values

/-- The value of a name. -/
def value? (vs : Values) (name : String) : Option Value := List.lookup name vs

/-- The text of a name. -/
def text? (vs : Values) (name : String) : Option String :=
  match vs.value? name with
  | some (.text t) => some t
  | _ => none

/-- The number of a name. -/
def number? (vs : Values) (name : String) : Option Nat :=
  match vs.value? name with
  | some (.number n) => some n
  | _ => none

/-- The flag of a name. -/
def flag? (vs : Values) (name : String) : Option Bool :=
  match vs.value? name with
  | some (.flag b) => some b
  | _ => none

/-- Every text of a name. -/
def texts (vs : Values) (name : String) : List String :=
  vs.filterMap fun (other, value) =>
    match value with
    | .text t => if other = name then some t else none
    | _ => none

end Values

end SiteHost.CommandLine
