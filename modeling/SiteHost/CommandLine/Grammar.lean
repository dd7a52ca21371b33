import SiteHost.Text.LowerCase
import SiteHost.Text.Numeral
import SiteHost.Text.Pieces

/-!
# What a command line may hold

* `Parameter` — an option or an operand and the kind of its value;
* `Grammar` — the options, operands and commands that may be given at one place;
* `Grammar.help` — the description of a grammar that a reader sees;
* `Stop` — why a command line is not carried out: it asks for a description, or it is wrong;
* `Parameter.read` — the value that a text stands for.
-/

namespace SiteHost.CommandLine

/-- What the value of a parameter has to be. -/
inductive ValueKind where
  | text
  /-- A text that is not empty. -/
  | path
  /-- A number of 16 bits. -/
  | port
  /-- A number of 64 bits. -/
  | count
  /-- Yes or no. -/
  | flag
  deriving Repr, DecidableEq, Inhabited

/-- The value of a parameter. -/
inductive Value where
  | text (text : String)
  | number (n : Nat)
  | flag (isSet : Bool)
  deriving Repr, DecidableEq, Inhabited

/-- An option or an operand. -/
structure Parameter where
  name : String
  kind : ValueKind
  /-- What stands for the value in descriptions. -/
  placeholder : String
  about : String
  isRequired : Bool := false
  /-- Whether it may be given several times. -/
  repeats : Bool := false
  deriving Repr, DecidableEq, Inhabited

/-- What may be given at one place. -/
structure Grammar where
  /-- The words that lead to this place. -/
  name : String
  about : String
  options : List Parameter := []
  operands : List Parameter := []
  /-- The commands that may follow, with what they do. -/
  commands : List (String × String) := []
  /-- Whether the version of the program can be asked for. -/
  hasVersion : Bool := false
  deriving Repr, DecidableEq, Inhabited

/-- Why a command line is not carried out. -/
inductive Stop where
  | help (text : String)
  | version (text : String)
  | unknownArgument (argument : String)
  | unknownCommand (name : String)
  | missingValue (parameter : String)
  | badValue (parameter value : String)
  | repeated (parameter : String)
  | missingParameter (parameter : String)
  | unexpectedValue (flag value : String)
  deriving Repr, DecidableEq, Inhabited

namespace Stop

/-- Whether the command line asks for what it is answered with. -/
def isAnswer : Stop → Bool
  | .help _ | .version _ => true
  | _ => false

/-- What is said in place of running a command. -/
def text : Stop → String
  | .help text | .version text => text
  | .unknownArgument argument => s!"error: unexpected argument '{argument}' found\n"
  | .unknownCommand name => s!"error: unrecognized subcommand '{name}'\n"
  | .missingValue parameter =>
    s!"error: a value is required for '{parameter}' but none was supplied\n"
  | .badValue parameter value => s!"error: invalid value '{value}' for '{parameter}'\n"
  | .repeated parameter =>
    s!"error: the argument '{parameter}' cannot be used multiple times\n"
  | .missingParameter parameter =>
    s!"error: the following required arguments were not provided:\n  {parameter}\n"
  | .unexpectedValue flag value =>
    s!"error: unexpected value '{value}' for '{flag}' found; no more were expected\n"

end Stop

namespace Parameter

/-- The placeholder of a value in brackets. -/
def slot (p : Parameter) : String := s!"<{p.placeholder}>"

/-- An option as it is shown. -/
def shown (p : Parameter) : String := s!"--{p.name} {p.slot}"

/-- The words for yes. -/
def yesWords : List String := ["y", "yes", "t", "true", "on", "1"]

/-- The words for no. -/
def noWords : List String := ["n", "no", "f", "false", "off", "0"]

/-- The value that a text stands for. -/
def read (p : Parameter) (text : String) : Except Stop Value :=
  let bad := Stop.badValue p.shown text
  match p.kind with
  | .text => .ok (.text text)
  | .path => if text = "" then .error (.missingValue p.shown) else .ok (.text text)
  | .port =>
    match Text.readInt64? text with
    | some n => if 0 ≤ n ∧ n ≤ 65535 then .ok (.number n.toNat) else .error bad
    | none => .error bad
  | .count =>
    match Text.readUnsigned? Text.uint64Max text with
    | some n => .ok (.number n)
    | none => .error bad
  | .flag =>
    let word := Text.lower text
    if word ∈ yesWords then .ok (.flag true)
    else if word ∈ noWords then .ok (.flag false)
    else .error bad

end Parameter

namespace Grammar

/-- The option of a name. -/
def option? (g : Grammar) (name : String) : Option Parameter :=
  g.options.find? fun p => p.name == name

/-- How to write a command line. -/
def usage (g : Grammar) : String :=
  let required := (g.options.filter Parameter.isRequired).map Parameter.shown
  let operands := g.operands.map Parameter.slot
  let commands := if g.commands.isEmpty then [] else ["[COMMAND]"]
  Text.joined " " (["Usage:", g.name, "[OPTIONS]"] ++ required ++ operands ++ commands)

/-- The width of a line. -/
def lineWidth : Nat := 100

/-- Text filled up with blanks. -/
def padded (width : Nat) (text : String) : String :=
  text ++ String.ofList (List.replicate (width - text.length) ' ')

/-- Entries with their descriptions in a second column, or below them if the first column is wide
and a description would not fit beside it. -/
def columns (entries : List (String × String)) : List String :=
  let width := (entries.map fun e => e.1.length).foldl max 0
  let taken := width + 4
  let isBelow := 2 * lineWidth < 5 * taken &&
    entries.any fun e => lineWidth - taken < e.2.length
  entries.map fun (entry, about) =>
    if isBelow then s!"  {entry}\n          {about}" else s!"  {padded width entry}  {about}"

/-- A heading with its entries. -/
def sectionText (heading : String) (entries : List (String × String)) : String :=
  if entries.isEmpty then ""
  else s!"\n{heading}:\n" ++ String.join ((columns entries).map (· ++ "\n"))

/-- The entries for options and flags. -/
def optionEntries (g : Grammar) : List (String × String) :=
  let version := if g.hasVersion then [("-V, --version", "Print version")] else []
  g.options.map (fun p => ("    " ++ p.shown, p.about)) ++ [("-h, --help", "Print help")] ++ version

/-- The description of a grammar. -/
def help (g : Grammar) : String :=
  s!"{g.about}\n\n{g.usage}\n" ++ sectionText "Commands" g.commands ++
    sectionText "Arguments" (g.operands.map fun p => (p.slot, p.about)) ++
    sectionText "Options" g.optionEntries

end Grammar

end SiteHost.CommandLine
