import SiteHost.Text.Numeral
import SiteHost.Text.Pieces

/-!
# Network addresses

* `Host` — the number of a machine, in version 4 or 6 of the protocol;
* `Host.parse?` — four decimal numbers between dots, or groups of hexadecimal digits between colons
  in square brackets, in which `::` stands for as many zero groups as are missing;
* `Host.text` — the one way to write a host: the longest run of two or more zero groups is left out;
* `Address.text` — a host with its port.
-/

namespace SiteHost

/-- The number of a machine. -/
inductive Host where
  | four (numbers : List Nat)
  /-- Eight groups of 16 bits, and the zone in which they hold, if that is not zero. -/
  | six (groups : List Nat) (zone : Nat)
  deriving Repr, DecidableEq, Inhabited

/-- A machine and a port on it. -/
structure Address where
  host : Host
  port : Nat
  deriving Repr, DecidableEq, Inhabited

namespace Host

/-- A decimal number of one byte, without leading zeros. -/
def byte? (cs : List Char) : Option Nat :=
  if cs.length > 3 || (cs.length > 1 && cs.head? == some '0') then none
  else (Text.readDigits? cs).filter (· ≤ 255)

/-- Four bytes between dots. -/
def four? (cs : List Char) : Option (List Nat) :=
  let parts := Text.cut '.' cs
  if parts.length = 4 then parts.mapM byte? else none

/-- One to four hexadecimal digits. -/
def group? (cs : List Char) : Option Nat :=
  if cs.isEmpty || cs.length > 4 then none
  else cs.foldlM (fun n c => (Text.hexValue? c).map (n * 16 + ·)) 0

/-- Groups between colons. The last two may be written as four bytes, if `endsInBytes`. -/
def groups? (endsInBytes : Bool) : List (List Char) → Option (List Nat)
  | [] => some []
  | [last] =>
    if last.contains '.' then
      match endsInBytes, four? last with
      | true, some [a, b, c, d] => some [a * 256 + b, c * 256 + d]
      | _, _ => none
    else (group? last).map ([·])
  | part :: rest => do return (← group? part) :: (← groups? endsInBytes rest)

/-- The groups of a text that may be empty. -/
def groupsOf? (endsInBytes : Bool) (cs : List Char) : Option (List Nat) :=
  if cs.isEmpty then some [] else groups? endsInBytes (Text.cut ':' cs)

/-- What stands before and after the first `::`. -/
def cutGap? : List Char → Option (List Char × List Char)
  | ':' :: ':' :: rest => some ([], rest)
  | c :: rest => (cutGap? rest).map fun (before, after) => (c :: before, after)
  | [] => none

/-- Eight groups. -/
def six? (cs : List Char) : Option (List Nat) :=
  match cutGap? cs with
  | none => (groupsOf? true cs).filter (·.length = 8)
  | some (before, after) => do
    let head ← groupsOf? false before
    let tail ← groupsOf? true after
    if head.length + tail.length > 7 then none
    return head ++ List.replicate (8 - head.length - tail.length) 0 ++ tail

/-- The host that a text spells. -/
def parse? (text : String) : Option Host :=
  match text.toList with
  | '[' :: rest =>
    match Text.stripEnd? [']'] rest with
    | none => none
    | some inner =>
      match Text.cutFirst? '%' inner with
      | none => (six? inner).map (.six · 0)
      | some (groups, zone) => do
        return .six (← six? groups) (← (Text.readDigits? zone).filter (· ≤ Text.uint32Max))
  | cs => (four? cs).map .four

/-- The hexadecimal digits of a group, without leading zeros. -/
def groupText (n : Nat) : String := String.ofList (Nat.toDigits 16 n)

/-- Bytes between dots. -/
def bytesText (numbers : List Nat) : String := Text.joined "." (numbers.map toString)

/-- How many zero groups stand at the start. -/
def zeroRun (groups : List Nat) : Nat := (groups.takeWhile (· == 0)).length

/-- The length of the longest run of zero groups, and where the first such run starts. -/
def longestGap : List Nat → Nat × Nat
  | [] => (0, 0)
  | group :: rest =>
    let (length, start) := longestGap rest
    let here := zeroRun (group :: rest)
    if length ≤ here then (here, 0) else (length, start + 1)

/-- Groups between colons. -/
def groupsText (groups : List Nat) : String := Text.joined ":" (groups.map groupText)

/-- Eight groups as text. The bytes of a mapped address of version 4 are written as such. -/
def sixText (groups : List Nat) : String :=
  match groups with
  | [0, 0, 0, 0, 0, 0xFFFF, a, b] =>
    "::ffff:" ++ bytesText [a / 256, a % 256, b / 256, b % 256]
  | _ =>
    let (length, start) := longestGap groups
    if length < 2 then groupsText groups
    else groupsText (groups.take start) ++ "::" ++ groupsText (groups.drop (start + length))

/-- A host as text. -/
def text : Host → String
  | .four numbers => bytesText numbers
  | .six groups zone =>
    "[" ++ sixText groups ++ (if zone = 0 then "" else "%" ++ toString zone) ++ "]"

end Host

/-- An address as text. -/
def Address.text (a : Address) : String := s!"{a.host.text}:{a.port}"

end SiteHost
