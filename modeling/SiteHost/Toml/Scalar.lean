import SiteHost.Json.Read
import SiteHost.Text.Pieces
import SiteHost.Timestamp
import SiteHost.Toml.Text

/-!
# Numbers, dates and truth values of TOML

* `readScalar?` — a value that is neither a text nor a container. It reaches as far as the characters
  that such a value can have;
* `wholeNumber?`, `fraction?` — numbers, with `_` allowed between two digits;
* `moment?` — a date, a time of day, or both, as their common text.
-/

namespace SiteHost.Toml

/-- The digits of a number without the underscores, each of which stands between two digits. -/
def plainDigits? (isDigit : Char → Bool) (cs : List Char) : Option (List Char) :=
  let groups := Text.cut '_' cs
  if groups.all fun g => !g.isEmpty && g.all isDigit then some groups.flatten else none

/-- Digits without a leading zero, unless it is the only one. -/
def decimalDigits? (cs : List Char) : Option (List Char) :=
  if cs.length > 1 && cs.head? == some '0' then none else plainDigits? Char.isDigit cs

/-- The value of digits in a base. -/
def inBase? (base : Nat) (cs : List Char) : Option Nat := do
  let digits ← plainDigits? (fun c => (Text.hexValue? c).any (· < base)) cs
  digits.foldlM (fun n c => (Text.hexValue? c).map (n * base + ·)) 0

/-- A sign and what follows it. -/
def sign : List Char → Bool × List Char
  | '-' :: rest => (true, rest)
  | '+' :: rest => (false, rest)
  | cs => (false, cs)

/-- A whole number of 64 bits. -/
def wholeNumber? (cs : List Char) : Option Json := do
  let n : Int ← match cs with
    | '0' :: 'x' :: digits => (inBase? 16 digits).map Int.ofNat
    | '0' :: 'o' :: digits => (inBase? 8 digits).map Int.ofNat
    | '0' :: 'b' :: digits => (inBase? 2 digits).map Int.ofNat
    | cs =>
      let (negative, digits) := sign cs
      (decimalDigits? digits).map fun ds =>
        let n : Int := Text.digitsValue ds
        if negative then -n else n
  if -(Text.int64Max + 1 : Int) ≤ n ∧ n ≤ Text.int64Max then some (.int n) else none

/-- The exponent of a number behind its letter. -/
def exponent? (cs : List Char) : Option Int := do
  let (negative, digits) := sign cs
  let n : Int := Text.digitsValue (← plainDigits? Char.isDigit digits)
  return if negative then -n else n

/-- A number with a fraction or an exponent, or both. -/
def decimal? (cs : List Char) : Option Float := do
  let isLetter (c : Char) : Bool := c == 'e' || c == 'E'
  let mantissa := cs.takeWhile fun c => !isLetter c
  let exponent ← match cs.dropWhile fun c => !isLetter c with
    | [] => some 0
    | _ :: digits => exponent? digits
  let (whole, fraction) ← match Text.cutFirst? '.' mantissa with
    | none => some (← decimalDigits? mantissa, [])
    | some (whole, fraction) =>
      some (← decimalDigits? whole, ← plainDigits? Char.isDigit fraction)
  let f := Json.floatOf (Text.digitsValue (whole ++ fraction)) (exponent - fraction.length)
  if f.isInf || !cs.any (fun c => c == '.' || isLetter c) then none else some f

/-- A number that need not be whole. -/
def fraction? (cs : List Char) : Option Json :=
  let (negative, cs) := sign cs
  let size : Option Float :=
    if cs = ['i', 'n', 'f'] then some (1.0 / 0.0)
    else if cs = ['n', 'a', 'n'] then some (0.0 / 0.0)
    else decimal? cs
  size.map fun f => .float (if negative then -f else f)

/-- A number of exactly so many digits, within bounds. -/
def field? (count low high : Nat) (cs : List Char) : Option Nat :=
  if cs.length = count then (Text.readDigits? cs).filter fun n => low ≤ n && n ≤ high else none

/-- Whether characters are a date. -/
def isDate (cs : List Char) : Bool :=
  match Text.cut '-' cs with
  | [year, month, day] =>
    match field? 4 0 9999 year, field? 2 1 12 month with
    | some y, some m => (field? 2 1 (Timestamp.daysIn y m) day).isSome
    | _, _ => false
  | _ => false

/-- The part of a second, to nine digits and without closing zeros. -/
def secondPart? (cs : List Char) : Option (List Char) :=
  if (Text.readDigits? cs).isNone then none
  else
    let digits := ((cs.take 9).reverse.dropWhile (· == '0')).reverse
    some (if digits.isEmpty then [] else '.' :: digits)

/-- A time of day, with its seconds. -/
def time? (cs : List Char) : Option (List Char) := do
  let (clock, part) := (Text.cutFirst? '.' cs).getD (cs, ['0'])
  let part ← secondPart? part
  let full ← match Text.cut ':' clock with
    | [_, _] => if cs.contains '.' then none else some (clock ++ [':', '0', '0'])
    | [_, _, _] => some clock
    | _ => none
  match Text.cut ':' full with
  | [hour, minute, second] =>
    let _ ← field? 2 0 23 hour
    let _ ← field? 2 0 59 minute
    let _ ← field? 2 0 60 second
    return full ++ part
  | _ => none

/-- The distance from universal time. -/
def offset? (cs : List Char) : Option (List Char) :=
  match cs with
  | [] => some []
  | ['Z'] | ['z'] => some ['Z']
  | mark :: clock =>
    match Text.cut ':' clock with
    | [hour, minute] => do
      let h ← field? 2 0 23 hour
      let m ← field? 2 0 59 minute
      return (if h = 0 ∧ m = 0 then '+' else mark) :: clock
    | _ => none

/-- A date, a time of day, or both. -/
def moment? (cs : List Char) : Option Json :=
  let isOffset (c : Char) : Bool := c == 'Z' || c == 'z' || c == '+' || c == '-'
  if isDate cs then some (.text (String.ofList cs))
  else match time? cs with
    | some time => some (.text (String.ofList time))
    | none => do
      let date := cs.take 10
      let clock := cs.drop 11
      if !isDate date || !(cs[10]?.any fun c => c == 'T' || c == 't' || c == ' ') then none
      let time ← time? (clock.takeWhile fun c => !isOffset c)
      let offset ← offset? (clock.dropWhile fun c => !isOffset c)
      return .text (String.ofList (date ++ 'T' :: time ++ offset))

/-- A character that a value which is no text can have. -/
def isScalarChar (c : Char) : Bool :=
  c.isAlphanum || c == '+' || c == '-' || c == '_' || c == '.' || c == ':'

/-- The characters of a scalar and what follows. A blank may stand between a date and a time. -/
def spanScalar (cs : List Char) : List Char × List Char :=
  let first := cs.takeWhile isScalarChar
  match cs.dropWhile isScalarChar with
  | ' ' :: rest =>
    let second := rest.takeWhile isScalarChar
    if isDate first && second.head?.any Char.isDigit then
      (first ++ ' ' :: second, rest.dropWhile isScalarChar)
    else (first, ' ' :: rest)
  | rest => (first, rest)

/-- What the characters of a scalar stand for. -/
def scalar? (cs : List Char) : Option Json :=
  if cs = "true".toList then some (.bool true)
  else if cs = "false".toList then some (.bool false)
  else match wholeNumber? cs with
    | some n => some n
    | none =>
      match fraction? cs with
      | some f => some f
      | none => moment? cs

/-- A value that is neither a text nor a container. -/
def readScalar? : Reader Json := fun cs =>
  let (word, rest) := spanScalar cs
  (scalar? word).map (·, rest)

end SiteHost.Toml
