import SiteHost.Json.Value
import SiteHost.Text.Numeral

/-!
# Reading JSON

* `Json.parse?` — the value of a text, which holds one value and blanks around it. Strict: no
  comments, no trailing commas, no control characters in texts, no lone surrogates;
* the limit counts the arrays and objects around a value: a text with more of them has no value.

A whole number outside the 64-bit ranges, and `-0`, become floats; a float too large to be one is
refused.
-/

namespace SiteHost.Json

open SiteHost.Text

/-- The blanks of JSON. -/
def isSpace (c : Char) : Bool := c == ' ' || c == '\n' || c == '\t' || c == '\r'

/-- Characters without the leading blanks. -/
def skipSpaces (cs : List Char) : List Char := cs.dropWhile isSpace

/-- The value of four hexadecimal digits. -/
def hexQuad? (a b c d : Char) : Option Nat := do
  return (((← hexValue? a) * 16 + (← hexValue? b)) * 16 + (← hexValue? c)) * 16 + (← hexValue? d)

/-- The character of a short escape. -/
def shortEscape? : Char → Option Char
  | '"' => some '"'
  | '\\' => some '\\'
  | '/' => some '/'
  | 'b' => some '\x08'
  | 'f' => some '\x0c'
  | 'n' => some '\n'
  | 'r' => some '\r'
  | 't' => some '\t'
  | _ => none

/-- The text after an opening quote, and what follows its closing quote. -/
def readText? (done : List Char) : List Char → Option (String × List Char)
  | '"' :: rest => some (String.ofList done.reverse, rest)
  | '\\' :: 'u' :: a :: b :: c :: d :: rest =>
    match hexQuad? a b c d with
    | none => none
    | some high =>
      if 0xD800 ≤ high ∧ high < 0xDC00 then
        match rest with
        | '\\' :: 'u' :: e :: f :: g :: h :: rest =>
          match hexQuad? e f g h with
          | some low =>
            if 0xDC00 ≤ low ∧ low < 0xE000 then
              readText? (Char.ofNat (0x10000 + (high - 0xD800) * 0x400 + (low - 0xDC00)) :: done)
                rest
            else none
          | none => none
        | _ => none
      else if 0xDC00 ≤ high ∧ high < 0xE000 then none
      else readText? (Char.ofNat high :: done) rest
  | '\\' :: c :: rest =>
    match shortEscape? c with
    | some d => readText? (d :: done) rest
    | none => none
  | c :: rest => if c.toNat < 0x20 then none else readText? (c :: done) rest
  | [] => none

/-- The digits at the start of a text and what follows them. -/
def spanDigits (cs : List Char) : List Char × List Char :=
  (cs.takeWhile Char.isDigit, cs.dropWhile Char.isDigit)

/-- The exponent of a number, if one is written: its value and what follows. -/
def readExponent? : List Char → Option (Int × List Char)
  | c :: rest =>
    if c == 'e' || c == 'E' then
      let (negative, rest) := match rest with
        | '-' :: rest => (true, rest)
        | '+' :: rest => (false, rest)
        | rest => (false, rest)
      let (digits, rest) := spanDigits rest
      if digits.isEmpty then none
      else
        let n := digitsValue digits
        some (if negative then -(n : Int) else n, rest)
    else some (0, c :: rest)
  | [] => some (0, [])

/-- The float `digits × 10 ^ exponent`. Exponents beyond any float are cut off. -/
def floatOf (digits : Nat) (exponent : Int) : Float :=
  if digits = 0 then 0.0
  else if exponent < 0 then Float.ofScientific digits true (min exponent.natAbs 100000)
  else Float.ofScientific digits false (min exponent.toNat 100000)

/-- A number without its sign. -/
def readNumber? (negative : Bool) (cs : List Char) : Option (Json × List Char) :=
  let (whole, rest) := spanDigits cs
  if whole.isEmpty || (whole.length > 1 && whole.head? == some '0') then none
  else
    let fraction? : Option (List Char × List Char) := match rest with
      | '.' :: rest =>
        let (digits, rest) := spanDigits rest
        if digits.isEmpty then none else some (digits, rest)
      | rest => some ([], rest)
    match fraction? with
    | none => none
    | some (fraction, afterFraction) =>
      match readExponent? afterFraction with
      | none => none
      | some (exponent, after) =>
        let n := digitsValue whole
        if after.length == rest.length && !(negative && n == 0) &&
            (if negative then n ≤ int64Max + 1 else n ≤ uint64Max) then
          some (.int (if negative then -(n : Int) else n), after)
        else
          let f := floatOf (digitsValue (whole ++ fraction)) (exponent - fraction.length)
          if f.isInf then none else some (.float (if negative then -f else f), after)

mutual

/-- A value at the start of a text, with `depth` more containers allowed around its parts. -/
def readValue? : Nat → Nat → List Char → Option (Json × List Char)
  | 0, _, _ => none
  | fuel + 1, depth, cs =>
    match skipSpaces cs with
    | '"' :: rest => (readText? [] rest).map fun (s, rest) => (.text s, rest)
    | '[' :: rest =>
      if depth = 0 then none
      else match skipSpaces rest with
        | ']' :: rest => some (.array [], rest)
        | rest => (readItems? fuel (depth - 1) rest).map fun (items, rest) => (.array items, rest)
    | '\x7b' :: rest =>
      if depth = 0 then none
      else match skipSpaces rest with
        | '\x7d' :: rest => some (.object [], rest)
        | rest => (readMembers? fuel (depth - 1) rest).map fun (ms, rest) => (.object ms, rest)
    | 'n' :: 'u' :: 'l' :: 'l' :: rest => some (.null, rest)
    | 't' :: 'r' :: 'u' :: 'e' :: rest => some (.bool true, rest)
    | 'f' :: 'a' :: 'l' :: 's' :: 'e' :: rest => some (.bool false, rest)
    | '-' :: rest => readNumber? true rest
    | rest => readNumber? false rest

/-- One item of an array or more, and what follows the closing bracket. -/
def readItems? : Nat → Nat → List Char → Option (List Json × List Char)
  | 0, _, _ => none
  | fuel + 1, depth, cs =>
    match readValue? fuel depth cs with
    | none => none
    | some (item, rest) =>
      match skipSpaces rest with
      | ',' :: rest => (readItems? fuel depth rest).map fun (items, rest) => (item :: items, rest)
      | ']' :: rest => some ([item], rest)
      | _ => none

/-- One member of an object or more, and what follows the closing brace. -/
def readMembers? : Nat → Nat → List Char → Option (List (String × Json) × List Char)
  | 0, _, _ => none
  | fuel + 1, depth, cs =>
    match skipSpaces cs with
    | '"' :: rest =>
      match readText? [] rest with
      | none => none
      | some (name, rest) =>
        match skipSpaces rest with
        | ':' :: rest =>
          match readValue? fuel depth rest with
          | none => none
          | some (value, rest) =>
            match skipSpaces rest with
            | ',' :: rest =>
              (readMembers? fuel depth rest).map fun (ms, rest) => ((name, value) :: ms, rest)
            | '\x7d' :: rest => some ([(name, value)], rest)
            | _ => none
        | _ => none
    | _ => none

end

/-- The value of a text with at most `depth` containers around any part. -/
def parse? (depth : Nat) (source : List Char) : Option Json :=
  match readValue? (2 * source.length + 2) depth source with
  | some (j, rest) => if (skipSpaces rest).isEmpty then some j else none
  | none => none

/-- How many containers may stand around a part of a value that is read from a file. -/
def fileDepth : Nat := 127

end SiteHost.Json
