/-!
# Reading whole numbers

Decimal notation with a bound on the value:

* `digitsValue` — the value of a list of ASCII digits;
* `readDigits?` — one digit or more and nothing else;
* `readUnsigned?` — digits, after `+` if there is one, up to a largest value;
* `readInt64?` — digits after an optional sign, within 64 bits.
-/

namespace SiteHost.Text

/-- The largest signed 64-bit integer. -/
def int64Max : Nat := 9223372036854775807

/-- The largest unsigned 64-bit integer. -/
def uint64Max : Nat := 18446744073709551615

/-- The largest unsigned 32-bit integer. -/
def uint32Max : Nat := 4294967295

/-- The value of an ASCII digit. -/
def digitValue (c : Char) : Nat := c.toNat - '0'.toNat

/-- The number that a list of digits stands for in base ten. -/
def digitsValue (cs : List Char) : Nat := cs.foldl (fun n c => n * 10 + digitValue c) 0

/-- One ASCII digit or more and nothing else. -/
def readDigits? (cs : List Char) : Option Nat :=
  if cs ≠ [] ∧ cs.all Char.isDigit then some (digitsValue cs) else none

/-- An unsigned number of at most `largest`, after `+` if there is one. -/
def readUnsigned? (largest : Nat) (s : String) : Option Nat :=
  let digits := match s.toList with
    | '+' :: rest => rest
    | cs => cs
  (readDigits? digits).filter (· ≤ largest)

/-- A signed number of 64 bits. -/
def readInt64? (s : String) : Option Int :=
  match s.toList with
  | '-' :: rest => ((readDigits? rest).filter (· ≤ int64Max + 1)).map fun n => -(n : Int)
  | '+' :: rest => ((readDigits? rest).filter (· ≤ int64Max)).map Int.ofNat
  | cs => ((readDigits? cs).filter (· ≤ int64Max)).map Int.ofNat

/-- A hexadecimal digit, either case. -/
def hexValue? (c : Char) : Option Nat :=
  if '0' ≤ c ∧ c ≤ '9' then some (c.toNat - '0'.toNat)
  else if 'a' ≤ c ∧ c ≤ 'f' then some (c.toNat - 'a'.toNat + 10)
  else if 'A' ≤ c ∧ c ≤ 'F' then some (c.toNat - 'A'.toNat + 10)
  else none

/-- The lower-case hexadecimal digit of a number below sixteen. -/
def hexDigit (n : Nat) : Char :=
  if n < 10 then Char.ofNat ('0'.toNat + n) else Char.ofNat ('a'.toNat + n - 10)

end SiteHost.Text
