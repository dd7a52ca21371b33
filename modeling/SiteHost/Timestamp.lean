import SiteHost.Text.Numeral

/-!
# Points in time

* `Timestamp` — a date and a time of day with an offset from universal time;
* `Timestamp.render` — the text of a timestamp, such as `2026-01-31T09:05:00.25+02:00`;
* `Timestamp.parse?` — the timestamp of a text. Between date and time stands any one ASCII
  character. A second of 60 is read as the last nanosecond of second 59, and only at the end of the
  last day of a month in universal time;
* `Timestamp.ofSeconds` — the timestamp of a number of seconds since the start of 1970.
-/

namespace SiteHost

/-- A date and a time of day, with the offset from universal time in minutes. -/
structure Timestamp where
  year : Nat
  month : Nat
  day : Nat
  hour : Nat
  minute : Nat
  second : Nat
  nanosecond : Nat := 0
  offset : Int := 0
  deriving Repr, DecidableEq, Inhabited

namespace Timestamp

open SiteHost.Text

/-- Whether a year has 366 days. -/
def isLeapYear (year : Nat) : Bool := year % 4 == 0 && (year % 100 != 0 || year % 400 == 0)

/-- How many days a month has. -/
def daysIn (year month : Nat) : Nat :=
  if month = 2 then if isLeapYear year then 29 else 28
  else if month = 4 ∨ month = 6 ∨ month = 9 ∨ month = 11 then 30
  else 31

/-- A number in decimal, with zeros in front up to a width. -/
def padded (width n : Nat) : String :=
  let digits := (toString n).toList
  String.ofList (List.replicate (width - digits.length) '0' ++ digits)

/-- A part of a second as digits behind a point, if there is one. -/
def fraction (nanosecond : Nat) : String :=
  if nanosecond = 0 then ""
  else
    let digits := (padded 9 nanosecond).toList.reverse.dropWhile (· == '0')
    String.ofList ('.' :: digits.reverse)

/-- The offset from universal time. -/
def offsetText (offset : Int) : String :=
  if offset = 0 then "Z"
  else
    let sign := if offset < 0 then "-" else "+"
    s!"{sign}{padded 2 (offset.natAbs / 60)}:{padded 2 (offset.natAbs % 60)}"

/-- A timestamp as text. -/
def render (t : Timestamp) : String :=
  padded 4 t.year ++ "-" ++ padded 2 t.month ++ "-" ++ padded 2 t.day ++ "T" ++
    padded 2 t.hour ++ ":" ++ padded 2 t.minute ++ ":" ++ padded 2 t.second ++
    fraction t.nanosecond ++ offsetText t.offset

/-- Whether every part is in its range. -/
def isValid (t : Timestamp) : Bool :=
  1 ≤ t.month && t.month ≤ 12 && 1 ≤ t.day && t.day ≤ daysIn t.year t.month &&
    t.hour < 24 && t.minute < 60 && t.second < 60 && t.nanosecond < 1000000000

/-- Whether the timestamp is in the last second of a month in universal time. -/
def endsMonth (t : Timestamp) : Bool :=
  let minutes : Int := (t.hour * 60 + t.minute : Nat) - t.offset
  let lastMinute : Int := 23 * 60 + 59
  let last := daysIn t.year t.month
  t.second == 59 &&
    (if minutes = lastMinute then t.day == last
    else if minutes = lastMinute - 24 * 60 then t.day == 1
    else minutes == lastMinute + 24 * 60 && t.day + 1 == last)

/-- The digits of a number of a width, and what follows. -/
def takeNumber? (width : Nat) (cs : List Char) : Option (Nat × List Char) :=
  let digits := cs.take width
  if digits.length = width && digits.all Char.isDigit then
    some (digitsValue digits, cs.drop width)
  else none

/-- What follows a character. -/
def after? (c : Char) : List Char → Option (List Char)
  | d :: rest => if d = c then some rest else none
  | [] => none

/-- Two numbers of two digits with a colon between them, and what follows. -/
def takePair? (cs : List Char) : Option (Nat × Nat × List Char) := do
  let (first, cs) ← takeNumber? 2 cs
  let (second, cs) ← takeNumber? 2 (← after? ':' cs)
  return (first, second, cs)

/-- A part of a second in nanoseconds, if one is written, and what follows. Digits behind the ninth
are dropped. -/
def takeFraction? : List Char → Option (Nat × List Char)
  | '.' :: cs =>
    let digits := cs.takeWhile Char.isDigit
    if digits.isEmpty then none
    else
      let nine := digits.take 9
      some (digitsValue nine * Nat.pow 10 (9 - nine.length), cs.dropWhile Char.isDigit)
  | cs => some (0, cs)

/-- The largest offset in hours. -/
def offsetLimit : Nat := 25

/-- An offset in minutes, with nothing behind it. -/
def readOffset? : List Char → Option Int
  | ['Z'] | ['z'] => some 0
  | sign :: cs => do
    let (hours, minutes, cs) ← takePair? cs
    if !cs.isEmpty || offsetLimit < hours || 59 < minutes then none
    else
      let offset := hours * 60 + minutes
      if sign = '+' then some offset else if sign = '-' then some (-(offset : Int)) else none
  | [] => none

/-- The timestamp of a text. -/
def parse? (text : String) : Option Timestamp := do
  let (year, cs) ← takeNumber? 4 text.toList
  let (month, cs) ← takeNumber? 2 (← after? '-' cs)
  let (day, cs) ← takeNumber? 2 (← after? '-' cs)
  let cs ← match cs with
    | c :: cs => if c.toNat < 128 then some cs else none
    | [] => none
  let (hour, minute, cs) ← takePair? cs
  let (second, cs) ← takeNumber? 2 (← after? ':' cs)
  let (nanosecond, cs) ← takeFraction? cs
  let offset ← readOffset? cs
  let isLeap := second == 60
  let t : Timestamp := if isLeap then ⟨year, month, day, hour, minute, 59, 999999999, offset⟩
    else ⟨year, month, day, hour, minute, second, nanosecond, offset⟩
  if t.isValid && (!isLeap || t.endsMonth) then some t else none

/-- The year, month and day that lie so many days behind the first of March of year 0. A year that
starts in March has its leap day at the end. -/
def dateOf (days : Nat) : Nat × Nat × Nat :=
  let inEra := days % 146097
  let yearOfEra := (inEra - inEra / 1460 + inEra / 36524 - inEra / 146096) / 365
  let inYear := inEra - (365 * yearOfEra + yearOfEra / 4 - yearOfEra / 100)
  let month := (5 * inYear + 2) / 153
  let day := inYear - (153 * month + 2) / 5 + 1
  let year := yearOfEra + days / 146097 * 400
  if month < 10 then (year, month + 3, day) else (year + 1, month - 9, day)

/-- The days from the first of March of year 0 to the first of January of 1970. -/
def daysToEpoch : Nat := 719468

/-- The time that lies so many seconds behind the start of 1970 in universal time. -/
def ofSeconds (seconds nanosecond : Nat) : Timestamp :=
  let (year, month, day) := dateOf (daysToEpoch + seconds / 86400)
  let inDay := seconds % 86400
  ⟨year, month, day, inDay / 3600, inDay / 60 % 60, inDay % 60, nanosecond, 0⟩

end Timestamp

end SiteHost
