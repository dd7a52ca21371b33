/-!
# The shortest decimal of a float

* `Magnitude.of` — a finite float without its sign, as a whole number times a power of two;
* `Magnitude.readsBack` — whether a decimal lies in the interval of reals that round to it;
* `Magnitude.shortest` — the digits and the scale of the shortest decimal that reads back; of two
  with as many digits the nearer one;
* `shortest` — that decimal in positional notation, without a point if there is no fraction.

All comparisons are between natural numbers: both sides are multiplied by the powers of two and ten
that make them whole.
-/

namespace SiteHost.Text

/-- A finite float without its sign: `mantissa × 2 ^ exponent`. -/
structure Magnitude where
  mantissa : Nat
  exponent : Int
  /-- Whether the float below is only half as far away as the one above. -/
  isBoundary : Bool
  deriving Repr, DecidableEq

namespace Magnitude

/-- The magnitude of a finite float. -/
def of (f : Float) : Magnitude :=
  let bits := f.toBits.toNat
  let fraction := bits % Nat.pow 2 52
  let scale := bits / Nat.pow 2 52 % Nat.pow 2 11
  if scale = 0 then ⟨fraction, -1074, false⟩
  else ⟨Nat.pow 2 52 + fraction, (scale : Int) - 1075, fraction == 0 && scale != 1⟩

/-- The sides of a comparison of `quarters × 2 ^ (exponent - 2)` with `digits × 10 ^ power`. -/
def sides (v : Magnitude) (quarters digits : Nat) (power : Int) : Nat × Nat :=
  (quarters * Nat.pow 2 (v.exponent - 2).toNat * Nat.pow 10 (-power).toNat,
    digits * Nat.pow 10 power.toNat * Nat.pow 2 (2 - v.exponent).toNat)

/-- Whether `digits × 10 ^ power` rounds to the float. The ends of the interval do exactly if the
mantissa is even. -/
def readsBack (v : Magnitude) (digits : Nat) (power : Int) : Bool :=
  let (low, decimal) := v.sides (4 * v.mantissa - if v.isBoundary then 1 else 2) digits power
  let (high, _) := v.sides (4 * v.mantissa + 2) digits power
  if v.mantissa % 2 = 0 then low ≤ decimal && decimal ≤ high
  else low < decimal && decimal < high

/-- The least `k` for which the magnitude is below `10 ^ k`. No float but zero is below
`10 ^ -400`. -/
def scale (v : Magnitude) : Int :=
  let shifted := v.mantissa * Nat.pow 2 v.exponent.toNat * Nat.pow 10 400 / Nat.pow 2 (-v.exponent).toNat
  (toString shifted).length - 400

/-- The decimal of `count` digits that reads back and is nearest, if there is one. -/
def nearest? (v : Magnitude) (count : Nat) : Option (Nat × Int) :=
  let power := v.scale - count
  let (value, unit) := v.sides (4 * v.mantissa) 1 power
  let below := value / unit
  match v.readsBack below power, v.readsBack (below + 1) power with
  | true, true => some (if 2 * (value % unit) ≤ unit then below else below + 1, power)
  | true, false => some (below, power)
  | false, true => some (below + 1, power)
  | false, false => none

/-- Digits and power of ten of the shortest decimal that reads back. Seventeen digits always do. -/
def shortest (v : Magnitude) : Nat × Int :=
  ((List.range' 1 17).findSome? v.nearest?).getD (v.mantissa, 0)

end Magnitude

/-- Digits times a power of ten, written positionally. -/
def positional (digits : Nat) (power : Int) : String :=
  let ds := (toString digits).toList
  if 0 ≤ power then String.ofList (ds ++ List.replicate power.toNat '0')
  else
    let places := (-power).toNat
    let padded := List.replicate (places + 1 - ds.length) '0' ++ ds
    let whole := padded.length - places
    let fraction := (padded.drop whole).reverse.dropWhile (· == '0')
    if fraction.isEmpty then String.ofList (padded.take whole)
    else String.ofList (padded.take whole ++ '.' :: fraction.reverse)

/-- The shortest decimal of a finite float, in positional notation. -/
def shortest (f : Float) : String :=
  let v := Magnitude.of f
  let sign := if f.toBits.toNat / Nat.pow 2 63 = 1 then "-" else ""
  let (digits, power) := if v.mantissa = 0 then (0, 0) else v.shortest
  sign ++ positional digits power

end SiteHost.Text
