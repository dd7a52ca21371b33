/-!
# Text from bytes

* `decodeLossy` — the text that bytes spell in UTF-8. Every longest run of bytes that begins a
  character and does not complete it, and every byte that begins none, becomes one U+FFFD.
-/

namespace SiteHost.Text

/-- What stands for bytes that spell nothing. -/
def replacement : Char := '\uFFFD'

/-- Bytes that continue a character, six bits each: the character and how many bytes were used. -/
def continued (value used : Nat) : Nat → List UInt8 → Char × Nat
  | 0, _ => (Char.ofNat value, used)
  | _ + 1, [] => (replacement, used)
  | n + 1, b :: rest =>
    if 0x80 ≤ b ∧ b ≤ 0xBF then continued (value * 64 + (b.toNat - 0x80)) (used + 1) n rest
    else (replacement, used)

/-- The smallest and the largest byte that may follow the first byte of a character, and how many
bytes follow in all. Overlong forms, surrogates and values past U+10FFFF have no second byte. -/
def second? (first : UInt8) : Option (UInt8 × UInt8 × Nat) :=
  if first < 0xC2 then none
  else if first ≤ 0xDF then some (0x80, 0xBF, 1)
  else if first = 0xE0 then some (0xA0, 0xBF, 2)
  else if first = 0xED then some (0x80, 0x9F, 2)
  else if first ≤ 0xEF then some (0x80, 0xBF, 2)
  else if first = 0xF0 then some (0x90, 0xBF, 3)
  else if first ≤ 0xF3 then some (0x80, 0xBF, 3)
  else if first = 0xF4 then some (0x80, 0x8F, 3)
  else none

/-- The bits that the first byte of a character brings. -/
def leadingBits (first : UInt8) (following : Nat) : Nat :=
  first.toNat % Nat.pow 2 (6 - following)

/-- The character that starts with a byte, and how many of the bytes behind it were used. -/
def characterAt (first : UInt8) (rest : List UInt8) : Char × Nat :=
  if first < 0x80 then (Char.ofNat first.toNat, 0)
  else match second? first, rest with
    | some (low, high, following), b :: _ =>
      if low ≤ b ∧ b ≤ high then continued (leadingBits first following) 0 following rest
      else (replacement, 0)
    | _, _ => (replacement, 0)

/-- The characters of bytes. -/
def decodeBytes : List UInt8 → List Char
  | [] => []
  | first :: rest =>
    let (c, used) := characterAt first rest
    c :: decodeBytes (rest.drop used)
termination_by bytes => bytes.length
decreasing_by simp only [List.length_drop, List.length_cons]; omega

/-- The text of bytes. -/
def decodeLossy (bytes : List UInt8) : String := String.ofList (decodeBytes bytes)

end SiteHost.Text
