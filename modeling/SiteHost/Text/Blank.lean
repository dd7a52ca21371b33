import SiteHost.Text.InversionList

/-!
# Blank characters

* `isBlank` — the Unicode property `White_Space`: 25 characters, tab and line feed among them,
  the zero-width space not;
* `trimStart`, `trimEnd`, `trim` — text without the blanks at its start, its end, or both.
-/

namespace SiteHost.Text

/-- The code points with the property `White_Space`. -/
def blankBounds : InversionList :=
  [
   9, 14, 32, 33, 133, 134, 160, 161, 5760, 5761, 8192, 8203, 8232, 8234, 8239, 8240, 8287,
   8288, 12288, 12289]

/-- A character that separates tokens and is trimmed from the ends of text. -/
def isBlank (c : Char) : Bool := blankBounds.contains c.toNat

/-- Characters without the leading ones that satisfy `p`. -/
def dropStart (p : Char → Bool) (s : String) : String := String.ofList (s.toList.dropWhile p)

/-- Characters without the trailing ones that satisfy `p`. -/
def dropEnd (p : Char → Bool) (s : String) : String :=
  String.ofList (s.toList.reverse.dropWhile p).reverse

/-- Text without its leading blanks. -/
def trimStart (s : String) : String := dropStart isBlank s

/-- Text without its trailing blanks. -/
def trimEnd (s : String) : String := dropEnd isBlank s

/-- Text without the blanks at either end. -/
def trim (s : String) : String := trimEnd (trimStart s)

theorem isBlank_space : isBlank ' ' = true := by decide

theorem isBlank_newline : isBlank '\n' = true := by decide

end SiteHost.Text
