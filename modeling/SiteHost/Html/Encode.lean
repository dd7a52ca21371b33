/-!
# Text inside markup

* `Html.entity` — the five characters that mean something in markup, as entities;
* `Html.encode` — text in which they stand for themselves.
-/

namespace SiteHost.Html

/-- A character as it is written in markup. -/
def entity : Char → List Char
  | '&' => "&amp;".toList
  | '<' => "&lt;".toList
  | '>' => "&gt;".toList
  | '"' => "&quot;".toList
  | '\'' => "&#39;".toList
  | c => [c]

/-- Text as it is written in markup. -/
def encode (s : String) : String := String.ofList (s.toList.flatMap entity)

theorem encode_append (s t : String) : encode (s ++ t) = encode s ++ encode t := by
  simp [encode]

end SiteHost.Html
