import SiteHost.NameMap
import SiteHost.Text.LowerCase

/-!
# Requests and responses

* `Http.Request` — what a client sends. Header names are compared in lower case;
* `Http.Request.header?` — the first value of a header, if it can be read as text;
* `Http.Response` — what the client is sent.
-/

namespace SiteHost.Http

/-- What a client sends. -/
structure Request where
  method : String
  target : String
  headers : List (String × String)
  deriving Repr, DecidableEq, Inhabited

/-- What a client is sent. -/
structure Response where
  status : Nat
  contentType : Option String
  requestId : String
  body : String
  deriving Repr, DecidableEq, Inhabited

/-- Whether a header value is text: visible ASCII, blanks and tabs. -/
def isHeaderText (value : String) : Bool :=
  value.toList.all fun c => (0x20 ≤ c.toNat && c.toNat < 0x7F) || c == '\t'

/-- Whether a header can have a value: no control character but the tab. -/
def isHeaderValue (value : String) : Bool :=
  value.toList.all fun c => (0x20 ≤ c.toNat && c.toNat != 0x7F) || c == '\t'

namespace Request

/-- The values of a header in the order they were sent. -/
def values (r : Request) (name : String) : List String :=
  (r.headers.filter fun h => Text.asciiLower h.1 == name).map Prod.snd

/-- The first value of a header, if it is text. -/
def header? (r : Request) (name : String) : Option String :=
  ((r.values name).head?).filter isHeaderText

/-- The headers that are text. Of a header that was sent twice the last value counts. -/
def headerMap (r : Request) : NameMap String :=
  NameMap.ofList ((r.headers.filter fun h => isHeaderText h.2).map fun h =>
    (Text.asciiLower h.1, h.2))

end Request

end SiteHost.Http
