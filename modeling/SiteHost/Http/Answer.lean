import SiteHost.Http.Directory
import SiteHost.Http.ErrorAnswer
import SiteHost.Http.Message
import SiteHost.Http.Target

/-!
# Answering requests

* `answer` — the response of a host to a request. The site is picked by the `Host` header, the unit
  by the path, and an action by the query parameter of that name;
* `requestId` — the name of a request in the log: the client's own, if it is fit for that.
-/

namespace SiteHost.Http

/-- The type of a plain text. -/
def plainText : String := "text/plain; charset=utf-8"

/-- The path that is answered without any site. -/
def healthPath : String := "/_health"

/-- The longest name that a client can give to a request, in bytes. -/
def requestIdLimit : Nat := 128

/-- The name of a request: what the client sent, or `fresh`. -/
def requestId (r : Request) (fresh : String) : String :=
  match r.header? "x-request-id" with
  | some id => if id ≠ "" ∧ id.utf8ByteSize ≤ requestIdLimit then id else fresh
  | none => fresh

/-- A response before it is named. -/
structure Reply where
  status : Nat
  contentType : Option String
  body : String
  deriving Repr, DecidableEq, Inhabited

namespace Reply

/-- An error as a client sees it. -/
def ofError (e : ErrorAnswer) : Reply := ⟨e.status, some plainText, e.body⟩

/-- The answer of a handler. A content type that no header can hold is replaced, and so is a status
that is no status. -/
def ofResponse (r : Script.Response) : Reply where
  status := if 100 ≤ r.status ∧ r.status ≤ 999 then r.status else 500
  contentType := some (if isHeaderValue r.contentType then r.contentType else plainText)
  body := r.body

/-- Whether the status tells of success. -/
def isSuccess (r : Reply) : Bool := 200 ≤ r.status && r.status < 300

/-- What is left of a reply to a method: `HEAD` gets no body, nor does `CONNECT` on success. -/
def forMethod (r : Reply) (method : String) : Reply :=
  if method = "HEAD" ∨ (method = "CONNECT" ∧ r.isSuccess) then { r with body := "" } else r

end Reply

/-- The path of a unit that a request path stands for. -/
def unitPath (path : String) : String :=
  let below := String.ofList (path.toList.dropWhile (· == '/'))
  if below = "" then Locator.defaultDocument else below

/-- The answer of a site. -/
def ask (site : Site) (d : Disk) (r : Request) : Reply × Site :=
  let target := Target.of r.target
  let parameters := target.parameters
  let request : Script.Request :=
    ⟨r.method, target.path, parameters.erase "action", r.headerMap⟩
  match site.create d (unitPath target.path) none [.text site.name] with
  | (.error failure, site) => (.ofError (.ofFailure failure), site)
  | (.ok handler, site) =>
    match (handler.call (parameters.get? "action") request).1 with
    | .error e => (.ofError (.ofInvokeError e), site)
    | .ok response => (.ofResponse response, site)

/-- What tells that the host is up, by `GET` and `HEAD` alone. -/
def health (method : String) : Reply :=
  if method = "GET" ∨ method = "HEAD" then ⟨204, none, ""⟩ else ⟨405, none, ""⟩

/-- The answer when there is no site. -/
def noSite : Reply := .ofError
  ⟨404, "Not found", "infra::http::dispatch", ["no site is configured"]⟩

/-- The reply of a host with its sites. -/
def reply (sites : List Site) (d : Disk) (r : Request) : Reply × List Site :=
  if (Target.of r.target).path = healthPath then (health r.method, sites)
  else
    match (pick sites (r.header? "host")).bind fun i => (sites[i]?).map (i, ·) with
    | none => (noSite, sites)
    | some (i, site) =>
      let (answer, site) := ask site d r
      (answer, sites.set i site)

/-- The response of a host to a request, which is called `fresh` if it brings no name. -/
def answer (sites : List Site) (d : Disk) (fresh : String) (r : Request) :
    Response × List Site :=
  let (reply, sites) := reply sites d r
  let reply := reply.forMethod r.method
  (⟨reply.status, reply.contentType, requestId r fresh, reply.body⟩, sites)

end SiteHost.Http
