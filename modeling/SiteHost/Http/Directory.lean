import SiteHost.Site.Hosted
import SiteHost.Text.Pieces

/-!
# Which site answers

* `hostName` — a `Host` header without its port;
* `pick` — the place of the site that answers for a host: the first that claims it, or else the
  first of all.
-/

namespace SiteHost.Http

/-- A `Host` header without its port. A name in brackets keeps its colons. -/
def hostName (host : String) : String :=
  match host.toList with
  | '[' :: rest =>
    match Text.splitFirst? ']' (String.ofList rest) with
    | some (address, _) => address
    | none => host
  | _ =>
    match Text.splitLast? ':' host with
    | some (name, _) => name
    | none => host

/-- Whether a site claims a host name in lower case. -/
def claims (host : String) (site : Site) : Bool :=
  site.hosts.any fun claimed => Text.asciiLower claimed == host

/-- The place of the site that answers for a host. -/
def pick (sites : List Site) (host : Option String) : Option Nat :=
  let claimed := host.bind fun host =>
    sites.findIdx? (claims (Text.asciiLower (hostName host)))
  if sites.isEmpty then none else some (claimed.getD 0)

end SiteHost.Http
