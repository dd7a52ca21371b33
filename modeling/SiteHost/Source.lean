import SiteHost.Digest.Sha256
import SiteHost.Text.LowerCase

/-!
# Sources and their identities

* `Identity` — a unit's source path with the name of the type it stands for;
* `Identity.key` — the path in lower case: paths that differ in letter case only are one unit;
* `Tier` — the layers that units are linked in, and `UnitKind` — script or template;
* `sourceHash` — a digest of every path and text of a unit. Path and text are each closed by a
  zero byte in the stream that is digested.
-/

namespace SiteHost

/-- A source text and the path it came from. -/
structure SourceText where
  path : String
  text : String
  deriving Repr, DecidableEq, Inhabited

/-- A unit's source path with the name of the type it stands for. -/
structure Identity where
  path : String
  typeName : String
  deriving Repr, DecidableEq, Inhabited

/-- The key under which a source path is remembered. -/
def keyOf (path : String) : String := Text.lower path

namespace Identity

/-- The key of a unit. -/
def key (i : Identity) : String := keyOf i.path

/-- The identity as a reader sees it. -/
def render (i : Identity) : String := s!"{i.typeName} ({i.path})"

end Identity

/-- The layers of a site: the base library, the site's own global unit, and everything else. -/
inductive Tier where
  | foundation
  | siteGlobal
  | leaf
  deriving Repr, DecidableEq, Inhabited

/-- The label of a tier. -/
def Tier.label : Tier → String
  | .foundation => "foundation"
  | .siteGlobal => "site_global"
  | .leaf => "leaf"

/-- Whether a unit was written as script or made from markup. -/
inductive UnitKind where
  | script
  | template
  deriving Repr, DecidableEq, Inhabited

/-- The bytes by which a list of sources is told from others. -/
def sourceBytes (sources : List SourceText) : List UInt8 :=
  sources.flatMap fun s =>
    s.path.toUTF8.toList ++ 0 :: (s.text.toUTF8.toList ++ [0])

/-- The digest of a list of sources. -/
def sourceHash (sources : List SourceText) : String := Digest.sha256Hex (sourceBytes sources)

end SiteHost
