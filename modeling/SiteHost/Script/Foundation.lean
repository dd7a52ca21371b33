import SiteHost.Source

/-!
# The base library

The types that every unit can derive from, as a source of the script language.
-/

namespace SiteHost.Script

/-- The source of the base library. -/
def foundationSource : SourceText where
  path := "<foundation>/kiln.ks"
  text := "namespace Kiln
\x7b
    public class Handler
    \x7b
        public virtual void ProcessRequest()
        \x7b
            Render();
        \x7d

        public virtual void Render()
        \x7b
        \x7d
    \x7d

    public class Page : Handler
    \x7b
        public override void ProcessRequest()
        \x7b
            Response.ContentType(\"text/html; charset=utf-8\");
            Render();
        \x7d
    \x7d
\x7d
"

end SiteHost.Script
