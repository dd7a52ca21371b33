import SiteHost.Address
import SiteHost.Artifact
import SiteHost.Cache.Callers
import SiteHost.Cache.Entry
import SiteHost.Cache.Eviction
import SiteHost.Cache.Metrics
import SiteHost.Cache.Store
import SiteHost.CommandLine.Grammar
import SiteHost.CommandLine.Invocation
import SiteHost.CommandLine.Scan
import SiteHost.Config.Check
import SiteHost.Config.Draft
import SiteHost.Config.Layers
import SiteHost.Config.Reading
import SiteHost.Config.Tree
import SiteHost.Diagnostic
import SiteHost.Digest.Sha256
import SiteHost.Disk.Basic
import SiteHost.Disk.Change
import SiteHost.Failure
import SiteHost.HostError
import SiteHost.Html.Encode
import SiteHost.Http.Answer
import SiteHost.Http.Directory
import SiteHost.Http.ErrorAnswer
import SiteHost.Http.Message
import SiteHost.Http.Target
import SiteHost.Json.Read
import SiteHost.Json.Value
import SiteHost.Json.Write
import SiteHost.Main
import SiteHost.NameMap
import SiteHost.Path
import SiteHost.Program.Load
import SiteHost.Program.Run
import SiteHost.Program.Transpile
import SiteHost.Program.Units
import SiteHost.Script.Builtin
import SiteHost.Script.Export
import SiteHost.Script.Foundation
import SiteHost.Script.Link
import SiteHost.Script.Module
import SiteHost.Script.Parse
import SiteHost.Script.Run
import SiteHost.Script.Scan
import SiteHost.Script.Syntax
import SiteHost.Script.Token
import SiteHost.Script.Value
import SiteHost.Settings
import SiteHost.Site.Bundle
import SiteHost.Site.Hosted
import SiteHost.Site.Live
import SiteHost.Site.Naming
import SiteHost.Site.Watch
import SiteHost.Source
import SiteHost.Template.Segment
import SiteHost.Template.Window
import SiteHost.Text.Blank
import SiteHost.Text.InversionList
import SiteHost.Text.Letter
import SiteHost.Text.Lossy
import SiteHost.Text.LowerCase
import SiteHost.Text.Numeral
import SiteHost.Text.Pieces
import SiteHost.Text.Shortest
import SiteHost.Timestamp
import SiteHost.Toml.Document
import SiteHost.Toml.Scalar
import SiteHost.Toml.Text
import SiteHost.Proofs.Cache.Moves
import SiteHost.Proofs.Cache.Chores
import SiteHost.Proofs.Cache.System
import SiteHost.Proofs.Cache.Freshness
import SiteHost.Proofs.Cache.Failures
import SiteHost.Proofs.Cache.SingleFlight
import SiteHost.Proofs.Site.Builds
import SiteHost.Proofs.Disk.Place
import SiteHost.Proofs.Text.Case
import SiteHost.Proofs.Site.Naming
import SiteHost.Proofs.Cache.Keys
import SiteHost.Proofs.Site.Warm
import SiteHost.Proofs.Site.Respelling
import SiteHost.Proofs.Cache.Evicted
import SiteHost.Proofs.Disk.Below
import SiteHost.Proofs.Disk.Edit
import SiteHost.Proofs.Site.Upkeep
import SiteHost.Proofs.Config.Suffixes
import SiteHost.Proofs.Site.Transparency
import SiteHost.Proofs.Cache.Cascade
import SiteHost.Proofs.Script.Lineage
import SiteHost.Proofs.Script.Linked
import SiteHost.Proofs.Script.Depth
import SiteHost.Proofs.Script.Sealed
import SiteHost.Proofs.Script.Running
import SiteHost.Proofs.Script.Arity
import SiteHost.Proofs.Cache.Promised
import SiteHost.Proofs.Site.Keys
import SiteHost.Proofs.Site.Layers
import SiteHost.Proofs.Site.Spared
import SiteHost.Proofs.Site.Coherence
import SiteHost.Proofs.Site.Requests
import SiteHost.Proofs.Script.Actions
import SiteHost.Proofs.Script.Steps
import SiteHost.Proofs.Script.Grammar
import SiteHost.Proofs.Script.Declarations
import SiteHost.Proofs.Script.Declared
import SiteHost.Proofs.Script.Scanning
import SiteHost.Proofs.Script.Names
import SiteHost.Proofs.Script.Foundation
import SiteHost.Proofs.Template.Windows
import SiteHost.Proofs.Template.Derived
import SiteHost.Proofs.Template.Rendering
import SiteHost.Proofs.Script.Stored
import SiteHost.Proofs.Script.Meanings
import SiteHost.Proofs.Script.Carried
import SiteHost.Proofs.Script.Pooled
import SiteHost.Proofs.Cache.Orderly
import SiteHost.Proofs.Site.Tended
import SiteHost.Proofs.Site.Assembled
import SiteHost.Proofs.Site.Bundled
import SiteHost.Proofs.Text.Digits
import SiteHost.Proofs.Text.Timestamp
import SiteHost.Proofs.Json.Reread
import SiteHost.Proofs.Script.Nesting
import SiteHost.Proofs.Script.Exported
import SiteHost.Proofs.Site.Saved
import SiteHost.Proofs.Site.Outcomes
import SiteHost.Proofs.Site.Remembered
import SiteHost.Proofs.Disk.Distinct
import SiteHost.Proofs.Site.Spellings
import SiteHost.Proofs.Site.EarlierRequests
import SiteHost.Proofs.Site.Reached
import SiteHost.Proofs.Site.Confined
import SiteHost.Proofs.Site.ByBytes
import SiteHost.Proofs.Site.Identities
import SiteHost.Proofs.Script.Rendered
import SiteHost.Proofs.Script.Printable
import SiteHost.Proofs.Script.Printed
import SiteHost.Proofs.Script.Closed
import SiteHost.Proofs.Cache.Restricted
import SiteHost.Proofs.Cache.Independence
import SiteHost.Proofs.Cache.Forgotten
import SiteHost.Proofs.Site.Noticed
import SiteHost.Proofs.Site.Vanished
import SiteHost.Proofs.Script.Reordered
import SiteHost.Proofs.Cache.Reported
import SiteHost.Proofs.Site.Counted
import SiteHost.Proofs.Template.Decomposition
import SiteHost.Proofs.Site.Discovered
import SiteHost.Proofs.Site.Accounted
import SiteHost.Proofs.Script.Evaluation
import SiteHost.Proofs.Script.CallDepth
import SiteHost.Proofs.Config.Hosts
import SiteHost.Proofs.Http.Directory
import SiteHost.Proofs.Script.Refused
import SiteHost.Proofs.Cache.Tallied
import SiteHost.Proofs.Digest.Sources
import SiteHost.Proofs.Disk.Ancestors
import SiteHost.Proofs.Cache.Subtree
import SiteHost.Proofs.Html.Decoding
import SiteHost.Proofs.Config.Namespaces
