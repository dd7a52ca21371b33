import SiteHost.Config.Reading

/-!
# Drafts of settings

What sources of configuration say, before anything is checked. Every value may be missing:

* `Draft.ofTree?` — the draft of a tree; none if a value is of a wrong kind. Names that no setting
  has are passed over;
* `CompilerOverrides`, `ServeOverrides` — values that take the place of configured ones;
* `Draft.withCompiler`, `Draft.withServe` — a draft with such values.
-/

namespace SiteHost.Config

/-- What is said about taking requests. -/
structure ServerDraft where
  host : Option String := none
  port : Option Nat := none
  gracefulShutdownSeconds : Option Nat := none
  deriving Repr, DecidableEq, Inhabited

/-- What is said about the log. -/
structure LogDraft where
  level : Option String := none
  asJson : Option Bool := none
  deriving Repr, DecidableEq, Inhabited

/-- What is said about building units. -/
structure CompilerDraft where
  timeoutSeconds : Option Nat := none
  leafExtension : Option String := none
  markupSuffix : Option String := none
  sharedReferences : Option (List String) := none
  deriving Repr, DecidableEq, Inhabited

/-- What is said about one site. -/
structure SiteDraft where
  name : Option String := none
  root : Option String := none
  hosts : Option (List String) := none
  namespaceName : Option String := none
  prebuilt : Option String := none
  watch : Option Bool := none
  deriving Repr, DecidableEq, Inhabited

/-- What is said about a host and its sites. -/
structure Draft where
  server : ServerDraft := {}
  logging : LogDraft := {}
  compiler : CompilerDraft := {}
  sites : List SiteDraft := []
  deriving Repr, DecidableEq, Inhabited

/-- A port. A number too large for one keeps its lowest 16 bits. -/
def port? (j : Json) : Option Nat := (count? j).map (· % 65536)

/-- What a value says about taking requests. -/
def ServerDraft.ofJson? (j : Json) : Option ServerDraft := do
  match ← fields? ["host", "port", "graceful_shutdown_seconds"] j with
  | [host, port, seconds] =>
    return ⟨← optional? text? host, ← optional? port? port, ← optional? count? seconds⟩
  | _ => none

/-- What a value says about the log. -/
def LogDraft.ofJson? (j : Json) : Option LogDraft := do
  match ← fields? ["level", "json"] j with
  | [level, asJson] => return ⟨← optional? text? level, ← optional? flag? asJson⟩
  | _ => none

/-- What a value says about building units. -/
def CompilerDraft.ofJson? (j : Json) : Option CompilerDraft := do
  match ← fields? ["timeout_seconds", "leaf_extension", "markup_suffix", "shared_references"] j with
  | [seconds, extension, suffix, shared] =>
    return ⟨← optional? count? seconds, ← optional? text? extension, ← optional? text? suffix,
      ← optional? (list? text?) shared⟩
  | _ => none

/-- What a value says about one site. -/
def SiteDraft.ofJson? (j : Json) : Option SiteDraft := do
  match ← fields? ["name", "root", "hosts", "namespace", "prebuilt", "watch"] j with
  | [name, root, hosts, namespaceName, prebuilt, watch] =>
    return ⟨← optional? text? name, ← optional? text? root, ← optional? (list? text?) hosts,
      ← optional? text? namespaceName, ← optional? text? prebuilt, ← optional? flag? watch⟩
  | _ => none

/-- A part that is left at its default if it is missing. Null is not missing here. -/
def partOr? {α : Type} (default : α) (read : Json → Option α) : Option Json → Option α
  | none => some default
  | some j => read j

/-- The draft of a tree. -/
def Draft.ofTree? (tree : Json) : Option Draft := do
  match ← fields? ["server", "logging", "compiler", "sites"] tree with
  | [server, logging, compiler, sites] =>
    return ⟨← partOr? {} ServerDraft.ofJson? server, ← partOr? {} LogDraft.ofJson? logging,
      ← partOr? {} CompilerDraft.ofJson? compiler,
      ← partOr? [] (list? SiteDraft.ofJson?) sites⟩
  | _ => none

/-- Values for building units that take the place of configured ones. -/
structure CompilerOverrides where
  timeoutSeconds : Option Nat := none
  /-- Sources that are added to the configured ones. -/
  sharedReferences : List String := []
  deriving Repr, DecidableEq, Inhabited

/-- Values for serving that take the place of configured ones. -/
structure ServeOverrides where
  host : Option String := none
  port : Option Nat := none
  gracefulShutdownSeconds : Option Nat := none
  logLevel : Option String := none
  logAsJson : Option Bool := none
  /-- Whether any site is watched. -/
  watch : Option Bool := none
  compiler : CompilerOverrides := {}
  deriving Repr, DecidableEq, Inhabited

/-- A draft with other values for building units. -/
def Draft.withCompiler (d : Draft) (o : CompilerOverrides) : Draft :=
  let shared :=
    if o.sharedReferences.isEmpty then d.compiler.sharedReferences
    else some (d.compiler.sharedReferences.getD [] ++ o.sharedReferences)
  { d with compiler := { d.compiler with
      timeoutSeconds := o.timeoutSeconds <|> d.compiler.timeoutSeconds
      sharedReferences := shared } }

/-- A draft with other values for serving. -/
def Draft.withServe (d : Draft) (o : ServeOverrides) : Draft :=
  let d := { d with
    server := {
      host := o.host <|> d.server.host
      port := o.port <|> d.server.port
      gracefulShutdownSeconds := o.gracefulShutdownSeconds <|> d.server.gracefulShutdownSeconds }
    logging := {
      level := o.logLevel <|> d.logging.level
      asJson := o.logAsJson <|> d.logging.asJson }
    sites := d.sites.map fun (site : SiteDraft) => { site with watch := o.watch <|> site.watch } }
  d.withCompiler o.compiler

end SiteHost.Config
