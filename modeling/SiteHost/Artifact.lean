import SiteHost.Failure
import SiteHost.Script.Export
import SiteHost.Script.Foundation
import SiteHost.Script.Parse
import SiteHost.Script.Run

/-!
# Compiled units

* `Artifact` — a compiled unit, with the artifacts it was linked against;
* `compile` — sources and references to a module. Every source that does not parse adds its one
  diagnostic, and linking starts only when all do;
* `exportUnits`, `loadPrebuilt` — the stored form of a module, and several of them linked as one;
* `Artifact.instantiate` — an object of a type of an artifact.
-/

namespace SiteHost

/-- The name of the compiler of the script language. -/
def compilerName : String := "kiln-script"

/-- A compiled unit. `serial` tells it from every other, and `module?` is missing from what another
compiler made. -/
inductive Artifact where
  | mk (serial : Nat) (identity : Identity) (tier : Tier) (kind : UnitKind)
      (module? : Option Script.Module) (references : List Artifact) (sources : List SourceText)
  deriving Inhabited

namespace Artifact

/-- The number that tells an artifact from every other. -/
def serial : Artifact → Nat
  | .mk serial .. => serial

/-- The unit that was compiled. -/
def identity : Artifact → Identity
  | .mk _ identity .. => identity

/-- The layer of the unit. -/
def tier : Artifact → Tier
  | .mk _ _ tier .. => tier

/-- How the unit was written. -/
def kind : Artifact → UnitKind
  | .mk _ _ _ kind .. => kind

/-- The linked module. -/
def module? : Artifact → Option Script.Module
  | .mk _ _ _ _ module? _ _ => module?

/-- The artifacts that were linked against, in order. -/
def references : Artifact → List Artifact
  | .mk _ _ _ _ _ references _ => references

/-- The sources that were compiled, in order. -/
def sources : Artifact → List SourceText
  | .mk _ _ _ _ _ _ sources => sources

/-- The digest of the sources. -/
def hash (a : Artifact) : String := sourceHash a.sources

/-- Whether the unit was made from markup. -/
def isTemplate (a : Artifact) : Bool := a.kind == .template

/-- The class table of an artifact. -/
def classes (a : Artifact) : NameMap Script.ClassDef :=
  match a.module? with
  | some m => m.classes
  | none => .empty

/-- The types of an artifact in order. -/
def typeNames (a : Artifact) : List String := a.classes.keys

end Artifact

/-- The modules of references, with an error for each that another compiler made. -/
def modulesOf : List Artifact → List Diagnostic × List Script.Module
  | [] => ([], [])
  | a :: rest =>
    let (errors, modules) := modulesOf rest
    match a.module? with
    | some m => (errors, m :: modules)
    | none =>
      (.error s!"reference `{a.identity.render}` was not produced by the {compilerName} backend" ::
        errors, modules)

/-- The units of sources, with the diagnostic of each that has none. -/
def unitsOf : List SourceText → List Diagnostic × List Script.SourceUnit
  | [] => ([], [])
  | s :: rest =>
    let (errors, units) := unitsOf rest
    match Script.parse s.path s.text with
    | .ok u => (errors, u :: units)
    | .error d => (d :: errors, units)

/-- The module of sources linked against references. -/
def compile (sources : List SourceText) (references : List Artifact) :
    Except (List Diagnostic) Script.Module :=
  let (sourceErrors, units) := unitsOf sources
  let (referenceErrors, modules) := modulesOf references
  if !(sourceErrors ++ referenceErrors).isEmpty then .error (sourceErrors ++ referenceErrors)
  else Script.link units modules

/-- The stored form of a module. -/
def exportUnits (m : Script.Module) : Json := .array (m.units.map Script.SourceUnit.toJson)

/-- The units of stored modules, with an error for each that is not one. The error ends with what the decoder
says of the part. -/
def storedUnits (explain : Json → String) : Nat → List Json → List Diagnostic × List Script.SourceUnit
  | _, [] => ([], [])
  | index, part :: rest =>
    let (errors, units) := storedUnits explain (index + 1) rest
    match Script.unitsOf? part with
    | some found => (errors, found ++ units)
    | none =>
      (.error s!"prebuilt part {index} is not a {compilerName} module{explain part}" :: errors, units)

/-- Stored modules linked as one, without references. The words of the decoder, behind a colon, are its own:
there are none unless they are given. -/
def loadPrebuilt (parts : List Json) (explain : Json → String := fun _ => "") :
    Except (List Diagnostic) Script.Module :=
  let (errors, units) := storedUnits explain 0 parts
  if !errors.isEmpty then .error errors else Script.link units []

/-- An object of a type, with the module its methods are looked up in. -/
structure Handler where
  module : Script.Module
  object : Script.Instance
  deriving Inhabited

namespace Handler

/-- The type of a handler. -/
def typeName (h : Handler) : String := h.object.cls.name

/-- Answers a request, by an action if one is named. -/
def call (h : Handler) (action : Option String) (request : Script.Request) :
    Except Script.InvokeError Script.Response × Handler :=
  let (outcome, object) := match action with
    | some action => h.object.invoke h.module action request
    | none => h.object.process h.module request
  (outcome, { h with object := object })

end Handler

namespace Artifact

/-- The type that is made for a request naming `requested`: the window of a template in place of the
template's own type. -/
def instanceType (a : Artifact) (window : String → String) (requested : String) : String :=
  if a.isTemplate && requested == a.identity.typeName then window requested else requested

/-- An object of a type of an artifact. -/
def instantiate (a : Artifact) (typeName : String) (args : List Script.Value) :
    Except Failure Handler :=
  match a.module?, a.classes.get? typeName with
  | some m, some c =>
    match Script.construct m c args with
    | .ok object => .ok ⟨m, object⟩
    | .error e => .error (.instantiation typeName e.message)
  | _, _ => .error (.typeNotFound typeName a.identity.typeName)

end Artifact

end SiteHost
