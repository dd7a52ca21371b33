import SiteHost.NameMap
import SiteHost.Script.Syntax

/-!
# Linked modules

* `ClassDef` — a class with its base and the types it names resolved to full names;
* `Module` — the classes of a batch of units, with the modules they were linked against;
* `Module.findClass?` — a class here or in a referenced module, the first found winning;
* `ancestry`, `owner?` — a class with its bases, and the nearest of them that declares a method.
  Both give up after 64 classes.
-/

namespace SiteHost.Script

/-- A class whose base and named types are full names. -/
structure ClassDef where
  name : String
  base : Option String
  constructor? : Option Method
  methods : NameMap Method
  /-- Types as written in static calls, with their full names. -/
  typeRefs : NameMap String
  /-- Methods that may be called from outside, with the class that declares each. -/
  actions : NameMap String
  file : String
  position : Position
  deriving Repr, DecidableEq, Inhabited

/-- The classes of a batch of units, with the modules they were linked against. -/
inductive Module where
  | mk (units : List SourceUnit) (classes : NameMap ClassDef) (references : List Module)
  deriving Inhabited

namespace Module

/-- The units that were linked. -/
def units : Module → List SourceUnit
  | .mk units _ _ => units

/-- The classes that the units declare. -/
def classes : Module → NameMap ClassDef
  | .mk _ classes _ => classes

/-- The modules that were linked against. -/
def references : Module → List Module
  | .mk _ _ references => references

mutual

/-- A class declared here or in a referenced module. -/
def findClass? (name : String) : Module → Option ClassDef
  | .mk _ classes references =>
    match classes.get? name with
    | some c => some c
    | none => findIn? name references

/-- A class declared in or below one of several modules, the first found winning. -/
def findIn? (name : String) : List Module → Option ClassDef
  | [] => none
  | m :: rest =>
    match m.findClass? name with
    | some c => some c
    | none => findIn? name rest

end

end Module

/-- How many classes a class and its bases may be. -/
def maxInheritanceDepth : Nat := 64

/-- The base of a class, as `find` knows classes. -/
def ClassDef.base? (find : String → Option ClassDef) (c : ClassDef) : Option ClassDef :=
  c.base.bind find

/-- A class and its bases, at most `depth` of them, the class first. -/
def ancestry (find : String → Option ClassDef) : Nat → ClassDef → List ClassDef
  | 0, _ => []
  | depth + 1, c =>
    match c.base? find with
    | some b => c :: ancestry find depth b
    | none => [c]

/-- The nearest of a class and its bases that declares a method. -/
def owner? (find : String → Option ClassDef) (c : ClassDef) (method : String) : Option ClassDef :=
  (ancestry find maxInheritanceDepth c).find? fun d => d.methods.contains method

namespace Module

/-- A class and its bases, the class that has no base first. -/
def lineage (m : Module) (c : ClassDef) : List ClassDef :=
  (ancestry m.findClass? maxInheritanceDepth c).reverse

/-- The nearest of a class and its bases that declares a method. -/
def owner? (m : Module) (c : ClassDef) (method : String) : Option ClassDef :=
  Script.owner? m.findClass? c method

end Module

end SiteHost.Script
