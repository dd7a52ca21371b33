import SiteHost.Script.Builtin
import SiteHost.Script.Module

/-!
# Linking

Names are resolved across a batch of units and the modules they refer to:

* `declare` — a class name may be declared once, and not in a referenced module;
* `resolve` — bases and the types named in static calls. A written name is looked for in the
  enclosing namespaces, innermost first, then in the namespaces used, then as it stands;
* `cycles` — a class may not be among its own bases;
* `bodyErrors` — every name read and every call made has to exist, with the right arity;
* `link` — the module, or all errors of the first of these steps that finds any. The first three
  steps count as one.
-/

namespace SiteHost.Script

/-- What is wrong with a batch of units. -/
inductive LinkCause where
  | declaredTwice (type : String)
  | declaredElsewhere (type : String)
  | unknownBase (written : String)
  | methodTwice (method type : String)
  | unknownType (written : String)
  | cycle (type : String)
  | unknownName (name : String)
  | wrongArity (name : String) (wanted given : Nat)
  | unknownMethod (method type : String)
  | noBase (type : String)
  | unknownMember (name : String)
  | emptyTarget
  deriving Repr, DecidableEq, Inhabited

/-- The cause in words. -/
def LinkCause.message : LinkCause → String
  | .declaredTwice type => s!"type `{type}` is declared more than once"
  | .declaredElsewhere type => s!"type `{type}` is already declared by a referenced artifact"
  | .unknownBase written => s!"unknown base type `{written}`"
  | .methodTwice method type => s!"method `{method}` is declared more than once in `{type}`"
  | .unknownType written => s!"unknown type `{written}`"
  | .cycle type => s!"inheritance cycle through `{type}`"
  | .unknownName name => s!"unknown name `{name}`"
  | .wrongArity name wanted given =>
    s!"`{name}` takes {wanted} argument(s) but {given} were supplied"
  | .unknownMethod method type => s!"unknown method `{method}` on `{type}`"
  | .noBase type => s!"`{type}` has no base type"
  | .unknownMember name => s!"unknown member `{name}`"
  | .emptyTarget => "empty call target"

/-- A cause as a diagnostic. -/
def LinkCause.at (cause : LinkCause) (file : String) (position : Position) : Diagnostic :=
  .errorAt file position cause.message

/-- A class declaration with the file it stands in and the names that file uses. -/
structure Declared where
  file : String
  uses : List String
  decl : ClassDecl
  deriving Repr, DecidableEq, Inhabited

/-- All class declarations of a batch in order. -/
def declarations (units : List SourceUnit) : List Declared :=
  units.flatMap fun u => u.classes.map fun c => ⟨u.file, u.uses, c⟩

/-- Sorts declarations into errors and those whose names are new. -/
def declare (referenced : String → Bool) : List String → List Declared →
    List Diagnostic × List Declared
  | _, [] => ([], [])
  | seen, d :: rest =>
    let (errors, admitted) := declare referenced (d.decl.name :: seen) rest
    let name := d.decl.name
    if seen.contains name then
      ((LinkCause.declaredTwice name).at d.file d.decl.position :: errors, admitted)
    else if referenced name then
      ((LinkCause.declaredElsewhere name).at d.file d.decl.position :: errors, admitted)
    else (errors, d :: admitted)

/-- A namespace and those around it, the innermost first. -/
def enclosing (scope : String) : List String :=
  let segments := Text.pieces '.' scope
  ((List.range segments.length).reverse.map fun n =>
    Text.joined "." (segments.take (n + 1))).filter (· ≠ "")

/-- The full names that a written type name may stand for, the nearest first. -/
def candidates (written scope : String) (uses : List String) : List String :=
  (enclosing scope).map (fun s => s!"{s}.{written}") ++ uses.map (fun u => s!"{u}.{written}") ++
    [written]

mutual

/-- The types named by the calls of an expression, with their places, arguments first. -/
def Expr.staticTypes : Expr → List (String × Position)
  | .concat left right => left.staticTypes ++ right.staticTypes
  | .call target args position =>
    Expr.listStaticTypes args ++ (writtenType? target).toList.map (·, position)
  | .text _ | .int _ | .path .. => []

/-- The types named by the calls of several expressions. -/
def Expr.listStaticTypes : List Expr → List (String × Position)
  | [] => []
  | e :: rest => e.staticTypes ++ Expr.listStaticTypes rest

end

/-- The types named by the calls of a method. -/
def Method.staticTypes (m : Method) : List (String × Position) :=
  m.body.flatMap fun
    | .expr e => e.staticTypes
    | .leave => []

/-- The methods by name, with an error for each that repeats a name. -/
def methodTable (file type : String) : List Method → NameMap Method →
    List Diagnostic × NameMap Method
  | [], table => ([], table)
  | m :: rest, table =>
    let (errors, full) := methodTable file type rest (table.insert m.name m)
    if table.contains m.name then
      ((LinkCause.methodTwice m.name type).at file m.position :: errors, full)
    else (errors, full)

/-- The named types that `resolveName` knows, with an error for each occurrence of another. -/
def typeTable (file : String) (resolveName : String → Option String) :
    List (String × Position) → NameMap String → List Diagnostic × NameMap String
  | [], table => ([], table)
  | (written, position) :: rest, table =>
    if table.contains written then typeTable file resolveName rest table
    else match resolveName written with
      | some full => typeTable file resolveName rest (table.insert written full)
      | none =>
        let (errors, full) := typeTable file resolveName rest table
        ((LinkCause.unknownType written).at file position :: errors, full)

/-- A declared class with its names resolved, and the errors found on the way. There is no class if
its base is unknown. -/
def resolve (known : String → Bool) (d : Declared) : List Diagnostic × Option ClassDef :=
  let decl := d.decl
  let resolveName (written : String) : Option String :=
    (candidates written decl.scope d.uses).find? known
  let resolved (base : Option String) : List Diagnostic × Option ClassDef :=
    let (methodErrors, methods) := methodTable d.file decl.name decl.methods .empty
    let calls := (decl.constructor?.toList ++ decl.methods).flatMap Method.staticTypes
    let (typeErrors, typeRefs) := typeTable d.file resolveName calls .empty
    (methodErrors ++ typeErrors, some {
      name := decl.name
      base := base
      constructor? := decl.constructor?
      methods := methods
      typeRefs := typeRefs
      actions := .empty
      file := d.file
      position := decl.position })
  match decl.base with
  | none => resolved none
  | some written =>
    match resolveName written with
    | some full => resolved (some full)
    | none => ([(LinkCause.unknownBase written).at d.file decl.position], none)

/-- A class of a list by its name. -/
def classNamed? (classes : List ClassDef) (name : String) : Option ClassDef :=
  classes.find? fun c => c.name == name

/-- Whether the bases that follow `current` come back to a name in `seen`. -/
def returnsTo (classes : List ClassDef) : Nat → List String → Option String → Bool
  | 0, _, _ => false
  | _, _, none => false
  | fuel + 1, seen, some base =>
    if seen.contains base then true
    else returnsTo classes fuel (base :: seen) ((classNamed? classes base).bind (·.base))

/-- An error for every class whose bases never end. -/
def cycles (classes : List ClassDef) : List Diagnostic :=
  classes.filterMap fun c =>
    if returnsTo classes (classes.length + 1) [c.name] c.base then
      some ((LinkCause.cycle c.name).at c.file c.position)
    else none

/-- A call with a given number of arguments, where `wanted` are taken. -/
def checkArity (name : String) (wanted given : Nat) : Option LinkCause :=
  if wanted = given then none else some (.wrongArity name wanted given)

/-- A call of a method on a class, as `find` knows classes. -/
def checkMethod (find : String → Option ClassDef) (type method : String) (given : Nat) :
    Option LinkCause :=
  match (find type).bind fun c => (owner? find c method).bind (·.methods.get? method) with
  | some m => checkArity method m.params.length given
  | none => some (.unknownMethod method type)

/-- What is wrong with a call in a class. -/
def checkCall (find : String → Option ClassDef) (c : ClassDef) (target : List String)
    (given : Nat) : Option LinkCause :=
  match Target.ofNames target with
  | .fail => checkArity "Fail" 1 given
  | .own method => checkMethod find c.name method given
  | .inherited method =>
    match c.base with
    | some base => checkMethod find base method given
    | none => some (.noBase c.name)
  | .builtin call => call.arity?.bind fun wanted => checkArity call.name wanted given
  | .unknownMember name => some (.unknownMember name)
  | .static type method =>
    match c.typeRefs.get? type with
    | some full => checkMethod find full method given
    | none => some (.unknownType type)
  | .empty => some .emptyTarget

/-- Whether a dotted name can be read where `params` are bound. -/
def isReadable (params : List String) : List String → Bool
  | [single] => params.contains single
  | [root, member] => (Property.ofNames? root member).isSome
  | _ => false

mutual

/-- The errors in an expression, those of arguments before those of their call. -/
def exprErrors (find : String → Option ClassDef) (c : ClassDef) (params : List String) :
    Expr → List Diagnostic
  | .text _ | .int _ => []
  | .concat left right => exprErrors find c params left ++ exprErrors find c params right
  | .path segments position =>
    if isReadable params segments then []
    else [(LinkCause.unknownName (Text.joined "." segments)).at c.file position]
  | .call target args position =>
    argErrors find c params args ++
      (checkCall find c target args.length).toList.map fun cause => cause.at c.file position

/-- The errors in several expressions. -/
def argErrors (find : String → Option ClassDef) (c : ClassDef) (params : List String) :
    List Expr → List Diagnostic
  | [] => []
  | e :: rest => exprErrors find c params e ++ argErrors find c params rest

end

/-- The errors in the constructor and the methods of a class, the methods by name. -/
def bodyErrors (find : String → Option ClassDef) (c : ClassDef) : List Diagnostic :=
  (c.constructor?.toList ++ c.methods.values).flatMap fun m =>
    m.body.flatMap fun
      | .expr e => exprErrors find c m.params e
      | .leave => []

/-- The exposed methods of a class and its bases with their classes, nearer ones in place of
farther ones. -/
def actionTable (find : String → Option ClassDef) (c : ClassDef) : NameMap String :=
  (ancestry find maxInheritanceDepth c).reverse.foldl (fun table d =>
    d.methods.values.foldl (fun table m =>
      if m.visibility = .exposed then table.insert m.name d.name else table) table) .empty

/-- The class table of linked classes. -/
def classTable (classes : List ClassDef) : NameMap ClassDef :=
  NameMap.ofList (classes.map fun c => (c.name, c))

/-- The module of a batch of units, or what is wrong with the batch. -/
def link (units : List SourceUnit) (references : List Module) : Except (List Diagnostic) Module :=
  let referenced (name : String) : Option ClassDef := Module.findIn? name references
  let declared := declarations units
  let (nameErrors, admitted) := declare (fun n => (referenced n).isSome) [] declared
  let names := declared.map fun d => d.decl.name
  let known (name : String) : Bool := names.contains name || (referenced name).isSome
  let results := admitted.map (resolve known)
  let classes := results.filterMap Prod.snd
  let errors := nameErrors ++ results.flatMap Prod.fst ++ cycles classes
  if !errors.isEmpty then .error errors
  else
    let find (name : String) : Option ClassDef :=
      match classNamed? classes name with
      | some c => some c
      | none => referenced name
    let errors := classes.flatMap (bodyErrors find)
    if !errors.isEmpty then .error errors
    else
      let finished := classes.map fun c => { c with actions := actionTable find c }
      .ok (.mk units (classTable finished) references)

end SiteHost.Script
