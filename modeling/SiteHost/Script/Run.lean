import SiteHost.Html.Encode
import SiteHost.Script.Link
import SiteHost.Script.Value
import SiteHost.Text.LowerCase

/-!
# Running handlers

An instance is an object of a class with the arguments it was made with and fields it can set. Its
methods write to a response:

* `evalExpr` — arguments from left to right, then the call; the first error ends everything, and
  what has been done before it stays done;
* `dispatch` — the nearest declaration of a method, seen from the class of the instance, or from
  the base of the class that says `base`;
* `runBody` — a body inside at most 63 others. Its first argument counts the levels that are left;
* `construct`, `Instance.process`, `Instance.invoke` — what is done with a class from outside.
-/

namespace SiteHost.Script

/-- Why a run ends before its time. -/
inductive RunError where
  | failed (text : String)
  | invalidStatus (text : String)
  | missingArguments (type : String) (required : Int) (given : Nat)
  | tooDeep (type method : String)
  | noMethod (type method : String)
  | noBase (type : String)
  | unknownType (written : String)
  | unknownMember (name : String)
  | emptyTarget
  deriving Repr, DecidableEq, Inhabited

/-- How many bodies may be inside one another. -/
def maxCallDepth : Nat := 64

/-- The error in words. -/
def RunError.message : RunError → String
  | .failed text => text
  | .invalidStatus text => s!"invalid status code `{text}`"
  | .missingArguments type required given =>
    s!"`{type}` requires {required} constructor argument(s), got {given}"
  | .tooDeep type method => s!"call depth exceeded {maxCallDepth} in `{type}.{method}`"
  | .noMethod type method => s!"`{type}` has no method `{method}`"
  | .noBase type => s!"`{type}` has no base type"
  | .unknownType written => s!"unknown type `{written}`"
  | .unknownMember name => s!"unknown member `{name}`"
  | .emptyTarget => "empty call target"

/-- An object of a class. -/
structure Instance where
  cls : ClassDef
  args : List Value
  fields : NameMap Value
  deriving Repr, DecidableEq, Inhabited

/-- What a run can change: the object whose methods run, and the response. -/
structure RunState where
  self : Instance
  response : Response
  deriving Repr, DecidableEq, Inhabited

/-- A step of a run. What was done before an error stays done. -/
abbrev Run := ExceptT RunError (StateM RunState)

/-- What a run looks up: its classes and its request. -/
structure Scene where
  module : Module
  request : Request
  deriving Inhabited

/-- The parameters of a method with the arguments given, nothing standing for a missing one. -/
def bindParams (m : Method) (args : List Value) : NameMap Value :=
  NameMap.ofList (m.params.zipIdx.map fun (name, i) => (name, args.getD i .nil))

/-- The first of the arguments of a call. -/
def firstArg (args : List Value) : Value := args.headD .nil

/-- Changes the response. -/
def modifyResponse (f : Response → Response) : Run Unit :=
  modify fun s => { s with response := f s.response }

/-- Appends to the body of the response. -/
def writeBody (text : String) : Run Unit :=
  modifyResponse fun r => { r with body := r.body ++ text }

/-- The value of a name in a map of texts. -/
def lookupText (m : NameMap String) (name : String) : Value :=
  match m.get? name with
  | some text => .text text
  | none => .nil

/-- The first header of a name in any ASCII case. -/
def headerValue (request : Request) (name : String) : Value :=
  match request.headers.toList.find? fun h => Text.eqIgnoringAsciiCase h.1 name with
  | some h => .text h.2
  | none => .nil

/-- A built-in call. -/
def runBuiltin (scene : Scene) (args : List Value) : Builtin → Run Value
  | .write => do
    writeBody (String.join (args.map Value.render))
    return .nil
  | .writeLiteral => do
    writeBody (firstArg args).render
    return .nil
  | .status => do
    match (firstArg args).toInt? with
    | some status =>
      if 100 ≤ status ∧ status ≤ 599 then
        modifyResponse fun r => { r with status := status.toNat }
        return .nil
      else throw (.invalidStatus (firstArg args).render)
    | none => throw (.invalidStatus (firstArg args).render)
  | .contentType => do
    modifyResponse fun r => { r with contentType := (firstArg args).render }
    return .nil
  | .query => return lookupText scene.request.query (firstArg args).render
  | .header => return headerValue scene.request (firstArg args).render
  | .argument => do
    let self := (← get).self
    match (firstArg args).toInt? with
    | some index => return if index < 0 then .nil else self.args.getD index.toNat .nil
    | none => return .nil
  | .requireArguments => do
    let self := (← get).self
    let required := (firstArg args).toInt?.getD 0
    if (self.args.length : Int) < required then
      throw (.missingArguments self.cls.name required self.args.length)
    else return .nil
  | .setField => do
    let name := (firstArg args).render
    let value := firstArg args.tail
    modify fun s => { s with self := { s.self with fields := s.self.fields.insert name value } }
    return .nil
  | .getField => do
    let self := (← get).self
    return (self.fields.get? (firstArg args).render).getD .nil
  | .encode => return .text (Html.encode (firstArg args).render)

/-- The value of a property. -/
def readProperty (scene : Scene) : Property → Run Value
  | .requestPath => return .text scene.request.path
  | .requestMethod => return .text scene.request.method
  | .argumentCount => return .int (Int64.ofNat (← get).self.args.length)

/-- The value of a dotted name, nothing if it has none. -/
def readPath (scene : Scene) (locals : NameMap Value) : List String → Run Value
  | [name] => return (locals.get? name).getD .nil
  | [root, member] =>
    match Property.ofNames? root member with
    | some property => readProperty scene property
    | none => return .nil
  | _ => return .nil

/-- What runs the body of a method declared in a class. -/
abbrev BodyRunner := ClassDef → Method → List Value → Run Unit

/-- Runs the nearest declaration of a method, seen from a class. -/
def dispatch (scene : Scene) (body : BodyRunner) (start : ClassDef) (name : String)
    (args : List Value) : Run Unit :=
  match (scene.module.owner? start name).bind fun c => (c.methods.get? name).map (c, ·) with
  | some (owner, m) => body owner m args
  | none => throw (.noMethod start.name name)

/-- Runs a step on another object, with the same response. -/
def onInstance (other : Instance) (step : Run Unit) : Run Unit :=
  ExceptT.mk fun s =>
    let (outcome, s') := step.run { s with self := other }
    (outcome, { s' with self := s.self })

/-- A call made by a method of `owner`. -/
def runCall (scene : Scene) (body : BodyRunner) (owner : ClassDef) (target : List String)
    (args : List Value) : Run Value :=
  match Target.ofNames target with
  | .fail => throw (.failed (firstArg args).render)
  | .own name => do
    dispatch scene body (← get).self.cls name args
    return .nil
  | .inherited name =>
    match owner.base? scene.module.findClass? with
    | some base => do
      dispatch scene body base name args
      return .nil
    | none => throw (.noBase owner.name)
  | .builtin call => runBuiltin scene args call
  | .unknownMember name => throw (.unknownMember name)
  | .static type name =>
    match (owner.typeRefs.get? type).bind scene.module.findClass? with
    | some c => do
      onInstance ⟨c, [], .empty⟩ (dispatch scene body c name args)
      return .nil
    | none => throw (.unknownType type)
  | .empty => throw .emptyTarget

mutual

/-- The value of an expression in a method of `owner`. -/
def evalExpr (scene : Scene) (body : BodyRunner) (owner : ClassDef) (locals : NameMap Value) :
    Expr → Run Value
  | .text value => return .text value
  | .int value => return .int value
  | .concat left right => do
    let l ← evalExpr scene body owner locals left
    let r ← evalExpr scene body owner locals right
    return .text (l.render ++ r.render)
  | .path segments _ => readPath scene locals segments
  | .call target args _ => do
    let values ← evalArgs scene body owner locals args
    runCall scene body owner target values

/-- The values of arguments, from left to right. -/
def evalArgs (scene : Scene) (body : BodyRunner) (owner : ClassDef) (locals : NameMap Value) :
    List Expr → Run (List Value)
  | [] => return []
  | e :: rest => do
    let value ← evalExpr scene body owner locals e
    return value :: (← evalArgs scene body owner locals rest)

end

/-- The statements of a body, up to one that leaves it. -/
def runStmts (eval : Expr → Run Value) : List Stmt → Run Unit
  | [] => return ()
  | .leave :: _ => return ()
  | .expr e :: rest => do
    let _ ← eval e
    runStmts eval rest

/-- A body with so many levels left, its own included. -/
def runBody (scene : Scene) : Nat → BodyRunner
  | 0, owner, m, _ => throw (.tooDeep owner.name m.name)
  | levels + 1, owner, m, args =>
    runStmts (evalExpr scene (runBody scene levels) owner (bindParams m args)) m.body

/-- Runs the constructors of classes, given what runs a body. -/
def runEach (body : BodyRunner) (args : List Value) : List ClassDef → Run Unit
  | [] => return ()
  | c :: rest => do
    match c.constructor? with
    | some m => body c m args
    | none => pure ()
    runEach body args rest

/-- Runs the constructors of classes, each with the same arguments. -/
def runConstructors (scene : Scene) (args : List Value) (classes : List ClassDef) : Run Unit :=
  runEach (runBody scene maxCallDepth) args classes

/-- An object of a class of a module, after the constructors of its bases and its own have run.
What they write is lost. -/
def construct (module : Module) (cls : ClassDef) (args : List Value) :
    Except RunError Instance :=
  let start : RunState := ⟨⟨cls, args, .empty⟩, .initial⟩
  let (outcome, s) := (runConstructors ⟨module, .blank⟩ args (module.lineage cls)).run start
  outcome.map fun _ => s.self

namespace Instance

/-- Runs a method without arguments: its answer, and the object as it is then. -/
def run (i : Instance) (module : Module) (method : String) (request : Request) :
    Except InvokeError Response × Instance :=
  let scene : Scene := ⟨module, request⟩
  let step := dispatch scene (runBody scene maxCallDepth) i.cls method []
  match step.run ⟨i, .initial⟩ with
  | (.ok _, s) => (.ok s.response, s.self)
  | (.error e, s) => (.error (.runtime i.cls.name e.message), s.self)

/-- The method that answers a request. -/
def entryMethod : String := "ProcessRequest"

/-- Answers a request. -/
def process (i : Instance) (module : Module) (request : Request) :
    Except InvokeError Response × Instance :=
  i.run module entryMethod request

/-- Runs an action, which has to be an exposed method. -/
def invoke (i : Instance) (module : Module) (action : String) (request : Request) :
    Except InvokeError Response × Instance :=
  if i.cls.actions.contains action then i.run module action request
  else (.error (.unknownAction i.cls.name action), i)

/-- The actions of an object in order. -/
def actions (i : Instance) : List String := i.cls.actions.keys

end Instance

end SiteHost.Script
