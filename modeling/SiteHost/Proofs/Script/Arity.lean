import SiteHost.Proofs.Script.Running

/-!
# Arguments and parameters

When a class is linked, each of its calls is checked against the method that the class itself sees. Which
method runs is found when the call is made, and depends on the class of the object: one that derives from the
caller may declare the method anew, with any parameters. The calls of a run are listed as they are made:

* `Module.callee?` — the method that a call finds for an object of a class;
* `Call` — a call that enters a body, with its arguments and the state in which the body starts;
* `exprCalls`, `bodyCalls`, `constructCalls`, `Instance.calls` — all calls of a run, each followed by those of
  the body that it enters;
* `Call.Seen` — what is known of a call: it has as many arguments as the method that its caller sees takes,
  and runs that method or one in its place;
* `Module.KeepsArity` — whether methods are only replaced by methods with as many parameters.

Principal results:

* `evalExpr_congr` — no body is entered but those of the calls that are listed;
* `fittingBody_eq` — if every call of a body has as many arguments as parameters, nothing changes when all
  others are refused;
* `exprCalls_known`, `bodyCalls_known` — what is known of a call is known of every call of a body, however
  deep;
* `arguments_match_seen` — whatever is done with an object of a linked class, every call has as many arguments
  as the method that its caller sees, and so as the method that runs unless a method was replaced by one with
  other parameters.
-/

namespace SiteHost.Script

/-! ## The calls of a run -/

/-- The nearest declaration of a method, seen from a class, with the class that has it. -/
def Module.declaration? (m : Module) (start : ClassDef) (name : String) : Option (ClassDef × Method) :=
  (m.owner? start name).bind fun c => (c.methods.get? name).map (c, ·)

/-- The method that a call in a class finds for an object of a class, with the class that declares it. -/
def Module.callee? (m : Module) (caller self : ClassDef) (target : List String) :
    Option (ClassDef × Method) :=
  match Target.ofNames target with
  | .own name => m.declaration? self name
  | .inherited name => (caller.base? m.findClass?).bind (m.declaration? · name)
  | .static type name => ((caller.typeRefs.get? type).bind m.findClass?).bind (m.declaration? · name)
  | .fail | .builtin _ | .unknownMember _ | .empty => none

/-- The object that the method of a call runs on: a new one if the call names its class. -/
def Module.receiver (m : Module) (caller : ClassDef) (target : List String) (self : Instance) : Instance :=
  match Target.ofNames target with
  | .static type _ => (((caller.typeRefs.get? type).bind m.findClass?).map (⟨·, [], .empty⟩)).getD self
  | _ => self

/-- A call that enters the body of a method: where and how it is written, its arguments, the method with
the class that declares it, and the state in which the body starts. -/
structure Call where
  caller : ClassDef
  target : List String
  args : List Value
  owner : ClassDef
  method : Method
  start : RunState

/-- The call that is made by a call expression in a class, if it enters a body. -/
def entered? (m : Module) (caller : ClassDef) (target : List String) (args : List Value) (s : RunState) :
    Option Call :=
  (m.callee? caller s.self.cls target).map fun found =>
    ⟨caller, target, args, found.1, found.2, { s with self := m.receiver caller target s.self }⟩

/-- The calls that are made after a step, unless it ends in an error. -/
def afterwards {β : Type} (step : Run β) (next : β → RunState → List Call) (s : RunState) : List Call :=
  match step.run s with
  | (.ok b, s') => next b s'
  | (.error _, _) => []

section Calls

variable (scene : Scene) (body : BodyRunner) (owner : ClassDef) (locals : NameMap Value)

mutual

/-- The calls that an expression in a method of `owner` makes itself, in order. -/
def exprCalls : Expr → RunState → List Call
  | .text _, _ | .int _, _ | .path _ _, _ => []
  | .concat left right, s => exprCalls left s ++
    afterwards (evalExpr scene body owner locals left) (fun _ => exprCalls right) s
  | .call target args _, s => argCalls args s ++
    afterwards (evalArgs scene body owner locals args)
      (fun values s => (entered? scene.module owner target values s).toList) s

/-- The calls that arguments make, from left to right. -/
def argCalls : List Expr → RunState → List Call
  | [], _ => []
  | e :: rest, s => exprCalls e s ++
    afterwards (evalExpr scene body owner locals e) (fun _ => argCalls rest) s

end

/-- The calls that statements make, up to one that leaves the body. -/
def stmtCalls : List Stmt → RunState → List Call
  | [], _ | .leave :: _, _ => []
  | .expr e :: rest, s => exprCalls scene body owner locals e s ++
    afterwards (evalExpr scene body owner locals e) (fun _ => stmtCalls rest) s

end Calls

/-- The calls of a body with so many levels left, each followed by those of the body that it enters. -/
def bodyCalls (scene : Scene) : Nat → ClassDef → Method → List Value → RunState → List Call
  | 0, _, _, _, _ => []
  | levels + 1, owner, m, args, s =>
    (stmtCalls scene (runBody scene levels) owner (bindParams m args) m.body s).flatMap fun call =>
      call :: bodyCalls scene levels call.owner call.method call.args call.start

/-- The calls of constructors that run one after the other. -/
def constructorCalls (scene : Scene) (args : List Value) : List ClassDef → RunState → List Call
  | [], _ => []
  | c :: rest, s =>
    match c.constructor? with
    | some m => bodyCalls scene maxCallDepth c m args s ++
      afterwards (runBody scene maxCallDepth c m args) (fun _ => constructorCalls scene args rest) s
    | none => constructorCalls scene args rest s

/-- The calls that are made when an object is made. -/
def constructCalls (m : Module) (cls : ClassDef) (args : List Value) : List Call :=
  constructorCalls ⟨m, .blank⟩ args (m.lineage cls) ⟨⟨cls, args, .empty⟩, .initial⟩

/-- The calls that are made when a method of an object is run from outside. -/
def Instance.calls (i : Instance) (m : Module) (method : String) (request : Request) : List Call :=
  match m.declaration? i.cls method with
  | some (owner, meth) => bodyCalls ⟨m, request⟩ maxCallDepth owner meth [] ⟨i, .initial⟩
  | none => []

/-! ## No other bodies are entered -/

section Complete

variable {scene : Scene} {body body' : BodyRunner} {owner : ClassDef} {locals : NameMap Value} {s : RunState}
  {β γ : Type}

theorem mem_afterwards {step : Run β} {next : β → RunState → List Call} {call : Call} :
    call ∈ afterwards step next s ↔ ∃ b s', step.run s = (.ok b, s') ∧ call ∈ next b s' := by
  unfold afterwards
  rcases step.run s with ⟨e | b, s'⟩
  · refine ⟨nofun, ?_⟩
    rintro ⟨_, _, hrun, -⟩
    cases hrun
  · refine ⟨fun h => ⟨b, s', rfl, h⟩, ?_⟩
    rintro ⟨_, _, hrun, h⟩
    cases hrun
    exact h

/-- Whether two ways to run bodies do the same for a call. -/
def Call.Agree (body body' : BodyRunner) (call : Call) : Prop :=
  (body call.owner call.method call.args).run call.start =
    (body' call.owner call.method call.args).run call.start

/-- Two steps are the same if their first parts are, and what comes then is. -/
theorem run_bind_congr {x y : Run β} {f g : β → Run γ} (h : x.run s = y.run s)
    (hnext : ∀ b s', x.run s = (.ok b, s') → (f b).run s' = (g b).run s') :
    (x >>= f).run s = (y >>= g).run s := by
  rw [run_bind, run_bind, ← h]
  rcases hx : x.run s with ⟨_ | b, s'⟩
  · rfl
  · exact hnext b s' hx

theorem dispatch_of_some {start : ClassDef} {name : String} {args : List Value} {found : ClassDef × Method}
    (h : scene.module.declaration? start name = some found) :
    dispatch scene body start name args = body found.1 found.2 args := by
  unfold Module.declaration? at h
  unfold dispatch
  rw [h]

theorem dispatch_of_none {start : ClassDef} {name : String} {args : List Value}
    (h : scene.module.declaration? start name = none) :
    dispatch scene body start name args = throw (.noMethod start.name name) := by
  unfold Module.declaration? at h
  unfold dispatch
  rw [h]

theorem dispatch_congr {start : ClassDef} {name : String} {args : List Value}
    (h : ∀ o m, scene.module.declaration? start name = some (o, m) →
      (body o m args).run s = (body' o m args).run s) :
    (dispatch scene body start name args).run s = (dispatch scene body' start name args).run s := by
  cases hfound : scene.module.declaration? start name with
  | none => rw [dispatch_of_none hfound, dispatch_of_none hfound]
  | some found =>
    rw [dispatch_of_some hfound, dispatch_of_some hfound]
    exact h found.1 found.2 hfound

/-- A call runs the body that it enters, and no other. -/
theorem runCall_congr {target : List String} {args : List Value}
    (h : ∀ call, entered? scene.module owner target args s = some call → call.Agree body body') :
    (runCall scene body owner target args).run s = (runCall scene body' owner target args).run s := by
  unfold entered? Module.callee? Module.receiver at h
  unfold runCall
  cases htarget : Target.ofNames target with
  | own name =>
    rw [htarget] at h
    refine run_bind_congr rfl fun s₁ s₂ hget => ?_
    cases hget
    refine run_bind_congr (dispatch_congr fun o m hfound => ?_) fun _ _ _ => rfl
    exact h ⟨owner, target, args, o, m, s⟩ (congrArg (Option.map _) hfound)
  | inherited name =>
    rw [htarget] at h
    dsimp only at h ⊢
    cases hbase : owner.base? scene.module.findClass? with
    | none => rfl
    | some base =>
      refine run_bind_congr (dispatch_congr fun o m hfound => ?_) fun _ _ _ => rfl
      rw [hbase, Option.bind_some] at h
      exact h ⟨owner, target, args, o, m, s⟩ (congrArg (Option.map _) hfound)
  | static type name =>
    rw [htarget] at h
    dsimp only at h ⊢
    cases hclass : (owner.typeRefs.get? type).bind scene.module.findClass? with
    | none => rfl
    | some c =>
      rw [hclass, Option.bind_some] at h
      have hrun : (dispatch scene body c name args).run { s with self := ⟨c, [], .empty⟩ } =
          (dispatch scene body' c name args).run { s with self := ⟨c, [], .empty⟩ } :=
        dispatch_congr fun o m hfound => h ⟨owner, target, args, o, m, _⟩ (congrArg (Option.map _) hfound)
      refine run_bind_congr ?_ fun _ _ _ => rfl
      exact congrArg (fun p : Except RunError Unit × RunState => (p.1, { p.2 with self := s.self })) hrun
  | fail | builtin _ | unknownMember _ | empty => rfl

mutual

/-- **An expression enters no bodies but those of its calls.** -/
theorem evalExpr_congr : ∀ (e : Expr) (s : RunState),
    (∀ call ∈ exprCalls scene body owner locals e s, call.Agree body body') →
      (evalExpr scene body owner locals e).run s = (evalExpr scene body' owner locals e).run s
  | .text _, _, _ | .int _, _, _ | .path _ _, _, _ => rfl
  | .concat left right, s, h => by
    rw [exprCalls, List.forall_mem_append] at h
    rw [evalExpr, evalExpr]
    refine run_bind_congr (evalExpr_congr left s h.1) fun l s' hl => ?_
    refine run_bind_congr (evalExpr_congr right s' fun call hcall => h.2 call ?_) fun _ _ _ => rfl
    exact mem_afterwards.2 ⟨l, s', hl, hcall⟩
  | .call target args _, s, h => by
    rw [exprCalls, List.forall_mem_append] at h
    rw [evalExpr, evalExpr]
    refine run_bind_congr (evalArgs_congr args s h.1) fun values s' hvalues => ?_
    refine runCall_congr fun call hcall => h.2 call ?_
    exact mem_afterwards.2 ⟨values, s', hvalues, Option.mem_toList.2 hcall⟩

theorem evalArgs_congr : ∀ (es : List Expr) (s : RunState),
    (∀ call ∈ argCalls scene body owner locals es s, call.Agree body body') →
      (evalArgs scene body owner locals es).run s = (evalArgs scene body' owner locals es).run s
  | [], _, _ => rfl
  | e :: rest, s, h => by
    rw [argCalls, List.forall_mem_append] at h
    rw [evalArgs, evalArgs]
    refine run_bind_congr (evalExpr_congr e s h.1) fun value s' hvalue => ?_
    refine run_bind_congr (evalArgs_congr rest s' fun call hcall => h.2 call ?_) fun _ _ _ => rfl
    exact mem_afterwards.2 ⟨value, s', hvalue, hcall⟩

end

theorem runStmts_congr (stmts : List Stmt) (s : RunState)
    (h : ∀ call ∈ stmtCalls scene body owner locals stmts s, call.Agree body body') :
    (runStmts (evalExpr scene body owner locals) stmts).run s =
      (runStmts (evalExpr scene body' owner locals) stmts).run s := by
  induction stmts generalizing s with
  | nil => rfl
  | cons stmt rest ih =>
    cases stmt with
    | leave => rfl
    | expr e =>
      rw [stmtCalls, List.forall_mem_append] at h
      refine run_bind_congr (evalExpr_congr e s h.1) fun value s' hvalue => ?_
      exact ih s' fun call hcall => h.2 call (mem_afterwards.2 ⟨value, s', hvalue, hcall⟩)

/-- A body like `runBody`, but one that is called with other arguments than it has parameters is refused. -/
def fittingBody (refuse : BodyRunner) (scene : Scene) : Nat → BodyRunner
  | 0, owner, m, _ => throw (.tooDeep owner.name m.name)
  | levels + 1, owner, m, args =>
    let entered : BodyRunner := fun owner m args =>
      if args.length = m.params.length then fittingBody refuse scene levels owner m args
      else refuse owner m args
    runStmts (evalExpr scene entered owner (bindParams m args)) m.body

/-- **If all calls of a body fit, nothing changes when others are refused**, whatever is done instead. -/
theorem fittingBody_eq (refuse : BodyRunner) (levels : Nat) (owner : ClassDef) (m : Method)
    (args : List Value) (s : RunState)
    (h : ∀ call ∈ bodyCalls scene levels owner m args s, call.args.length = call.method.params.length) :
    (fittingBody refuse scene levels owner m args).run s = (runBody scene levels owner m args).run s := by
  induction levels generalizing owner m args s with
  | zero => rfl
  | succ levels ih =>
    rw [bodyCalls, List.forall_mem_flatMap] at h
    refine (runStmts_congr m.body s fun call hcall => ?_).symm
    obtain ⟨hfits, hinner⟩ := List.forall_mem_cons.1 (h call hcall)
    rw [Call.Agree, if_pos hfits]
    exact (ih call.owner call.method call.args call.start hinner).symm

/-- Runs a method without arguments, with bodies that are refused to calls that do not fit. -/
def Instance.attemptFitting (refuse : BodyRunner) (i : Instance) (m : Module) (method : String)
    (request : Request) : Except RunError Unit × RunState :=
  (dispatch ⟨m, request⟩ (fittingBody refuse ⟨m, request⟩ maxCallDepth) i.cls method []).run ⟨i, .initial⟩

/-- An object does the same if calls that do not fit are refused, and it makes none. -/
theorem Instance.attemptFitting_eq (refuse : BodyRunner) {i : Instance} {m : Module} {method : String}
    {request : Request}
    (h : ∀ call ∈ i.calls m method request, call.args.length = call.method.params.length) :
    i.attemptFitting refuse m method request = i.attempt m method request := by
  refine dispatch_congr fun o meth hfound => fittingBody_eq refuse maxCallDepth o meth [] _ ?_
  have hcalls : i.calls m method request = bodyCalls ⟨m, request⟩ maxCallDepth o meth [] ⟨i, .initial⟩ := by
    unfold Instance.calls
    rw [show m.declaration? i.cls method = some (o, meth) from hfound]
  exact hcalls ▸ h

end Complete

/-! ## What the caller sees -/

/-- What is known of a call whose caller was checked: the method that the caller sees has as many parameters
as there are arguments, and what runs is this method or, if the object is not named otherwise, one that
takes its place in a class that derives from the one that has it. -/
structure Call.Seen (m : Module) (call : Call) (seen : Method) : Prop where
  /-- It is the method that the call would find for an object of the calling class. -/
  found : ∃ o, m.callee? call.caller call.caller call.target = some (o, seen) ∧ o.IsBaseOf m call.owner ∧
    ∃ name, o.methods.get? name = some seen ∧ call.owner.methods.get? name = some call.method
  arity : call.args.length = seen.params.length
  virtual : (∃ name, Target.ofNames call.target = .own name) ∨ call.method = seen

/-- What it takes to go on with the body that a call enters: it is a method of a class of the object. -/
structure Call.Sound (m : Module) (call : Call) : Prop where
  self : ∃ name, m.findClass? name = some call.start.self.cls
  owner : call.owner.IsBaseOf m call.start.self.cls
  method : call.method ∈ call.owner.constructor?.toList ++ call.owner.methods.values

/-- What is known of every call whose caller was checked. -/
def Call.Known (m : Module) (call : Call) : Prop := (∃ seen, call.Seen m seen) ∧ call.Sound m

/-- Whether methods are only replaced by methods with as many parameters. -/
def Module.KeepsArity (m : Module) : Prop :=
  ∀ className (c b : ClassDef) name (method replaced : Method), m.findClass? className = some c →
    b.IsBaseOf m c → c.methods.get? name = some method → b.methods.get? name = some replaced →
    method.params.length = replaced.params.length

section Seen

variable {m : Module} {name : String} {cls caller owner o : ClassDef} {method : Method}

theorem declaration?_eq_some_iff : m.declaration? cls name = some (o, method) ↔
    m.owner? cls name = some o ∧ o.methods.get? name = some method := by
  unfold Module.declaration?
  rw [Option.bind_eq_some_iff]
  constructor
  · rintro ⟨c, hc, hmap⟩
    obtain ⟨meth, hmeth, heq⟩ := Option.map_eq_some_iff.1 hmap
    cases heq
    exact ⟨hc, hmeth⟩
  · rintro ⟨ho, hmethod⟩
    exact ⟨o, ho, by rw [hmethod, Option.map_some]⟩

/-- The nearest class of a chain with a property has the others with it among its bases. -/
theorem BaseChain.exists_rest {find : String → Option ClassDef} {c nearest d : ClassDef}
    {chain : List ClassDef} {p : ClassDef → Bool} (h : BaseChain find c chain)
    (hnearest : chain.find? p = some nearest) (hd : d ∈ chain) (hp : p d = true) :
    ∃ rest, BaseChain find nearest rest ∧ d ∈ rest := by
  induction h with
  | @root c hbase =>
    obtain rfl := List.mem_singleton.1 hd
    rw [List.find?_singleton, if_pos hp] at hnearest
    obtain rfl := Option.some.inj hnearest
    exact ⟨_, .root hbase, hd⟩
  | @derived c b chain hb hchain ih =>
    cases hc : p c with
    | true =>
      rw [List.find?_cons_of_pos hc] at hnearest
      obtain rfl := Option.some.inj hnearest
      exact ⟨_, .derived hb hchain, hd⟩
    | false =>
      rw [List.find?_cons_of_neg (by rw [hc]; exact Bool.false_ne_true)] at hnearest
      refine ih hnearest ((List.mem_cons.1 hd).resolve_left ?_)
      rintro rfl
      rw [hp] at hc
      cases hc

namespace Module.Sealed

/-- The class whose method runs derives from the one whose method its caller sees. -/
theorem isBaseOf_of_owner? (h : m.Sealed) (hcls : m.findClass? name = some cls)
    (hcaller : caller.IsBaseOf m cls) {called : String} (ho : m.owner? caller called = some o)
    (howner : m.owner? cls called = some owner) : o.IsBaseOf m owner := by
  obtain ⟨chain, hchain, heq⟩ := h.ancestry_eq hcls
  have hdeclares : o.methods.contains called = true :=
    List.find?_some (p := fun d : ClassDef => d.methods.contains called) ho
  have hmem := h.isBaseOf_trans hcls hcaller (List.mem_of_find?_eq_some ho)
  rw [ClassDef.IsBaseOf, heq] at hmem
  rw [Module.owner?, Script.owner?, heq] at howner
  obtain ⟨rest, hrest, hin⟩ := hchain.exists_rest howner hmem hdeclares
  have hownerBase : owner.IsBaseOf m cls := by
    rw [ClassDef.IsBaseOf, heq]
    exact List.mem_of_find?_eq_some howner
  obtain ⟨name', hname'⟩ := found hcls hownerBase
  obtain ⟨chain', hchain', heq'⟩ := h.ancestry_eq hname'
  rw [ClassDef.IsBaseOf, heq', hchain'.unique hrest]
  exact hin

end Module.Sealed

theorem mem_values_of_get? (h : owner.methods.get? name = some method) :
    method ∈ owner.constructor?.toList ++ owner.methods.values :=
  List.mem_append_right _ (NameMap.mem_values.2 ⟨name, h⟩)

variable {s : RunState} {target : List String} {args : List Value} {call : Call} {called full : String}

/-- A call that finds its method in the same class for every object runs what its caller sees. -/
theorem known_of_fixed (h : m.Sealed) {c : ClassDef} (hc : m.findClass? full = some c)
    (hself : m.findClass? name = some call.start.self.cls) (hstart : c.IsBaseOf m call.start.self.cls)
    (hcheck : checkMethod m.findClass? full called call.args.length = none)
    (hfound : m.declaration? c called = some (call.owner, call.method))
    (hcallee : m.callee? call.caller call.caller call.target = m.declaration? c called) : call.Known m := by
  obtain ⟨c', o, seen, hc', ho, hseen, hlength⟩ := checkMethod_eq_none_iff.1 hcheck
  obtain rfl : c = c' := Option.some.inj (hc.symm.trans hc')
  obtain ⟨howner, hmethod⟩ := declaration?_eq_some_iff.1 hfound
  have hsame : call.owner = o := Option.some.inj (howner.symm.trans ho)
  obtain rfl : call.method = seen := Option.some.inj (hmethod.symm.trans (hsame ▸ hseen))
  have howns := h.isBaseOf_trans hself hstart (List.mem_of_find?_eq_some howner)
  obtain ⟨ownerName, hownerName⟩ := Module.Sealed.found hself howns
  have hown : call.owner.IsBaseOf m call.owner := h.isBaseOf_self hownerName
  refine ⟨⟨call.method, ⟨call.owner, hcallee.trans hfound, hown, called, hmethod, hmethod⟩, hlength.symm,
    .inr rfl⟩, ?_⟩
  exact ⟨⟨name, hself⟩, howns, mem_values_of_get? hmethod⟩

/-- A call that finds its method by the class of the object runs what its caller sees, or what takes its
place there. -/
theorem known_of_own (h : m.Sealed) {callerName : String}
    (hcaller : m.findClass? callerName = some call.caller)
    (hself : m.findClass? name = some call.start.self.cls)
    (hbase : call.caller.IsBaseOf m call.start.self.cls) (htarget : Target.ofNames call.target = .own called)
    (hcheck : checkMethod m.findClass? call.caller.name called call.args.length = none)
    (hfound : m.declaration? call.start.self.cls called = some (call.owner, call.method)) : call.Known m := by
  obtain ⟨c, o, seen, hc, ho, hseen, hlength⟩ := checkMethod_eq_none_iff.1 hcheck
  rw [h.named callerName call.caller hcaller, hcaller] at hc
  obtain rfl : call.caller = c := Option.some.inj hc
  obtain ⟨howner, hmethod⟩ := declaration?_eq_some_iff.1 hfound
  have hsees : m.callee? call.caller call.caller call.target = some (o, seen) := by
    rw [Module.callee?, htarget]
    exact declaration?_eq_some_iff.2 ⟨ho, hseen⟩
  have hreplaces := h.isBaseOf_of_owner? hself hbase ho howner
  refine ⟨⟨seen, ⟨o, hsees, hreplaces, called, hseen, hmethod⟩, hlength.symm, .inl ⟨called, htarget⟩⟩, ?_⟩
  exact ⟨⟨name, hself⟩, List.mem_of_find?_eq_some howner, mem_values_of_get? hmethod⟩

/-- **A call that was checked has as many arguments as its caller sees parameters**, and goes on with a method
of the object. -/
theorem known_of_entered? (h : m.Sealed) (hself : m.findClass? name = some s.self.cls)
    (hcaller : caller.IsBaseOf m s.self.cls)
    (hcheck : checkCall m.findClass? caller target args.length = none)
    (hcall : entered? m caller target args s = some call) : call.Known m := by
  obtain ⟨⟨owner, method⟩, hcallee, rfl⟩ := Option.map_eq_some_iff.1 hcall
  obtain ⟨callerName, hcallerName⟩ := Module.Sealed.found hself hcaller
  unfold checkCall at hcheck
  cases htarget : Target.ofNames target with
  | own called =>
    have hreceiver : m.receiver caller target s.self = s.self := by rw [Module.receiver, htarget]
    rw [htarget] at hcheck
    rw [Module.callee?, htarget] at hcallee
    rw [hreceiver]
    exact known_of_own h hcallerName hself hcaller htarget hcheck hcallee
  | inherited called =>
    have hreceiver : m.receiver caller target s.self = s.self := by rw [Module.receiver, htarget]
    rw [htarget] at hcheck
    rw [Module.callee?, htarget] at hcallee
    obtain ⟨b, hb, hfound⟩ := Option.bind_eq_some_iff.1 hcallee
    obtain ⟨base, hbase, hfind⟩ := base?_eq_some_iff.1 hb
    have hstart : b.IsBaseOf m s.self.cls := h.isBaseOf_trans hself hcaller (h.isBaseOf_base hcallerName hb)
    have hsees : m.callee? caller caller target = m.declaration? b called := by
      rw [Module.callee?, htarget]
      exact congrArg (Option.bind · (m.declaration? · called)) hb
    dsimp only at hcheck
    rw [hbase] at hcheck
    rw [hreceiver]
    exact known_of_fixed h hfind hself hstart hcheck hfound hsees
  | static type called =>
    rw [htarget] at hcheck
    rw [Module.callee?, htarget] at hcallee
    obtain ⟨c, hclass, hfound⟩ := Option.bind_eq_some_iff.1 hcallee
    obtain ⟨full, hfull, hfind⟩ := Option.bind_eq_some_iff.1 hclass
    have hreceiver : m.receiver caller target s.self = ⟨c, [], .empty⟩ := by
      rw [Module.receiver, htarget]
      exact congrArg (fun found : Option ClassDef => (found.map (⟨·, [], .empty⟩)).getD s.self) hclass
    have hsees : m.callee? caller caller target = m.declaration? c called := by
      rw [Module.callee?, htarget]
      exact congrArg (Option.bind · (m.declaration? · called)) hclass
    dsimp only at hcheck
    rw [hfull] at hcheck
    rw [hreceiver]
    exact known_of_fixed h hfind hfind (h.isBaseOf_self hfind) hcheck hfound hsees
  | fail | builtin _ | unknownMember _ | empty =>
    rw [Module.callee?, htarget] at hcallee
    cases hcallee

end Seen

/-! ## Whole runs -/

section Runs

variable {m : Module} {name : String} {cls owner c : ClassDef} {x y : BodyRunner} {call : Call} {s : RunState}

/-- What holds of the calls that come next, wherever a step on an object of a class may lead, holds of those
that come after it. -/
theorem forall_afterwards {β : Type} {P : Call → Prop} {step step' : Run β}
    {next : β → RunState → List Call} (hsafe : Safe cls step' step) (hs : s.self.cls = cls)
    (hnext : ∀ b s', step.run s = (.ok b, s') → s'.self.cls = cls → ∀ call ∈ next b s', P call) :
    ∀ call ∈ afterwards step next s, P call := by
  intro call hcall
  obtain ⟨b, s', hrun, hcall⟩ := mem_afterwards.1 hcall
  obtain ⟨-, hcls, -⟩ := hsafe s hs
  rw [hrun] at hcls
  exact hnext b s' hrun hcls call hcall

/-- Arguments have as many values as there are expressions. -/
theorem length_of_evalArgs {scene : Scene} {body : BodyRunner} {locals : NameMap Value} {es : List Expr}
    {values : List Value} {s s' : RunState}
    (h : (evalArgs scene body owner locals es).run s = (.ok values, s')) : values.length = es.length := by
  induction es generalizing values s with
  | nil =>
    cases h
    rfl
  | cons e rest ih =>
    rw [evalArgs, run_bind] at h
    rcases hfirst : (evalExpr scene body owner locals e).run s with ⟨_ | value, s₁⟩
    · rw [hfirst] at h
      cases h
    · rw [hfirst] at h
      dsimp only at h
      rw [run_bind] at h
      rcases hrest : (evalArgs scene body owner locals rest).run s₁ with ⟨_ | others, s₂⟩
      · rw [hrest] at h
        cases h
      · rw [hrest] at h
        cases h
        rw [List.length_cons, List.length_cons, ih hrest]

mutual

/-- **What is known of a call is known of every call of an expression without errors**, for every object whose
class has the class of the expression among its bases. -/
theorem exprCalls_known (h : m.Sealed) (hrun : SafeRunner m x y) (hcls : m.findClass? name = some cls)
    (howner : owner.IsBaseOf m cls) {params : List String} {locals : NameMap Value}
    (hlocals : ∀ param ∈ params, ∃ value, locals.get? param = some value) (request : Request) :
    ∀ e : Expr, exprErrors m.findClass? owner params e = [] → ∀ s : RunState, s.self.cls = cls →
      ∀ call ∈ exprCalls ⟨m, request⟩ y owner locals e s, call.Known m
  | .text _, _, _, _ | .int _, _, _, _ | .path _ _, _, _, _ => List.forall_mem_nil _
  | .concat left right, hnil, s, hs => by
    obtain ⟨hleft, hright⟩ := List.append_eq_nil_iff.1 hnil
    rw [exprCalls]
    refine List.forall_mem_append.2
      ⟨exprCalls_known h hrun hcls howner hlocals request left hleft s hs, ?_⟩
    have hsafe := evalExpr_safe h hrun hcls howner hlocals request (fun _ => pure .nil) left hleft
    refine forall_afterwards hsafe hs fun _ s' _ hs' => ?_
    exact exprCalls_known h hrun hcls howner hlocals request right hright s' hs'
  | .call target args _, hnil, s, hs => by
    obtain ⟨hargs, hcall⟩ := List.append_eq_nil_iff.1 hnil
    rw [List.map_eq_nil_iff, Option.toList_eq_nil_iff] at hcall
    rw [exprCalls]
    refine List.forall_mem_append.2 ⟨argCalls_known h hrun hcls howner hlocals request args hargs s hs, ?_⟩
    have hsafe := evalArgs_safe h hrun hcls howner hlocals request (fun _ => pure .nil) args hargs
    refine forall_afterwards hsafe hs fun values s' hvalues hs' call hmem => ?_
    subst hs'
    rw [← length_of_evalArgs hvalues] at hcall
    exact known_of_entered? h hcls howner hcall (Option.mem_toList.1 hmem)

theorem argCalls_known (h : m.Sealed) (hrun : SafeRunner m x y) (hcls : m.findClass? name = some cls)
    (howner : owner.IsBaseOf m cls) {params : List String} {locals : NameMap Value}
    (hlocals : ∀ param ∈ params, ∃ value, locals.get? param = some value) (request : Request) :
    ∀ es : List Expr, argErrors m.findClass? owner params es = [] → ∀ s : RunState, s.self.cls = cls →
      ∀ call ∈ argCalls ⟨m, request⟩ y owner locals es s, call.Known m
  | [], _, _, _ => List.forall_mem_nil _
  | e :: rest, hnil, s, hs => by
    obtain ⟨he, hrest⟩ := List.append_eq_nil_iff.1 hnil
    rw [argCalls]
    refine List.forall_mem_append.2 ⟨exprCalls_known h hrun hcls howner hlocals request e he s hs, ?_⟩
    have hsafe := evalExpr_safe h hrun hcls howner hlocals request (fun _ => pure .nil) e he
    refine forall_afterwards hsafe hs fun _ s' _ hs' => ?_
    exact argCalls_known h hrun hcls howner hlocals request rest hrest s' hs'

end

theorem stmtCalls_known (h : m.Sealed) (hrun : SafeRunner m x y) (hcls : m.findClass? name = some cls)
    (howner : owner.IsBaseOf m cls) {params : List String} {locals : NameMap Value}
    (hlocals : ∀ param ∈ params, ∃ value, locals.get? param = some value) (request : Request)
    (stmts : List Stmt) (hstmts : ∀ e, .expr e ∈ stmts → exprErrors m.findClass? owner params e = [])
    (hs : s.self.cls = cls) :
    ∀ call ∈ stmtCalls ⟨m, request⟩ y owner locals stmts s, call.Known m := by
  induction stmts generalizing s with
  | nil => exact List.forall_mem_nil _
  | cons stmt rest ih =>
    cases stmt with
    | leave => exact List.forall_mem_nil _
    | expr e =>
      have he := hstmts e List.mem_cons_self
      rw [stmtCalls]
      refine List.forall_mem_append.2 ⟨exprCalls_known h hrun hcls howner hlocals request e he s hs, ?_⟩
      have hsafe := evalExpr_safe h hrun hcls howner hlocals request (fun _ => pure .nil) e he
      refine forall_afterwards hsafe hs fun _ s' _ hs' => ?_
      exact ih (fun e' he' => hstmts e' (List.mem_cons_of_mem _ he')) hs'

/-- **What is known of a call is known of every call of a body**, however deep. -/
theorem bodyCalls_known (h : m.Sealed) (request : Request) (levels : Nat) {method : Method}
    {args : List Value} (hcls : m.findClass? name = some cls) (howner : owner.IsBaseOf m cls)
    (hmethod : method ∈ owner.constructor?.toList ++ owner.methods.values) (hs : s.self.cls = cls) :
    ∀ call ∈ bodyCalls ⟨m, request⟩ levels owner method args s, call.Known m := by
  induction levels generalizing name cls owner method args s with
  | zero => exact List.forall_mem_nil _
  | succ levels ih =>
    obtain ⟨ownerName, hownerName⟩ := Module.Sealed.found hcls howner
    have hbody := bodyErrors_eq_nil_iff.1 (h.bodies ownerName owner hownerName) method hmethod
    have hlocals : ∀ param ∈ method.params, ∃ value, (bindParams method args).get? param = some value :=
      fun _ => get?_bindParams
    have hstmts := stmtCalls_known h (runBody_safe h request (fun _ => pure .nil) levels) hcls howner hlocals
      request method.body hbody hs
    rw [bodyCalls]
    refine List.forall_mem_flatMap.2 fun call hcall => ?_
    obtain ⟨hseen, hsound⟩ := hstmts call hcall
    obtain ⟨selfName, hself⟩ := hsound.self
    exact List.forall_mem_cons.2 ⟨⟨hseen, hsound⟩, ih hself hsound.owner hsound.method rfl⟩

theorem constructorCalls_known (h : m.Sealed) (hcls : m.findClass? name = some cls) (args : List Value)
    (classes : List ClassDef) (hclasses : ∀ d ∈ classes, d.IsBaseOf m cls) (hs : s.self.cls = cls) :
    ∀ call ∈ constructorCalls ⟨m, .blank⟩ args classes s, call.Known m := by
  induction classes generalizing s with
  | nil => exact List.forall_mem_nil _
  | cons d rest ih =>
    have hrest : ∀ e ∈ rest, e.IsBaseOf m cls := fun e he => hclasses e (List.mem_cons_of_mem d he)
    have hd := hclasses d List.mem_cons_self
    rw [constructorCalls]
    cases hconstructor : d.constructor? with
    | none => exact ih hrest hs
    | some method =>
      have hmethod : method ∈ d.constructor?.toList ++ d.methods.values := by
        rw [hconstructor]
        exact List.mem_append_left _ (List.mem_singleton_self method)
      have hsafe := runBody_safe h .blank (fun _ => pure .nil) maxCallDepth name cls d method args hcls hd
        hmethod
      refine List.forall_mem_append.2 ⟨bodyCalls_known h .blank maxCallDepth hcls hd hmethod hs, ?_⟩
      exact forall_afterwards hsafe hs fun _ s' _ hs' => ih hrest hs'

/-- The calls that are made in a module when an object of a class is made, and whenever a method of such an
object is run from outside. -/
inductive CallOf (m : Module) (c : ClassDef) : Call → Prop where
  | construct {call : Call} (args : List Value) : call ∈ constructCalls m c args → CallOf m c call
  | run {i : Instance} {call : Call} (method : String) (request : Request) : Made m c i →
    call ∈ i.calls m method request → CallOf m c call

/-- What is known of a call is known of every call that is made with an object of a class. -/
theorem CallOf.known (h : m.Sealed) (hc : m.findClass? name = some c) (hcall : CallOf m c call) :
    call.Known m := by
  cases hcall with
  | construct args hcall =>
    exact constructorCalls_known h hc args (m.lineage c) (fun d hd => List.mem_reverse.1 hd) rfl call hcall
  | @run i _ method request hmade hcall =>
    have hi := hmade.cls_eq h hc
    unfold Instance.calls at hcall
    rw [hi] at hcall
    cases hfound : m.declaration? c method with
    | none =>
      rw [hfound] at hcall
      cases hcall
    | some found =>
      rw [hfound] at hcall
      obtain ⟨howner, hmethod⟩ := declaration?_eq_some_iff.1 (show _ = some (found.1, found.2) from hfound)
      exact bodyCalls_known h request maxCallDepth hc (List.mem_of_find?_eq_some howner)
        (mem_values_of_get? hmethod) hi call hcall

/-- A replaced method has as many parameters as the one that takes its place, if arities are kept. -/
theorem Call.Seen.params_eq {seen : Method} (hkeeps : m.KeepsArity) (h : call.Seen m seen)
    (hsound : call.Sound m) : call.method.params.length = seen.params.length := by
  obtain ⟨o, -, hbase, called, hseen, hmethod⟩ := h.found
  obtain ⟨selfName, hself⟩ := hsound.self
  obtain ⟨ownerName, hownerName⟩ := Module.Sealed.found hself hsound.owner
  exact hkeeps ownerName call.owner o called call.method seen hownerName hbase hmethod hseen

/-- **Every call has as many arguments as the method that its caller sees**, whatever is done with an object
of a linked class. So it has as many as the method that runs takes if and only if that one takes as many as
the one that is seen. A call of `base` or of a named class always runs what is seen. Any other call runs a
method that takes its arguments if methods are only replaced by methods with as many parameters; calls that
do not fit could be refused then, and nothing would change. -/
theorem arguments_match_seen {units : List SourceUnit} {references : List Module}
    (hrefs : ∀ r ∈ references, r.Linked) (hlink : link units references = .ok m)
    (hunambiguous : m.Unambiguous) (hshallow : m.Shallow) (hc : m.findClass? name = some c) :
    (∀ call, CallOf m c call → ∃ o seen,
      m.callee? call.caller call.caller call.target = some (o, seen) ∧ o.IsBaseOf m call.owner ∧
      call.args.length = seen.params.length ∧
      (call.args.length = call.method.params.length ↔ seen.params.length = call.method.params.length) ∧
      ((∃ called, Target.ofNames call.target = .own called) ∨ call.method = seen)) ∧
    (m.KeepsArity → (∀ call, CallOf m c call → call.args.length = call.method.params.length) ∧
      ∀ i, Made m c i → ∀ refuse method request,
        i.attemptFitting refuse m method request = i.attempt m method request) := by
  have h : m.Sealed := (Module.Linked.mk hrefs hlink).isSealed hunambiguous hshallow
  constructor
  · intro call hcall
    obtain ⟨⟨seen, hseen⟩, -⟩ := hcall.known h hc
    obtain ⟨o, hfound, hbase, -⟩ := hseen.found
    refine ⟨o, seen, hfound, hbase, hseen.arity, ?_, hseen.virtual⟩
    rw [hseen.arity]
  · intro hkeeps
    have hfits : ∀ call, CallOf m c call → call.args.length = call.method.params.length := by
      intro call hcall
      obtain ⟨⟨seen, hseen⟩, hsound⟩ := hcall.known h hc
      exact hseen.arity.trans (hseen.params_eq hkeeps hsound).symm
    refine ⟨hfits, fun i hmade refuse method request => ?_⟩
    exact Instance.attemptFitting_eq refuse fun call hcall => hfits call (.run method request hmade hcall)

end Runs

/-! ## A method that is replaced by one with other parameters -/

/-- A unit with a class that says a word, and one that derives from it and says nothing. -/
def speakerUnit : SourceUnit :=
  ⟨"speaker.ks", [],
    [⟨"Speaker", "", none, none,
      [⟨"ProcessRequest", .exposed, [], [.expr (.call ["Say"] [.text "hello"] ⟨2, 44⟩)], ⟨2, 17⟩⟩,
        ⟨"Say", .exposed, ["word"], [.expr (.call ["Response", "Write"] [.path ["word"] ⟨3, 51⟩] ⟨3, 36⟩)],
          ⟨3, 17⟩⟩], ⟨1, 7⟩⟩,
      ⟨"Mute", "", some "Speaker", none, [⟨"Say", .exposed, [], [], ⟨6, 17⟩⟩], ⟨5, 7⟩⟩]⟩

def speakerModule : Module := finishedModule [speakerUnit] (resolvedClasses [speakerUnit] []) []

def muteClass : ClassDef := (speakerModule.findClass? "Mute").getD default

theorem shallow_speakerModule : speakerModule.Shallow := by
  have hspeaker : BaseChain speakerModule.findClass? ((speakerModule.findClass? "Speaker").getD default)
      [(speakerModule.findClass? "Speaker").getD default] := .root rfl
  have hmute : BaseChain speakerModule.findClass? muteClass
      [muteClass, (speakerModule.findClass? "Speaker").getD default] := .derived rfl hspeaker
  intro name c chain hc hchain
  have hmem : name ∈ speakerModule.classes.keys := by
    rw [findClass?_eq, show Module.findIn? name speakerModule.references = none from rfl,
      Option.or_none] at hc
    exact NameMap.mem_keys.2 ⟨c, hc⟩
  rcases List.mem_pair.1 (hmem : name ∈ ["Mute", "Speaker"]) with rfl | rfl
  · obtain rfl : muteClass = c := Option.some.inj hc
    rw [hchain.unique hmute]
    decide
  · obtain rfl := Option.some.inj hc
    rw [hchain.unique hspeaker]
    decide

/-- The argument that a speaker gives to its own method is dropped by a class that takes none. -/
theorem arguments_match_seen_mute : ∃ i call, link [speakerUnit] [] = .ok speakerModule ∧
    construct speakerModule muteClass [] = .ok i ∧
    i.calls speakerModule Instance.entryMethod .blank = [call] ∧ call.args = [.text "hello"] ∧
    call.method.params = [] ∧ ∃ o seen,
      speakerModule.callee? call.caller call.caller call.target = some (o, seen) ∧
      call.args.length = seen.params.length := by
  refine ⟨_, _, rfl, rfl, rfl, rfl, rfl, ?_⟩
  obtain ⟨o, seen, hfound, -, hlength, -⟩ := (arguments_match_seen (fun r hr => absurd hr List.not_mem_nil)
    (rfl : link [speakerUnit] [] = .ok speakerModule) (Module.unambiguous_of_references_eq_nil rfl)
    shallow_speakerModule (rfl : speakerModule.findClass? "Mute" = some muteClass)).1 _
    (.run Instance.entryMethod .blank (.construct rfl) (List.mem_singleton_self _))
  exact ⟨o, seen, hfound, hlength⟩

end SiteHost.Script
