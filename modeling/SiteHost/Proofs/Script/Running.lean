import SiteHost.Script.Run
import SiteHost.Proofs.Script.Sealed

/-!
# Running what is linked

An object runs methods of its own class and of its bases, while a method was checked against the class
that declares it. The runtime class is carried along as an invariant: the class whose body runs is
among the classes of the object's chain, so what the one finds the other finds.

A name that cannot be read has no value, which is no error. To see whether that happens, `missing`
takes the place of that value:

* `evalExprOr`, `runBodyOr`, `constructOr`, `Instance.attemptOr` — runs with `missing`;
* `Safe` — runs that do the same for objects of a class, and end in no error of a look-up;
* `Made` — an object that was made from a class, after any requests.

Principal results:

* `evalExpr_safe` — an expression without errors is evaluated safely;
* `runBody_safe` — so is a body of any class that is found, however deep;
* `lookups_succeed` — whatever is done with an object of a linked class, no look-up fails.
-/

namespace SiteHost.Script

/-- Whether an error says that something named does not exist. -/
def RunError.isLookup : RunError → Bool
  | .noMethod .. | .noBase _ | .unknownType _ | .unknownMember _ | .emptyTarget => true
  | .failed _ | .invalidStatus _ | .missingArguments .. | .tooDeep .. => false

/-! ## Runs with another value for names that cannot be read -/

section Or

variable (missing : List String → Run Value)

/-- The value of a dotted name, or what takes its place. -/
def readPathOr (scene : Scene) (locals : NameMap Value) : List String → Run Value
  | [name] =>
    match locals.get? name with
    | some value => return value
    | none => missing [name]
  | [root, member] =>
    match Property.ofNames? root member with
    | some property => readProperty scene property
    | none => missing [root, member]
  | segments => missing segments

mutual

/-- The value of an expression in a method of `owner`. -/
def evalExprOr (scene : Scene) (body : BodyRunner) (owner : ClassDef) (locals : NameMap Value) :
    Expr → Run Value
  | .text value => return .text value
  | .int value => return .int value
  | .concat left right => do
    let l ← evalExprOr scene body owner locals left
    let r ← evalExprOr scene body owner locals right
    return .text (l.render ++ r.render)
  | .path segments _ => readPathOr missing scene locals segments
  | .call target args _ => do
    let values ← evalArgsOr scene body owner locals args
    runCall scene body owner target values

/-- The values of arguments, from left to right. -/
def evalArgsOr (scene : Scene) (body : BodyRunner) (owner : ClassDef) (locals : NameMap Value) :
    List Expr → Run (List Value)
  | [] => return []
  | e :: rest => do
    let value ← evalExprOr scene body owner locals e
    return value :: (← evalArgsOr scene body owner locals rest)

end

/-- A body with so many levels left, its own included. -/
def runBodyOr (scene : Scene) : Nat → BodyRunner
  | 0, owner, m, _ => throw (.tooDeep owner.name m.name)
  | levels + 1, owner, m, args =>
    runStmts (evalExprOr missing scene (runBodyOr scene levels) owner (bindParams m args)) m.body

/-- Runs the constructors of classes, each with the same arguments. -/
def runConstructorsOr (scene : Scene) (args : List Value) (classes : List ClassDef) : Run Unit :=
  runEach (runBodyOr missing scene maxCallDepth) args classes

/-- An object of a class of a module, after its constructors have run. -/
def constructOr (module : Module) (cls : ClassDef) (args : List Value) : Except RunError Instance :=
  let start : RunState := ⟨⟨cls, args, .empty⟩, .initial⟩
  let (outcome, s) := (runConstructorsOr missing ⟨module, .blank⟩ args (module.lineage cls)).run start
  outcome.map fun _ => s.self

/-- Runs a method without arguments; an error is left as it is. -/
def Instance.attemptOr (i : Instance) (module : Module) (method : String) (request : Request) :
    Except RunError Unit × RunState :=
  (dispatch ⟨module, request⟩ (runBodyOr missing ⟨module, request⟩ maxCallDepth) i.cls method []).run
    ⟨i, .initial⟩

end Or

/-- Runs a method without arguments; an error is left as it is. -/
def Instance.attempt (i : Instance) (module : Module) (method : String) (request : Request) :
    Except RunError Unit × RunState :=
  (dispatch ⟨module, request⟩ (runBody ⟨module, request⟩ maxCallDepth) i.cls method []).run
    ⟨i, .initial⟩

/-- What is answered is the outcome of the method, its error in words. -/
theorem Instance.run_eq (i : Instance) (module : Module) (method : String) (request : Request) :
    i.run module method request =
      match i.attempt module method request with
      | (.ok _, s) => (.ok s.response, s.self)
      | (.error e, s) => (.error (.runtime i.cls.name e.message), s.self) :=
  rfl

/-- An object that was made from a class of a module, after any requests. -/
inductive Made (m : Module) (c : ClassDef) : Instance → Prop where
  | construct {args : List Value} {i : Instance} : Script.construct m c args = .ok i → Made m c i
  | process {i : Instance} (request : Request) : Made m c i → Made m c (i.process m request).2
  | invoke {i : Instance} (action : String) (request : Request) : Made m c i →
    Made m c (i.invoke m action request).2

/-! ## With nothing in place of nothing -/

section Nothing

variable (scene : Scene) (body : BodyRunner) (owner : ClassDef) (locals : NameMap Value)

theorem readPathOr_nil (segments : List String) :
    readPathOr (fun _ => pure .nil) scene locals segments = readPath scene locals segments := by
  match segments with
  | [] => rfl
  | [name] =>
    simp only [readPathOr, readPath]
    cases locals.get? name <;> rfl
  | [root, member] => rfl
  | _ :: _ :: _ :: _ => rfl

mutual

theorem evalExprOr_nil : ∀ e : Expr,
    evalExprOr (fun _ => pure .nil) scene body owner locals e = evalExpr scene body owner locals e
  | .text _ | .int _ => rfl
  | .concat left right => by
    rw [evalExprOr, evalExpr, evalExprOr_nil left, evalExprOr_nil right]
  | .path segments _ => readPathOr_nil scene locals segments
  | .call target args _ => by
    rw [evalExprOr, evalExpr, evalArgsOr_nil args]

theorem evalArgsOr_nil : ∀ es : List Expr,
    evalArgsOr (fun _ => pure .nil) scene body owner locals es = evalArgs scene body owner locals es
  | [] => rfl
  | e :: rest => by
    rw [evalArgsOr, evalArgs, evalExprOr_nil e, evalArgsOr_nil rest]

end

theorem runBodyOr_nil (levels : Nat) :
    runBodyOr (fun _ => pure .nil) scene levels = runBody scene levels := by
  induction levels with
  | zero => rfl
  | succ levels ih =>
    funext owner m args
    rw [runBodyOr, runBody, ih]
    exact congrArg (runStmts · m.body) (funext fun e => evalExprOr_nil scene _ owner _ e)

theorem runConstructorsOr_nil (args : List Value) (classes : List ClassDef) :
    runConstructorsOr (fun _ => pure .nil) scene args classes = runConstructors scene args classes := by
  rw [runConstructorsOr, runConstructors, runBodyOr_nil]

theorem constructOr_nil (module : Module) (cls : ClassDef) (args : List Value) :
    constructOr (fun _ => pure .nil) module cls args = construct module cls args := by
  have hrun := runConstructorsOr_nil ⟨module, .blank⟩ args (module.lineage cls)
  exact congrArg (fun run : Run Unit =>
    (run.run ⟨⟨cls, args, .empty⟩, .initial⟩).1.map fun _ =>
      (run.run ⟨⟨cls, args, .empty⟩, .initial⟩).2.self) hrun

theorem attemptOr_nil (i : Instance) (module : Module) (method : String) (request : Request) :
    i.attemptOr (fun _ => pure .nil) module method request = i.attempt module method request := by
  unfold Instance.attemptOr Instance.attempt
  rw [runBodyOr_nil]

end Nothing

/-! ## Safe runs -/

/-- Whether two runs do the same for an object of a class, which stays one, and end in no error of a
look-up. -/
def Safe {β : Type} (cls : ClassDef) (x y : Run β) : Prop :=
  ∀ s : RunState, s.self.cls = cls → x.run s = y.run s ∧ (y.run s).2.self.cls = cls ∧
    ∀ e, (y.run s).1 = .error e → e.isLookup = false

section Safe

variable {β γ : Type} {cls : ClassDef} {scene : Scene} {args : List Value}

theorem run_bind (x : Run β) (f : β → Run γ) (s : RunState) :
    (x >>= f).run s = match x.run s with
      | (.ok b, s') => (f b).run s'
      | (.error e, s') => (.error e, s') := by
  show ExceptT.run (ExceptT.bind x f) s = _
  simp only [ExceptT.run, ExceptT.bind, ExceptT.mk, ExceptT.bindCont, bind, StateT.bind]
  rcases x s with ⟨_ | _, _⟩ <;> rfl

theorem safe_pure (b : β) : Safe cls (pure b) (pure b) := by
  intro s hs
  exact ⟨rfl, hs, fun e he => by cases he⟩

theorem safe_throw {e : RunError} (he : e.isLookup = false) :
    Safe (β := β) cls (throw e) (throw e) := by
  intro s hs
  refine ⟨rfl, hs, fun e' he' => ?_⟩
  cases he'
  exact he

theorem Safe.bind {x y : Run β} {f g : β → Run γ} (h : Safe cls x y)
    (hf : ∀ b, Safe cls (f b) (g b)) : Safe cls (x >>= f) (y >>= g) := by
  intro s hs
  obtain ⟨hsame, hcls, herror⟩ := h s hs
  rw [run_bind, run_bind, hsame]
  rcases hy : y.run s with ⟨_ | b, s'⟩
  · rw [hy] at hcls herror
    refine ⟨rfl, hcls, fun e he => ?_⟩
    cases he
    exact herror _ rfl
  · rw [hy] at hcls
    exact hf b s' hcls

/-- What is read first is an object of the class. -/
theorem safe_get_bind {f g : RunState → Run β}
    (h : ∀ s, s.self.cls = cls → Safe cls (f s) (g s)) : Safe cls (get >>= f) (get >>= g) := by
  intro s hs
  exact h s hs s hs

theorem safe_modify {f : RunState → RunState} (h : ∀ s, (f s).self.cls = s.self.cls) :
    Safe cls (modify f : Run PUnit) (modify f) := by
  intro s hs
  exact ⟨rfl, (h s).trans hs, fun e he => by cases he⟩

/-- A step on an object of another class is safe if it is safe for that class. -/
theorem safe_onInstance (other : Instance) {x y : Run Unit} (h : Safe other.cls x y) :
    Safe cls (onInstance other x) (onInstance other y) := by
  intro s hs
  obtain ⟨hsame, -, herror⟩ := h { s with self := other } rfl
  refine ⟨?_, hs, herror⟩
  exact congrArg
    (fun p : Except RunError Unit × RunState => (p.1, { p.2 with self := s.self })) hsame

theorem safe_runBuiltin (call : Builtin) :
    Safe cls (runBuiltin scene args call) (runBuiltin scene args call) := by
  have hresponse : ∀ f, Safe cls (modifyResponse f) (modifyResponse f) :=
    fun f => safe_modify fun _ => rfl
  cases call with
  | write => exact (hresponse _).bind fun _ => safe_pure _
  | writeLiteral => exact (hresponse _).bind fun _ => safe_pure _
  | status =>
    simp only [runBuiltin]
    split
    · split
      · exact (hresponse _).bind fun _ => safe_pure _
      · exact safe_throw rfl
    · exact safe_throw rfl
  | contentType => exact (hresponse _).bind fun _ => safe_pure _
  | query => exact safe_pure _
  | header => exact safe_pure _
  | argument =>
    refine safe_get_bind fun s _ => ?_
    split <;> exact safe_pure _
  | requireArguments =>
    refine safe_get_bind fun s _ => ?_
    dsimp only
    split
    · exact safe_throw rfl
    · exact safe_pure _
  | setField =>
    exact Safe.bind (safe_modify fun _ => rfl) fun _ => safe_pure _
  | getField => exact safe_get_bind fun s _ => safe_pure _
  | encode => exact safe_pure _

theorem safe_readProperty (property : Property) :
    Safe cls (readProperty scene property) (readProperty scene property) := by
  cases property with
  | requestPath => exact safe_pure _
  | requestMethod => exact safe_pure _
  | argumentCount => exact safe_get_bind fun s _ => safe_pure _

end Safe

/-! ## Bodies -/

/-- Whether a class is among an object's class and its bases. -/
def ClassDef.IsBaseOf (m : Module) (owner cls : ClassDef) : Prop :=
  owner ∈ ancestry m.findClass? maxInheritanceDepth cls

/-- Whether two ways to run bodies are safe for every object that may run the body. -/
def SafeRunner (m : Module) (x y : BodyRunner) : Prop :=
  ∀ name cls owner meth args, m.findClass? name = some cls → owner.IsBaseOf m cls →
    meth ∈ owner.constructor?.toList ++ owner.methods.values →
    Safe cls (x owner meth args) (y owner meth args)

section Bodies

variable {m : Module} {name : String} {cls owner start : ClassDef} {x y : BodyRunner}
  {scene : Scene} {args : List Value} {method : String}

namespace Module.Sealed

theorem ancestry_eq (h : m.Sealed) (hcls : m.findClass? name = some cls) :
    ∃ chain, BaseChain m.findClass? cls chain ∧ ancestry m.findClass? maxInheritanceDepth cls = chain := by
  obtain ⟨chain, hchain, hlength⟩ := h.chained name cls hcls
  exact ⟨chain, hchain, by rw [hchain.ancestry_eq_take, List.take_of_length_le hlength]⟩

theorem isBaseOf_self (h : m.Sealed) (hcls : m.findClass? name = some cls) : cls.IsBaseOf m cls := by
  obtain ⟨chain, hchain, heq⟩ := h.ancestry_eq hcls
  rw [ClassDef.IsBaseOf, heq]
  exact List.mem_of_head? hchain.head?_eq

theorem found (hcls : m.findClass? name = some cls) (h : owner.IsBaseOf m cls) :
    ∃ name', m.findClass? name' = some owner :=
  (find_of_mem_ancestry h).elim (fun heq => ⟨name, heq ▸ hcls⟩) id

/-- The bases of a base are bases. -/
theorem isBaseOf_trans (h : m.Sealed) (hcls : m.findClass? name = some cls)
    (howner : owner.IsBaseOf m cls) (hstart : start.IsBaseOf m owner) : start.IsBaseOf m cls := by
  obtain ⟨chain, hchain, heq⟩ := h.ancestry_eq hcls
  rw [ClassDef.IsBaseOf, heq] at howner ⊢
  obtain ⟨rest, hrest, hsuffix⟩ := hchain.suffix_of_mem howner
  rw [ClassDef.IsBaseOf, hrest.ancestry_eq_take] at hstart
  exact hsuffix.mem (List.mem_of_mem_take hstart)

/-- What the class of a body finds, the class of the object finds. -/
theorem owner?_of_isBaseOf (h : m.Sealed) (hcls : m.findClass? name = some cls)
    (howner : owner.IsBaseOf m cls) {o : ClassDef} (ho : m.owner? owner method = some o) :
    ∃ o', m.owner? cls method = some o' := by
  have hdeclares : o.methods.contains method = true :=
    List.find?_some (p := fun d : ClassDef => d.methods.contains method) ho
  exact exists_owner? (h.isBaseOf_trans hcls howner (List.mem_of_find?_eq_some ho)) hdeclares

theorem isBaseOf_base (h : m.Sealed) (hcls : m.findClass? name = some cls) {b : ClassDef}
    (hb : cls.base? m.findClass? = some b) : b.IsBaseOf m cls := by
  obtain ⟨chain, hchain, heq⟩ := h.ancestry_eq hcls
  rw [ClassDef.IsBaseOf, heq]
  cases hchain with
  | root hnone =>
    rw [base?_of_base_eq_none hnone] at hb
    cases hb
  | derived hb' hrest =>
    rw [hb] at hb'
    cases hb'
    exact List.mem_cons_of_mem _ (List.mem_of_head? hrest.head?_eq)

end Module.Sealed

/-- A call that was found to exist finds a body, which is one of the object's class or its bases. -/
theorem dispatch_safe (h : m.Sealed) (hrun : SafeRunner m x y)
    (hcls : m.findClass? name = some cls) (hstart : start.IsBaseOf m cls) {o : ClassDef}
    (ho : m.owner? start method = some o) (request : Request) :
    Safe cls (dispatch ⟨m, request⟩ x start method args) (dispatch ⟨m, request⟩ y start method args) := by
  have hdeclares : o.methods.contains method = true :=
    List.find?_some (p := fun d : ClassDef => d.methods.contains method) ho
  obtain ⟨meth, hmeth⟩ := Option.isSome_iff_exists.1 hdeclares
  have howner : o.IsBaseOf m cls :=
    h.isBaseOf_trans hcls hstart (List.mem_of_find?_eq_some ho)
  have hmem : meth ∈ o.constructor?.toList ++ o.methods.values :=
    List.mem_append_right _ (NameMap.mem_values.2 ⟨method, hmeth⟩)
  have hbody : ∀ body : BodyRunner, dispatch ⟨m, request⟩ body start method args = body o meth args := by
    intro body
    simp only [dispatch, ho, Option.bind_some, hmeth, Option.map_some]
  rw [hbody x, hbody y]
  exact hrun name cls o meth args hcls howner hmem

/-- **A call that was found to exist is safe**, for every object whose class has the caller among its
bases. -/
theorem runCall_safe (h : m.Sealed) (hrun : SafeRunner m x y)
    (hcls : m.findClass? name = some cls) (howner : owner.IsBaseOf m cls) {target : List String}
    {given : Nat} (hcheck : checkCall m.findClass? owner target given = none) (request : Request) :
    Safe cls (runCall ⟨m, request⟩ x owner target args) (runCall ⟨m, request⟩ y owner target args) := by
  unfold checkCall at hcheck
  unfold runCall
  cases htarget : Target.ofNames target with
  | fail => exact safe_throw rfl
  | own method =>
    rw [htarget] at hcheck
    obtain ⟨c, o, -, hc, ho, -⟩ := checkMethod_eq_none_iff.1 hcheck
    obtain ⟨name', hname'⟩ := Module.Sealed.found hcls howner
    rw [h.named name' owner hname', hname'] at hc
    cases hc
    obtain ⟨o', ho'⟩ := h.owner?_of_isBaseOf hcls howner ho
    refine safe_get_bind fun s hs => ?_
    rw [hs]
    exact (dispatch_safe h hrun hcls (h.isBaseOf_self hcls) ho' request).bind fun _ => safe_pure _
  | inherited method =>
    rw [htarget] at hcheck
    dsimp only at hcheck
    cases hbase : owner.base with
    | none =>
      rw [hbase] at hcheck
      cases hcheck
    | some base =>
      rw [hbase] at hcheck
      obtain ⟨b, o, -, hb, ho, -⟩ := checkMethod_eq_none_iff.1 hcheck
      have hfound : owner.base? m.findClass? = some b := base?_eq_some_iff.2 ⟨base, hbase, hb⟩
      obtain ⟨name', hname'⟩ := Module.Sealed.found hcls howner
      have hisBase : b.IsBaseOf m cls :=
        h.isBaseOf_trans hcls howner (h.isBaseOf_base hname' hfound)
      dsimp only
      rw [hfound]
      exact (dispatch_safe h hrun hcls hisBase ho request).bind fun _ => safe_pure _
  | builtin call => exact safe_runBuiltin call
  | unknownMember member =>
    rw [htarget] at hcheck
    cases hcheck
  | static type method =>
    rw [htarget] at hcheck
    dsimp only at hcheck
    cases href : owner.typeRefs.get? type with
    | none =>
      rw [href] at hcheck
      cases hcheck
    | some full =>
      rw [href] at hcheck
      obtain ⟨c, o, -, hc, ho, -⟩ := checkMethod_eq_none_iff.1 hcheck
      dsimp only
      rw [href, Option.bind_some, hc]
      have hstatic : Safe c (dispatch ⟨m, request⟩ x c method args)
          (dispatch ⟨m, request⟩ y c method args) :=
        dispatch_safe h hrun hc (h.isBaseOf_self hc) ho request
      exact (safe_onInstance ⟨c, [], .empty⟩ hstatic).bind fun _ => safe_pure _
  | empty =>
    rw [htarget] at hcheck
    cases hcheck

/-- Every parameter is bound, if only to nothing. -/
theorem get?_bindParams {meth : Method} {param : String} (h : param ∈ meth.params) :
    ∃ value, (bindParams meth args).get? param = some value := by
  rw [← Option.isSome_iff_exists, bindParams, NameMap.get?_ofList, List.lookup_isSome_iff]
  obtain ⟨i, hi, hget⟩ := List.mem_iff_getElem.1 h
  have hentry : (param, i) ∈ meth.params.zipIdx := by
    rw [List.mem_zipIdx_iff_getElem?]
    exact List.getElem?_eq_some_iff.2 ⟨hi, hget⟩
  exact ⟨(param, args.getD i .nil), List.mem_reverse.2 (List.mem_map_of_mem hentry), by simp⟩

/-- A name that can be read is read, whatever took its place otherwise. -/
theorem readPathOr_eq {missing : List String → Run Value} {locals : NameMap Value}
    {params segments : List String} (hlocals : ∀ param ∈ params, ∃ value, locals.get? param = some value)
    (h : isReadable params segments = true) :
    readPathOr missing scene locals segments = readPath scene locals segments := by
  match segments with
  | [] => cases h
  | [single] =>
    obtain ⟨value, hvalue⟩ := hlocals single (by simpa [isReadable] using h)
    simp only [readPathOr, readPath, hvalue, Option.getD_some]
  | [root, member] =>
    obtain ⟨property, hproperty⟩ := Option.isSome_iff_exists.1 h
    simp only [readPathOr, readPath, hproperty]
  | _ :: _ :: _ :: _ => cases h

theorem safe_readPath {locals : NameMap Value} (segments : List String) :
    Safe cls (readPath scene locals segments) (readPath scene locals segments) := by
  unfold readPath
  split
  · exact safe_pure _
  · split
    · exact safe_readProperty _
    · exact safe_pure _
  · exact safe_pure _

mutual

/-- **An expression without errors is evaluated safely**, for every object whose class has the class
of the expression among its bases. -/
theorem evalExpr_safe (h : m.Sealed) (hrun : SafeRunner m x y) (hcls : m.findClass? name = some cls)
    (howner : owner.IsBaseOf m cls) {params : List String} {locals : NameMap Value}
    (hlocals : ∀ param ∈ params, ∃ value, locals.get? param = some value) (request : Request)
    (missing : List String → Run Value) :
    ∀ e : Expr, exprErrors m.findClass? owner params e = [] →
      Safe cls (evalExprOr missing ⟨m, request⟩ x owner locals e)
        (evalExpr ⟨m, request⟩ y owner locals e)
  | .text _, _ | .int _, _ => safe_pure _
  | .concat left right, hnil => by
    obtain ⟨hleft, hright⟩ := List.append_eq_nil_iff.1 hnil
    rw [evalExprOr, evalExpr]
    refine (evalExpr_safe h hrun hcls howner hlocals request missing left hleft).bind fun l => ?_
    refine (evalExpr_safe h hrun hcls howner hlocals request missing right hright).bind fun r => ?_
    exact safe_pure _
  | .path segments _, hnil => by
    have hread : isReadable params segments = true := by
      rw [exprErrors] at hnil
      split at hnil
      · assumption
      · cases hnil
    rw [evalExprOr, evalExpr, readPathOr_eq hlocals hread]
    exact safe_readPath segments
  | .call target args _, hnil => by
    obtain ⟨hargs, hcall⟩ := List.append_eq_nil_iff.1 hnil
    rw [List.map_eq_nil_iff, Option.toList_eq_nil_iff] at hcall
    rw [evalExprOr, evalExpr]
    refine (evalArgs_safe h hrun hcls howner hlocals request missing args hargs).bind fun values => ?_
    exact runCall_safe h hrun hcls howner hcall request

theorem evalArgs_safe (h : m.Sealed) (hrun : SafeRunner m x y) (hcls : m.findClass? name = some cls)
    (howner : owner.IsBaseOf m cls) {params : List String} {locals : NameMap Value}
    (hlocals : ∀ param ∈ params, ∃ value, locals.get? param = some value) (request : Request)
    (missing : List String → Run Value) :
    ∀ es : List Expr, argErrors m.findClass? owner params es = [] →
      Safe cls (evalArgsOr missing ⟨m, request⟩ x owner locals es)
        (evalArgs ⟨m, request⟩ y owner locals es)
  | [], _ => safe_pure _
  | e :: rest, hnil => by
    obtain ⟨he, hrest⟩ := List.append_eq_nil_iff.1 hnil
    rw [evalArgsOr, evalArgs]
    refine (evalExpr_safe h hrun hcls howner hlocals request missing e he).bind fun value => ?_
    refine (evalArgs_safe h hrun hcls howner hlocals request missing rest hrest).bind fun values => ?_
    exact safe_pure _

end

theorem runStmts_safe {eval eval' : Expr → Run Value} (stmts : List Stmt)
    (h : ∀ e, .expr e ∈ stmts → Safe cls (eval e) (eval' e)) :
    Safe cls (runStmts eval stmts) (runStmts eval' stmts) := by
  induction stmts with
  | nil => exact safe_pure _
  | cons stmt rest ih =>
    cases stmt with
    | leave => exact safe_pure _
    | expr e =>
      refine (h e List.mem_cons_self).bind fun _ => ?_
      exact ih fun e' he' => h e' (List.mem_cons_of_mem _ he')

/-- **A body of any class that is found runs safely**, however many levels are left. -/
theorem runBody_safe (h : m.Sealed) (request : Request) (missing : List String → Run Value)
    (levels : Nat) :
    SafeRunner m (runBodyOr missing ⟨m, request⟩ levels) (runBody ⟨m, request⟩ levels) := by
  induction levels with
  | zero =>
    intro name cls owner meth args _ _ _
    exact safe_throw rfl
  | succ levels ih =>
    intro name cls owner meth args hcls howner hmeth
    obtain ⟨name', hname'⟩ := Module.Sealed.found hcls howner
    have hbody := bodyErrors_eq_nil_iff.1 (h.bodies name' owner hname') meth hmeth
    refine runStmts_safe meth.body fun e he => ?_
    exact evalExpr_safe h ih hcls howner (fun _ => get?_bindParams) request missing e (hbody e he)

theorem runConstructors_safe (h : m.Sealed) (hcls : m.findClass? name = some cls) (request : Request)
    (missing : List String → Run Value) (args : List Value) (classes : List ClassDef)
    (hclasses : ∀ c ∈ classes, c.IsBaseOf m cls) :
    Safe cls (runConstructorsOr missing ⟨m, request⟩ args classes)
      (runConstructors ⟨m, request⟩ args classes) := by
  unfold runConstructorsOr runConstructors
  induction classes with
  | nil => exact safe_pure _
  | cons c rest ih =>
    have hrest := ih fun d hd => hclasses d (List.mem_cons_of_mem c hd)
    have hc := hclasses c List.mem_cons_self
    rw [runEach, runEach]
    cases hconstructor : c.constructor? with
    | none => exact hrest
    | some meth =>
      have hmeth : meth ∈ c.constructor?.toList ++ c.methods.values := by
        rw [hconstructor]
        exact List.mem_append_left _ (List.mem_singleton_self meth)
      exact (runBody_safe h request missing maxCallDepth name cls c meth args hcls hc hmeth).bind
        fun _ => hrest

end Bodies

/-! ## Objects -/

section Objects

variable {m : Module} {name : String} {c : ClassDef} {i : Instance}

/-- An object is made of its class, or an error is met that no look-up makes. -/
theorem construct_safe (h : m.Sealed) (hc : m.findClass? name = some c)
    (missing : List String → Run Value) (args : List Value) :
    constructOr missing m c args = construct m c args ∧
      (∀ i, construct m c args = .ok i → i.cls = c) ∧
      ∀ e, construct m c args = .error e → e.isLookup = false := by
  have hlineage : ∀ d ∈ m.lineage c, d.IsBaseOf m c := fun d hd => List.mem_reverse.1 hd
  obtain ⟨hsame, hcls, herror⟩ :=
    runConstructors_safe h hc .blank missing args (m.lineage c) hlineage
      ⟨⟨c, args, .empty⟩, .initial⟩ rfl
  unfold constructOr construct
  dsimp only
  rw [hsame]
  rcases hrun : (runConstructors ⟨m, .blank⟩ args (m.lineage c)).run ⟨⟨c, args, .empty⟩, .initial⟩
    with ⟨_ | _, s⟩
  · rw [hrun] at herror
    refine ⟨rfl, fun i hi => (by cases hi), fun e he => ?_⟩
    cases he
    exact herror _ rfl
  · rw [hrun] at hcls
    refine ⟨rfl, fun i hi => ?_, fun e he => (by cases he)⟩
    cases hi
    exact hcls

/-- A method that is found runs safely. -/
theorem attempt_safe (h : m.Sealed) (hc : m.findClass? name = some c) (hi : i.cls = c)
    (missing : List String → Run Value) {method : String} {o : ClassDef}
    (ho : m.owner? c method = some o) (request : Request) :
    i.attemptOr missing m method request = i.attempt m method request ∧
      (i.attempt m method request).2.self.cls = c ∧
      ∀ e, (i.attempt m method request).1 = .error e → e.isLookup = false := by
  have hsafe : Safe c (dispatch ⟨m, request⟩ (runBodyOr missing ⟨m, request⟩ maxCallDepth) c method [])
      (dispatch ⟨m, request⟩ (runBody ⟨m, request⟩ maxCallDepth) c method []) :=
    dispatch_safe h (runBody_safe h request missing maxCallDepth) hc (h.isBaseOf_self hc) ho request
  unfold Instance.attemptOr Instance.attempt
  rw [hi]
  exact hsafe ⟨i, .initial⟩ hi

/-- A method that is not found does nothing but say so. -/
theorem attempt_of_owner?_eq_none (hi : i.cls = c) (missing : List String → Run Value)
    {method : String} (ho : m.owner? c method = none) (request : Request) :
    i.attemptOr missing m method request = (.error (.noMethod c.name method), ⟨i, .initial⟩) ∧
      i.attempt m method request = (.error (.noMethod c.name method), ⟨i, .initial⟩) := by
  unfold Instance.attemptOr Instance.attempt dispatch
  rw [hi, ho]
  exact ⟨rfl, rfl⟩

theorem cls_attempt (h : m.Sealed) (hc : m.findClass? name = some c) (hi : i.cls = c)
    (method : String) (request : Request) : (i.attempt m method request).2.self.cls = c := by
  cases ho : m.owner? c method with
  | some o => exact (attempt_safe h hc hi (fun _ => pure .nil) ho request).2.1
  | none =>
    rw [(attempt_of_owner?_eq_none hi (fun _ => pure .nil) ho request).2]
    exact hi

theorem run_snd (i : Instance) (m : Module) (method : String) (request : Request) :
    (i.run m method request).2 = (i.attempt m method request).2.self := by
  rw [Instance.run_eq]
  rcases i.attempt m method request with ⟨_ | _, s⟩ <;> rfl

/-- An object keeps its class, whatever is asked of it. -/
theorem Made.cls_eq (h : m.Sealed) (hc : m.findClass? name = some c) (hmade : Made m c i) :
    i.cls = c := by
  induction hmade with
  | construct hi => exact (construct_safe h hc (fun _ => pure .nil) _).2.1 _ hi
  | process request _ ih =>
    rw [Instance.process, run_snd]
    exact cls_attempt h hc ih _ request
  | invoke action request _ ih =>
    unfold Instance.invoke
    split
    · rw [run_snd]
      exact cls_attempt h hc ih action request
    · exact ih

/-- **No look-up fails while a linked class is run.** If every class is declared by one module and has
no more bases than are followed, then making an object of a class and asking anything of it afterwards,
however often, reads no name that has no value and meets no error of a look-up. The one exception is a
class that has no method to answer a request with. -/
theorem lookups_succeed {units : List SourceUnit} {references : List Module}
    (hrefs : ∀ r ∈ references, r.Linked) (hlink : link units references = .ok m)
    (hunambiguous : m.Unambiguous) (hshallow : m.Shallow) (hc : m.findClass? name = some c)
    (missing : List String → Run Value) :
    (∀ args, constructOr missing m c args = construct m c args ∧
      ∀ e, construct m c args = .error e → e.isLookup = false) ∧
    ∀ i, Made m c i → ∀ request,
      (i.attemptOr missing m Instance.entryMethod request = i.attempt m Instance.entryMethod request ∧
        ∀ e, (i.attempt m Instance.entryMethod request).1 = .error e → e.isLookup = false ∨
          e = .noMethod c.name Instance.entryMethod ∧ ∃ chain, BaseChain m.findClass? c chain ∧
            ∀ d ∈ chain, d.methods.contains Instance.entryMethod = false) ∧
      ∀ action, i.cls.actions.contains action = true →
        i.attemptOr missing m action request = i.attempt m action request ∧
          ∀ e, (i.attempt m action request).1 = .error e → e.isLookup = false := by
  have h : m.Sealed := (Module.Linked.mk hrefs hlink).isSealed hunambiguous hshallow
  refine ⟨fun args => ?_, fun i hmade request => ⟨?_, fun action haction => ?_⟩⟩
  · obtain ⟨hsame, -, herror⟩ := construct_safe h hc missing args
    exact ⟨hsame, herror⟩
  · have hi := hmade.cls_eq h hc
    cases ho : m.owner? c Instance.entryMethod with
    | some o =>
      obtain ⟨hsame, -, herror⟩ := attempt_safe h hc hi missing ho request
      exact ⟨hsame, fun e he => .inl (herror e he)⟩
    | none =>
      obtain ⟨hsame, hnone⟩ := attempt_of_owner?_eq_none hi missing ho request
      refine ⟨hsame.trans hnone.symm, fun e he => .inr ?_⟩
      rw [hnone] at he
      cases he
      obtain ⟨chain, hchain, heq⟩ := h.ancestry_eq hc
      refine ⟨rfl, chain, hchain, fun d hd => ?_⟩
      rw [Module.owner?, owner?, heq, List.find?_eq_none] at ho
      simpa using ho d hd
  · have hi := hmade.cls_eq h hc
    rw [hi] at haction
    obtain ⟨o, ho⟩ := h.actions name c action hc haction
    obtain ⟨hsame, -, herror⟩ := attempt_safe h hc hi missing ho request
    exact ⟨hsame, herror⟩

end Objects

/-! ## A page and what it derives from -/

/-- A unit with a class that keeps what it is made with, and shows it. -/
def greeterUnit : SourceUnit :=
  ⟨"greeter.ks", [], [⟨"Greeter", "", none,
    some ⟨"Greeter", .exposed, ["word"],
      [.expr (.call ["Fields", "Set"] [.text "word", .path ["word"] ⟨2, 40⟩] ⟨2, 20⟩)], ⟨2, 5⟩⟩,
    [⟨"ProcessRequest", .exposed, [], [.expr (.call ["Show"] [] ⟨3, 40⟩)], ⟨3, 5⟩⟩,
      ⟨"Show", .exposed, [],
        [.expr (.call ["Response", "Write"] [.call ["Fields", "Get"] [.text "word"] ⟨4, 40⟩] ⟨4, 20⟩)],
        ⟨4, 5⟩⟩],
    ⟨1, 1⟩⟩]⟩

/-- A unit with a class that derives from it and shows more. -/
def pageUnit : SourceUnit :=
  ⟨"page.ks", [], [⟨"Page", "", some "Greeter", none,
    [⟨"Show", .hidden, [], [.expr (.call ["base", "Show"] [] ⟨2, 20⟩),
      .expr (.call ["Response", "Write"] [.path ["Request", "Path"] ⟨3, 40⟩] ⟨3, 20⟩)], ⟨2, 5⟩⟩],
    ⟨1, 1⟩⟩]⟩

def greeterModule : Module := finishedModule [greeterUnit] (resolvedClasses [greeterUnit] []) []

def pageModule : Module :=
  finishedModule [pageUnit] (resolvedClasses [pageUnit] [greeterModule]) [greeterModule]

def greeterClass : ClassDef := (greeterModule.findClass? "Greeter").getD default

def pageClass : ClassDef := (pageModule.findClass? "Page").getD default

theorem linked_greeterModule : greeterModule.Linked :=
  .mk (fun _ hr => absurd hr List.not_mem_nil) (rfl : link [greeterUnit] [] = .ok greeterModule)

theorem within_pageModule {k : Module} (h : pageModule.Within k) :
    k = pageModule ∨ k = greeterModule := by
  induction h with
  | self => exact .inl rfl
  | reference _ hr ih =>
    rcases ih with rfl | rfl
    · exact .inr (List.mem_singleton.1 hr)
    · cases hr

theorem unambiguous_pageModule : pageModule.Unambiguous := by
  have hapart : ∀ name ∈ pageModule.classes.keys, name ∉ greeterModule.classes.keys := by decide
  intro k k' name hk hk' hname hname'
  have hmem := NameMap.contains_iff.1 hname
  have hmem' := NameMap.contains_iff.1 hname'
  rcases within_pageModule hk with rfl | rfl <;> rcases within_pageModule hk' with rfl | rfl
  · rfl
  · exact absurd hmem' (hapart name hmem)
  · exact absurd hmem (hapart name hmem')
  · rfl

theorem shallow_pageModule : pageModule.Shallow := by
  have hpage : BaseChain pageModule.findClass? pageClass [pageClass, greeterClass] :=
    .derived rfl (.root rfl)
  have hgreeter : BaseChain pageModule.findClass? greeterClass [greeterClass] := .root rfl
  intro name c chain hc hchain
  obtain ⟨k, hk, hget⟩ := Module.exists_within_of_findClass? pageModule hc
  have hmem : name ∈ k.classes.keys := NameMap.mem_keys.2 ⟨c, hget⟩
  rcases within_pageModule hk with rfl | rfl
  · cases List.mem_singleton.1 hmem
    cases (Option.some.inj hc : pageClass = c)
    rw [hchain.unique hpage]
    decide
  · cases List.mem_singleton.1 hmem
    cases (Option.some.inj hc : greeterClass = c)
    rw [hchain.unique hgreeter]
    decide

/-- A page runs a constructor and two methods of the class it derives from, and nothing it names is
missing. -/
theorem lookups_succeed_page : ∃ i, construct pageModule pageClass [.text "hello "] = .ok i ∧
    (i.process pageModule ⟨"GET", "/a", .empty, .empty⟩).1 =
      .ok ⟨200, "text/plain; charset=utf-8", "hello /a"⟩ ∧
    ∀ missing request, i.attemptOr missing pageModule Instance.entryMethod request =
      i.attempt pageModule Instance.entryMethod request := by
  refine ⟨_, rfl, rfl, fun missing request => ?_⟩
  have hsucceed := lookups_succeed (fun r hr => List.mem_singleton.1 hr ▸ linked_greeterModule)
    (rfl : link [pageUnit] [greeterModule] = .ok pageModule) unambiguous_pageModule shallow_pageModule
    (rfl : pageModule.findClass? "Page" = some pageClass) missing
  exact ((hsucceed.2 _ (.construct rfl) request).1).1

end SiteHost.Script
