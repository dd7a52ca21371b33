import SiteHost.Artifact
import SiteHost.Proofs.Script.Running

/-!
# Objects that are moved to another module

An object does the same wherever its methods are looked up, if what is found there is what was found
before:

* `Module.Finds` — whether a class is found in a module under some name;
* `Carries` — whether a module finds all that another finds, and all that these classes name is among it;
* `Alike` — runs that do the same for objects of a class;
* `Handler.answers` — what a handler answers to one call after the other.

Principal results:

* `runBody_alike` — a body does the same in both modules, however deep;
* `construct_carried`, `run_carried` — objects are made alike, and answer alike;
* `answers_carried` — so does a handler, for every sequence of calls.
-/

namespace SiteHost

/-- What a handler answers to one call after the other, each of an action or of none. -/
def Handler.answers (h : Handler) :
    List (Option String × Script.Request) → List (Except Script.InvokeError Script.Response)
  | [] => []
  | (action, request) :: rest => (h.call action request).1 :: (h.call action request).2.answers rest

namespace Script

/-- Whether a class is found in a module under some name. -/
def Module.Finds (m : Module) (c : ClassDef) : Prop := ∃ name, m.findClass? name = some c

/-- Whether a module finds all that another finds, and all that these classes name is among it. -/
structure Carries (m k : Module) : Prop where
  found : ∀ name c, m.findClass? name = some c → k.findClass? name = some c
  based : ∀ c base, m.Finds c → c.base = some base → ∃ b, m.findClass? base = some b
  typed : ∀ c written full, m.Finds c → c.typeRefs.get? written = some full →
    ∃ t, m.findClass? full = some t

/-- Whether two runs do the same for an object of a class, which stays one. -/
def Alike {β : Type} (cls : ClassDef) (x y : Run β) : Prop :=
  ∀ s : RunState, s.self.cls = cls → x.run s = y.run s ∧ (y.run s).2.self.cls = cls

/-- Whether two ways to run bodies do the same for objects and methods of classes that are found. -/
def AlikeRunner (m : Module) (x y : BodyRunner) : Prop :=
  ∀ cls owner meth args, m.Finds cls → m.Finds owner → Alike cls (x owner meth args) (y owner meth args)

/-! ## Runs -/

section Alike

variable {β γ : Type} {cls : ClassDef}

/-- What is safe does the same. -/
theorem Safe.alike {x y : Run β} (h : Safe cls x y) : Alike cls x y :=
  fun s hs => ⟨(h s hs).1, (h s hs).2.1⟩

theorem alike_pure (b : β) : Alike cls (pure b) (pure b) := (safe_pure b).alike

theorem alike_throw (e : RunError) : Alike (β := β) cls (throw e) (throw e) :=
  fun _ hs => ⟨rfl, hs⟩

theorem Alike.bind {x y : Run β} {f g : β → Run γ} (h : Alike cls x y)
    (hf : ∀ b, Alike cls (f b) (g b)) : Alike cls (x >>= f) (y >>= g) := by
  intro s hs
  obtain ⟨hsame, hcls⟩ := h s hs
  rw [run_bind, run_bind, hsame]
  rcases hy : y.run s with ⟨_ | b, s'⟩
  · rw [hy] at hcls
    exact ⟨rfl, hcls⟩
  · rw [hy] at hcls
    exact hf b s' hcls

/-- What is read first is an object of the class. -/
theorem alike_get_bind {f g : RunState → Run β}
    (h : ∀ s, s.self.cls = cls → Alike cls (f s) (g s)) : Alike cls (get >>= f) (get >>= g) :=
  fun s hs => h s hs s hs

/-- A step on an object of another class. -/
theorem alike_onInstance (other : Instance) {x y : Run Unit} (h : Alike other.cls x y) :
    Alike cls (onInstance other x) (onInstance other y) := by
  intro s hs
  obtain ⟨hsame, -⟩ := h { s with self := other } rfl
  refine ⟨?_, hs⟩
  exact congrArg
    (fun p : Except RunError Unit × RunState => (p.1, { p.2 with self := s.self })) hsame

end Alike

/-! ## Bodies -/

section Bodies

variable {m k : Module} {x y : BodyRunner} {cls owner start c : ClassDef} {args : List Value}

theorem Carries.base?_eq (h : Carries m k) (hc : m.Finds c) :
    c.base? m.findClass? = c.base? k.findClass? := by
  cases hbase : c.base with
  | none => rw [base?_of_base_eq_none hbase, base?_of_base_eq_none hbase]
  | some base =>
    obtain ⟨b, hb⟩ := h.based c base hc hbase
    rw [ClassDef.base?, ClassDef.base?, hbase, Option.bind_some, Option.bind_some, hb,
      h.found base b hb]

theorem finds_base {b : ClassDef} (hb : c.base? m.findClass? = some b) : m.Finds b := by
  obtain ⟨base, -, hfound⟩ := base?_eq_some_iff.1 hb
  exact ⟨base, hfound⟩

/-- A class has the same bases in both modules. -/
theorem Carries.ancestry_eq (h : Carries m k) (hc : m.Finds c) (depth : Nat) :
    ancestry m.findClass? depth c = ancestry k.findClass? depth c := by
  induction depth generalizing c with
  | zero => rfl
  | succ depth ih =>
    rw [ancestry, ancestry, ← h.base?_eq hc]
    cases hb : c.base? m.findClass? with
    | none => rfl
    | some b => exact congrArg (c :: ·) (ih (finds_base hb))

theorem finds_of_mem_ancestry {d : ClassDef} {depth : Nat} (hc : m.Finds c)
    (hd : d ∈ ancestry m.findClass? depth c) : m.Finds d :=
  (find_of_mem_ancestry hd).elim (fun heq => heq ▸ hc) id

/-- A call finds the same body in both modules. -/
theorem dispatch_alike (h : Carries m k) (hrun : AlikeRunner m x y) (hcls : m.Finds cls)
    (hstart : m.Finds start) (name : String) (request : Request) :
    Alike cls (dispatch ⟨m, request⟩ x start name args)
      (dispatch ⟨k, request⟩ y start name args) := by
  have howner : k.owner? start name = m.owner? start name := by
    rw [Module.owner?, Module.owner?, owner?, owner?, h.ancestry_eq hstart]
  simp only [dispatch, howner]
  cases ho : m.owner? start name with
  | none => exact alike_throw _
  | some o =>
    have hfound : m.Finds o := finds_of_mem_ancestry hstart (List.mem_of_find?_eq_some ho)
    rw [Option.bind_some]
    cases o.methods.get? name with
    | none => exact alike_throw _
    | some meth => exact hrun cls o meth args hcls hfound

/-- **A call does the same in both modules.** -/
theorem runCall_alike (h : Carries m k) (hrun : AlikeRunner m x y) (hcls : m.Finds cls)
    (howner : m.Finds owner) (target : List String) (request : Request) :
    Alike cls (runCall ⟨m, request⟩ x owner target args)
      (runCall ⟨k, request⟩ y owner target args) := by
  unfold runCall
  cases Target.ofNames target with
  | fail => exact alike_throw _
  | own name =>
    refine alike_get_bind fun s hs => ?_
    rw [hs]
    exact (dispatch_alike h hrun hcls hcls name request).bind fun _ => alike_pure _
  | inherited name =>
    dsimp only
    rw [← h.base?_eq howner]
    cases hb : owner.base? m.findClass? with
    | none => exact alike_throw _
    | some b =>
      exact (dispatch_alike h hrun hcls (finds_base hb) name request).bind fun _ => alike_pure _
  | builtin call =>
    have hsame : runBuiltin ⟨k, request⟩ args call = runBuiltin ⟨m, request⟩ args call := by
      cases call <;> rfl
    dsimp only
    rw [hsame]
    exact (safe_runBuiltin call).alike
  | unknownMember name => exact alike_throw _
  | static type name =>
    dsimp only
    cases href : owner.typeRefs.get? type with
    | none => exact alike_throw _
    | some full =>
      obtain ⟨c, hc⟩ := h.typed owner type full howner href
      rw [Option.bind_some, Option.bind_some, hc, h.found full c hc]
      have hstatic : Alike c (dispatch ⟨m, request⟩ x c name args) (dispatch ⟨k, request⟩ y c name args) :=
        dispatch_alike h hrun ⟨full, hc⟩ ⟨full, hc⟩ name request
      exact (alike_onInstance ⟨c, [], .empty⟩ hstatic).bind fun _ => alike_pure _
  | empty => exact alike_throw _

theorem readPath_alike (locals : NameMap Value) (segments : List String) (request : Request) :
    Alike cls (readPath ⟨m, request⟩ locals segments) (readPath ⟨k, request⟩ locals segments) := by
  have hsame : readPath ⟨k, request⟩ locals segments = readPath ⟨m, request⟩ locals segments := by
    unfold readPath
    split
    · rfl
    · split
      · rename_i property _
        cases property <;> rfl
      · rfl
    · rfl
  rw [hsame]
  exact (safe_readPath segments).alike

mutual

/-- **An expression has the same value in both modules.** -/
theorem evalExpr_alike (h : Carries m k) (hrun : AlikeRunner m x y) (hcls : m.Finds cls)
    (howner : m.Finds owner) (locals : NameMap Value) (request : Request) :
    ∀ e : Expr, Alike cls (evalExpr ⟨m, request⟩ x owner locals e)
      (evalExpr ⟨k, request⟩ y owner locals e)
  | .text _ | .int _ => alike_pure _
  | .concat left right => by
    rw [evalExpr, evalExpr]
    refine (evalExpr_alike h hrun hcls howner locals request left).bind fun l => ?_
    refine (evalExpr_alike h hrun hcls howner locals request right).bind fun r => ?_
    exact alike_pure _
  | .path segments _ => readPath_alike locals segments request
  | .call target args _ => by
    rw [evalExpr, evalExpr]
    refine (evalArgs_alike h hrun hcls howner locals request args).bind fun values => ?_
    exact runCall_alike h hrun hcls howner target request

theorem evalArgs_alike (h : Carries m k) (hrun : AlikeRunner m x y) (hcls : m.Finds cls)
    (howner : m.Finds owner) (locals : NameMap Value) (request : Request) :
    ∀ es : List Expr, Alike cls (evalArgs ⟨m, request⟩ x owner locals es)
      (evalArgs ⟨k, request⟩ y owner locals es)
  | [] => alike_pure _
  | e :: rest => by
    rw [evalArgs, evalArgs]
    refine (evalExpr_alike h hrun hcls howner locals request e).bind fun value => ?_
    refine (evalArgs_alike h hrun hcls howner locals request rest).bind fun values => ?_
    exact alike_pure _

end

theorem runStmts_alike {eval eval' : Expr → Run Value} (h : ∀ e, Alike cls (eval e) (eval' e))
    (stmts : List Stmt) : Alike cls (runStmts eval stmts) (runStmts eval' stmts) := by
  induction stmts with
  | nil => exact alike_pure _
  | cons stmt rest ih =>
    cases stmt with
    | leave => exact alike_pure _
    | expr e => exact (h e).bind fun _ => ih

/-- **A body does the same in both modules**, however many levels are left. -/
theorem runBody_alike (h : Carries m k) (request : Request) (levels : Nat) :
    AlikeRunner m (runBody ⟨m, request⟩ levels) (runBody ⟨k, request⟩ levels) := by
  induction levels with
  | zero => exact fun _ _ _ _ _ _ => alike_throw _
  | succ levels ih =>
    intro cls owner meth args hcls howner
    exact runStmts_alike (fun e => evalExpr_alike h ih hcls howner _ request e) meth.body

theorem runConstructors_alike (h : Carries m k) (hcls : m.Finds cls) (request : Request)
    (args : List Value) (classes : List ClassDef) (hclasses : ∀ c ∈ classes, m.Finds c) :
    Alike cls (runConstructors ⟨m, request⟩ args classes)
      (runConstructors ⟨k, request⟩ args classes) := by
  unfold runConstructors
  induction classes with
  | nil => exact alike_pure _
  | cons c rest ih =>
    obtain ⟨hc, hrest⟩ := List.forall_mem_cons.1 hclasses
    rw [runEach, runEach]
    cases c.constructor? with
    | none => exact ih hrest
    | some meth =>
      exact (runBody_alike h request maxCallDepth cls c meth args hcls hc).bind fun _ => ih hrest

end Bodies

/-! ## Objects -/

section Objects

variable {m k : Module} {c : ClassDef} {i : Instance}

/-- **An object is made alike in both modules**, and is one of the class. -/
theorem construct_carried (h : Carries m k) (hc : m.Finds c) (args : List Value) :
    construct k c args = construct m c args ∧ ∀ i, construct m c args = .ok i → i.cls = c := by
  have hlineage : k.lineage c = m.lineage c := by
    rw [Module.lineage, Module.lineage, h.ancestry_eq hc]
  have hclasses : ∀ d ∈ m.lineage c, m.Finds d :=
    fun d hd => finds_of_mem_ancestry hc (List.mem_reverse.1 hd)
  obtain ⟨hsame, hcls⟩ := runConstructors_alike h hc .blank args (m.lineage c) hclasses
    ⟨⟨c, args, .empty⟩, .initial⟩ rfl
  unfold construct
  dsimp only
  rw [hlineage, ← hsame]
  refine ⟨rfl, fun i hi => ?_⟩
  rw [← hsame] at hcls
  rcases hrun : (runConstructors ⟨m, .blank⟩ args (m.lineage c)).run ⟨⟨c, args, .empty⟩, .initial⟩
    with ⟨_ | _, s⟩
  · rw [hrun] at hi
    cases hi
  · rw [hrun] at hi hcls
    cases hi
    exact hcls

theorem attempt_carried (h : Carries m k) (hi : m.Finds i.cls) (method : String) (request : Request) :
    i.attempt k method request = i.attempt m method request ∧
      (i.attempt m method request).2.self.cls = i.cls := by
  have hdispatch : Alike i.cls (dispatch ⟨m, request⟩ (runBody ⟨m, request⟩ maxCallDepth) i.cls method [])
      (dispatch ⟨k, request⟩ (runBody ⟨k, request⟩ maxCallDepth) i.cls method []) :=
    dispatch_alike h (runBody_alike h request maxCallDepth) hi hi method request
  obtain ⟨hsame, hcls⟩ := hdispatch ⟨i, .initial⟩ rfl
  unfold Instance.attempt
  rw [hsame]
  exact ⟨rfl, hcls⟩

/-- **A method without arguments does the same in both modules.** -/
theorem run_carried (h : Carries m k) (hi : m.Finds i.cls) (method : String) (request : Request) :
    i.run k method request = i.run m method request ∧
      (i.run m method request).2.cls = i.cls := by
  obtain ⟨hsame, hcls⟩ := attempt_carried h hi method request
  rw [run_snd, Instance.run_eq, Instance.run_eq, hsame]
  exact ⟨rfl, hcls⟩

theorem invoke_carried (h : Carries m k) (hi : m.Finds i.cls) (action : String) (request : Request) :
    i.invoke k action request = i.invoke m action request ∧
      (i.invoke m action request).2.cls = i.cls := by
  unfold Instance.invoke
  split
  · exact run_carried h hi action request
  · exact ⟨rfl, rfl⟩

/-- A call does the same in both modules. The handler stays with its module and its class. -/
theorem call_carried (h : Carries m k) (hi : m.Finds i.cls) (action : Option String)
    (request : Request) : ∃ outcome i', i'.cls = i.cls ∧
      Handler.call ⟨m, i⟩ action request = (outcome, ⟨m, i'⟩) ∧
      Handler.call ⟨k, i⟩ action request = (outcome, ⟨k, i'⟩) := by
  cases action with
  | none =>
    obtain ⟨hsame, hcls⟩ := run_carried h hi Instance.entryMethod request
    refine ⟨(i.run m Instance.entryMethod request).1, (i.run m Instance.entryMethod request).2, hcls,
      rfl, ?_⟩
    rw [← hsame]
    rfl
  | some action =>
    obtain ⟨hsame, hcls⟩ := invoke_carried h hi action request
    refine ⟨(i.invoke m action request).1, (i.invoke m action request).2, hcls, rfl, ?_⟩
    rw [← hsame]
    rfl

/-- **A handler answers every sequence of calls alike in both modules.** -/
theorem answers_carried (h : Carries m k) (hi : m.Finds i.cls)
    (calls : List (Option String × Request)) :
    Handler.answers ⟨k, i⟩ calls = Handler.answers ⟨m, i⟩ calls := by
  induction calls generalizing i with
  | nil => rfl
  | cons call rest ih =>
    obtain ⟨outcome, i', hcls, hm, hk⟩ := call_carried h hi call.1 call.2
    rw [Handler.answers, Handler.answers, hm, hk]
    exact congrArg (outcome :: ·) (ih (hcls ▸ hi))

end Objects

end Script

end SiteHost
