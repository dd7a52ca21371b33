import SiteHost.Proofs.Script.Evaluation

/-!
# The bound on calls

The interpreter takes a job with the levels that are left, and has an end on every module. Without a bound a
script may have none, and may be as deep in calls as it likes. The two are the same up to the first call that
is made inside as many bodies as the interpreter allows:

* `Job.run` — what the interpreter does with a job; `run_course` takes it along the course of the job;
* `Job.size` — what gets smaller until the next body is entered, where the levels do;
* `NestsDeeper` — whether an evaluation without a bound gets to a call that exceeds it;
* `Agrees` — what the interpreter does is what the evaluation is, up to that call.

Principal results:

* `eval_counter` — the interpreter counts bodies, from any number of open ones, and ends;
* `agrees_run` — it agrees with the evaluation of any job;
* `constructs_append` — the constructors of a lineage start at one depth;
* `interpreter_agrees` — all of this, for what is done with an object and with a class from outside.
-/

namespace SiteHost.Script

/-! ## What the interpreter does with a job -/

/-- What a step comes to, as values. -/
def resultOf {β : Type} (values : β → List Value) (step : Run β) (s : RunState) : Result × RunState :=
  ((step.run s).1.map values, (step.run s).2)

/-- What the interpreter does with a job and so many levels left. -/
def Job.run (scene : Scene) (levels : Nat) (s : RunState) : Job → Result × RunState
  | .expr owner locals e => resultOf ([·]) (evalExpr scene (runBody scene levels) owner locals e) s
  | .args owner locals es => resultOf id (evalArgs scene (runBody scene levels) owner locals es) s
  | .call owner target values => resultOf ([·]) (runCall scene (runBody scene levels) owner target values) s
  | .find start name values =>
    resultOf (fun _ => [.nil]) (dispatch scene (runBody scene levels) start name values) s
  | .body owner m values => resultOf (fun _ => [.nil]) (runBody scene levels owner m values) s
  | .stmts owner locals list =>
    resultOf (fun _ => [.nil]) (runStmts (evalExpr scene (runBody scene levels) owner locals) list) s
  | .constructors values classes =>
    resultOf (fun _ => [.nil]) (runEach (runBody scene levels) values classes) s

/-- What the interpreter does with a job that goes on so. -/
def Course.run (scene : Scene) (levels : Nat) (s : RunState) : Course → Result × RunState
  | .ends r s' => (r, s')
  | .continues next => next.run scene levels s
  | .elsewhere other next =>
    let (r, s') := next.run scene levels { s with self := other }
    (r, { s' with self := s.self })
  | .first job next give =>
    match job.run scene levels s with
    | (.error e, t) => (.error e, t)
    | (.ok values, t) =>
      let (r, s') := (next values).run scene levels t
      (r.map (give values), s')
  | .enters owner m inside =>
    match levels with
    | 0 => (.error (.tooDeep owner.name m.name), s)
    | levels + 1 => inside.run scene levels s

section Run

variable {β γ : Type} {scene : Scene} {levels : Nat} {s : RunState}

/-- A step whose value is only put differently. -/
theorem resultOf_map (f : γ → List Value) (x : Run β) (k : β → γ) (s : RunState) :
    resultOf f (x >>= fun b => pure (k b)) s = resultOf (fun b => f (k b)) x s := by
  rw [resultOf, resultOf, run_bind]
  rcases x.run s with ⟨_ | b, t⟩ <;> rfl

theorem map_resultOf (f : β → List Value) (give : List Value → List Value) (x : Run β) (s : RunState) :
    ((resultOf f x s).1.map give, (resultOf f x s).2) = resultOf (fun b => give (f b)) x s := by
  unfold resultOf
  rcases x.run s with ⟨_ | b, t⟩ <;> rfl

/-- One step after another is one job after another. -/
theorem resultOf_bind {job : Job} {next : List Value → Job} {give : List Value → List Value → List Value}
    {x : Run β} {g : β → Run γ} (f : β → List Value) (h : γ → List Value)
    (hjob : job.run scene levels s = resultOf f x s)
    (hnext : ∀ b t, resultOf h (g b) t =
      (((next (f b)).run scene levels t).1.map (give (f b)), ((next (f b)).run scene levels t).2)) :
    resultOf h (x >>= g) s = (Course.first job next give).run scene levels s := by
  simp only [Course.run, hjob, resultOf, run_bind]
  rcases x.run s with ⟨_ | b, t⟩
  · rfl
  · exact hnext b t

theorem run_call (owner : ClassDef) (target : List String) (values : List Value) :
    (Job.call owner target values).run scene levels s =
      ((Job.call owner target values).course scene s).run scene levels s := by
  have hfound : ∀ start name, resultOf ([·]) (do
      dispatch scene (runBody scene levels) start name values
      return Value.nil) s = (Job.find start name values).run scene levels s :=
    fun start name => resultOf_map _ _ _ s
  simp only [Job.run, Job.course, runCall]
  cases Target.ofNames target with
  | own name => exact hfound s.self.cls name
  | inherited name =>
    dsimp only
    cases owner.base? scene.module.findClass? with
    | none => rfl
    | some base => exact hfound base name
  | static type name =>
    dsimp only
    cases (owner.typeRefs.get? type).bind scene.module.findClass? with
    | none => rfl
    | some c => exact resultOf_map _ (onInstance _ _) _ s
  | fail | builtin _ | unknownMember _ | empty => rfl

/-- **What the interpreter does follows the course of a job.** -/
theorem run_course (j : Job) : j.run scene levels s = (j.course scene s).run scene levels s := by
  match j with
  | .expr owner locals (.text value) | .expr owner locals (.int value) => rfl
  | .expr owner locals (.path segments p) => rfl
  | .expr owner locals (.concat left right) =>
    refine resultOf_bind ([·]) _ rfl fun l t => ?_
    rw [resultOf_map, Job.run, map_resultOf]
    rfl
  | .expr owner locals (.call target es p) =>
    refine resultOf_bind id _ rfl fun values t => ?_
    rw [Job.run, map_resultOf]
    rfl
  | .args owner locals [] => rfl
  | .args owner locals (e :: rest) =>
    refine resultOf_bind ([·]) _ rfl fun value t => ?_
    rw [resultOf_map, Job.run, map_resultOf]
    rfl
  | .call owner target values => exact run_call owner target values
  | .find start name values =>
    rw [Job.run]
    cases hfound : scene.module.declaration? start name with
    | none =>
      simp only [Job.course, hfound, dispatch_of_none hfound]
      rfl
    | some found =>
      simp only [Job.course, hfound, dispatch_of_some hfound]
      rfl
  | .body owner m values => cases levels <;> rfl
  | .stmts owner locals [] | .stmts owner locals (.leave :: rest) => rfl
  | .stmts owner locals (.expr e :: rest) =>
    refine resultOf_bind ([·]) _ rfl fun value t => ?_
    rw [Job.run, map_resultOf]
  | .constructors values [] => rfl
  | .constructors values (c :: rest) =>
    simp only [Job.run, Job.course, runEach]
    cases c.constructor? with
    | none => rfl
    | some m =>
      refine resultOf_bind _ _ rfl fun value t => ?_
      rw [Job.run, map_resultOf]

end Run

/-! ## The interpreter ends -/

/-- How much of a job there is outside of the bodies that it enters. -/
noncomputable def Job.size : Job → Nat
  | .expr _ _ e => sizeOf e + 2
  | .args _ _ es => sizeOf es + 2
  | .call .. => 2
  | .find .. => 1
  | .body .. => 0
  | .stmts _ _ list => sizeOf list + 2
  | .constructors _ classes => classes.length + 1

/-- Whether a job comes to smaller jobs only, as long as it enters no body. -/
def Course.Shrinks (size : Nat) : Course → Prop
  | .ends .. | .enters .. => True
  | .continues next | .elsewhere _ next => next.size < size
  | .first job next _ => job.size < size ∧ ∀ values, (next values).size < size

theorem shrinks_course (scene : Scene) (j : Job) (s : RunState) : (j.course scene s).Shrinks j.size := by
  match j with
  | .expr owner locals (.text value) | .expr owner locals (.int value) => trivial
  | .expr owner locals (.path segments p) => trivial
  | .expr owner locals (.concat left right) | .expr owner locals (.call target es p) =>
    simp [Job.course, Course.Shrinks, Job.size]
    omega
  | .args owner locals [] => trivial
  | .args owner locals (e :: rest) =>
    simp [Job.course, Course.Shrinks, Job.size]
    omega
  | .call owner target values =>
    simp only [Job.course]
    cases Target.ofNames target with
    | own name => simp [Course.Shrinks, Job.size]
    | inherited name =>
      dsimp only
      cases owner.base? scene.module.findClass? <;> simp [Course.Shrinks, Job.size]
    | static type name =>
      dsimp only
      cases (owner.typeRefs.get? type).bind scene.module.findClass? <;> simp [Course.Shrinks, Job.size]
    | fail | builtin _ | unknownMember _ | empty => trivial
  | .find start name values =>
    simp only [Job.course]
    cases scene.module.declaration? start name <;> simp [Course.Shrinks, Job.size]
  | .body owner m values => trivial
  | .stmts owner locals [] | .stmts owner locals (.leave :: rest) => trivial
  | .stmts owner locals (.expr e :: rest) =>
    simp [Job.course, Course.Shrinks, Job.size]
    omega
  | .constructors values [] => trivial
  | .constructors values (c :: rest) =>
    simp only [Job.course]
    cases c.constructor? <;> simp [Course.Shrinks, Job.size]

/-- **The interpreter counts bodies**: with as many levels left as the limit leaves, it does what an evaluation
with a counter comes to, which is therefore never without an end. -/
theorem eval_counter (scene : Scene) (limit : Nat) (j : Job) (n : Nat) (s : RunState) :
    Eval scene (.counter limit) j n s (j.run scene (limit - n) s).1 n (j.run scene (limit - n) s).2 := by
  have hshrinks := shrinks_course scene j s
  rw [run_course]
  match h : j.course scene s with
  | .ends r s' => exact .ends h
  | .continues next =>
    have hsize : next.size < j.size := by
      simpa only [h, Course.Shrinks] using hshrinks
    exact .continues h (eval_counter scene limit next n s)
  | .elsewhere other next =>
    have hsize : next.size < j.size := by
      simpa only [h, Course.Shrinks] using hshrinks
    exact .elsewhere h (eval_counter scene limit next n { s with self := other })
  | .first job next give =>
    have hsize : job.size < j.size ∧ ∀ values, (next values).size < j.size := by
      simpa only [h, Course.Shrinks] using hshrinks
    have hjob := eval_counter scene limit job n s
    simp only [Course.run]
    rcases hrun : job.run scene (limit - n) s with ⟨e | values, t⟩
    · rw [hrun] at hjob
      exact .stops h hjob
    · rw [hrun] at hjob
      exact .goesOn h hjob (eval_counter scene limit (next values) n t)
  | .enters owner m inside =>
    simp only [Course.run]
    match hlevels : limit - n with
    | 0 =>
      have hle : ¬ n < limit := by omega
      exact .refused h (if_neg hle)
    | levels + 1 =>
      have hlt : n < limit := by omega
      obtain rfl : levels = limit - (n + 1) := by omega
      exact .entered h (if_pos hlt) (eval_counter scene limit inside (n + 1) s)
termination_by (limit - n, j.size)
decreasing_by
  · exact .right _ hsize
  · exact .right _ hsize
  · exact .right _ hsize.1
  · exact .right _ (hsize.2 values)
  · exact .left _ _ (by omega)

/-! ## The interpreter and the meaning of scripts -/

/-- Whether the evaluation of a job without a bound gets to a call inside as many bodies as the interpreter
allows, or more. -/
def NestsDeeper (scene : Scene) (j : Job) (s : RunState) : Prop :=
  ∃ owner m d t, Reaches scene .gauge owner m j .outside s d t ∧ maxCallDepth ≤ d.now

/-- Whether a result and a state are what a job means, up to the first call that exceeds the bound. -/
structure Agrees (scene : Scene) (j : Job) (s : RunState) (r : Result) (s' : RunState) : Prop where
  /-- An evaluation that stays within the bound has an end without it, and this is the only one. -/
  shallow : ¬ NestsDeeper scene j s → ∀ r' t, Eval scene .free j () s r' () t ↔ r' = r ∧ t = s'
  /-- Any other is at its first call that exceeds the bound, and goes no further. -/
  deep : NestsDeeper scene j s → ∃ owner m,
    Reaches scene .gauge owner m j .outside s (.full maxCallDepth) s' ∧ r = .error (.tooDeep owner.name m.name)
  /-- An evaluation with a counter ends so, and the counter is then what it was before. -/
  counted : ∀ r' n t, Eval scene (.counter maxCallDepth) j 0 s r' n t ↔ r' = r ∧ n = 0 ∧ t = s'

section Agrees

variable {scene : Scene} {j : Job} {s s' : RunState} {r : Result}

/-- What ends with a counter agrees with what there is without one. -/
theorem Eval.agrees (h : Eval scene (.counter maxCallDepth) j 0 s r 0 s') : Agrees scene j s r s' := by
  have hsplit := h.within_or_reaches .outside rfl (Nat.zero_le _)
  refine ⟨fun hshallow r' t => ?_, fun hdeep => ?_, h.iff_of_ends⟩
  · rcases hsplit with ⟨d, hgauge, -⟩ | ⟨owner, m, hreaches, -⟩
    · obtain ⟨u, hfree⟩ : ∃ u, Eval scene .free j () s r u s' := hgauge.transfer nofun nofun ()
      simpa using hfree.iff_of_ends r' () t
    · exact absurd ⟨owner, m, _, _, hreaches, Nat.le_refl _⟩ hshallow
  · rcases hsplit with ⟨d, hgauge, hd⟩ | hfirst
    · obtain ⟨owner, m, k, t, hreaches, hk⟩ := hdeep
      have := hreaches.lt_most hgauge
      omega
    · exact hfirst

end Agrees

/-- **The interpreter agrees with the meaning of any job.** -/
theorem agrees_run (scene : Scene) (j : Job) (s : RunState) :
    Agrees scene j s (j.run scene maxCallDepth s).1 (j.run scene maxCallDepth s).2 :=
  (eval_counter scene maxCallDepth j 0 s).agrees

/-- What an object answers when the job that it was asked for has come to a result. -/
def Instance.answered (i : Instance) (r : Result) (s : RunState) : Except InvokeError Response × Instance :=
  (match r with
    | .ok _ => .ok s.response
    | .error e => .error (.runtime i.cls.name e.message), s.self)

theorem Instance.run_eq_answered (i : Instance) (module : Module) (method : String) (request : Request) :
    i.run module method request =
      i.answered ((Job.find i.cls method []).run ⟨module, request⟩ maxCallDepth ⟨i, .initial⟩).1
        ((Job.find i.cls method []).run ⟨module, request⟩ maxCallDepth ⟨i, .initial⟩).2 := by
  have hjob : (Job.find i.cls method []).run ⟨module, request⟩ maxCallDepth ⟨i, .initial⟩ =
      ((i.attempt module method request).1.map fun _ => [.nil], (i.attempt module method request).2) := rfl
  rw [hjob, run_eq]
  rcases i.attempt module method request with ⟨_ | _, s⟩ <;> rfl

theorem construct_eq (module : Module) (cls : ClassDef) (args : List Value) :
    construct module cls args =
      ((Job.constructors args (module.lineage cls)).run ⟨module, .blank⟩ maxCallDepth
        ⟨⟨cls, args, .empty⟩, .initial⟩).1.map fun _ =>
      ((Job.constructors args (module.lineage cls)).run ⟨module, .blank⟩ maxCallDepth
        ⟨⟨cls, args, .empty⟩, .initial⟩).2.self := by
  simp only [construct, Job.run, resultOf, runConstructors]
  rcases (runEach (runBody ⟨module, .blank⟩ maxCallDepth) args (module.lineage cls)).run _ with ⟨_ | _, s⟩ <;>
    rfl

/-- Whether the constructors of classes come to a result, with the counter at nothing before and after. -/
def Constructs (scene : Scene) (args : List Value) (classes : List ClassDef) (s : RunState) (r : Result)
    (s' : RunState) : Prop :=
  Eval scene (.counter maxCallDepth) (.constructors args classes) 0 s r 0 s'

/-- **Each constructor starts at the same depth**, after any others. -/
theorem constructs_append {scene : Scene} {args : List Value} {before rest : List ClassDef} {s s' : RunState}
    {r : Result} : Constructs scene args (before ++ rest) s r s' ↔
      (∃ e, Constructs scene args before s (.error e) s' ∧ r = .error e) ∨
      ∃ values t, Constructs scene args before s (.ok values) t ∧ Constructs scene args rest t r s' := by
  unfold Constructs
  rw [eval_constructors_append]
  refine or_congr_right ⟨?_, ?_⟩
  · rintro ⟨values, n, t, hbefore, hrest⟩
    obtain rfl := hbefore.counter_eq
    exact ⟨values, t, hbefore, hrest⟩
  · rintro ⟨values, t, hbefore, hrest⟩
    exact ⟨values, 0, t, hbefore, hrest⟩

/-- **The bounded interpreter agrees with the unbounded semantics**, whatever is evaluated, whatever an object
is asked for, and whatever is constructed. It has an end on every module. Its counter is after every job what
it was before, so that each constructor of a lineage starts at the same depth. -/
theorem interpreter_agrees (module : Module) :
    (∀ (request : Request) (j : Job) (s : RunState), Agrees ⟨module, request⟩ j s
      (j.run ⟨module, request⟩ maxCallDepth s).1 (j.run ⟨module, request⟩ maxCallDepth s).2) ∧
    (∀ (i : Instance) (method : String) (request : Request), ∃ r s',
      Agrees ⟨module, request⟩ (.find i.cls method []) ⟨i, .initial⟩ r s' ∧
      i.run module method request = i.answered r s') ∧
    (∀ (cls : ClassDef) (args : List Value), ∃ r s',
      Agrees ⟨module, .blank⟩ (.constructors args (module.lineage cls)) ⟨⟨cls, args, .empty⟩, .initial⟩ r s' ∧
      construct module cls args = r.map fun _ => s'.self) ∧
    (∀ (request : Request) (j : Job) (n : Nat) (s : RunState), ∃ r s', ∀ r' n' t,
      Eval ⟨module, request⟩ (.counter maxCallDepth) j n s r' n' t ↔ r' = r ∧ n' = n ∧ t = s') ∧
    (∀ (cls : ClassDef) (args : List Value) (before rest : List ClassDef), module.lineage cls = before ++ rest →
      ∀ s r s', Constructs ⟨module, .blank⟩ args (module.lineage cls) s r s' ↔
        (∃ e, Constructs ⟨module, .blank⟩ args before s (.error e) s' ∧ r = .error e) ∨
        ∃ values t, Constructs ⟨module, .blank⟩ args before s (.ok values) t ∧
          Constructs ⟨module, .blank⟩ args rest t r s') := by
  refine ⟨fun request j s => agrees_run ⟨module, request⟩ j s, fun i method request => ?_,
    fun cls args => ?_, fun request j n s => ?_, fun cls args before rest hlineage s r s' => ?_⟩
  · exact ⟨_, _, agrees_run ⟨module, request⟩ (.find i.cls method []) ⟨i, .initial⟩,
      i.run_eq_answered module method request⟩
  · exact ⟨_, _, agrees_run ⟨module, .blank⟩ (.constructors args (module.lineage cls)) _,
      construct_eq module cls args⟩
  · exact ⟨_, _, (eval_counter ⟨module, request⟩ maxCallDepth j n s).iff_of_ends⟩
  · rw [hlineage]
    exact constructs_append

/-- A class whose only method writes and calls itself. -/
def echo : ClassDef where
  name := "Echo"
  base := none
  constructor? := none
  methods := NameMap.empty.insert "Repeat" ⟨"Repeat", .exposed, [],
    [.expr (.call ["Response", "Write"] [.text "."] ⟨1, 1⟩), .expr (.call ["Repeat"] [] ⟨1, 1⟩)], ⟨1, 1⟩⟩
  typeRefs := .empty
  actions := NameMap.empty.insert "Repeat" "Echo"
  file := "echo.ks"
  position := ⟨1, 1⟩

/-- What the interpreter does when an object of it is asked. -/
def echoes : Result × RunState :=
  (Job.find echo "Repeat" []).run ⟨.mk [] (NameMap.empty.insert "Echo" echo) [], .blank⟩ maxCallDepth
    ⟨⟨echo, [], .empty⟩, .initial⟩

/-- It has written once in each body that the bound allows. -/
example : echoes.1 = .error (.tooDeep "Echo" "Repeat") ∧
    echoes.2.response.body.toList = List.replicate 64 '.' := by
  decide +kernel

end SiteHost.Script
