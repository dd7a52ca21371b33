import SiteHost.Proofs.Script.Arity

/-!
# Evaluation without a bound

What a script means, whatever the interpreter does: expressions, calls and bodies are evaluated one inside
the other, as deep as they go. There may be no end to it, so that an evaluation is a relation:

* `Job` — what there is to evaluate, from an expression to the constructors of a lineage;
* `Job.course` — how a job goes on: it ends, comes to another job, does one job after another, or enters
  a body;
* `Meter` — what is told of each body that is entered and left, and may refuse to let one be entered;
* `Eval` — the evaluations of a job: what it comes to, and the effects it has until then. The first error
  ends it;
* `Reaches` — the calls that an evaluation gets to, whether it comes to an end or not.

There are three meters. `Meter.free` counts nothing, which leaves the plain meaning of scripts.
`Meter.gauge` watches how many bodies are inside one another, and refuses none. `Meter.counter` refuses a
body inside as many others as the limit allows.

Principal results:

* `Eval.unique` — an evaluation has one end at most;
* `Eval.transfer` — meters that refuse nothing make no difference;
* `Eval.counter_eq` — a counter is at the end what it was before;
* `Reaches.lt_most` — an evaluation that comes to an end has seen every call that it gets to;
* `Eval.within_or_reaches` — with a limit, an evaluation without one either stays within it and ends alike, or
  gets to a call that exceeds it, and ends there.
-/

namespace SiteHost.Script

/-! ## Jobs -/

/-- What there is to evaluate. -/
inductive Job where
  /-- An expression in a method of `owner`. -/
  | expr (owner : ClassDef) (locals : NameMap Value) (e : Expr)
  /-- Arguments, from left to right. -/
  | args (owner : ClassDef) (locals : NameMap Value) (es : List Expr)
  /-- A call with its arguments. -/
  | call (owner : ClassDef) (target : List String) (args : List Value)
  /-- The nearest declaration of a method, seen from a class. -/
  | find (start : ClassDef) (name : String) (args : List Value)
  /-- The body of a method of `owner`. -/
  | body (owner : ClassDef) (m : Method) (args : List Value)
  /-- What is left of a body. -/
  | stmts (owner : ClassDef) (locals : NameMap Value) (list : List Stmt)
  /-- The constructors of classes, one after the other. -/
  | constructors (args : List Value) (classes : List ClassDef)

/-- What a job comes to: as many values as there are expressions or arguments, nothing for a body, or the
first error. -/
abbrev Result := Except RunError (List Value)

/-- How a job goes on. -/
inductive Course where
  /-- It enters no body, and has come to its end. -/
  | ends (r : Result) (s : RunState)
  /-- It comes to another job. -/
  | continues (next : Job)
  /-- It comes to another job on another object, with the same response. -/
  | elsewhere (other : Instance) (next : Job)
  /-- It does one job and, unless that ends in an error, one more that depends on its values. -/
  | first (job : Job) (next : List Value → Job) (give : List Value → List Value → List Value)
  /-- It enters the body of a method. -/
  | enters (owner : ClassDef) (m : Method) (inside : Job)

/-- A step that enters no body. -/
def Course.ofStep (step : Run Value) (s : RunState) : Course :=
  .ends ((step.run s).1.map ([·])) (step.run s).2

/-- How a job goes on. -/
def Job.course (scene : Scene) (s : RunState) : Job → Course
  | .expr _ _ (.text value) => .ends (.ok [.text value]) s
  | .expr _ _ (.int value) => .ends (.ok [.int value]) s
  | .expr _ locals (.path segments _) => .ofStep (readPath scene locals segments) s
  | .expr owner locals (.concat left right) =>
    .first (.expr owner locals left) (fun _ => .expr owner locals right)
      fun l r => [.text ((firstArg l).render ++ (firstArg r).render)]
  | .expr owner locals (.call target es _) =>
    .first (.args owner locals es) (fun values => .call owner target values) fun _ value => value
  | .args _ _ [] => .ends (.ok []) s
  | .args owner locals (e :: rest) =>
    .first (.expr owner locals e) (fun _ => .args owner locals rest) fun value values => value ++ values
  | .call owner target values =>
    match Target.ofNames target with
    | .fail => .ends (.error (.failed (firstArg values).render)) s
    | .own name => .continues (.find s.self.cls name values)
    | .inherited name =>
      match owner.base? scene.module.findClass? with
      | some base => .continues (.find base name values)
      | none => .ends (.error (.noBase owner.name)) s
    | .builtin b => .ofStep (runBuiltin scene values b) s
    | .unknownMember name => .ends (.error (.unknownMember name)) s
    | .static type name =>
      match (owner.typeRefs.get? type).bind scene.module.findClass? with
      | some c => .elsewhere ⟨c, [], .empty⟩ (.find c name values)
      | none => .ends (.error (.unknownType type)) s
    | .empty => .ends (.error .emptyTarget) s
  | .find start name values =>
    match scene.module.declaration? start name with
    | some (owner, m) => .continues (.body owner m values)
    | none => .ends (.error (.noMethod start.name name)) s
  | .body owner m values => .enters owner m (.stmts owner (bindParams m values) m.body)
  | .stmts _ _ [] | .stmts _ _ (.leave :: _) => .ends (.ok [.nil]) s
  | .stmts owner locals (.expr e :: rest) =>
    .first (.expr owner locals e) (fun _ => .stmts owner locals rest) fun _ done => done
  | .constructors _ [] => .ends (.ok [.nil]) s
  | .constructors values (c :: rest) =>
    match c.constructor? with
    | some m => .first (.body c m values) (fun _ => .constructors values rest) fun _ done => done
    | none => .continues (.constructors values rest)

/-! ## Evaluations -/

/-- What is told of each body that is entered and left. -/
structure Meter (σ : Type) where
  /-- What it says inside one more body, nothing if the body is refused. -/
  enter : σ → Option σ
  /-- What it says outside of the body that is left, which may have ended in an error. -/
  leave : σ → σ

section

variable {σ : Type}

/-- Whether a job may come to a result: what the meter says and the state are given before and after. It has
one rule for each course of a job, two where a job does another first, and two where it enters a body. -/
inductive Eval (scene : Scene) (μ : Meter σ) : Job → σ → RunState → Result → σ → RunState → Prop where
  | ends {j : Job} {x : σ} {s s' : RunState} {r : Result} (h : j.course scene s = .ends r s') :
    Eval scene μ j x s r x s'
  | continues {j next : Job} {x x' : σ} {s s' : RunState} {r : Result}
    (h : j.course scene s = .continues next) (hnext : Eval scene μ next x s r x' s') :
    Eval scene μ j x s r x' s'
  | elsewhere {j next : Job} {other : Instance} {x x' : σ} {s s' : RunState} {r : Result}
    (h : j.course scene s = .elsewhere other next)
    (hnext : Eval scene μ next x { s with self := other } r x' s') :
    Eval scene μ j x s r x' { s' with self := s.self }
  | stops {j job : Job} {next : List Value → Job} {give : List Value → List Value → List Value}
    {x x' : σ} {s s' : RunState} {e : RunError} (h : j.course scene s = .first job next give)
    (hjob : Eval scene μ job x s (.error e) x' s') :
    Eval scene μ j x s (.error e) x' s'
  | goesOn {j job : Job} {next : List Value → Job} {give : List Value → List Value → List Value}
    {x y x' : σ} {s t s' : RunState} {values : List Value} {r : Result}
    (h : j.course scene s = .first job next give) (hjob : Eval scene μ job x s (.ok values) y t)
    (hnext : Eval scene μ (next values) y t r x' s') :
    Eval scene μ j x s (r.map (give values)) x' s'
  | refused {j inside : Job} {owner : ClassDef} {m : Method} {x : σ} {s : RunState}
    (h : j.course scene s = .enters owner m inside) (hx : μ.enter x = none) :
    Eval scene μ j x s (.error (.tooDeep owner.name m.name)) x s
  | entered {j inside : Job} {owner : ClassDef} {m : Method} {x y x' : σ} {s s' : RunState}
    {r : Result} (h : j.course scene s = .enters owner m inside) (hx : μ.enter x = some y)
    (hinside : Eval scene μ inside y s r x' s') :
    Eval scene μ j x s r (μ.leave x') s'

/-- Whether the evaluation of a job gets to the call of a method, and what the meter says and the state are
then. -/
inductive Reaches (scene : Scene) (μ : Meter σ) (owner : ClassDef) (m : Method) :
    Job → σ → RunState → σ → RunState → Prop where
  | here {j inside : Job} {x : σ} {s : RunState} (h : j.course scene s = .enters owner m inside) :
    Reaches scene μ owner m j x s x s
  | continues {j next : Job} {x x' : σ} {s s' : RunState} (h : j.course scene s = .continues next)
    (hnext : Reaches scene μ owner m next x s x' s') :
    Reaches scene μ owner m j x s x' s'
  | elsewhere {j next : Job} {other : Instance} {x x' : σ} {s s' : RunState}
    (h : j.course scene s = .elsewhere other next)
    (hnext : Reaches scene μ owner m next x { s with self := other } x' s') :
    Reaches scene μ owner m j x s x' { s' with self := s.self }
  | first {j job : Job} {next : List Value → Job} {give : List Value → List Value → List Value}
    {x x' : σ} {s s' : RunState} (h : j.course scene s = .first job next give)
    (hjob : Reaches scene μ owner m job x s x' s') :
    Reaches scene μ owner m j x s x' s'
  | next {j job : Job} {next : List Value → Job} {give : List Value → List Value → List Value}
    {x y x' : σ} {s t s' : RunState} {values : List Value} (h : j.course scene s = .first job next give)
    (hjob : Eval scene μ job x s (.ok values) y t)
    (hnext : Reaches scene μ owner m (next values) y t x' s') :
    Reaches scene μ owner m j x s x' s'
  | inside {j inside : Job} {caller : ClassDef} {n : Method} {x y x' : σ} {s s' : RunState}
    (h : j.course scene s = .enters caller n inside) (hx : μ.enter x = some y)
    (hinside : Reaches scene μ owner m inside y s x' s') :
    Reaches scene μ owner m j x s x' s'

end

/-! ## Evaluations by the course of their job -/

section Courses

variable {σ : Type} {scene : Scene} {μ : Meter σ} {j job inside : Job} {next : List Value → Job}
  {give : List Value → List Value → List Value} {owner : ClassDef} {m : Method} {other : Instance}
  {x x' x₁ x₂ : σ} {s s' s₁ s₂ : RunState} {r r₁ r₂ : Result}

theorem eval_ends_iff (h : j.course scene s = .ends r₁ s₁) :
    Eval scene μ j x s r x' s' ↔ r = r₁ ∧ x' = x ∧ s' = s₁ := by
  constructor
  · intro he
    cases he <;> simp_all
  · rintro ⟨rfl, rfl, rfl⟩
    exact .ends h

theorem eval_continues_iff {next : Job} (h : j.course scene s = .continues next) :
    Eval scene μ j x s r x' s' ↔ Eval scene μ next x s r x' s' := by
  constructor
  · intro he
    cases he <;> simp_all
  · exact .continues h

theorem eval_elsewhere_iff {next : Job} (h : j.course scene s = .elsewhere other next) :
    Eval scene μ j x s r x' s' ↔ ∃ t, Eval scene μ next x { s with self := other } r x' t ∧
      s' = { t with self := s.self } := by
  constructor
  · intro he
    cases he with
    | elsewhere h' hnext =>
      cases h.symm.trans h'
      exact ⟨_, hnext, rfl⟩
    | _ => simp_all
  · rintro ⟨t, hnext, rfl⟩
    exact .elsewhere h hnext

theorem eval_first_iff (h : j.course scene s = .first job next give) :
    Eval scene μ j x s r x' s' ↔
      (∃ e, Eval scene μ job x s (.error e) x' s' ∧ r = .error e) ∨
      ∃ values y t r₁, Eval scene μ job x s (.ok values) y t ∧ Eval scene μ (next values) y t r₁ x' s' ∧
        r = r₁.map (give values) := by
  constructor
  · intro he
    cases he with
    | stops h' hjob =>
      cases h.symm.trans h'
      exact .inl ⟨_, hjob, rfl⟩
    | goesOn h' hjob hnext =>
      cases h.symm.trans h'
      exact .inr ⟨_, _, _, _, hjob, hnext, rfl⟩
    | _ => simp_all
  · rintro (⟨e, hjob, rfl⟩ | ⟨values, y, t, r₁, hjob, hnext, rfl⟩)
    · exact .stops h hjob
    · exact .goesOn h hjob hnext

theorem eval_enters_iff (h : j.course scene s = .enters owner m inside) :
    Eval scene μ j x s r x' s' ↔
      (μ.enter x = none ∧ r = .error (.tooDeep owner.name m.name) ∧ x' = x ∧ s' = s) ∨
      ∃ y y', μ.enter x = some y ∧ Eval scene μ inside y s r y' s' ∧ x' = μ.leave y' := by
  constructor
  · intro he
    cases he with
    | refused h' hx =>
      cases h.symm.trans h'
      exact .inl ⟨hx, rfl, rfl, rfl⟩
    | entered h' hx hinside =>
      cases h.symm.trans h'
      exact .inr ⟨_, _, hx, hinside, rfl⟩
    | _ => simp_all
  · rintro (⟨hx, rfl, rfl, rfl⟩ | ⟨y, y', hx, hinside, rfl⟩)
    · exact .refused h hx
    · exact .entered h hx hinside

/-- **An evaluation has one end at most.** -/
theorem Eval.unique (h₁ : Eval scene μ j x s r₁ x₁ s₁) (h₂ : Eval scene μ j x s r₂ x₂ s₂) :
    r₂ = r₁ ∧ x₂ = x₁ ∧ s₂ = s₁ := by
  induction h₁ generalizing r₂ x₂ s₂ with
  | ends h => exact (eval_ends_iff h).1 h₂
  | continues h hnext ih => exact ih ((eval_continues_iff h).1 h₂)
  | elsewhere h hnext ih =>
    obtain ⟨t, hnext₂, rfl⟩ := (eval_elsewhere_iff h).1 h₂
    obtain ⟨rfl, rfl, rfl⟩ := ih hnext₂
    exact ⟨rfl, rfl, rfl⟩
  | stops h hjob ih =>
    rcases (eval_first_iff h).1 h₂ with ⟨e₂, hjob₂, rfl⟩ | ⟨values, y, t, r, hjob₂, -, -⟩
    · exact ih hjob₂
    · cases (ih hjob₂).1
  | goesOn h hjob hnext ihjob ihnext =>
    rcases (eval_first_iff h).1 h₂ with ⟨e₂, hjob₂, -⟩ | ⟨values₂, y₂, t₂, r, hjob₂, hnext₂, rfl⟩
    · cases (ihjob hjob₂).1
    · obtain ⟨hvalues, rfl, rfl⟩ := ihjob hjob₂
      cases hvalues
      obtain ⟨rfl, rfl, rfl⟩ := ihnext hnext₂
      exact ⟨rfl, rfl, rfl⟩
  | refused h hx =>
    rcases (eval_enters_iff h).1 h₂ with ⟨-, hr, hx₂, hs₂⟩ | ⟨y, y', hy, -, -⟩
    · exact ⟨hr, hx₂, hs₂⟩
    · simp [hx] at hy
  | entered h hx hinside ih =>
    rcases (eval_enters_iff h).1 h₂ with ⟨hnone, -⟩ | ⟨y, y', hy, hinside₂, rfl⟩
    · simp [hx] at hnone
    · cases hx.symm.trans hy
      obtain ⟨rfl, rfl, rfl⟩ := ih hinside₂
      exact ⟨rfl, rfl, rfl⟩

theorem Eval.iff_of_ends (h : Eval scene μ j x s r x' s') (r₁ : Result) (x₁ : σ) (s₁ : RunState) :
    Eval scene μ j x s r₁ x₁ s₁ ↔ r₁ = r ∧ x₁ = x' ∧ s₁ = s' := by
  constructor
  · exact h.unique
  · rintro ⟨rfl, rfl, rfl⟩
    exact h

/-- What every body keeps, an evaluation keeps: a body is entered, does what is kept, and is left. -/
theorem Eval.keeps {R : σ → σ → Prop} (hrefl : ∀ x, R x x) (htrans : ∀ x y z, R x y → R y z → R x z)
    (hbody : ∀ x y y', μ.enter x = some y → R y y' → R x (μ.leave y')) (h : Eval scene μ j x s r x' s') :
    R x x' := by
  induction h with
  | ends => exact hrefl _
  | continues _ _ ih => exact ih
  | elsewhere _ _ ih => exact ih
  | stops _ _ ih => exact ih
  | goesOn _ _ _ ihjob ihnext => exact htrans _ _ _ ihjob ihnext
  | refused => exact hrefl _
  | entered _ hx _ ih => exact hbody _ _ _ hx ih

/-- **Meters that refuse nothing make no difference.** -/
theorem Eval.transfer {τ : Type} {ν : Meter τ} (hμ : ∀ x, μ.enter x ≠ none) (hν : ∀ z, ν.enter z ≠ none)
    (h : Eval scene μ j x s r x' s') (z : τ) : ∃ z', Eval scene ν j z s r z' s' := by
  induction h generalizing z with
  | ends h => exact ⟨z, .ends h⟩
  | continues h _ ih =>
    obtain ⟨z', hnext⟩ := ih z
    exact ⟨z', .continues h hnext⟩
  | elsewhere h _ ih =>
    obtain ⟨z', hnext⟩ := ih z
    exact ⟨z', .elsewhere h hnext⟩
  | stops h _ ih =>
    obtain ⟨z', hjob⟩ := ih z
    exact ⟨z', .stops h hjob⟩
  | goesOn h _ _ ihjob ihnext =>
    obtain ⟨w, hjob⟩ := ihjob z
    obtain ⟨z', hnext⟩ := ihnext w
    exact ⟨z', .goesOn h hjob hnext⟩
  | refused _ hx => exact absurd hx (hμ _)
  | entered h _ _ ih =>
    obtain ⟨w, hw⟩ := Option.ne_none_iff_exists'.1 (hν z)
    obtain ⟨z', hinside⟩ := ih w
    exact ⟨ν.leave z', .entered h hw hinside⟩

/-- Constructors run one after the other, each from where the ones before it have come to. -/
theorem eval_constructors_append (args : List Value) (before rest : List ClassDef) :
    Eval scene μ (.constructors args (before ++ rest)) x s r x' s' ↔
      (∃ e, Eval scene μ (.constructors args before) x s (.error e) x' s' ∧ r = .error e) ∨
      ∃ values y t, Eval scene μ (.constructors args before) x s (.ok values) y t ∧
        Eval scene μ (.constructors args rest) y t r x' s' := by
  induction before generalizing x s r with
  | nil =>
    have hcourse : (Job.constructors args []).course scene s = .ends (.ok [.nil]) s := rfl
    simp [eval_ends_iff hcourse]
  | cons c before ih =>
    cases hc : c.constructor? with
    | none =>
      have hcourse : ∀ list, (Job.constructors args (c :: list)).course scene s =
          .continues (.constructors args list) := fun list => by simp only [Job.course, hc]
      rw [List.cons_append, eval_continues_iff (hcourse _), ih]
      simp only [eval_continues_iff (hcourse before)]
    | some m =>
      have hcourse : ∀ list, (Job.constructors args (c :: list)).course scene s =
          .first (.body c m args) (fun _ => .constructors args list) fun _ done => done :=
        fun list => by simp only [Job.course, hc]
      have hmap : ∀ r : Result, r.map (fun done => done) = r := fun r => by cases r <;> rfl
      rw [List.cons_append, eval_first_iff (hcourse _)]
      simp only [eval_first_iff (hcourse before), ih, hmap]
      constructor
      · rintro (⟨e, hbody, rfl⟩ | ⟨values, y, t, _, hbody, hthen, rfl⟩)
        · exact .inl ⟨e, .inl ⟨e, hbody, rfl⟩, rfl⟩
        · rcases hthen with ⟨e, hbefore, rfl⟩ | ⟨values', z, u, hbefore, hrest⟩
          · exact .inl ⟨e, .inr ⟨values, y, t, _, hbody, hbefore, rfl⟩, rfl⟩
          · exact .inr ⟨values', z, u, .inr ⟨values, y, t, _, hbody, hbefore, rfl⟩, hrest⟩
      · rintro (⟨e, hfirst, rfl⟩ | ⟨values', z, u, hfirst, hrest⟩)
        · rcases hfirst with ⟨e', hbody, he⟩ | ⟨values, y, t, _, hbody, hbefore, rfl⟩
          · cases he
            exact .inl ⟨e, hbody, rfl⟩
          · exact .inr ⟨values, y, t, _, hbody, .inl ⟨e, hbefore, rfl⟩, rfl⟩
        · rcases hfirst with ⟨e', hbody, he⟩ | ⟨values, y, t, _, hbody, hbefore, rfl⟩
          · cases he
          · exact .inr ⟨values, y, t, _, hbody, .inr ⟨values', z, u, hbefore, hrest⟩, rfl⟩

end Courses

/-! ## Meters -/

/-- How many bodies are inside one another, and the most there were at once. -/
@[ext]
structure Depth where
  now : Nat
  most : Nat
  now_le_most : now ≤ most

/-- Outside of all bodies. -/
def Depth.outside : Depth := ⟨0, 0, Nat.le_refl 0⟩

/-- Inside as many bodies as ever. -/
def Depth.full (limit : Nat) : Depth := ⟨limit, limit, Nat.le_refl limit⟩

/-- Inside one more body. -/
def Depth.deeper (d : Depth) : Depth := ⟨d.now + 1, max d.most (d.now + 1), Nat.le_max_right _ _⟩

/-- Outside the innermost body. -/
def Depth.left (d : Depth) : Depth := ⟨d.now - 1, d.most, Nat.le_trans (Nat.sub_le _ _) d.now_le_most⟩

@[simp]
theorem Depth.now_deeper (d : Depth) : d.deeper.now = d.now + 1 := rfl

@[simp]
theorem Depth.most_deeper (d : Depth) : d.deeper.most = max d.most (d.now + 1) := rfl

@[simp]
theorem Depth.now_left (d : Depth) : d.left.now = d.now - 1 := rfl

@[simp]
theorem Depth.most_left (d : Depth) : d.left.most = d.most := rfl

namespace Meter

/-- Nothing is counted. -/
def free : Meter Unit := ⟨some, id⟩

/-- Bodies are watched, and none is refused. -/
def gauge : Meter Depth := ⟨fun d => some d.deeper, Depth.left⟩

/-- Bodies are counted, and one inside `limit` others is refused. -/
def counter (limit : Nat) : Meter Nat := ⟨fun n => if n < limit then some (n + 1) else none, (· - 1)⟩

theorem enter_counter_eq_some_iff {limit n k : Nat} :
    (counter limit).enter n = some k ↔ n < limit ∧ n + 1 = k := by
  simp [counter]

end Meter

section Meters

variable {scene : Scene} {j : Job} {owner : ClassDef} {m : Method} {s s' t : RunState} {r : Result}

/-- **A counter is at the end what it was before**, error or not. -/
theorem Eval.counter_eq {limit n n' : Nat} (h : Eval scene (.counter limit) j n s r n' s') : n' = n := by
  refine (h.keeps (R := Eq) (fun _ => rfl) (fun _ _ _ => Eq.trans) fun n k k' hk hsame => ?_).symm
  obtain ⟨-, rfl⟩ := Meter.enter_counter_eq_some_iff.1 hk
  subst hsame
  rfl

/-- As many bodies are left as are entered. -/
theorem Eval.gauge_mono {d d' : Depth} (h : Eval scene .gauge j d s r d' s') :
    d'.now = d.now ∧ d.most ≤ d'.most := by
  refine h.keeps (R := fun d d' => d'.now = d.now ∧ d.most ≤ d'.most) (fun d => ⟨rfl, Nat.le_refl _⟩) ?_ ?_
  · intro a b c hab hbc
    omega
  · intro a b c hb hbc
    cases hb
    simp only [Depth.now_deeper, Depth.most_deeper] at hbc
    simp only [Meter.gauge, Depth.now_left, Depth.most_left]
    omega

/-- **An evaluation that comes to an end has seen every call that it gets to.** -/
theorem Reaches.lt_most {d d' k : Depth} (h : Reaches scene .gauge owner m j d s k t)
    (he : Eval scene .gauge j d s r d' s') : k.now < d'.most := by
  induction h generalizing r d' s' with
  | here h =>
    rcases (eval_enters_iff h).1 he with ⟨hnone, -⟩ | ⟨y, y', hy, hinside, rfl⟩
    · cases hnone
    · -- the body is entered, inside one more than the call
      cases hy
      have hmono := hinside.gauge_mono
      simp only [Depth.now_deeper, Depth.most_deeper] at hmono
      simp only [Meter.gauge, Depth.most_left]
      omega
  | continues h _ ih => exact ih ((eval_continues_iff h).1 he)
  | elsewhere h _ ih =>
    obtain ⟨t, hnext, -⟩ := (eval_elsewhere_iff h).1 he
    exact ih hnext
  | first h _ ih =>
    rcases (eval_first_iff h).1 he with ⟨e, hjob, -⟩ | ⟨values, y, t, r₁, hjob, hnext, -⟩
    · exact ih hjob
    · exact Nat.lt_of_lt_of_le (ih hjob) hnext.gauge_mono.2
  | next h hjob _ ih =>
    rcases (eval_first_iff h).1 he with ⟨e, hjob', -⟩ | ⟨values, y, t, r₁, hjob', hnext, -⟩
    · cases (hjob.unique hjob').1
    · obtain ⟨hvalues, rfl, rfl⟩ := hjob.unique hjob'
      cases hvalues
      exact ih hnext
  | inside h hx _ ih =>
    rcases (eval_enters_iff h).1 he with ⟨hnone, -⟩ | ⟨y, y', hy, hinside, rfl⟩
    · cases hnone
    · cases hx.symm.trans hy
      simpa only [Meter.gauge, Depth.most_left] using ih hinside

/-- **With a limit and without.** What ends with a limit ends alike without one and stays within it, or gets to
a call inside `limit` bodies, the first of all, and is refused there. -/
theorem Eval.within_or_reaches {limit n n' : Nat} (h : Eval scene (.counter limit) j n s r n' s') :
    ∀ d : Depth, d.now = n → d.most ≤ limit →
      (∃ d', Eval scene .gauge j d s r d' s' ∧ d'.most ≤ limit) ∨
      ∃ owner m, Reaches scene .gauge owner m j d s (.full limit) s' ∧
        r = .error (.tooDeep owner.name m.name) := by
  induction h with
  | ends h =>
    intro d _ hd
    exact .inl ⟨d, .ends h, hd⟩
  | continues h _ ih =>
    intro d hn hd
    rcases ih d hn hd with ⟨d', hnext, hd'⟩ | ⟨owner, m, hnext, hr⟩
    · exact .inl ⟨d', .continues h hnext, hd'⟩
    · exact .inr ⟨owner, m, .continues h hnext, hr⟩
  | elsewhere h _ ih =>
    intro d hn hd
    rcases ih d hn hd with ⟨d', hnext, hd'⟩ | ⟨owner, m, hnext, hr⟩
    · exact .inl ⟨d', .elsewhere h hnext, hd'⟩
    · exact .inr ⟨owner, m, .elsewhere h hnext, hr⟩
  | stops h _ ih =>
    intro d hn hd
    rcases ih d hn hd with ⟨d', hjob, hd'⟩ | ⟨owner, m, hjob, hr⟩
    · exact .inl ⟨d', .stops h hjob, hd'⟩
    · exact .inr ⟨owner, m, .first h hjob, hr⟩
  | goesOn h hcounted _ ihjob ihnext =>
    intro d hn hd
    rcases ihjob d hn hd with ⟨d₁, hjob, hd₁⟩ | ⟨owner, m, -, hr⟩
    · -- both have left the bodies that they entered, and go on from where they began
      have hnow : d₁.now = _ := hjob.gauge_mono.1.trans (hn.trans hcounted.counter_eq.symm)
      rcases ihnext d₁ hnow hd₁ with ⟨d', hnext, hd'⟩ | ⟨owner, m, hnext, hr⟩
      · exact .inl ⟨d', .goesOn h hjob hnext, hd'⟩
      · refine .inr ⟨owner, m, .next h hjob hnext, ?_⟩
        rw [hr]
        rfl
    · cases hr
  | refused h hx =>
    intro d hn hd
    -- the limit is reached by the bodies that are open, and was never exceeded
    have hlimit : limit ≤ d.now := by simpa [Meter.counter, hn] using hx
    obtain rfl : d = .full limit := by
      have hle := d.now_le_most
      ext
      · exact Nat.le_antisymm (Nat.le_trans hle hd) hlimit
      · exact Nat.le_antisymm hd (Nat.le_trans hlimit hle)
    exact .inr ⟨_, _, .here h, rfl⟩
  | entered h hx _ ih =>
    intro d hn hd
    obtain ⟨hlt, rfl⟩ := Meter.enter_counter_eq_some_iff.1 hx
    have hmost : d.deeper.most ≤ limit := by
      rw [Depth.most_deeper]
      omega
    rcases ih d.deeper (by rw [Depth.now_deeper, hn]) hmost with
      ⟨d', hinside, hd'⟩ | ⟨owner, m, hinside, hr⟩
    · exact .inl ⟨d'.left, .entered h rfl hinside, hd'⟩
    · exact .inr ⟨owner, m, .inside h rfl hinside, hr⟩

end Meters

end SiteHost.Script
