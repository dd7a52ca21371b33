import Mathlib.Data.List.Nodup
import Mathlib.Data.List.Perm.Subperm
import SiteHost.Script.Link
import SiteHost.Proofs.Script.Lineage

/-!
# What linking establishes

A batch of units is linked if no step of linking finds an error. What each step then says is carried
over to the module, whose classes differ from those that were checked by their tables of actions only:

* `Module.Linked` — a module that was linked against modules which were linked themselves;
* `Module.Checked` — what linking establishes for the classes of a module;
* `Refines` — whether one way to find classes finds all that another finds, but for the actions.

Principal results:

* `bodyErrors_eq_nil_of_refines` — a class without errors has none for who finds more;
* `faultless_of_link`, `Faultless.checked` — what `link` makes is checked;
* `Module.Linked.rooted` — in a linked module the bases of every class end.
-/

namespace SiteHost.Script

/-- A class without its table of actions. -/
def ClassDef.bare (c : ClassDef) : ClassDef := { c with actions := .empty }

theorem ClassDef.bare_eq_iff {c d : ClassDef} : d.bare = c.bare ↔ d.name = c.name ∧ d.base = c.base ∧
    d.constructor? = c.constructor? ∧ d.methods = c.methods ∧ d.typeRefs = c.typeRefs ∧
    d.file = c.file ∧ d.position = c.position := by
  simp [ClassDef.bare]

/-- Whether one way to find classes finds all that another finds, but for the actions. -/
def Refines (find find' : String → Option ClassDef) : Prop :=
  ∀ name c, find name = some c → ∃ d, find' name = some d ∧ d.bare = c.bare

/-! ## Checks do not fail for who finds more -/

section Refines

variable {find find' : String → Option ClassDef} {c d o : ClassDef} {method type : String}
  {given : Nat} {target : List String}

theorem ancestry_of_refines (h : Refines find find') (hcd : d.bare = c.bare) (depth : Nat) :
    (ancestry find depth c).map ClassDef.bare <+: (ancestry find' depth d).map ClassDef.bare := by
  induction depth generalizing c d with
  | zero => exact List.prefix_refl _
  | succ n ih =>
    have hbase : d.base = c.base := (ClassDef.bare_eq_iff.1 hcd).2.1
    simp only [ancestry]
    cases hb : c.base? find with
    | none =>
      cases d.base? find' with
      | none => simp [hcd]
      | some b' => simp [hcd]
    | some b =>
      obtain ⟨name, hname, hfound⟩ := base?_eq_some_iff.1 hb
      obtain ⟨b', hfound', hbare⟩ := h name b hfound
      rw [base?_eq_some_iff.2 ⟨name, hbase.trans hname, hfound'⟩]
      simp only [List.map_cons, hcd]
      exact List.cons_prefix_cons.2 ⟨rfl, ih hbare⟩

theorem find?_bare (classes : List ClassDef) (method : String) :
    (classes.map ClassDef.bare).find? (fun c => c.methods.contains method) =
      (classes.find? fun c => c.methods.contains method).map ClassDef.bare :=
  List.find?_map

theorem owner?_of_refines (h : Refines find find') (hcd : d.bare = c.bare)
    (ho : owner? find c method = some o) : ∃ o', owner? find' d method = some o' ∧ o'.bare = o.bare := by
  have hfirst : ((ancestry find maxInheritanceDepth c).map ClassDef.bare).find?
      (fun c => c.methods.contains method) = some o.bare := by
    rw [find?_bare]
    exact congrArg (Option.map ClassDef.bare) ho
  have hfound := (ancestry_of_refines h hcd maxInheritanceDepth).find?_eq_some hfirst
  rw [find?_bare] at hfound
  exact Option.map_eq_some_iff.1 hfound

/-- A call of a method is right if the method is found and takes as many arguments. -/
theorem checkMethod_eq_none_iff : checkMethod find type method given = none ↔
    ∃ c o m, find type = some c ∧ owner? find c method = some o ∧ o.methods.get? method = some m ∧
      m.params.length = given := by
  unfold checkMethod
  constructor
  · intro h
    split at h
    · rename_i m hm
      obtain ⟨c, hc, hm⟩ := Option.bind_eq_some_iff.1 hm
      obtain ⟨o, ho, hm⟩ := Option.bind_eq_some_iff.1 hm
      refine ⟨c, o, m, hc, ho, hm, ?_⟩
      unfold checkArity at h
      split at h
      · assumption
      · cases h
    · cases h
  · rintro ⟨c, o, m, hc, ho, hm, hlength⟩
    simp [hc, ho, hm, checkArity, hlength]

theorem checkMethod_of_refines (h : Refines find find')
    (hcheck : checkMethod find type method given = none) :
    checkMethod find' type method given = none := by
  obtain ⟨c, o, m, hc, ho, hm, hlength⟩ := checkMethod_eq_none_iff.1 hcheck
  obtain ⟨d, hd, hbare⟩ := h type c hc
  obtain ⟨o', ho', hobare⟩ := owner?_of_refines h hbare ho
  obtain ⟨-, -, -, hmethods, -⟩ := ClassDef.bare_eq_iff.1 hobare
  exact checkMethod_eq_none_iff.2 ⟨d, o', m, hd, ho', hmethods ▸ hm, hlength⟩

theorem checkCall_of_refines (h : Refines find find') (hcd : d.bare = c.bare)
    (hcheck : checkCall find c target given = none) : checkCall find' d target given = none := by
  obtain ⟨hname, hbase, -, -, hrefs, -⟩ := ClassDef.bare_eq_iff.1 hcd
  unfold checkCall at hcheck ⊢
  rw [hname, hbase, hrefs]
  cases htarget : Target.ofNames target with
  | own method =>
    rw [htarget] at hcheck
    exact checkMethod_of_refines h hcheck
  | inherited method =>
    rw [htarget] at hcheck
    cases hb : c.base with
    | none =>
      rw [hb] at hcheck
      cases hcheck
    | some base =>
      rw [hb] at hcheck
      exact checkMethod_of_refines h hcheck
  | static type method =>
    rw [htarget] at hcheck
    dsimp only at hcheck ⊢
    cases href : c.typeRefs.get? type with
    | none =>
      rw [href] at hcheck
      cases hcheck
    | some full =>
      rw [href] at hcheck
      exact checkMethod_of_refines h hcheck
  | _ =>
    rw [htarget] at hcheck
    exact hcheck

mutual

theorem exprErrors_eq_nil_of_refines (h : Refines find find') (hcd : d.bare = c.bare)
    (params : List String) :
    ∀ e : Expr, exprErrors find c params e = [] → exprErrors find' d params e = []
  | .text _, _ | .int _, _ => rfl
  | .concat left right, hnil => by
    obtain ⟨hleft, hright⟩ := List.append_eq_nil_iff.1 hnil
    exact List.append_eq_nil_iff.2 ⟨exprErrors_eq_nil_of_refines h hcd params left hleft,
      exprErrors_eq_nil_of_refines h hcd params right hright⟩
  | .path segments position, hnil => by
    rw [exprErrors] at hnil ⊢
    split at hnil
    · rename_i hread
      rw [if_pos hread]
    · cases hnil
  | .call target args position, hnil => by
    obtain ⟨hargs, hcall⟩ := List.append_eq_nil_iff.1 hnil
    rw [List.map_eq_nil_iff, Option.toList_eq_nil_iff] at hcall
    refine List.append_eq_nil_iff.2 ⟨argErrors_eq_nil_of_refines h hcd params args hargs, ?_⟩
    rw [checkCall_of_refines h hcd hcall]
    rfl

theorem argErrors_eq_nil_of_refines (h : Refines find find') (hcd : d.bare = c.bare)
    (params : List String) :
    ∀ es : List Expr, argErrors find c params es = [] → argErrors find' d params es = []
  | [], _ => rfl
  | e :: rest, hnil => by
    obtain ⟨he, hrest⟩ := List.append_eq_nil_iff.1 hnil
    exact List.append_eq_nil_iff.2 ⟨exprErrors_eq_nil_of_refines h hcd params e he,
      argErrors_eq_nil_of_refines h hcd params rest hrest⟩

end

/-- What it means that a class has no errors. -/
theorem bodyErrors_eq_nil_iff : bodyErrors find c = [] ↔
    ∀ m ∈ c.constructor?.toList ++ c.methods.values, ∀ e, .expr e ∈ m.body →
      exprErrors find c m.params e = [] := by
  unfold bodyErrors
  rw [List.flatMap_eq_nil_iff]
  refine forall₂_congr fun m _ => ?_
  rw [List.flatMap_eq_nil_iff]
  constructor
  · intro h e he
    exact h (.expr e) he
  · intro h stmt hstmt
    cases stmt with
    | expr e => exact h e hstmt
    | leave => rfl

/-- **A class without errors has none for who finds more.** -/
theorem bodyErrors_eq_nil_of_refines (h : Refines find find') (hcd : d.bare = c.bare)
    (hnil : bodyErrors find c = []) : bodyErrors find' d = [] := by
  obtain ⟨-, -, hconstructor, hmethods, -⟩ := ClassDef.bare_eq_iff.1 hcd
  rw [bodyErrors_eq_nil_iff] at hnil ⊢
  rw [hconstructor, hmethods]
  exact fun m hm e he => exprErrors_eq_nil_of_refines h hcd m.params e (hnil m hm e he)

end Refines

/-! ## The steps of linking -/

section Steps

variable {known referenced : String → Bool} {d : Declared} {classes : List ClassDef}

/-- Names are declared without an error if each of them is new. -/
theorem declare_eq_nil_iff {seen : List String} {ds : List Declared} :
    (declare referenced seen ds).1 = [] ↔ (ds.map fun d => d.decl.name).Nodup ∧
      ∀ d ∈ ds, d.decl.name ∉ seen ∧ referenced d.decl.name = false := by
  induction ds generalizing seen with
  | nil => simp [declare]
  | cons d rest ih =>
    rw [List.map_cons, List.nodup_cons, List.forall_mem_cons]
    simp only [declare]
    by_cases hseen : d.decl.name ∈ seen
    · rw [if_pos (by simpa using hseen)]
      exact ⟨fun h => (by cases h), fun h => absurd hseen h.2.1.1⟩
    by_cases hknown : referenced d.decl.name = true
    · rw [if_neg (by simpa using hseen), if_pos hknown]
      exact ⟨fun h => (by cases h), fun h => by rw [hknown] at h; cases h.2.1.2⟩
    rw [if_neg (by simpa using hseen), if_neg hknown]
    refine ih.trans ⟨fun ⟨hnodup, hnew⟩ => ⟨⟨fun hmem => ?_, hnodup⟩, ⟨hseen, by simpa using hknown⟩,
      fun e he => ⟨fun hmem => (hnew e he).1 (List.mem_cons_of_mem _ hmem), (hnew e he).2⟩⟩, ?_⟩
    · obtain ⟨e, he, hname⟩ := List.mem_map.1 hmem
      exact (hnew e he).1 (hname ▸ List.mem_cons_self)
    · rintro ⟨⟨hnotin, hnodup⟩, -, hnew⟩
      refine ⟨hnodup, fun e he => ⟨fun hmem => ?_, (hnew e he).2⟩⟩
      rcases List.mem_cons.1 hmem with hname | hmem
      · exact hnotin (hname ▸ List.mem_map_of_mem (f := fun d : Declared => d.decl.name) he)
      · exact (hnew e he).1 hmem

theorem declare_of_eq_nil {seen : List String} {ds : List Declared}
    (h : (declare referenced seen ds).1 = []) : declare referenced seen ds = ([], ds) := by
  induction ds generalizing seen with
  | nil => rfl
  | cons d rest ih =>
    simp only [declare] at h ⊢
    split at h
    · cases h
    · rename_i hseen
      split at h
      · cases h
      · rename_i hknown
        rw [if_neg hseen, if_neg hknown, ih h]

/-- Whether every method of a class is found under its own name. -/
def ClassDef.Keyed (c : ClassDef) : Prop := ∀ key m, c.methods.get? key = some m → m.name = key

theorem methodTable_keyed (file type : String) (methods : List Method) {table : NameMap Method}
    (h : ∀ key m, table.get? key = some m → m.name = key) :
    ∀ key m, (methodTable file type methods table).2.get? key = some m → m.name = key := by
  induction methods generalizing table with
  | nil => exact h
  | cons m rest ih =>
    have hinsert : ∀ key m', (table.insert m.name m).get? key = some m' → m'.name = key := by
      intro key m' hm'
      by_cases hkey : key = m.name
      · subst hkey
        rw [NameMap.get?_insert_self] at hm'
        cases hm'
        rfl
      · exact h key m' (by rwa [NameMap.get?_insert_of_ne _ hkey] at hm')
    rw [methodTable]
    dsimp only
    split <;> exact ih hinsert

/-- A class whose names are resolved without an error has a base that is known, or none. -/
theorem resolve_eq_nil (h : (resolve known d).1 = []) : ∃ c, (resolve known d).2 = some c ∧
    c.name = d.decl.name ∧ c.Keyed ∧ ∀ base, c.base = some base → known base = true := by
  have hkeyed := methodTable_keyed d.file d.decl.name d.decl.methods
    fun key m (hm : NameMap.empty.get? key = some m) => by cases hm
  unfold resolve at h ⊢
  dsimp only at h ⊢
  rcases hbase : d.decl.base with _ | written
  · exact ⟨_, rfl, rfl, hkeyed, fun base hnone => by cases hnone⟩
  · simp only [hbase] at h ⊢
    rcases hfound : (candidates written d.decl.scope d.uses).find? known with _ | full
    · rw [hfound] at h
      cases h
    · refine ⟨_, rfl, rfl, hkeyed, fun base hfull => ?_⟩
      cases hfull
      exact List.find?_some hfound

theorem resolve_all {ds : List Declared} (h : ∀ d ∈ ds, (resolve known d).1 = []) :
    ((ds.map (resolve known)).filterMap Prod.snd).map ClassDef.name = ds.map (fun d => d.decl.name) ∧
    ∀ c ∈ (ds.map (resolve known)).filterMap Prod.snd,
      c.Keyed ∧ ∀ base, c.base = some base → known base = true := by
  induction ds with
  | nil => exact ⟨rfl, by simp⟩
  | cons d rest ih =>
    obtain ⟨c, hc, hname, hresolved⟩ := resolve_eq_nil (h d List.mem_cons_self)
    obtain ⟨hnames, hall⟩ := ih fun e he => h e (List.mem_cons_of_mem d he)
    rw [List.map_cons, List.filterMap_cons_some hc]
    refine ⟨by rw [List.map_cons, List.map_cons, hname, hnames], fun e he => ?_⟩
    rcases List.mem_cons.1 he with rfl | he
    · exact hresolved
    · exact hall e he

theorem classNamed?_eq_some {name : String} {c : ClassDef} (h : classNamed? classes name = some c) :
    c ∈ classes ∧ c.name = name :=
  ⟨List.mem_of_find?_eq_some h, by simpa using List.find?_some h⟩

theorem isSome_classNamed? {name : String} (h : name ∈ classes.map ClassDef.name) :
    (classNamed? classes name).isSome = true := by
  obtain ⟨c, hc, rfl⟩ := List.mem_map.1 h
  exact List.find?_isSome.2 ⟨c, hc, by simp⟩

/-- Among classes with names of their own, a name leads to the class that has it. -/
theorem classNamed?_eq_some_iff (h : (classes.map ClassDef.name).Nodup) {name : String}
    {c : ClassDef} : classNamed? classes name = some c ↔ c ∈ classes ∧ c.name = name := by
  refine ⟨classNamed?_eq_some, ?_⟩
  rintro ⟨hc, rfl⟩
  obtain ⟨d, hd⟩ := Option.isSome_iff_exists.1
    (isSome_classNamed? (List.mem_map_of_mem (f := ClassDef.name) hc))
  obtain ⟨hmem, hname⟩ := classNamed?_eq_some hd
  rw [hd, List.inj_on_of_nodup_map h hmem hc hname]

/-- A table of classes with names of their own answers with the class of the name. -/
theorem get?_classTable (h : (classes.map ClassDef.name).Nodup) (name : String) :
    (classTable classes).get? name = classNamed? classes name := by
  have hlookup : ∀ l : List ClassDef, (l.map fun c => (c.name, c)).lookup name =
      classNamed? l name := by
    intro l
    induction l with
    | nil => rfl
    | cons c rest ih =>
      rw [List.map_cons, List.lookup_cons, ih, classNamed?, classNamed?, List.find?_cons,
        BEq.comm]
  have hreverse : (classes.reverse.map ClassDef.name).Nodup := by
    rw [List.map_reverse]
    exact List.nodup_reverse.2 h
  rw [classTable, NameMap.get?_ofList, ← List.map_reverse, hlookup]
  refine Option.ext fun c => ?_
  rw [classNamed?_eq_some_iff hreverse, classNamed?_eq_some_iff h, List.mem_reverse]

end Steps

/-! ## Bases within a batch -/

/-- Whether the bases of a class that can be found end. -/
inductive Grounded (find : String → Option ClassDef) : ClassDef → Prop where
  | mk {c : ClassDef} : (∀ base d, c.base = some base → find base = some d → Grounded find d) →
    Grounded find c

/-- Bases that do not come back end, since every step sees a name that is new. -/
theorem grounded_of_returnsTo {classes : List ClassDef} {find : String → Option ClassDef}
    (hfind : ∀ name d, find name = some d →
      ∃ d₀, classNamed? classes name = some d₀ ∧ d.base = d₀.base)
    {fuel : Nat} {seen : List String} {current : Option String} (hnodup : seen.Nodup)
    (hseen : ∀ name ∈ seen, name ∈ classes.map ClassDef.name)
    (hfuel : classes.length < fuel + seen.length)
    (h : returnsTo classes fuel seen current = false) :
    ∀ base d, current = some base → find base = some d → Grounded find d := by
  induction fuel generalizing seen current with
  | zero =>
    have hlength := (List.subperm_of_subset hnodup hseen).length_le
    rw [List.length_map] at hlength
    omega
  | succ fuel ih =>
    rintro base d rfl hd
    obtain ⟨d₀, hd₀, hbase⟩ := hfind base d hd
    simp only [returnsTo] at h
    split at h
    · cases h
    · rename_i hnew
      obtain ⟨hmem, hname⟩ := classNamed?_eq_some hd₀
      rw [hd₀, Option.bind_some, ← hbase] at h
      refine .mk (ih (List.nodup_cons.2 ⟨by simpa using hnew, hnodup⟩) ?_ ?_ h)
      · intro name hname'
        rcases List.mem_cons.1 hname' with rfl | hold
        · exact hname ▸ List.mem_map_of_mem hmem
        · exact hseen name hold
      · rw [List.length_cons]
        omega

/-! ## Linked modules -/

theorem findClass?_eq (m : Module) (name : String) :
    m.findClass? name = (m.classes.get? name).or (Module.findIn? name m.references) := by
  obtain ⟨units, classes, references⟩ := m
  rw [Module.findClass?]
  show _ = (classes.get? name).or _
  cases classes.get? name <;> rfl

/-- An action of a class is a method of its own or of one of its bases. -/
theorem mem_of_contains_actionTable {find : String → Option ClassDef} {c : ClassDef}
    {action : String} (h : (actionTable find c).contains action = true) :
    ∃ d ∈ ancestry find maxInheritanceDepth c, ∃ m ∈ d.methods.values, m.name = action := by
  let listed (table : NameMap String) : Prop := table.contains action = true →
    ∃ d ∈ ancestry find maxInheritanceDepth c, ∃ m ∈ d.methods.values, m.name = action
  refine List.foldlRecOn (motive := listed) _ _ (fun h => by cases h) (fun table htable d hd => ?_) h
  refine List.foldlRecOn (motive := listed) _ _ htable fun table htable m hm h => ?_
  by_cases hname : m.name = action
  · exact ⟨d, List.mem_reverse.1 hd, m, hm, hname⟩
  · refine htable ?_
    split at h
    · rwa [NameMap.contains, NameMap.get?_insert_of_ne _ (Ne.symm hname)] at h
    · exact h

/-- A class of a batch or, if the batch has none of the name, of the modules it refers to. -/
def visible? (classes : List ClassDef) (references : List Module) (name : String) : Option ClassDef :=
  match classNamed? classes name with
  | some c => some c
  | none => Module.findIn? name references

theorem visible?_eq (classes : List ClassDef) (references : List Module) (name : String) :
    visible? classes references name =
      (classNamed? classes name).or (Module.findIn? name references) := by
  unfold visible?
  cases classNamed? classes name <;> rfl

/-- A class with its table of actions. -/
def ClassDef.finish (find : String → Option ClassDef) (c : ClassDef) : ClassDef :=
  { c with actions := actionTable find c }

/-- The module of the classes of a batch. -/
def finishedModule (units : List SourceUnit) (classes : List ClassDef) (references : List Module) :
    Module :=
  .mk units (classTable (classes.map (ClassDef.finish (visible? classes references)))) references

theorem ClassDef.bare_finish (find : String → Option ClassDef) (c : ClassDef) :
    (c.finish find).bare = c.bare := rfl

theorem map_name_finish (find : String → Option ClassDef) (classes : List ClassDef) :
    (classes.map (ClassDef.finish find)).map ClassDef.name = classes.map ClassDef.name := by
  rw [List.map_map]
  rfl

/-- What it means that linking finds no error in the classes of a batch. -/
structure Faultless (classes : List ClassDef) (references : List Module) : Prop where
  /-- Every name is declared once. -/
  nodup : (classes.map ClassDef.name).Nodup
  /-- No module that is referred to declares it. -/
  new : ∀ c ∈ classes, Module.findIn? c.name references = none
  /-- Every base is there. -/
  based : ∀ c ∈ classes, ∀ base, c.base = some base → ∃ d, visible? classes references base = some d
  /-- Methods have names of their own. -/
  keyed : ∀ c ∈ classes, c.Keyed
  /-- No class is among its own bases. -/
  ending : cycles classes = []
  /-- Every name read and every call made exists. -/
  bodies : ∀ c ∈ classes, bodyErrors (visible? classes references) c = []

/-- Whether a name is declared in a batch or in the modules it refers to. -/
def isKnown (units : List SourceUnit) (references : List Module) (name : String) : Bool :=
  ((declarations units).map fun d => d.decl.name).contains name ||
    (Module.findIn? name references).isSome

/-- The classes of a batch with their names resolved. -/
def resolvedClasses (units : List SourceUnit) (references : List Module) : List ClassDef :=
  ((declarations units).map (resolve (isKnown units references))).filterMap Prod.snd

/-- A batch is linked if no step of linking finds an error. -/
theorem link_eq_ok_iff {units : List SourceUnit} {references : List Module} {m : Module} :
    link units references = .ok m ↔
      (declare (fun name => (Module.findIn? name references).isSome) [] (declarations units)).1 = [] ∧
      (∀ d ∈ declarations units, (resolve (isKnown units references) d).1 = []) ∧
      cycles (resolvedClasses units references) = [] ∧
      (∀ c ∈ resolvedClasses units references,
        bodyErrors (visible? (resolvedClasses units references) references) c = []) ∧
      m = finishedModule units (resolvedClasses units references) references := by
  unfold link
  dsimp only
  constructor
  · intro h
    split at h
    · cases h
    · rename_i hnames
      split at h
      · cases h
      · rename_i hbodies
        simp only [Bool.not_eq_true, Bool.not_eq_false', List.isEmpty_iff, List.append_eq_nil_iff,
          List.flatMap_eq_nil_iff] at hnames hbodies
        obtain ⟨⟨hdeclare, hresolve⟩, hcycles⟩ := hnames
        rw [declare_of_eq_nil hdeclare] at h hresolve hcycles hbodies
        cases h
        exact ⟨hdeclare, fun d hd => hresolve _ (List.mem_map_of_mem hd), hcycles, hbodies, rfl⟩
  · rintro ⟨hdeclare, hresolve, hcycles, hbodies, rfl⟩
    have hresolve' : ((declarations units).map (resolve (isKnown units references))).flatMap
        Prod.fst = [] := by
      rw [List.flatMap_eq_nil_iff]
      exact List.forall_mem_map.2 hresolve
    rw [← List.flatMap_eq_nil_iff] at hbodies
    rw [declare_of_eq_nil hdeclare]
    change (if (!([] ++ ((declarations units).map (resolve (isKnown units references))).flatMap
      Prod.fst ++ cycles (resolvedClasses units references)).isEmpty) = true then _ else if
      (!((resolvedClasses units references).flatMap
        (bodyErrors (visible? (resolvedClasses units references) references))).isEmpty) = true
      then _ else _) = _
    rw [hresolve', hcycles, hbodies]
    rfl

/-- A batch that is linked has no faults. -/
theorem faultless_of_link {units : List SourceUnit} {references : List Module} {m : Module}
    (h : link units references = .ok m) : Faultless (resolvedClasses units references) references ∧
      m = finishedModule units (resolvedClasses units references) references := by
  obtain ⟨hdeclare, hresolve, hcycles, hbodies, rfl⟩ := link_eq_ok_iff.1 h
  obtain ⟨hnodup, hnew⟩ := declare_eq_nil_iff.1 hdeclare
  obtain ⟨hsame, hresolved⟩ := resolve_all hresolve
  have hdeclared : ∀ c ∈ resolvedClasses units references,
      ∃ d ∈ declarations units, d.decl.name = c.name := fun c hc =>
    List.mem_map.1 (hsame ▸ List.mem_map_of_mem (f := ClassDef.name) hc)
  refine ⟨⟨hsame ▸ hnodup, ?_, ?_, fun c hc => (hresolved c hc).1, hcycles, hbodies⟩, rfl⟩
  · intro c hc
    obtain ⟨d, hd, hname⟩ := hdeclared c hc
    exact hname ▸ Option.not_isSome_iff_eq_none.1 (by simp [(hnew d hd).2])
  · intro c hc base hbase
    have hknown := (hresolved c hc).2 base hbase
    rw [isKnown, Bool.or_eq_true, List.contains_iff_mem, ← hsame] at hknown
    rw [visible?_eq, ← Option.isSome_iff_exists, Option.isSome_or, Bool.or_eq_true]
    exact hknown.imp_left isSome_classNamed?

/-- What linking establishes for the classes of a module. -/
structure Module.Checked (m : Module) : Prop where
  /-- A class is found under its own name. -/
  named : ∀ name c, m.classes.get? name = some c → c.name = name
  /-- No module that is referred to declares it. -/
  new : ∀ name c, m.classes.get? name = some c → Module.findIn? name m.references = none
  /-- Its methods have names of their own. -/
  keyed : ∀ name c, m.classes.get? name = some c → c.Keyed
  /-- Its base is there. -/
  based : ∀ name c base, m.classes.get? name = some c → c.base = some base →
    ∃ d, m.findClass? base = some d
  /-- Its bases within the module end. -/
  grounded : ∀ name c, m.classes.get? name = some c → Grounded m.classes.get? c
  /-- Every name read and every call made exists. -/
  bodies : ∀ name c, m.classes.get? name = some c → bodyErrors m.findClass? c = []
  /-- Its actions are methods of its own or of its bases. -/
  actions : ∀ name c action, m.classes.get? name = some c → c.actions.contains action = true →
    ∃ o, m.owner? c action = some o

section Faultless

variable {units : List SourceUnit} {references : List Module} {classes : List ClassDef}

/-- The module of a batch leads from a name to the class of the name, which is finished. -/
theorem Faultless.get?_eq_some_iff (h : Faultless classes references) {name : String} {c : ClassDef} :
    (finishedModule units classes references).classes.get? name = some c ↔
      ∃ c₀ ∈ classes, c₀.name = name ∧ c₀.finish (visible? classes references) = c := by
  have hnames := map_name_finish (visible? classes references) classes
  show (classTable _).get? name = some c ↔ _
  rw [get?_classTable (hnames.symm ▸ h.nodup), classNamed?_eq_some_iff (hnames.symm ▸ h.nodup),
    List.mem_map]
  constructor
  · rintro ⟨⟨c₀, hc₀, rfl⟩, hname⟩
    exact ⟨c₀, hc₀, hname, rfl⟩
  · rintro ⟨c₀, hc₀, hname, rfl⟩
    exact ⟨⟨c₀, hc₀, rfl⟩, hname⟩

/-- A class that a batch refers to, no class of the batch standing in its place. -/
theorem Faultless.findClass?_of_findIn? (h : Faultless classes references) {name : String}
    {c : ClassDef} (hc : Module.findIn? name references = some c) :
    (finishedModule units classes references).findClass? name = some c := by
  rw [findClass?_eq, Option.or_eq_some_iff]
  refine .inr ⟨Option.eq_none_iff_forall_not_mem.2 fun d hd => ?_, hc⟩
  obtain ⟨c₀, hc₀, rfl, -⟩ := h.get?_eq_some_iff.1 hd
  rw [h.new c₀ hc₀] at hc
  cases hc

/-- The classes of a module differ by their actions only from those that were checked. -/
theorem Faultless.refines (h : Faultless classes references) :
    Refines (visible? classes references) (finishedModule units classes references).findClass? := by
  intro name c hc
  rw [visible?_eq, Option.or_eq_some_iff] at hc
  rcases hc with hc | ⟨-, hc⟩
  · refine ⟨c.finish (visible? classes references), ?_, c.bare_finish _⟩
    obtain ⟨hmem, hname⟩ := classNamed?_eq_some hc
    show Module.findClass? name _ = _
    rw [findClass?_eq, h.get?_eq_some_iff.2 ⟨c, hmem, hname, rfl⟩, Option.some_or]
  · exact ⟨c, h.findClass?_of_findIn? hc, rfl⟩

/-- What linking finds out about a batch holds of the module. -/
theorem Faultless.checked (h : Faultless classes references) (units : List SourceUnit)
    (hkeyed : ∀ name c, Module.findIn? name references = some c → c.Keyed) :
    (finishedModule units classes references).Checked where
  named name c hc := by
    obtain ⟨c₀, -, rfl, rfl⟩ := h.get?_eq_some_iff.1 hc
    rfl
  new name c hc := by
    obtain ⟨c₀, hc₀, rfl, -⟩ := h.get?_eq_some_iff.1 hc
    exact h.new c₀ hc₀
  keyed name c hc := by
    obtain ⟨c₀, hc₀, -, rfl⟩ := h.get?_eq_some_iff.1 hc
    exact h.keyed c₀ hc₀
  based name c base hc hbase := by
    obtain ⟨c₀, hc₀, -, rfl⟩ := h.get?_eq_some_iff.1 hc
    obtain ⟨d, hd⟩ := h.based c₀ hc₀ base hbase
    obtain ⟨d', hd', -⟩ := h.refines base d hd
    exact ⟨d', hd'⟩
  grounded name c hc := by
    obtain ⟨c₀, hc₀, rfl, rfl⟩ := h.get?_eq_some_iff.1 hc
    have hends : returnsTo classes (classes.length + 1) [c₀.name] c₀.base = false := by
      have hnone := List.filterMap_eq_nil_iff.1 h.ending c₀ hc₀
      by_contra hreturns
      rw [if_pos (by simpa using hreturns)] at hnone
      cases hnone
    refine .mk (grounded_of_returnsTo ?_ (List.nodup_singleton _) ?_ ?_ hends)
    · intro name d hd
      obtain ⟨d₀, hd₀, hname, rfl⟩ := h.get?_eq_some_iff.1 hd
      exact ⟨d₀, (classNamed?_eq_some_iff h.nodup).2 ⟨hd₀, hname⟩, rfl⟩
    · intro name hname
      cases List.mem_singleton.1 hname
      exact List.mem_map_of_mem hc₀
    · rw [List.length_singleton]
      omega
  bodies name c hc := by
    obtain ⟨c₀, hc₀, -, rfl⟩ := h.get?_eq_some_iff.1 hc
    exact bodyErrors_eq_nil_of_refines h.refines (c₀.bare_finish _) (h.bodies c₀ hc₀)
  actions name c action hc haction := by
    obtain ⟨c₀, hc₀, -, rfl⟩ := h.get?_eq_some_iff.1 hc
    obtain ⟨d, hd, meth, hmeth, rfl⟩ := mem_of_contains_actionTable haction
    have hdkeyed : d.Keyed := by
      rcases find_of_mem_ancestry hd with rfl | ⟨name, hfound⟩
      · exact h.keyed d hc₀
      · rw [visible?_eq, Option.or_eq_some_iff] at hfound
        exact hfound.elim (fun hown => h.keyed d (classNamed?_eq_some hown).1)
          fun hother => hkeyed name d hother.2
    obtain ⟨key, hkey⟩ := NameMap.mem_values.1 hmeth
    have howns : d.methods.contains meth.name = true := by
      rw [NameMap.contains, hdkeyed key meth hkey, hkey]
      rfl
    obtain ⟨o, ho⟩ := exists_owner? hd howns
    obtain ⟨o', ho', -⟩ := owner?_of_refines h.refines (c₀.bare_finish _) ho
    exact ⟨o', ho'⟩

end Faultless

/-! ## Linked modules -/

/-- A module that was linked against modules which were linked themselves. -/
inductive Module.Linked : Module → Prop where
  | mk {units : List SourceUnit} {references : List Module} {m : Module} :
    (∀ r ∈ references, Module.Linked r) → link units references = .ok m → Module.Linked m

/-- A class found in one of several modules is declared in or below one of them. -/
theorem findClass?_of_findIn? {references : List Module} {name : String} {c : ClassDef}
    (h : Module.findIn? name references = some c) : ∃ r ∈ references, r.findClass? name = some c := by
  induction references with
  | nil => cases h
  | cons r rest ih =>
    rw [findIn?_cons, Option.or_eq_some_iff] at h
    rcases h with h | ⟨-, h⟩
    · exact ⟨r, List.mem_cons_self, h⟩
    · obtain ⟨r', hr', hfound⟩ := ih h
      exact ⟨r', List.mem_cons_of_mem r hr', hfound⟩

/-- The classes of a checked module have bases that end, if those it refers to have. -/
theorem Module.Checked.rooted {m : Module} (h : m.Checked)
    (hrefs : Rooted fun name => Module.findIn? name m.references) : Rooted m.findClass? := by
  have hbelow : ∀ name d, Module.findIn? name m.references = some d → m.findClass? name = some d := by
    intro name d hd
    rw [findClass?_eq, Option.or_eq_some_iff]
    refine .inr ⟨Option.eq_none_iff_forall_not_mem.2 fun c hc => ?_, hd⟩
    rw [h.new name c hc] at hd
    cases hd
  have hfar : ∀ name d, Module.findIn? name m.references = some d →
      ∃ chain, BaseChain m.findClass? d chain := by
    intro name d hd
    obtain ⟨chain, hchain⟩ := hrefs name d hd
    exact ⟨chain, hchain.mono hbelow⟩
  have hown : ∀ name c, m.classes.get? name = some c → ∃ chain, BaseChain m.findClass? c chain := by
    intro name c hc
    have hground := h.grounded name c hc
    induction hground generalizing name with
    | @mk c _ ih =>
      rcases hbase : c.base with _ | base
      · exact ⟨[c], .root hbase⟩
      · obtain ⟨d, hd⟩ := h.based name c base hc hbase
        have hbase? : c.base? m.findClass? = some d := base?_eq_some_iff.2 ⟨base, hbase, hd⟩
        rw [findClass?_eq, Option.or_eq_some_iff] at hd
        obtain ⟨chain, hchain⟩ : ∃ chain, BaseChain m.findClass? d chain :=
          hd.elim (fun hd => ih base d hbase hd base hd) fun hd => hfar base d hd.2
        exact ⟨c :: chain, .derived hbase? hchain⟩
  intro name c hc
  dsimp only at hc
  rw [findClass?_eq, Option.or_eq_some_iff] at hc
  exact hc.elim (hown name c) fun hc => hfar name c hc.2

namespace Module.Linked

variable {m : Module}

/-- What holds of the modules below holds of a linked module. -/
theorem sound (h : m.Linked) : m.Checked ∧ (∀ name c, m.findClass? name = some c → c.Keyed) ∧
    Rooted m.findClass? := by
  induction h with
  | @mk units references m hrefs hlink ih =>
    have hkeyed : ∀ name c, Module.findIn? name references = some c → c.Keyed := by
      intro name c hc
      obtain ⟨r, hr, hfound⟩ := findClass?_of_findIn? hc
      exact (ih r hr).2.1 name c hfound
    obtain ⟨hfaultless, rfl⟩ := faultless_of_link hlink
    have hchecked := hfaultless.checked units hkeyed
    refine ⟨hchecked, ?_, hchecked.rooted (rooted_findIn? fun r hr => (ih r hr).2.2)⟩
    intro name c hc
    rw [findClass?_eq, Option.or_eq_some_iff] at hc
    exact hc.elim (hchecked.keyed name c) fun hc => hkeyed name c hc.2

theorem checked (h : m.Linked) : m.Checked := h.sound.1

/-- **In a linked module the bases of every class end.** -/
theorem rooted (h : m.Linked) : Rooted m.findClass? := h.sound.2.2

end Module.Linked

end SiteHost.Script
