import SiteHost.Script.Run
import SiteHost.Proofs.Script.Sealed

/-!
# Actions and dispatch

A class lists the methods that may be called from outside. The list is filled from the farthest base to
the class itself and takes exposed methods only; a call is dispatched to the nearest declaration, exposed
or hidden. The two are compared along one base chain:

* `nearest?` — the nearest declaration of a method in a chain, with its class;
* `ClassDef.exposes` — whether a class declares a method and exposes it;
* `Conceals` — whether the nearest declaration is hidden while a farther one is exposed;
* `Instance.runMethod` — what one body does for an object, without arguments.

Principal results:

* `get?_actionTable` — an action leads to the nearest class that exposes it;
* `Module.Linked.get?_actions` — so does the table of every class a linked module finds;
* `Instance.run_eq_nearest` — a call runs the nearest declaration;
* `actions_agree_iff` — the two agree if and only if nothing exposed is concealed.
-/

namespace SiteHost.Script

/-- Whether a class declares a method and exposes it. -/
def ClassDef.exposes (c : ClassDef) (action : String) : Bool :=
  (c.methods.get? action).any fun m => m.visibility = .exposed

/-- The nearest declaration of a method among the classes of a chain that are followed. -/
def nearest? (chain : List ClassDef) (action : String) : Option (ClassDef × Method) :=
  (chain.take maxInheritanceDepth).findSome? fun d => (d.methods.get? action).map (d, ·)

/-- Whether the nearest declaration of a method is hidden while a farther one is exposed. -/
def Conceals (chain : List ClassDef) (action : String) : Prop :=
  (∃ d m, nearest? chain action = some (d, m) ∧ m.visibility = .hidden) ∧
    ∃ d ∈ chain.take maxInheritanceDepth, d.exposes action = true

/-- What the body of a method does for an object, without arguments. -/
def Instance.runMethod (i : Instance) (module : Module) (owner : ClassDef) (m : Method)
    (request : Request) : Except InvokeError Response × Instance :=
  match (runBody ⟨module, request⟩ maxCallDepth owner m []).run ⟨i, .initial⟩ with
  | (.ok _, s) => (.ok s.response, s.self)
  | (.error e, s) => (.error (.runtime i.cls.name e.message), s.self)

variable {find find' : String → Option ClassDef} {c d : ClassDef} {chain : List ClassDef}
  {action : String} {m k : Module} {name : String}

/-! ## The table of actions -/

/-- What one class adds to a table: its exposed methods. -/
theorem get?_exposed (h : d.Keyed) (table : NameMap String) (action : String) :
    (d.methods.values.foldl (fun table m =>
      if m.visibility = .exposed then table.insert m.name d.name else table) table).get? action =
      if d.exposes action then some d.name else table.get? action := by
  have hfold : ∀ (ms : List Method) (table : NameMap String), (ms.foldl (fun table m =>
      if m.visibility = .exposed then table.insert m.name d.name else table) table).get? action =
      if ∃ m ∈ ms, m.name = action ∧ m.visibility = .exposed then some d.name
      else table.get? action := by
    intro ms
    induction ms with
    | nil => simp
    | cons m rest ih =>
      intro table
      rw [List.foldl_cons, ih]
      by_cases hrest : ∃ m ∈ rest, m.name = action ∧ m.visibility = .exposed
      · obtain ⟨m', hm', hexposed⟩ := hrest
        rw [if_pos ⟨m', hm', hexposed⟩, if_pos ⟨m', List.mem_cons_of_mem m hm', hexposed⟩]
      rw [if_neg hrest]
      by_cases hm : m.name = action ∧ m.visibility = .exposed
      · rw [if_pos hm.2, hm.1, NameMap.get?_insert_self, if_pos ⟨m, List.mem_cons_self, hm⟩]
      · have hnone : ¬ ∃ m' ∈ m :: rest, m'.name = action ∧ m'.visibility = .exposed := by
          rintro ⟨m', hm', hexposed⟩
          rcases List.mem_cons.1 hm' with rfl | hm'
          · exact hm hexposed
          · exact hrest ⟨m', hm', hexposed⟩
        rw [if_neg hnone]
        split
        · rename_i hvisible
          exact NameMap.get?_insert_of_ne _ (fun heq => hm ⟨heq.symm, hvisible⟩) _
        · rfl
  have hiff : (∃ m ∈ d.methods.values, m.name = action ∧ m.visibility = .exposed) ↔
      d.exposes action = true := by
    rw [ClassDef.exposes, Option.any_eq_true]
    constructor
    · rintro ⟨m, hm, hname, hvisible⟩
      obtain ⟨key, hkey⟩ := NameMap.mem_values.1 hm
      exact ⟨m, by rw [← hname, h key m hkey, hkey], by simpa using hvisible⟩
    · rintro ⟨m, hm, hvisible⟩
      exact ⟨m, NameMap.mem_values.2 ⟨action, hm⟩, h action m hm, by simpa using hvisible⟩
  rw [hfold]
  exact if_congr hiff rfl rfl

/-- **An action leads to the nearest class that exposes it.** -/
theorem get?_actionTable (h : ∀ d ∈ ancestry find maxInheritanceDepth c, d.Keyed) (action : String) :
    (actionTable find c).get? action =
      ((ancestry find maxInheritanceDepth c).find? (·.exposes action)).map ClassDef.name := by
  rw [actionTable, List.foldl_reverse]
  generalize ancestry find maxInheritanceDepth c = classes at h ⊢
  induction classes with
  | nil => rfl
  | cons d rest ih =>
    rw [List.foldr_cons, get?_exposed (h d List.mem_cons_self),
      ih fun e he => h e (List.mem_cons_of_mem d he), List.find?_cons]
    cases d.exposes action <;> rfl

/-! ## The table of a linked class -/

/-- What a finished module finds, its batch had, but for the actions. -/
theorem Faultless.refined {units : List SourceUnit} {classes : List ClassDef}
    {references : List Module} (h : Faultless classes references) :
    Refines (finishedModule units classes references).findClass? (visible? classes references) := by
  intro name c hc
  dsimp only at hc
  rw [findClass?_eq, Option.or_eq_some_iff] at hc
  rcases hc with hc | ⟨hnone, hc⟩
  · obtain ⟨c₀, hc₀, rfl, rfl⟩ := h.get?_eq_some_iff.1 hc
    refine ⟨c₀, ?_, (c₀.bare_finish _).symm⟩
    rw [visible?_eq, (classNamed?_eq_some_iff h.nodup).2 ⟨hc₀, rfl⟩, Option.some_or]
  · refine ⟨c, ?_, rfl⟩
    rw [visible?_eq, Option.or_eq_some_iff]
    refine .inr ⟨Option.eq_none_iff_forall_not_mem.2 fun d hd => ?_, hc⟩
    obtain ⟨hmem, hname⟩ := classNamed?_eq_some hd
    rw [h.get?_eq_some_iff.2 ⟨d, hmem, hname, rfl⟩] at hnone
    cases hnone

/-- Who finds the same classes, but for the actions, sees the same bases, but for the actions. -/
theorem ancestry_eq_of_refines (h : Refines find find') (h' : Refines find' find)
    (hcd : d.bare = c.bare) (depth : Nat) :
    (ancestry find depth c).map ClassDef.bare = (ancestry find' depth d).map ClassDef.bare :=
  (ancestry_of_refines h hcd depth).eq_of_length_le (ancestry_of_refines h' hcd.symm depth).length_le

theorem find?_exposes_bare (classes : List ClassDef) (action : String) :
    (classes.find? (·.exposes action)).map ClassDef.name =
      ((classes.map ClassDef.bare).find? (·.exposes action)).map ClassDef.name := by
  rw [List.find?_map, Option.map_map]
  rfl

namespace Module.Linked

/-- The actions of a class that a linked module declares. -/
theorem get?_actions_of_declared (h : k.Linked) (hc : k.classes.get? name = some c)
    (hchain : BaseChain k.findClass? c chain) (action : String) : c.actions.get? action =
      ((chain.take maxInheritanceDepth).find? (·.exposes action)).map ClassDef.name := by
  have hkeyed := h.sound.2.1
  cases h with
  | @mk units references _ hrefs hlink =>
    obtain ⟨hfaultless, rfl⟩ := faultless_of_link hlink
    obtain ⟨c₀, hc₀, hname, hfinish⟩ := hfaultless.get?_eq_some_iff.1 hc
    have hbare : c₀.bare = c.bare := by rw [← hfinish, ClassDef.bare_finish]
    have hrefines : Refines _ (finishedModule units _ references).findClass? := hfaultless.refines
    have hsame := ancestry_eq_of_refines hrefines hfaultless.refined hbare.symm maxInheritanceDepth
    have hkeyed₀ : ∀ d ∈ ancestry (visible? (resolvedClasses units references) references)
        maxInheritanceDepth c₀, d.Keyed := by
      intro d hd
      rcases find_of_mem_ancestry hd with rfl | ⟨name', hfound⟩
      · exact hfaultless.keyed d hc₀
      · obtain ⟨d', hd', hdbare⟩ := hfaultless.refines name' d hfound
        intro key meth hmeth
        obtain ⟨-, -, -, hmethods, -⟩ := ClassDef.bare_eq_iff.1 hdbare
        exact hkeyed name' d' hd' key meth (hmethods ▸ hmeth)
    rw [← hfinish]
    show (actionTable _ c₀).get? action = _
    rw [get?_actionTable hkeyed₀, find?_exposes_bare, hsame, hchain.ancestry_eq_take,
      ← find?_exposes_bare]

/-- **An action of a class that is found leads to the nearest class that exposes it.** -/
theorem get?_actions (h : m.Linked) (hm : m.Unambiguous) (hc : m.findClass? name = some c)
    (hchain : BaseChain m.findClass? c chain) (action : String) : c.actions.get? action =
      ((chain.take maxInheritanceDepth).find? (·.exposes action)).map ClassDef.name := by
  obtain ⟨k, hk, hget⟩ := exists_within_of_findClass? m hc
  have hfound : k.findClass? name = some c := by rw [findClass?_eq, hget, Option.some_or]
  obtain ⟨chain', hchain'⟩ := (h.within hk).rooted name c hfound
  have hsame : chain' = chain :=
    (hchain'.mono fun name d hd => findClass?_of_within hm hk hd).unique hchain
  exact hsame ▸ (h.within hk).get?_actions_of_declared hget hchain' action

end Module.Linked

/-! ## The body that is run -/

theorem nearest?_eq (chain : List ClassDef) (action : String) : nearest? chain action =
    ((chain.take maxInheritanceDepth).find? fun d => d.methods.contains action).bind fun d =>
      (d.methods.get? action).map (d, ·) := by
  rw [nearest?]
  generalize chain.take maxInheritanceDepth = classes
  induction classes with
  | nil => rfl
  | cons d rest ih =>
    rw [List.findSome?_cons, List.find?_cons, NameMap.contains, ih]
    cases hd : d.methods.get? action with
    | none => rfl
    | some meth => simp [hd]

/-- **A call from outside runs the nearest declaration.** -/
theorem Instance.run_eq_nearest {i : Instance} (hi : i.cls = c)
    (hchain : BaseChain m.findClass? c chain) (request : Request) : i.run m action request =
      match nearest? chain action with
      | some (d, meth) => i.runMethod m d meth request
      | none => (.error (.runtime c.name (RunError.noMethod c.name action).message), i) := by
  have howner : (m.owner? c action).bind (fun d => (d.methods.get? action).map (d, ·)) =
      nearest? chain action := by
    rw [Module.owner?, owner?, hchain.ancestry_eq_take, nearest?_eq]
  unfold Instance.run
  simp only [dispatch, hi, howner]
  cases nearest? chain action with
  | none => rfl
  | some found =>
    subst hi
    rfl

/-- A class that exposes a method declares it, so that there is a nearest declaration. -/
theorem exists_nearest? (hd : d ∈ chain.take maxInheritanceDepth) (h : d.exposes action = true) :
    ∃ o meth, nearest? chain action = some (o, meth) := by
  obtain ⟨meth, hmeth, -⟩ := (Option.any_eq_true _ _).1 h
  have hsome : (nearest? chain action).isSome = true := by
    rw [nearest?, List.findSome?_isSome_iff]
    exact ⟨d, hd, by rw [hmeth]; rfl⟩
  obtain ⟨⟨o, meth'⟩, hfound⟩ := Option.isSome_iff_exists.1 hsome
  exact ⟨o, meth', hfound⟩

/-- The nearest declaration, if it is exposed, is the nearest exposed one. -/
theorem find?_exposes_eq_iff : (((chain.take maxInheritanceDepth).find? (·.exposes action)).map
      ClassDef.name = (nearest? chain action).bind fun (d, meth) =>
        if meth.visibility = .exposed then some d.name else none) ↔ ¬ Conceals chain action := by
  rw [Conceals, nearest?]
  generalize chain.take maxInheritanceDepth = classes
  induction classes with
  | nil => simp
  | cons d rest ih =>
    rw [List.find?_cons, List.findSome?_cons, ClassDef.exposes]
    cases hd : d.methods.get? action with
    | none =>
      have hd' : d.exposes action = false := by rw [ClassDef.exposes, hd]; rfl
      simpa [hd'] using ih
    | some meth =>
      cases hvisible : meth.visibility with
      | exposed => simp [hvisible]
      | hidden =>
        have hd' : d.exposes action = false := by rw [ClassDef.exposes, hd]; simp [hvisible]
        simp [hvisible, hd']

/-- **Actions agree with dispatch if and only if nothing exposed is concealed.** A class of a linked
module lists an action exactly if one of the classes that are followed exposes it, and with the nearest
of these. What a call of the action runs is the nearest declaration. So the list says what is run, unless
the nearest declaration is hidden and a farther one is exposed. -/
theorem actions_agree_iff {units : List SourceUnit} {references : List Module}
    (hrefs : ∀ r ∈ references, r.Linked) (hlink : link units references = .ok m)
    (hunambiguous : m.Unambiguous) (hc : m.findClass? name = some c) :
    ∃ chain, BaseChain m.findClass? c chain ∧ ∀ action,
      c.actions.get? action =
        ((chain.take maxInheritanceDepth).find? (·.exposes action)).map ClassDef.name ∧
      (∀ (i : Instance) (request : Request), i.cls = c → i.invoke m action request =
        match c.actions.get? action, nearest? chain action with
        | some _, some (d, meth) => i.runMethod m d meth request
        | _, _ => (.error (.unknownAction c.name action), i)) ∧
      ((c.actions.get? action = (nearest? chain action).bind fun (d, meth) =>
        if meth.visibility = .exposed then some d.name else none) ↔ ¬ Conceals chain action) := by
  have h : m.Linked := .mk hrefs hlink
  obtain ⟨chain, hchain⟩ := h.rooted name c hc
  refine ⟨chain, hchain, fun action => ?_⟩
  have hactions := h.get?_actions hunambiguous hc hchain action
  refine ⟨hactions, fun i request hi => ?_, by rw [hactions]; exact find?_exposes_eq_iff⟩
  unfold Instance.invoke
  rw [hi, NameMap.contains]
  cases hfound : c.actions.get? action with
  | none => rfl
  | some listed =>
    obtain ⟨d, hd, -⟩ := Option.map_eq_some_iff.1 (hactions.symm.trans hfound)
    have hexposes : d.exposes action = true :=
      List.find?_some (p := fun d : ClassDef => d.exposes action) hd
    obtain ⟨o, meth, hnearest⟩ := exists_nearest? (List.mem_of_find?_eq_some hd) hexposes
    rw [Option.isSome_some, if_pos rfl, Instance.run_eq_nearest hi hchain, hnearest]

/-- A unit with a class that hides a method its base exposes. -/
def turnedUnit : SourceUnit :=
  ⟨"unit.ks", [],
    [⟨"A", "", none, none, [⟨"M", .exposed, [],
        [.expr (.call ["Response", "Write"] [.text "public"] ⟨1, 29⟩)], ⟨1, 23⟩⟩], ⟨1, 7⟩⟩,
      ⟨"B", "", some "A", none, [⟨"M", .hidden, [],
        [.expr (.call ["Response", "Write"] [.text "private"] ⟨2, 26⟩)], ⟨2, 20⟩⟩], ⟨2, 7⟩⟩]⟩

def turnedModule : Module := finishedModule [turnedUnit] (resolvedClasses [turnedUnit] []) []

def turnedClass : ClassDef := (turnedModule.findClass? "B").getD default

/-- The class lists the method of its base as an action, and a call of the action runs the hidden method
of the class. -/
theorem actions_agree_iff_turned : ∃ m c i, link [turnedUnit] [] = .ok m ∧
    m.findClass? "B" = some c ∧ construct m c [] = .ok i ∧ c.actions.get? "M" = some "A" ∧
    (i.invoke m "M" .blank).1 = .ok ⟨200, "text/plain; charset=utf-8", "private"⟩ ∧
    ∃ chain, BaseChain m.findClass? c chain ∧ Conceals chain "M" := by
  refine ⟨turnedModule, turnedClass, _, rfl, rfl, rfl, by decide, rfl, ?_⟩
  obtain ⟨chain, hchain, hall⟩ := actions_agree_iff (fun r hr => absurd hr List.not_mem_nil)
    (rfl : link [turnedUnit] [] = .ok turnedModule) (Module.unambiguous_of_references_eq_nil rfl)
    (rfl : turnedModule.findClass? "B" = some turnedClass)
  obtain ⟨hactions, -, hagree⟩ := hall "M"
  have hchain' : BaseChain turnedModule.findClass? turnedClass
      [turnedClass, (turnedModule.findClass? "A").getD default] := .derived rfl (.root rfl)
  refine ⟨chain, hchain, Classical.not_not.1 fun hnot => ?_⟩
  have hnearest := hagree.2 hnot
  rw [hchain.unique hchain'] at hnearest
  exact absurd hnearest (by decide)

end SiteHost.Script
