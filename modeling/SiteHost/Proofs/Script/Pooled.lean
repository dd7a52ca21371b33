import SiteHost.Proofs.Script.Actions
import SiteHost.Proofs.Script.Carried
import SiteHost.Proofs.Script.Meanings

/-!
# Linked one by one, and all as one batch

Modules that were linked one by one, each against others, may be linked again with all their units as one
batch. Every name is resolved anew then, among more classes than before:

* `SelfContained` — whether each of several modules was linked against modules among them;
* `pooled` — their units as one batch;
* `Apart` — whether no two classes of a batch have one name;
* `Upright` — whether in a batch, with the names as it resolves them, bases end and calls exist;
* `Uncaptured` — whether every name stands for the same in the batch as in its own module.

Principal results:

* `link_pooled_iff` — the batch is linked if and only if it is apart and upright. No name is lost in it;
* `upright_of_uncaptured` — if no name is captured, a batch that is apart is upright;
* `get?_pooled` — and then every class is what it was;
* `uncaptured_iff` — if any name is captured, some class is not;
* `Module.Linked.carries_self` — a linked module has all that its classes name;
* `carries_pooled` — if no name is captured, objects do in the batch what they do in their module.
-/

namespace SiteHost.Script

/-- Whether each of several modules was linked against modules among them. -/
def SelfContained (modules : List Module) : Prop :=
  ∀ m ∈ modules, link m.units m.references = .ok m ∧ ∀ r ∈ m.references, r ∈ modules

/-- The units of several modules as one batch. -/
def pooled (modules : List Module) : List SourceUnit := modules.flatMap Module.units

/-- Whether no two classes of a batch have one name. -/
def Apart (units : List SourceUnit) : Prop := ((declarations units).map fun d => d.decl.name).Nodup

/-- Whether in a batch without references, with the names as it resolves them, the bases of every class
end, and every name read and every call made exists. -/
def Upright (units : List SourceUnit) : Prop :=
  cycles (resolvedClasses units []) = [] ∧
    ∀ c ∈ resolvedClasses units [], bodyErrors (visible? (resolvedClasses units []) []) c = []

/-- Whether every name written in a module stands for the same in the batch of all units. -/
def Uncaptured (modules : List Module) : Prop :=
  ∀ m ∈ modules, ∀ d ∈ declarations m.units, ∀ written ∈ d.written,
    d.meant? (isKnown (pooled modules) []) written = d.meant? (isKnown m.units m.references) written

instance (units : List SourceUnit) : Decidable (Apart units) :=
  inferInstanceAs (Decidable (List.Nodup _))

instance (units : List SourceUnit) : Decidable (Upright units) :=
  inferInstanceAs (Decidable (_ ∧ _))

instance (modules : List Module) : Decidable (Uncaptured modules) :=
  inferInstanceAs (Decidable (∀ m ∈ modules, ∀ d ∈ declarations m.units, ∀ written ∈ d.written, _ = _))

variable {modules : List Module} {m k : Module} {name : String} {c d : ClassDef}
  {find find' : String → Option ClassDef} {chain : List ClassDef}

/-! ## Bases, but for the actions -/

/-- Who finds all that another finds sees the same bases, but for the actions. -/
theorem BaseChain.of_refines (h : BaseChain find c chain) (hfind : Refines find find')
    (hcd : d.bare = c.bare) :
    ∃ chain', BaseChain find' d chain' ∧ chain'.map ClassDef.bare = chain.map ClassDef.bare := by
  induction h generalizing d with
  | root hbase =>
    exact ⟨[d], .root ((ClassDef.bare_eq_iff.1 hcd).2.1.trans hbase), by simp [hcd]⟩
  | derived hb _ ih =>
    obtain ⟨base, hbase, hfound⟩ := base?_eq_some_iff.1 hb
    obtain ⟨b', hfound', hbare⟩ := hfind base _ hfound
    obtain ⟨chain', hchain', hsame⟩ := ih hbare
    have hbase' := (ClassDef.bare_eq_iff.1 hcd).2.1.trans hbase
    exact ⟨d :: chain', .derived (base?_eq_some_iff.2 ⟨base, hbase', hfound'⟩) hchain',
      by simp [hcd, hsame]⟩

/-- The bases of a class that is found under its name are found under theirs. -/
theorem BaseChain.found_of_mem (h : BaseChain find c chain)
    (hnamed : ∀ name d, find name = some d → d.name = name) (hc : find c.name = some c)
    (hd : d ∈ chain) : find d.name = some d := by
  induction h with
  | root _ =>
    cases List.mem_singleton.1 hd
    exact hc
  | derived hb _ ih =>
    rcases List.mem_cons.1 hd with rfl | hd
    · exact hc
    · obtain ⟨base, -, hfound⟩ := base?_eq_some_iff.1 hb
      exact ih (hnamed base _ hfound ▸ hfound) hd

/-- No class comes twice in a chain, which would not end then. -/
theorem BaseChain.nodup (h : BaseChain find c chain)
    (hnamed : ∀ name d, find name = some d → d.name = name) (hc : find c.name = some c) :
    (chain.map ClassDef.name).Nodup := by
  induction h with
  | root _ => exact List.nodup_singleton _
  | @derived c b chain hb hchain ih =>
    obtain ⟨base, -, hfound⟩ := base?_eq_some_iff.1 hb
    have hb' : find b.name = some b := hnamed base b hfound ▸ hfound
    rw [List.map_cons, List.nodup_cons]
    refine ⟨fun hmem => ?_, ih hb'⟩
    obtain ⟨d, hd, hname⟩ := List.mem_map.1 hmem
    have hsame : d = c := by
      have hfound' := hchain.found_of_mem hnamed hb' hd
      rw [hname, hc] at hfound'
      exact (Option.some.inj hfound').symm
    obtain ⟨rest, hrest, hsuffix⟩ := hchain.suffix_of_mem hd
    rw [hsame] at hrest
    have hlength := hsuffix.length_le
    rw [hrest.unique (.derived hb hchain), List.length_cons] at hlength
    omega

/-- The bases of a class do not come back if its chain ends. -/
theorem returnsTo_of_nodup {classes : List ClassDef} (h : BaseChain (classNamed? classes) c chain)
    (hnodup : (chain.map ClassDef.name).Nodup) {seen : List String}
    (hseen : ∀ d ∈ chain.tail, d.name ∉ seen) (fuel : Nat) :
    returnsTo classes fuel seen c.base = false := by
  induction h generalizing seen fuel with
  | root hbase =>
    rw [hbase]
    cases fuel <;> rfl
  | @derived c b chain hb hchain ih =>
    obtain ⟨base, hbase, hfound⟩ := base?_eq_some_iff.1 hb
    obtain ⟨-, rfl⟩ := classNamed?_eq_some hfound
    obtain ⟨rest, rfl⟩ := List.head?_eq_some_iff.1 hchain.head?_eq
    rw [List.map_cons, List.nodup_cons] at hnodup
    cases fuel with
    | zero => rfl
    | succ fuel =>
      rw [hbase, returnsTo, if_neg (by simpa using hseen b List.mem_cons_self), hfound,
        Option.bind_some]
      refine ih hnodup.2 (fun d hd hmem => ?_) fuel
      rw [List.map_cons, List.nodup_cons] at hnodup
      rcases List.mem_cons.1 hmem with hname | hmem
      · exact hnodup.2.1 (hname ▸ List.mem_map_of_mem hd)
      · exact hseen d (List.mem_cons_of_mem b hd) hmem

/-- **If every class of a batch has a chain of bases, there are no cycles.** -/
theorem cycles_eq_nil {classes : List ClassDef} (hnodup : (classes.map ClassDef.name).Nodup)
    (h : ∀ c ∈ classes, ∃ chain, BaseChain (classNamed? classes) c chain) : cycles classes = [] := by
  refine List.filterMap_eq_nil_iff.2 fun c hc => ?_
  obtain ⟨chain, hchain⟩ := h c hc
  have hfound : classNamed? classes c.name = some c := (classNamed?_eq_some_iff hnodup).2 ⟨hc, rfl⟩
  have hnames := hchain.nodup (fun name d hd => (classNamed?_eq_some hd).2) hfound
  refine if_neg ?_
  rw [returnsTo_of_nodup hchain hnames fun d hd hmem => ?_]
  · exact Bool.false_ne_true
  · cases hchain with
    | root _ => cases hd
    | derived _ _ =>
      rw [List.map_cons, List.nodup_cons] at hnames
      exact hnames.1 (List.mem_singleton.1 hmem ▸ List.mem_map_of_mem hd)

/-- Actions are those of the bases, whatever these list themselves. -/
theorem actionTable_congr (h : (ancestry find maxInheritanceDepth c).map ClassDef.bare =
      (ancestry find' maxInheritanceDepth d).map ClassDef.bare) :
    actionTable find c = actionTable find' d := by
  have hfold : ∀ classes : List ClassDef,
      classes.reverse.foldl (fun table d => d.methods.values.foldl (fun table m =>
        if m.visibility = .exposed then table.insert m.name d.name else table) table) .empty =
      (classes.map ClassDef.bare).reverse.foldl (fun table d =>
        d.methods.values.foldl (fun table m =>
          if m.visibility = .exposed then table.insert m.name d.name else table) table)
        NameMap.empty := by
    intro classes
    rw [← List.map_reverse, List.foldl_map]
    rfl
  unfold actionTable
  rw [hfold (ancestry find maxInheritanceDepth c), hfold (ancestry find' maxInheritanceDepth d), h]

/-! ## The batch of all units -/

theorem mem_declarations_pooled {e : Declared} :
    e ∈ declarations (pooled modules) ↔ ∃ m ∈ modules, e ∈ declarations m.units := by
  simp only [declarations, pooled, List.mem_flatMap]
  constructor
  · rintro ⟨u, ⟨m, hm, hu⟩, he⟩
    exact ⟨m, hm, u, hu, he⟩
  · rintro ⟨m, hm, u, hu, he⟩
    exact ⟨u, ⟨m, hm, hu⟩, he⟩

/-- The classes of a module that was linked are those of its declarations, resolved and finished. -/
theorem get?_of_link {units : List SourceUnit} {references : List Module}
    (h : link units references = .ok m) : m.classes.get? name = some c ↔
      ∃ e ∈ declarations units, e.decl.name = name ∧
        (e.resolved (isKnown units references)).finish
          (visible? (resolvedClasses units references) references) = c := by
  obtain ⟨-, hresolve, -⟩ := link_eq_ok_iff.1 h
  obtain ⟨hfaultless, rfl⟩ := faultless_of_link h
  rw [hfaultless.get?_eq_some_iff]
  constructor
  · rintro ⟨c₀, hc₀, hname, hfinish⟩
    rw [resolvedClasses_eq hresolve] at hc₀
    obtain ⟨e, he, rfl⟩ := List.mem_map.1 hc₀
    exact ⟨e, he, hname, hfinish⟩
  · rintro ⟨e, he, hname, hfinish⟩
    refine ⟨_, ?_, hname, hfinish⟩
    rw [resolvedClasses_eq hresolve]
    exact List.mem_map_of_mem he

/-- The classes of a module that was linked are named as its declarations. -/
theorem mem_keys_of_link {units : List SourceUnit} {references : List Module}
    (h : link units references = .ok m) :
    name ∈ m.classes.keys ↔ ∃ e ∈ declarations units, e.decl.name = name := by
  rw [NameMap.mem_keys]
  constructor
  · rintro ⟨c, hc⟩
    obtain ⟨e, he, hname, -⟩ := (get?_of_link h).1 hc
    exact ⟨e, he, hname⟩
  · rintro ⟨e, he, hname⟩
    exact ⟨_, (get?_of_link h).2 ⟨e, he, hname, rfl⟩⟩

/-- What is known where a module is linked, the module finds. -/
theorem findClass?_of_isKnown {units : List SourceUnit} {references : List Module}
    (h : link units references = .ok m) (hknown : isKnown units references name = true) :
    ∃ c, m.findClass? name = some c := by
  rw [isKnown, Bool.or_eq_true, List.contains_iff_mem] at hknown
  rcases hknown with hown | hother
  · obtain ⟨e, he, hname⟩ := List.mem_map.1 hown
    have hget := (get?_of_link h).2 ⟨e, he, hname, rfl⟩
    exact ⟨_, by rw [findClass?_eq, hget, Option.some_or]⟩
  · obtain ⟨hfaultless, rfl⟩ := faultless_of_link h
    obtain ⟨c, hc⟩ := Option.isSome_iff_exists.1 hother
    exact ⟨c, hfaultless.findClass?_of_findIn? hc⟩

/-- What a module finds, and nothing else, is known where it is linked. -/
theorem isKnown_iff_of_link {units : List SourceUnit} {references : List Module}
    (h : link units references = .ok m) :
    isKnown units references name = true ↔ (m.findClass? name).isSome = true := by
  constructor
  · intro hknown
    exact Option.isSome_iff_exists.2 (findClass?_of_isKnown h hknown)
  · intro hfound
    rw [isKnown, Bool.or_eq_true, List.contains_iff_mem]
    rw [findClass?_eq, Option.isSome_or, Bool.or_eq_true] at hfound
    rcases hfound with hown | hother
    · obtain ⟨e, he, hname⟩ := (mem_keys_of_link h).1 (NameMap.contains_iff.1 hown)
      exact .inl (List.mem_map.2 ⟨e, he, hname⟩)
    · obtain ⟨-, rfl⟩ := faultless_of_link h
      exact .inr hother

/-- **A class derives from the first class that its module finds** among those that its written base may
stand for. -/
theorem base_of_link {units : List SourceUnit} {references : List Module}
    (h : link units references = .ok m) {e : Declared} (he : e ∈ declarations units) {written : String}
    (hwritten : e.decl.base = some written) :
    ∃ c base, m.classes.get? e.decl.name = some c ∧ c.base = some base ∧
      (candidates written e.decl.scope e.uses).find? (fun name => (m.findClass? name).isSome) =
        some base := by
  have hknown : isKnown units references = fun name => (m.findClass? name).isSome :=
    funext fun name => Bool.eq_iff_iff.2 (isKnown_iff_of_link h)
  obtain ⟨-, hresolve, -⟩ := link_eq_ok_iff.1 h
  have hmeant := (resolve_eq_nil_iff.1 (hresolve e he)).2 written (by simp [Declared.written, hwritten])
  obtain ⟨base, hbase⟩ := Option.isSome_iff_exists.1 hmeant
  refine ⟨_, base, (get?_of_link h).2 ⟨e, he, rfl, rfl⟩, ?_, hknown ▸ hbase⟩
  show e.decl.base.bind _ = some base
  rw [hwritten, Option.bind_some, hbase]

/-- A linked module is what its units are linked to. -/
theorem Module.Linked.link_eq (h : m.Linked) : link m.units m.references = .ok m := by
  cases h with
  | mk _ hlink =>
    obtain ⟨-, rfl⟩ := faultless_of_link hlink
    exact hlink

/-- **A linked module has all that its classes name**, so that it carries itself. -/
theorem Module.Linked.carries_self (h : m.Linked) : Carries m m := by
  -- what a class names is known to the module that declares it, and so to every module above
  have hnamed : ∀ c full, m.Finds c → (∀ below : Module, ∀ e ∈ declarations below.units,
      c.bare = e.resolved (isKnown below.units below.references) →
        isKnown below.units below.references full = true) → ∃ d, m.findClass? full = some d := by
    rintro c full ⟨name, hname⟩ hknown
    obtain ⟨below, hbelow, hget⟩ := Module.exists_within_of_findClass? m hname
    have hlink := (h.within hbelow).link_eq
    obtain ⟨e, he, -, rfl⟩ := (get?_of_link hlink).1 hget
    obtain ⟨d, hd⟩ := findClass?_of_isKnown hlink (hknown below e he rfl)
    exact Option.isSome_iff_exists.1 (Module.isSome_of_within hbelow (by rw [hd]; rfl))
  refine ⟨fun _ _ hc => hc, fun c base hc hbase => ?_, fun c written full hc hfull => ?_⟩
  · refine hnamed c base hc fun below e _ hbare => ?_
    have hsame : c.base = e.decl.base.bind (e.meant? (isKnown below.units below.references)) :=
      congrArg ClassDef.base hbare
    rw [hbase] at hsame
    obtain ⟨written, -, hmeant⟩ := Option.bind_eq_some_iff.1 hsame.symm
    exact List.find?_some hmeant
  · refine hnamed c full hc fun below e _ hbare => ?_
    have htypes := congrArg ClassDef.typeRefs hbare
    have hsame : c.typeRefs.get? written = _ := congrArg (NameMap.get? · written) htypes
    rw [hfull, get?_typeRefs] at hsame
    split at hsame
    · exact List.find?_some hsame.symm
    · cases hsame

/-- The objects of a linked module are of the class they are made of. -/
theorem Module.Linked.cls_of_construct (h : m.Linked) (hc : m.classes.get? name = some c)
    {args : List Value} {i : Instance} (hi : construct m c args = .ok i) : i.cls = c :=
  (construct_carried h.carries_self ⟨name, by rw [findClass?_eq, hc, Option.some_or]⟩ args).2 i hi

namespace SelfContained

/-- The classes of a batch are those of its modules, by name. -/
theorem mem_keys_pooled (h : SelfContained modules) (hlink : link (pooled modules) [] = .ok k) :
    name ∈ k.classes.keys ↔ ∃ m ∈ modules, name ∈ m.classes.keys := by
  rw [mem_keys_of_link hlink]
  constructor
  · rintro ⟨e, he, hname⟩
    obtain ⟨m, hm, he⟩ := mem_declarations_pooled.1 he
    exact ⟨m, hm, (mem_keys_of_link (h m hm).1).2 ⟨e, he, hname⟩⟩
  · rintro ⟨m, hm, hname⟩
    obtain ⟨e, he, hname⟩ := (mem_keys_of_link (h m hm).1).1 hname
    exact ⟨e, mem_declarations_pooled.2 ⟨m, hm, he⟩, hname⟩

/-- Each of the modules is linked, and so are those that it was linked against. -/
theorem linked (h : SelfContained modules) : ∀ m : Module, m ∈ modules → m.Linked
  | .mk units classes references, hm => by
    obtain ⟨hlink, hrefs⟩ := h _ hm
    exact .mk (fun r (hr : r ∈ references) => linked h r (hrefs r hr)) hlink
termination_by m => sizeOf m
decreasing_by
  have := List.sizeOf_lt_of_mem hr
  simp only [Module.mk.sizeOf_spec]
  omega

theorem within (h : SelfContained modules) (hm : m ∈ modules) (hk : m.Within k) : k ∈ modules := by
  induction hk with
  | self => exact hm
  | reference _ hr ih => exact (h _ ih).2 _ hr

/-- A class of one of the modules is declared in its units. -/
theorem exists_declared (h : SelfContained modules) (hm : m ∈ modules)
    (hc : m.classes.get? name = some c) : ∃ e ∈ declarations m.units, e.decl.name = name ∧
      c.bare = e.resolved (isKnown m.units m.references) := by
  obtain ⟨e, he, hname, hfinish⟩ := (get?_of_link (h m hm).1).1 hc
  exact ⟨e, he, hname, by rw [← hfinish]; rfl⟩

/-- What is known in a module is known in the batch. -/
theorem isKnown_pooled (h : SelfContained modules) (hm : m ∈ modules)
    (hknown : isKnown m.units m.references name = true) :
    isKnown (pooled modules) [] name = true := by
  have hdeclared : ∃ k ∈ modules, ∃ e ∈ declarations k.units, e.decl.name = name := by
    rw [isKnown, Bool.or_eq_true, List.contains_iff_mem] at hknown
    rcases hknown with hown | hother
    · obtain ⟨e, he, hname⟩ := List.mem_map.1 hown
      exact ⟨m, hm, e, he, hname⟩
    · obtain ⟨c, hc⟩ := Option.isSome_iff_exists.1 hother
      obtain ⟨r, hr, k, hk, hget⟩ := Module.exists_within_of_findIn? _ hc
      have hkm := h.within ((h m hm).2 r hr) hk
      obtain ⟨e, he, hname, -⟩ := h.exists_declared hkm hget
      exact ⟨k, hkm, e, he, hname⟩
  obtain ⟨k, hk, e, he, rfl⟩ := hdeclared
  have hmem : e.decl.name ∈ (declarations (pooled modules)).map fun d => d.decl.name :=
    List.mem_map_of_mem (f := fun d : Declared => d.decl.name)
      (mem_declarations_pooled.2 ⟨k, hk, he⟩)
  rw [isKnown, List.contains_iff_mem.2 hmem, Bool.true_or]

/-- **No name is lost in the batch**: each stands for something there, since it does in its module. -/
theorem resolve_pooled (h : SelfContained modules) {e : Declared}
    (he : e ∈ declarations (pooled modules)) :
    (resolve (isKnown (pooled modules) []) e).1 = [] := by
  obtain ⟨m, hm, he⟩ := mem_declarations_pooled.1 he
  obtain ⟨-, hresolve, -⟩ := link_eq_ok_iff.1 (h m hm).1
  exact resolve_eq_nil_mono (fun name => h.isKnown_pooled hm) (hresolve e he)

/-- The classes of the batch with their names resolved in it. -/
theorem resolvedClasses_pooled (h : SelfContained modules) : resolvedClasses (pooled modules) [] =
    (declarations (pooled modules)).map (Declared.resolved (isKnown (pooled modules) [])) :=
  resolvedClasses_eq fun _ he => h.resolve_pooled he

theorem nodup_pooled (h : SelfContained modules) (hapart : Apart (pooled modules)) :
    ((resolvedClasses (pooled modules) []).map ClassDef.name).Nodup := by
  rw [h.resolvedClasses_pooled, List.map_map]
  exact hapart

/-- **The batch is linked if and only if it is apart and upright.** -/
theorem link_pooled_iff (h : SelfContained modules) : link (pooled modules) [] = .ok k ↔
    Apart (pooled modules) ∧ Upright (pooled modules) ∧
      k = finishedModule (pooled modules) (resolvedClasses (pooled modules) []) [] := by
  have hdeclare : (declare (fun name => (Module.findIn? name []).isSome) []
      (declarations (pooled modules))).1 = [] ↔ Apart (pooled modules) := by
    rw [declare_eq_nil_iff, Apart]
    exact and_iff_left fun e _ => ⟨List.not_mem_nil, rfl⟩
  rw [link_eq_ok_iff, hdeclare, Upright]
  constructor
  · rintro ⟨hapart, -, hcycles, hbodies, hk⟩
    exact ⟨hapart, ⟨hcycles, hbodies⟩, hk⟩
  · rintro ⟨hapart, ⟨hcycles, hbodies⟩, hk⟩
    exact ⟨hapart, fun e he => h.resolve_pooled he, hcycles, hbodies, hk⟩

/-! ## If no name is captured -/

/-- A class is resolved in the batch as in its module. -/
theorem resolved_pooled (hu : Uncaptured modules) (hm : m ∈ modules) {e : Declared}
    (he : e ∈ declarations m.units) :
    e.resolved (isKnown (pooled modules) []) = e.resolved (isKnown m.units m.references) :=
  resolved_congr (hu m hm e he)

/-- What a module finds the batch has, but for the actions. -/
theorem refines_pooled (h : SelfContained modules) (hu : Uncaptured modules)
    (hapart : Apart (pooled modules)) (hm : m ∈ modules) :
    Refines m.findClass? (visible? (resolvedClasses (pooled modules) []) []) := by
  intro name c hc
  obtain ⟨k, hk, hget⟩ := Module.exists_within_of_findClass? m hc
  have hkm := h.within hm hk
  obtain ⟨e, he, hname, hbare⟩ := h.exists_declared hkm hget
  have hmem : e.resolved (isKnown (pooled modules) []) ∈ resolvedClasses (pooled modules) [] := by
    rw [h.resolvedClasses_pooled]
    exact List.mem_map_of_mem (mem_declarations_pooled.2 ⟨k, hkm, he⟩)
  refine ⟨e.resolved (isKnown (pooled modules) []), ?_, ?_⟩
  · rw [visible?_eq, (classNamed?_eq_some_iff (h.nodup_pooled hapart)).2 ⟨hmem, hname⟩, Option.some_or]
  · rw [resolved_pooled hu hkm he, hbare]
    rfl

/-- **If no name is captured, a batch that is apart is upright.** -/
theorem upright_of_uncaptured (h : SelfContained modules) (hu : Uncaptured modules)
    (hapart : Apart (pooled modules)) : Upright (pooled modules) := by
  -- every class of the batch is one of a module, with a chain of bases and without errors
  have hlive : ∀ c ∈ resolvedClasses (pooled modules) [], ∃ m ∈ modules, ∃ c',
      m.classes.get? c.name = some c' ∧ c'.bare = c.bare := by
    intro c hc
    rw [h.resolvedClasses_pooled] at hc
    obtain ⟨e, he, rfl⟩ := List.mem_map.1 hc
    obtain ⟨m, hm, he⟩ := mem_declarations_pooled.1 he
    refine ⟨m, hm, _, (get?_of_link (h m hm).1).2 ⟨e, he, rfl, rfl⟩, ?_⟩
    rw [resolved_pooled hu hm he]
    rfl
  refine ⟨cycles_eq_nil (h.nodup_pooled hapart) fun c hc => ?_, fun c hc => ?_⟩
  · obtain ⟨m, hm, c', hc', hbare⟩ := hlive c hc
    have hfound : m.findClass? c.name = some c' := by rw [findClass?_eq, hc', Option.some_or]
    obtain ⟨chain, hchain⟩ := (h.linked m hm).rooted c.name c' hfound
    obtain ⟨chain', hchain', -⟩ := hchain.of_refines (h.refines_pooled hu hapart hm) hbare.symm
    refine ⟨chain', hchain'.mono fun name d hd => ?_⟩
    rwa [visible?_eq, show Module.findIn? name [] = none from rfl, Option.or_none] at hd
  · obtain ⟨m, hm, c', hc', hbare⟩ := hlive c hc
    exact bodyErrors_eq_nil_of_refines (h.refines_pooled hu hapart hm) hbare.symm
      ((h.linked m hm).checked.bodies c.name c' hc')

/-- The chain of a class of a module, as the module and the batch see it before they are finished. -/
theorem ancestry_pooled (h : SelfContained modules) (hu : Uncaptured modules)
    (hapart : Apart (pooled modules)) (hm : m ∈ modules) (hc : m.classes.get? name = some c)
    (hcd : d.bare = c.bare) :
    (ancestry (visible? (resolvedClasses m.units m.references) m.references)
        maxInheritanceDepth d).map ClassDef.bare =
      (ancestry (visible? (resolvedClasses (pooled modules) []) [])
        maxInheritanceDepth d).map ClassDef.bare := by
  obtain ⟨hfaultless, hmodule⟩ := faultless_of_link (h m hm).1
  have hown : Refines (finishedModule m.units _ m.references).findClass? _ := hfaultless.refined
  rw [← hmodule] at hown
  have hfound : m.findClass? name = some c := by rw [findClass?_eq, hc, Option.some_or]
  obtain ⟨chain, hchain⟩ := (h.linked m hm).rooted name c hfound
  obtain ⟨chain₁, hchain₁, hsame₁⟩ := hchain.of_refines hown hcd
  obtain ⟨chain₂, hchain₂, hsame₂⟩ := hchain.of_refines (h.refines_pooled hu hapart hm) hcd
  rw [hchain₁.ancestry_eq_take, hchain₂.ancestry_eq_take, List.map_take, List.map_take, hsame₁,
    hsame₂]

/-- **If no name is captured, every class is what it was**, its actions included. -/
theorem get?_pooled (h : SelfContained modules) (hu : Uncaptured modules)
    (hlink : link (pooled modules) [] = .ok k) (hm : m ∈ modules)
    (hc : m.classes.get? name = some c) : k.classes.get? name = some c := by
  obtain ⟨hapart, -, -⟩ := h.link_pooled_iff.1 hlink
  obtain ⟨e, he, hname, rfl⟩ := (get?_of_link (h m hm).1).1 hc
  refine (get?_of_link hlink).2 ⟨e, mem_declarations_pooled.2 ⟨m, hm, he⟩, hname, ?_⟩
  have hbare : (e.resolved (isKnown m.units m.references)).bare = ClassDef.bare (.finish
      (visible? (resolvedClasses m.units m.references) m.references)
      (e.resolved (isKnown m.units m.references))) := rfl
  have hactions := actionTable_congr (h.ancestry_pooled hu hapart hm hc hbare)
  rw [resolved_pooled hu hm he, ClassDef.finish, ClassDef.finish, hactions]

/-- Whatever a module finds, the linked batch finds. -/
theorem findClass?_pooled (h : SelfContained modules) (hu : Uncaptured modules)
    (hlink : link (pooled modules) [] = .ok k) (hm : m ∈ modules)
    (hc : m.findClass? name = some c) : k.findClass? name = some c := by
  obtain ⟨below, hbelow, hget⟩ := Module.exists_within_of_findClass? m hc
  rw [findClass?_eq, h.get?_pooled hu hlink (h.within hm hbelow) hget, Option.some_or]

/-- **If no name is captured, the linked batch carries every module.** -/
theorem carries_pooled (h : SelfContained modules) (hu : Uncaptured modules)
    (hlink : link (pooled modules) [] = .ok k) (hm : m ∈ modules) : Carries m k :=
  have hself := (h.linked m hm).carries_self
  ⟨fun _ _ hc => h.findClass?_pooled hu hlink hm hc, hself.based, hself.typed⟩

/-- **Bases and named types are what they were if and only if no name is captured.** -/
theorem uncaptured_iff (h : SelfContained modules) (hlink : link (pooled modules) [] = .ok k) :
    (∀ m ∈ modules, ∀ name c, m.classes.get? name = some c → ∃ c', k.classes.get? name = some c' ∧
      c'.base = c.base ∧ c'.typeRefs = c.typeRefs) ↔ Uncaptured modules := by
  constructor
  · intro hsame m hm e he
    have hget := (get?_of_link (h m hm).1).2 ⟨e, he, rfl, rfl⟩
    obtain ⟨c', hc', hbase, htypes⟩ := hsame m hm _ _ hget
    obtain ⟨e', he', hname, rfl⟩ := (get?_of_link hlink).1 hc'
    -- names are declared once in the batch, so that the class of the name is the same declaration
    obtain ⟨hapart, -, -⟩ := h.link_pooled_iff.1 hlink
    obtain rfl : e' = e :=
      List.inj_on_of_nodup_map hapart he' (mem_declarations_pooled.2 ⟨m, hm, he⟩) hname
    exact resolved_eq_iff.1 ⟨hbase, htypes⟩
  · intro hu m hm name c hc
    exact ⟨c, h.get?_pooled hu hlink hm hc, rfl, rfl⟩

end SelfContained

end SiteHost.Script
