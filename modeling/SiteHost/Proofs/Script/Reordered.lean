import Mathlib.Data.List.Perm.Basic
import SiteHost.Proofs.Script.Meanings

/-!
# Units and classes in another order

A batch is linked in passes over a list of declarations, and every pass looks at the whole list. Nothing
that a pass finds depends on the order in which the declarations stand:

* `SourceUnit.Reordered` — a unit with its classes in another order;
* `Reordered` — a batch with its units in another order, and with the classes of each unit in another
  order.

Principal results:

* `link_of_perm` — a batch whose declarations are those of a linked batch is linked, to the same classes;
* `link_reordered` — one order of a batch is linked if and only if the other is, and then both have the
  same table of classes.
-/

namespace SiteHost.Script

/-- The same unit with its classes in another order. -/
structure SourceUnit.Reordered (u v : SourceUnit) : Prop where
  file : u.file = v.file
  uses : u.uses = v.uses
  classes : u.classes.Perm v.classes

/-- The same units in another order, each with its classes in another order. -/
def Reordered (units units' : List SourceUnit) : Prop :=
  ∃ moved, units.Perm moved ∧ List.Forall₂ SourceUnit.Reordered moved units'

variable {units units' : List SourceUnit} {references : List Module} {classes classes' : List ClassDef}

/-! ## Declarations -/

/-- Classes declare the same in another order of their unit. -/
theorem declarations_forall₂ (h : List.Forall₂ SourceUnit.Reordered units units') :
    (declarations units).Perm (declarations units') := by
  induction h with
  | nil => exact List.Perm.refl _
  | @cons u v _ _ huv _ ih =>
    have hunit : (u.classes.map fun c => (⟨u.file, u.uses, c⟩ : Declared)).Perm
        (v.classes.map fun c => ⟨v.file, v.uses, c⟩) := by
      rw [huv.file, huv.uses]
      exact huv.classes.map _
    exact hunit.append ih

/-- **A batch in another order has the same declarations in another order.** -/
theorem declarations_reordered (h : Reordered units units') :
    (declarations units).Perm (declarations units') := by
  obtain ⟨moved, hunits, hclasses⟩ := h
  have hmoved : (declarations units).Perm (declarations moved) := hunits.flatMap_right _
  exact hmoved.trans (declarations_forall₂ hclasses)

/-! ## What each pass finds -/

/-- The same names are known. -/
theorem isKnown_of_perm (h : (declarations units).Perm (declarations units')) :
    isKnown units' references = isKnown units references := by
  funext name
  unfold isKnown
  rw [(h.map fun d => d.decl.name).contains_eq]

/-- The same declarations are free of faults. -/
theorem declare_eq_nil_of_perm {referenced : String → Bool} {ds ds' : List Declared} (h : ds.Perm ds')
    (hnil : (declare referenced [] ds).1 = []) : (declare referenced [] ds').1 = [] := by
  obtain ⟨hnodup, hnew⟩ := declare_eq_nil_iff.1 hnil
  have hnodup' := ((h.map fun d => d.decl.name).nodup_iff).1 hnodup
  exact declare_eq_nil_iff.2 ⟨hnodup', fun d hd => hnew d (h.mem_iff.2 hd)⟩

/-- The same classes are resolved. -/
theorem resolvedClasses_of_perm (h : (declarations units).Perm (declarations units')) :
    (resolvedClasses units references).Perm (resolvedClasses units' references) := by
  unfold resolvedClasses
  rw [isKnown_of_perm h]
  exact (h.map _).filterMap _

/-- Among classes with names of their own, a name leads to the same class in any order. -/
theorem classNamed?_of_perm (h : classes.Perm classes') (hnodup : (classes.map ClassDef.name).Nodup) :
    classNamed? classes' = classNamed? classes := by
  have hnodup' := ((h.map ClassDef.name).nodup_iff).1 hnodup
  funext name
  apply Option.ext
  intro c
  rw [classNamed?_eq_some_iff hnodup', classNamed?_eq_some_iff hnodup, h.mem_iff]

theorem visible?_of_perm (h : classes.Perm classes') (hnodup : (classes.map ClassDef.name).Nodup) :
    visible? classes' references = visible? classes references := by
  funext name
  rw [visible?_eq, visible?_eq, classNamed?_of_perm h hnodup]

/-- How bases are followed depends on nothing but what names lead to. -/
theorem returnsTo_congr (h : classNamed? classes' = classNamed? classes) (fuel : Nat)
    (seen : List String) (current : Option String) :
    returnsTo classes' fuel seen current = returnsTo classes fuel seen current := by
  induction fuel generalizing seen current with
  | zero => rfl
  | succ fuel ih =>
    cases current with
    | none => rfl
    | some base =>
      unfold returnsTo
      rw [h, ih]

/-- The same classes are among their own bases. -/
theorem cycles_eq_nil_of_perm (h : classes.Perm classes') (hnodup : (classes.map ClassDef.name).Nodup)
    (hnil : cycles classes = []) : cycles classes' = [] := by
  unfold cycles at hnil ⊢
  rw [List.filterMap_eq_nil_iff] at hnil ⊢
  intro c hc
  rw [← h.length_eq, returnsTo_congr (classNamed?_of_perm h hnodup)]
  exact hnil c (h.mem_iff.2 hc)

/-- Classes with names of their own make the same table in any order. -/
theorem classTable_of_perm (h : classes.Perm classes') (hnodup : (classes.map ClassDef.name).Nodup) :
    classTable classes' = classTable classes := by
  have hnodup' := ((h.map ClassDef.name).nodup_iff).1 hnodup
  apply NameMap.ext_get?
  intro name
  rw [get?_classTable hnodup', get?_classTable hnodup, classNamed?_of_perm h hnodup]

/-! ## The module -/

/-- The table of a module is made of the same classes in any order. -/
theorem classes_finishedModule_of_perm (h : classes.Perm classes')
    (hnodup : (classes.map ClassDef.name).Nodup) :
    (finishedModule units' classes' references).classes =
      (finishedModule units classes references).classes := by
  show classTable (classes'.map (ClassDef.finish (visible? classes' references))) =
    classTable (classes.map (ClassDef.finish (visible? classes references)))
  rw [visible?_of_perm h hnodup]
  have hnames := map_name_finish (visible? classes references) classes
  exact classTable_of_perm (h.map _) (hnames.symm ▸ hnodup)

/-- **A batch is linked with its declarations in any order**, and to the same classes. -/
theorem link_of_perm {m : Module} (h : (declarations units).Perm (declarations units'))
    (hlink : link units references = .ok m) :
    ∃ m', link units' references = .ok m' ∧ m'.classes = m.classes := by
  obtain ⟨hdeclare, hresolve, hcycles, hbodies, rfl⟩ := link_eq_ok_iff.1 hlink
  have hnodup := (faultless_of_link hlink).1.nodup
  have hclasses : (resolvedClasses units references).Perm (resolvedClasses units' references) :=
    resolvedClasses_of_perm h
  refine ⟨finishedModule units' (resolvedClasses units' references) references,
    link_eq_ok_iff.2 ⟨?_, ?_, ?_, ?_, rfl⟩, classes_finishedModule_of_perm hclasses hnodup⟩
  · exact declare_eq_nil_of_perm h hdeclare
  · intro d hd
    rw [isKnown_of_perm h]
    exact hresolve d (h.mem_iff.2 hd)
  · exact cycles_eq_nil_of_perm hclasses hnodup hcycles
  · intro c hc
    rw [visible?_of_perm hclasses hnodup]
    exact hbodies c (hclasses.mem_iff.2 hc)

/-- **Linking does not depend on the order of units and classes.** Of two orders of a batch either both
are linked or none is, and if they are, each name stands for the same class in both. -/
theorem link_reordered (h : Reordered units units') (references : List Module) :
    ((∃ m, link units references = .ok m) ↔ ∃ m', link units' references = .ok m') ∧
      ∀ m m', link units references = .ok m → link units' references = .ok m' →
        m'.classes = m.classes := by
  have hperm := declarations_reordered h
  refine ⟨⟨?_, ?_⟩, ?_⟩
  · rintro ⟨m, hm⟩
    obtain ⟨m', hm', -⟩ := link_of_perm hperm hm
    exact ⟨m', hm'⟩
  · rintro ⟨m', hm'⟩
    obtain ⟨m, hm, -⟩ := link_of_perm hperm.symm hm'
    exact ⟨m, hm⟩
  · intro m m' hm hm'
    obtain ⟨n, hn, hsame⟩ := link_of_perm hperm hm
    cases hm'.symm.trans hn
    exact hsame

/-- A unit with a class and its base. -/
def shopUnit (classes : List ClassDecl) : SourceUnit := ⟨"shop.ks", ["Shared"], classes⟩

def shopClass : ClassDecl := ⟨"Shop", "", some "Frame", none, [], ⟨1, 1⟩⟩

def frameClass : ClassDecl := ⟨"Frame", "", some "Root", none, [], ⟨3, 1⟩⟩

/-- A unit with the base of the base. -/
def rootUnit : SourceUnit :=
  ⟨"root.ks", [], [⟨"Shared.Root", "Shared", none, none, [⟨"Show", .exposed, [], [], ⟨2, 5⟩⟩], ⟨1, 1⟩⟩]⟩

/-- A class comes before or after its base, in its unit and among the units. -/
theorem link_reordered_shop : ∃ m m',
    link [shopUnit [shopClass, frameClass], rootUnit] [] = .ok m ∧
    link [rootUnit, shopUnit [frameClass, shopClass]] [] = .ok m' ∧
    m.classes.keys = ["Frame", "Shared.Root", "Shop"] ∧ m'.classes = m.classes := by
  have hreordered : Reordered [shopUnit [shopClass, frameClass], rootUnit]
      [rootUnit, shopUnit [frameClass, shopClass]] := by
    have hrest : List.Forall₂ SourceUnit.Reordered [rootUnit, shopUnit [shopClass, frameClass]]
        [rootUnit, shopUnit [frameClass, shopClass]] :=
      .cons ⟨rfl, rfl, .refl _⟩ (.cons ⟨rfl, rfl, .swap _ _ _⟩ .nil)
    exact ⟨_, .swap _ _ _, hrest⟩
  refine ⟨_, _, rfl, rfl, by decide, ?_⟩
  exact (link_reordered hreordered []).2 _ _ rfl rfl

end SiteHost.Script
