import Mathlib.Data.List.TakeDrop
import SiteHost.Proofs.Script.Linked

/-!
# How deep classes are

The bases of a class are followed over at most 64 classes, by `lineage` as by `owner?`. Linking asks
only that they end:

* `ladder` — a unit of classes each of which derives from the one before, the first with a method.

Principal results:

* `lineage_eq_chain_iff` — of a base chain the 64 nearest classes count, so that constructors and
  methods are lost if and only if the chain is longer;
* `link_ladder` — chains of every length are linked.
-/

namespace SiteHost.Script

variable {units : List SourceUnit} {references : List Module} {m : Module} {name : String}
  {c : ClassDef}

/-- **Of a base chain the 64 nearest classes count.** What is run of it by a constructor is the whole
chain if and only if it is no longer. -/
theorem lineage_eq_chain_iff (hrefs : ∀ r ∈ references, r.Linked)
    (hlink : link units references = .ok m) (hc : m.classes.get? name = some c) :
    ∃ chain, BaseChain m.findClass? c chain ∧
      m.lineage c = (chain.take maxInheritanceDepth).reverse ∧
      (m.lineage c = chain.reverse ↔ chain.length ≤ maxInheritanceDepth) ∧
      ∀ method, (m.owner? c method).isSome = true ↔
        ∃ d ∈ chain.take maxInheritanceDepth, d.methods.contains method = true := by
  have hlinked : m.Linked := .mk hrefs hlink
  have hfound : m.findClass? name = some c := by rw [findClass?_eq, hc, Option.some_or]
  obtain ⟨chain, hchain⟩ := hlinked.rooted name c hfound
  have hlineage : m.lineage c = (chain.take maxInheritanceDepth).reverse := by
    rw [Module.lineage, hchain.ancestry_eq_take]
  refine ⟨chain, hchain, hlineage, ?_, fun method => ?_⟩
  · rw [hlineage, List.reverse_inj, List.take_eq_self_iff]
  · rw [Module.owner?, owner?, hchain.ancestry_eq_take, List.find?_isSome]

/-! ## Ladders -/

/-- The name of a class of a ladder. -/
def rungName (i : Nat) : String := String.ofList (List.replicate (i + 1) 'A')

/-- The method at the foot of a ladder. -/
def footMethod : Method := ⟨"Show", .exposed, [], [], ⟨1, 1⟩⟩

/-- A class of a ladder as declared. -/
def rungDecl : Nat → ClassDecl
  | 0 => ⟨rungName 0, "", none, none, [footMethod], ⟨1, 1⟩⟩
  | i + 1 => ⟨rungName (i + 1), "", some (rungName i), none, [], ⟨i + 2, 1⟩⟩

/-- A class of a ladder with its names resolved. -/
def rung : Nat → ClassDef
  | 0 => ⟨rungName 0, none, none, .ofList [("Show", footMethod)], .empty, .empty, "unit.ks", ⟨1, 1⟩⟩
  | i + 1 => ⟨rungName (i + 1), some (rungName i), none, .empty, .empty, .empty, "unit.ks", ⟨i + 2, 1⟩⟩

/-- A unit of `n + 1` classes, each deriving from the one before. -/
def ladder (n : Nat) : SourceUnit := ⟨"unit.ks", [], (List.range (n + 1)).map rungDecl⟩

theorem rungName_inj {i j : Nat} : rungName i = rungName j ↔ i = j := by
  refine ⟨fun h => ?_, fun h => h ▸ rfl⟩
  have hlength := congrArg List.length (String.ofList_injective h)
  simpa using hlength

@[simp] theorem name_rung (i : Nat) : (rung i).name = rungName i := by
  cases i <;> rfl

@[simp] theorem name_rungDecl (i : Nat) : (rungDecl i).name = rungName i := by
  cases i <;> rfl

theorem candidates_of_plain (written : String) : candidates written "" [] = [written] := rfl

theorem resolve_rung {known : String → Bool} {i : Nat} (h : ∀ j < i, known (rungName j) = true) :
    resolve known ⟨"unit.ks", [], rungDecl i⟩ = ([], some (rung i)) := by
  cases i with
  | zero => rfl
  | succ i =>
    have hbase : (candidates (rungName i) "" []).find? known = some (rungName i) := by
      rw [candidates_of_plain, List.find?_cons_of_pos (h i (Nat.lt_succ_self i))]
    simp [resolve, rungDecl, hbase, rung, methodTable, typeTable]

/-! ## Linking a ladder -/

/-- The classes of a ladder, the first first. -/
def rungs (n : Nat) : List ClassDef := (List.range (n + 1)).map rung

theorem nodup_rungNames (n : Nat) : ((List.range n).map rungName).Nodup :=
  List.nodup_range.map fun _ _ => rungName_inj.1

theorem nodup_rungs (n : Nat) : ((rungs n).map ClassDef.name).Nodup := by
  have hnames : (rungs n).map ClassDef.name = (List.range (n + 1)).map rungName := by
    rw [rungs, List.map_map]
    exact List.map_congr_left fun i _ => name_rung i
  exact hnames ▸ nodup_rungNames (n + 1)

theorem declarations_ladder (n : Nat) : declarations [ladder n] =
    (List.range (n + 1)).map fun i => ⟨"unit.ks", [], rungDecl i⟩ := by
  simp [declarations, ladder]

theorem isKnown_ladder {n i : Nat} (h : i ≤ n) : isKnown [ladder n] [] (rungName i) = true := by
  have hmem : rungName i ∈ (declarations [ladder n]).map fun d => d.decl.name := by
    rw [declarations_ladder, List.map_map]
    exact List.mem_map.2 ⟨i, List.mem_range.2 (by omega), name_rungDecl i⟩
  rw [isKnown, List.contains_iff_mem.2 hmem, Bool.true_or]

theorem resolve_ladder {n i : Nat} (h : i ∈ List.range (n + 1)) :
    resolve (isKnown [ladder n] []) ⟨"unit.ks", [], rungDecl i⟩ = ([], some (rung i)) :=
  resolve_rung fun j hj => isKnown_ladder (by have := List.mem_range.1 h; omega)

theorem resolvedClasses_ladder (n : Nat) : resolvedClasses [ladder n] [] = rungs n := by
  have hresolved : (declarations [ladder n]).map (resolve (isKnown [ladder n] [])) =
      (List.range (n + 1)).map fun i => ([], some (rung i)) := by
    rw [declarations_ladder, List.map_map]
    refine List.map_congr_left fun i hi => ?_
    rw [Function.comp_apply, resolve_ladder hi]
  rw [resolvedClasses, hresolved, List.filterMap_map, rungs, ← List.filterMap_eq_map]
  rfl

theorem classNamed?_rungs {n i : Nat} (h : i ≤ n) :
    classNamed? (rungs n) (rungName i) = some (rung i) :=
  (classNamed?_eq_some_iff (nodup_rungs n)).2
    ⟨List.mem_map_of_mem (List.mem_range.2 (by omega)), name_rung i⟩

/-- The bases of a class of a ladder do not come back to a class above it. -/
theorem returnsTo_rungs {n i fuel : Nat} {seen : List String} (hi : i ≤ n)
    (hseen : ∀ j ≤ i, rungName j ∉ seen) :
    returnsTo (rungs n) fuel seen (some (rungName i)) = false := by
  induction fuel generalizing i seen with
  | zero => rfl
  | succ fuel ih =>
    rw [returnsTo, if_neg (by simpa using hseen i (Nat.le_refl i)), classNamed?_rungs hi]
    cases i with
    | zero => cases fuel <;> rfl
    | succ i =>
      refine ih (by omega) fun j hj hmem => ?_
      rcases List.mem_cons.1 hmem with hname | hmem
      · have := rungName_inj.1 hname
        omega
      · exact hseen j (by omega) hmem

theorem cycles_rungs (n : Nat) : cycles (rungs n) = [] := by
  refine List.filterMap_eq_nil_iff.2 fun c hc => ?_
  obtain ⟨i, hi, rfl⟩ := List.mem_map.1 hc
  have hends : ∀ fuel, returnsTo (rungs n) fuel [(rung i).name] (rung i).base = false := by
    intro fuel
    cases i with
    | zero => cases fuel <;> rfl
    | succ i =>
      refine returnsTo_rungs (by have := List.mem_range.1 hi; omega) fun j hj hmem => ?_
      have := rungName_inj.1 (List.mem_singleton.1 hmem)
      omega
  rw [if_neg (by rw [hends]; exact Bool.false_ne_true)]

theorem bodyErrors_rung (find : String → Option ClassDef) (i : Nat) :
    bodyErrors find (rung i) = [] := by
  cases i <;> rfl

/-- **Chains of every length are linked.** -/
theorem link_ladder (n : Nat) : link [ladder n] [] = .ok (finishedModule [ladder n] (rungs n) []) := by
  rw [link_eq_ok_iff, resolvedClasses_ladder]
  refine ⟨declare_eq_nil_iff.2 ⟨?_, fun d _ => ⟨List.not_mem_nil, rfl⟩⟩, ?_, cycles_rungs n, ?_, rfl⟩
  · rw [declarations_ladder, List.map_map]
    exact (List.map_congr_left fun i _ => name_rungDecl i) ▸ nodup_rungNames (n + 1)
  · rw [declarations_ladder]
    exact List.forall_mem_map.2 fun i hi => by rw [resolve_ladder hi]
  · exact List.forall_mem_map.2 fun i _ => bodyErrors_rung _ i

/-- A class of a linked ladder. -/
def linkedRung (n i : Nat) : ClassDef := (rung i).finish (visible? (rungs n) [])

theorem get?_ladder {n i : Nat} (h : i ≤ n) :
    (finishedModule [ladder n] (rungs n) []).classes.get? (rungName i) = some (linkedRung n i) := by
  have hfaultless := (faultless_of_link (link_ladder n)).1
  rw [resolvedClasses_ladder] at hfaultless
  exact hfaultless.get?_eq_some_iff.2
    ⟨rung i, List.mem_map_of_mem (List.mem_range.2 (by omega)), name_rung i, rfl⟩

/-- A class of a ladder has all classes below it as its bases. -/
theorem baseChain_ladder {n i : Nat} (h : i ≤ n) :
    BaseChain (finishedModule [ladder n] (rungs n) []).findClass? (linkedRung n i)
      ((List.range (i + 1)).reverse.map (linkedRung n)) := by
  induction i with
  | zero => exact .root rfl
  | succ i ih =>
    have hfound : (finishedModule [ladder n] (rungs n) []).findClass? (rungName i) =
        some (linkedRung n i) := by
      rw [findClass?_eq, get?_ladder (by omega), Option.some_or]
    rw [List.range_succ, List.reverse_append, List.reverse_singleton, List.singleton_append,
      List.map_cons]
    exact .derived (base?_eq_some_iff.2 ⟨rungName i, rfl, hfound⟩) (ih (by omega))

/-- On a ladder of 65 classes the last one has lost the first, and with it the method. -/
theorem lineage_ladder : ∃ m c, link [ladder 64] [] = .ok m ∧
    m.classes.get? (rungName 64) = some c ∧
    (∃ chain, BaseChain m.findClass? c chain ∧ chain.length = 65 ∧ m.lineage c ≠ chain.reverse ∧
      ∃ d ∈ chain, d.methods.contains "Show" = true) ∧
    m.owner? c "Show" = none := by
  have hlinked : ∀ r ∈ ([] : List Module), r.Linked := fun r hr => absurd hr List.not_mem_nil
  obtain ⟨chain, hchain, -, hwhole, howner⟩ :=
    lineage_eq_chain_iff hlinked (link_ladder 64) (get?_ladder (Nat.le_refl 64))
  cases hchain.unique (baseChain_ladder (Nat.le_refl 64))
  refine ⟨_, _, link_ladder 64, get?_ladder (Nat.le_refl 64), ⟨_, hchain, by simp, ?_, ?_⟩, ?_⟩
  · rw [Ne, hwhole]
    simp [maxInheritanceDepth]
  · exact ⟨linkedRung 64 0, List.mem_map_of_mem (by simp), rfl⟩
  · refine Option.not_isSome_iff_eq_none.1 fun hsome => ?_
    obtain ⟨d, hd, hshow⟩ := (howner "Show").1 hsome
    rw [← List.map_take] at hd
    obtain ⟨i, hi, rfl⟩ := List.mem_map.1 hd
    cases i with
    | zero => exact absurd hi (by decide)
    | succ i => cases hshow

end SiteHost.Script
