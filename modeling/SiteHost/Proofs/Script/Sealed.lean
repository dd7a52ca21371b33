import SiteHost.Proofs.Script.Linked

/-!
# What is found stays found

A class was checked as the module that declares it knows classes. A run looks classes up in the module
that it was started with, which refers to that one, perhaps through others.

* `Module.Within` — a module that another consists of;
* `Module.Unambiguous` — whether every class is declared by one module only;
* `Module.Shallow` — whether no class has more bases than are followed;
* `Module.Sealed` — what holds of every class that a module finds, wherever it is declared.

Principal results:

* `findClass?_of_within` — a class found below is found above;
* `Module.Linked.isSealed` — every class that a linked module finds has what it names.
-/

namespace SiteHost.Script

namespace Module

/-- A module that another consists of: the module itself, or one referred to, perhaps through others. -/
inductive Within : Module → Module → Prop where
  | self {m : Module} : Within m m
  | reference {m k r : Module} : Within m k → r ∈ k.references → Within m r

/-- Whether every class is declared by one module only. -/
def Unambiguous (m : Module) : Prop :=
  ∀ k k' name, m.Within k → m.Within k' → k.classes.contains name = true →
    k'.classes.contains name = true → k = k'

/-- Whether no class has more bases than are followed. -/
def Shallow (m : Module) : Prop :=
  ∀ name c chain, m.findClass? name = some c → BaseChain m.findClass? c chain →
    chain.length ≤ maxInheritanceDepth

/-- What holds of every class that a module finds, wherever it is declared. -/
structure Sealed (m : Module) : Prop where
  /-- It is found under its own name. -/
  named : ∀ name c, m.findClass? name = some c → c.name = name
  /-- Its bases are all followed. -/
  chained : ∀ name c, m.findClass? name = some c →
    ∃ chain, BaseChain m.findClass? c chain ∧ chain.length ≤ maxInheritanceDepth
  /-- Every name read and every call made exists. -/
  bodies : ∀ name c, m.findClass? name = some c → bodyErrors m.findClass? c = []
  /-- Its actions are methods of its own or of its bases. -/
  actions : ∀ name c action, m.findClass? name = some c → c.actions.contains action = true →
    ∃ o, m.owner? c action = some o

variable {m k r : Module} {name : String} {c : ClassDef}

theorem Within.trans {n : Module} (h : m.Within k) (h' : k.Within n) : m.Within n := by
  induction h' with
  | self => exact h
  | reference _ hr ih => exact .reference ih hr

/-! ## What a module finds -/

mutual

/-- A class found in a module is declared by a module within it. -/
theorem exists_within_of_findClass? :
    ∀ k : Module, k.findClass? name = some c → ∃ k', k.Within k' ∧ k'.classes.get? name = some c
  | .mk units classes references, h => by
    rw [findClass?_eq, Option.or_eq_some_iff] at h
    rcases h with hown | ⟨-, hbelow⟩
    · exact ⟨_, .self, hown⟩
    · obtain ⟨r, hr, k', hk', hget⟩ := exists_within_of_findIn? references hbelow
      exact ⟨k', Within.trans (.reference .self hr) hk', hget⟩

theorem exists_within_of_findIn? :
    ∀ references : List Module, findIn? name references = some c →
      ∃ r ∈ references, ∃ k', r.Within k' ∧ k'.classes.get? name = some c
  | [], h => by cases h
  | r :: rest, h => by
    rw [findIn?_cons, Option.or_eq_some_iff] at h
    rcases h with hhere | ⟨-, hlater⟩
    · obtain ⟨k', hk', hget⟩ := exists_within_of_findClass? r hhere
      exact ⟨r, List.mem_cons_self, k', hk', hget⟩
    · obtain ⟨r', hr', hfound⟩ := exists_within_of_findIn? rest hlater
      exact ⟨r', List.mem_cons_of_mem r hr', hfound⟩

end

theorem isSome_findIn? {references : List Module} (hr : r ∈ references)
    (h : (r.findClass? name).isSome = true) : (findIn? name references).isSome = true := by
  induction references with
  | nil => cases hr
  | cons first rest ih =>
    rw [findIn?_cons, Option.isSome_or, Bool.or_eq_true]
    rcases List.mem_cons.1 hr with rfl | hr
    · exact .inl h
    · exact .inr (ih hr)

/-- A name that leads to a class below leads to a class above. -/
theorem isSome_of_within (hk : m.Within k) (h : (k.findClass? name).isSome = true) :
    (m.findClass? name).isSome = true := by
  induction hk with
  | self => exact h
  | reference _ hr ih =>
    refine ih ?_
    rw [findClass?_eq, Option.isSome_or, Bool.or_eq_true]
    exact .inr (isSome_findIn? hr h)

/-- **A class found below is found above**, if no other module declares its name. -/
theorem findClass?_of_within (hm : m.Unambiguous) (hk : m.Within k)
    (h : k.findClass? name = some c) : m.findClass? name = some c := by
  obtain ⟨below, hbelow, hc⟩ := exists_within_of_findClass? k h
  obtain ⟨d, hd⟩ := Option.isSome_iff_exists.1 (isSome_of_within hk (by rw [h]; rfl))
  obtain ⟨other, hother, hget⟩ := exists_within_of_findClass? m hd
  have hsame : other = below := hm other below name hother (hk.trans hbelow)
    (by rw [NameMap.contains, hget]; rfl) (by rw [NameMap.contains, hc]; rfl)
  rw [hsame, hc] at hget
  rw [hd, hget]

/-- A module without references has nothing that could declare a class again. -/
theorem unambiguous_of_references_eq_nil (h : m.references = []) : m.Unambiguous := by
  have hself : ∀ k, m.Within k → k = m := by
    intro k hk
    induction hk with
    | self => rfl
    | reference _ hr ih =>
      rw [ih, h] at hr
      cases hr
  intro k k' _ hk hk' _ _
  rw [hself k hk, hself k' hk']

theorem Linked.within (h : m.Linked) (hk : m.Within k) : k.Linked := by
  induction hk with
  | self => exact h
  | reference _ hr ih =>
    cases ih with
    | mk hrefs hlink =>
      obtain ⟨-, rfl⟩ := faultless_of_link hlink
      exact hrefs _ hr

/-- **Every class that a linked module finds has what it names.** -/
theorem Linked.isSealed (h : m.Linked) (hm : m.Unambiguous) (hdepth : m.Shallow) : m.Sealed := by
  have hdeclared : ∀ name c, m.findClass? name = some c →
      ∃ k : Module, k.Checked ∧ k.classes.get? name = some c ∧ Refines k.findClass? m.findClass? := by
    intro name c hc
    obtain ⟨k, hk, hget⟩ := exists_within_of_findClass? m hc
    exact ⟨k, (h.within hk).checked, hget,
      fun name d hd => ⟨d, findClass?_of_within hm hk hd, rfl⟩⟩
  constructor
  · intro name c hc
    obtain ⟨k, hk, hget, -⟩ := hdeclared name c hc
    exact hk.named name c hget
  · intro name c hc
    obtain ⟨chain, hchain⟩ := h.rooted name c hc
    exact ⟨chain, hchain, hdepth name c chain hc hchain⟩
  · intro name c hc
    obtain ⟨k, hk, hget, hrefines⟩ := hdeclared name c hc
    exact bodyErrors_eq_nil_of_refines hrefines rfl (hk.bodies name c hget)
  · intro name c action hc haction
    obtain ⟨k, hk, hget, hrefines⟩ := hdeclared name c hc
    obtain ⟨o, ho⟩ := hk.actions name c action hget haction
    obtain ⟨o', ho', -⟩ := owner?_of_refines hrefines rfl ho
    exact ⟨o', ho'⟩

end Module

end SiteHost.Script
