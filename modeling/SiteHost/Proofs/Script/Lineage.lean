import SiteHost.Script.Module

/-!
# Base chains

* `BaseChain` — a class with its bases up to the one that has none, the class first;
* `Rooted` — whether every class that can be found has such a chain.

Principal results:

* `BaseChain.ancestry_eq_take` — what is walked of a chain is its beginning, and all of it only if the
  walk is long enough;
* `BaseChain.getLast?_base` — a chain ends in a class without a base;
* `BaseChain.suffix_of_mem` — the chain of a base ends the chain of the class;
* `rooted_findIn?` — modules side by side are rooted if each of them is, whatever they declare.
-/

namespace SiteHost.Script

/-- A class with its bases up to the one that has none, the class first. -/
inductive BaseChain (find : String → Option ClassDef) : ClassDef → List ClassDef → Prop where
  | root {c : ClassDef} : c.base = none → BaseChain find c [c]
  | derived {c b : ClassDef} {chain : List ClassDef} : c.base? find = some b →
    BaseChain find b chain → BaseChain find c (c :: chain)

/-- Whether every class that can be found has a chain of bases. -/
def Rooted (find : String → Option ClassDef) : Prop :=
  ∀ name c, find name = some c → ∃ chain, BaseChain find c chain

variable {find find' : String → Option ClassDef} {c d b : ClassDef} {chain : List ClassDef}
  {name : String}

theorem base?_eq_some_iff : c.base? find = some b ↔ ∃ name, c.base = some name ∧ find name = some b :=
  Option.bind_eq_some_iff

theorem base?_of_base_eq_none (h : c.base = none) : c.base? find = none := by
  rw [ClassDef.base?, h, Option.bind_none]

/-- A class or a base of it; a base is a class that is found. -/
theorem find_of_mem_ancestry {depth : Nat} (h : d ∈ ancestry find depth c) :
    d = c ∨ ∃ name, find name = some d := by
  induction depth generalizing c with
  | zero => cases h
  | succ n ih =>
    rw [ancestry] at h
    split at h
    · rename_i b hb
      rcases List.mem_cons.1 h with rfl | h
      · exact .inl rfl
      · obtain ⟨name, -, hfound⟩ := base?_eq_some_iff.1 hb
        exact .inr ((ih h).elim (fun heq => ⟨name, heq ▸ hfound⟩) id)
    · exact .inl (List.mem_singleton.1 h)

/-- A method that is declared somewhere among a class and its bases has an owner. -/
theorem exists_owner? {method : String} (hd : d ∈ ancestry find maxInheritanceDepth c)
    (hm : d.methods.contains method = true) : ∃ o, owner? find c method = some o :=
  Option.isSome_iff_exists.1 (List.find?_isSome.2 ⟨d, hd, hm⟩)

namespace BaseChain

theorem head?_eq (h : BaseChain find c chain) : chain.head? = some c := by
  cases h <;> rfl

/-- A chain ends in a class without a base. -/
theorem getLast?_base (h : BaseChain find c chain) :
    ∃ last, chain.getLast? = some last ∧ last.base = none := by
  induction h with
  | @root c hbase => exact ⟨c, rfl, hbase⟩
  | derived _ hchain ih =>
    obtain ⟨last, hlast, hbase⟩ := ih
    exact ⟨last, by rw [List.getLast?_cons, hlast]; rfl, hbase⟩

theorem unique {chain' : List ClassDef} (h : BaseChain find c chain) (h' : BaseChain find c chain') :
    chain = chain' := by
  induction h generalizing chain' with
  | root hbase =>
    cases h' with
    | root _ => rfl
    | derived hb _ =>
      rw [base?_of_base_eq_none hbase] at hb
      cases hb
  | derived hb _ ih =>
    cases h' with
    | root hbase =>
      rw [base?_of_base_eq_none hbase] at hb
      cases hb
    | derived hb' hchain' =>
      rw [hb] at hb'
      cases hb'
      rw [ih hchain']

/-- Who finds all that another finds sees the same chain. -/
theorem mono (h : BaseChain find c chain)
    (hfind : ∀ name d, find name = some d → find' name = some d) : BaseChain find' c chain := by
  induction h with
  | root hbase => exact .root hbase
  | derived hb _ ih =>
    obtain ⟨name, hname, hfound⟩ := base?_eq_some_iff.1 hb
    exact .derived (base?_eq_some_iff.2 ⟨name, hname, hfind _ _ hfound⟩) ih

/-- The chain of a base ends the chain of the class. -/
theorem suffix_of_mem (h : BaseChain find c chain) (hd : d ∈ chain) :
    ∃ rest, BaseChain find d rest ∧ rest <:+ chain := by
  induction h with
  | @root c hbase =>
    cases List.mem_singleton.1 hd
    exact ⟨[d], .root hbase, List.suffix_refl _⟩
  | @derived c b chain hb hchain ih =>
    rcases List.mem_cons.1 hd with rfl | hd
    · exact ⟨d :: chain, .derived hb hchain, List.suffix_refl _⟩
    · obtain ⟨rest, hrest, hsuffix⟩ := ih hd
      exact ⟨rest, hrest, hsuffix.trans (List.suffix_cons c chain)⟩

/-- **What is walked of a chain is its beginning.** -/
theorem ancestry_eq_take (h : BaseChain find c chain) (depth : Nat) :
    ancestry find depth c = chain.take depth := by
  induction h generalizing depth with
  | root hbase =>
    cases depth with
    | zero => rfl
    | succ n => simp [ancestry, base?_of_base_eq_none hbase]
  | derived hb _ ih =>
    cases depth with
    | zero => rfl
    | succ n => simp [ancestry, hb, ih n]

end BaseChain

/-! ## Modules side by side -/

theorem findIn?_cons (m : Module) (rest : List Module) (name : String) :
    Module.findIn? name (m :: rest) = (m.findClass? name).or (Module.findIn? name rest) := by
  rw [Module.findIn?]
  cases m.findClass? name <;> rfl

/-- **Modules side by side are rooted if each of them is.** A chain of a later module may pass over to
an earlier one, where it ends. -/
theorem rooted_findIn? {modules : List Module} (h : ∀ m ∈ modules, Rooted m.findClass?) :
    Rooted fun name => Module.findIn? name modules := by
  induction modules with
  | nil =>
    intro name c hc
    cases hc
  | cons m rest ih =>
    have hearlier : ∀ name d, m.findClass? name = some d →
        Module.findIn? name (m :: rest) = some d := fun name d hd => by
      rw [findIn?_cons, hd, Option.some_or]
    have hm : ∀ name d, m.findClass? name = some d →
        ∃ chain, BaseChain (fun name => Module.findIn? name (m :: rest)) d chain := by
      intro name d hd
      obtain ⟨chain, hchain⟩ := h m List.mem_cons_self name d hd
      exact ⟨chain, hchain.mono hearlier⟩
    intro name c hc
    dsimp only at hc
    rw [findIn?_cons, Option.or_eq_some_iff] at hc
    rcases hc with hc | ⟨-, hc⟩
    · exact hm name c hc
    · obtain ⟨chain, hchain⟩ := ih (fun m' hm' => h m' (List.mem_cons_of_mem m hm')) name c hc
      clear hc
      induction hchain with
      | @root c hbase => exact ⟨[c], .root hbase⟩
      | @derived c b chain hb _ ihchain =>
        obtain ⟨base, hbase, hfound⟩ := base?_eq_some_iff.1 hb
        cases hthere : m.findClass? base with
        | some d =>
          obtain ⟨chain', hchain'⟩ := hm base d hthere
          exact ⟨c :: chain', .derived (base?_eq_some_iff.2 ⟨base, hbase, hearlier base d hthere⟩)
            hchain'⟩
        | none =>
          obtain ⟨chain', hchain'⟩ := ihchain
          refine ⟨c :: chain', .derived (base?_eq_some_iff.2 ⟨base, hbase, ?_⟩) hchain'⟩
          rw [findIn?_cons, hthere, Option.none_or]
          exact hfound

end SiteHost.Script
