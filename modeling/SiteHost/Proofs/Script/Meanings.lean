import SiteHost.Proofs.Script.Linked

/-!
# What names stand for

A class writes the name of its base and the names of the types that it calls. Each stands for the first
of its full names that is known, and nothing else about linking a class depends on what is known:

* `Declared.written` — the names that a class writes;
* `Declared.meant?` — the full name that a written name stands for;
* `Declared.resolved` — a class with every written name in full.

Principal results:

* `resolve_eq_nil_iff` — a class is resolved without an error if every name it writes stands for
  something, and its methods have names of their own;
* `resolvedClasses_eq` — the classes of a batch in which there is no such error;
* `resolved_eq_iff` — two ways to know names resolve a class alike if and only if every name it writes
  stands for the same.
-/

namespace SiteHost.Script

/-- The types that a class names in calls, with their places. -/
def Declared.calls (d : Declared) : List (String × Position) :=
  (d.decl.constructor?.toList ++ d.decl.methods).flatMap Method.staticTypes

/-- The names that a class writes: that of its base and those of the types it calls. -/
def Declared.written (d : Declared) : List String := d.decl.base.toList ++ d.calls.map Prod.fst

/-- The full name that a name written in a class stands for: the nearest that is known. -/
def Declared.meant? (known : String → Bool) (d : Declared) (written : String) : Option String :=
  (candidates written d.decl.scope d.uses).find? known

/-- A class with every name it writes in full. -/
def Declared.resolved (known : String → Bool) (d : Declared) : ClassDef where
  name := d.decl.name
  base := d.decl.base.bind (d.meant? known)
  constructor? := d.decl.constructor?
  methods := (methodTable d.file d.decl.name d.decl.methods .empty).2
  typeRefs := (typeTable d.file (d.meant? known) d.calls .empty).2
  actions := .empty
  file := d.file
  position := d.decl.position

variable {known known' : String → Bool} {d : Declared} {units : List SourceUnit}
  {references : List Module} {written : String}

/-! ## The table of named types -/

/-- A table is filled without an error if every name is in it or resolved. -/
theorem typeTable_eq_nil_iff {file : String} {resolveName : String → Option String}
    {calls : List (String × Position)} {table : NameMap String} :
    (typeTable file resolveName calls table).1 = [] ↔
      ∀ call ∈ calls, table.contains call.1 = true ∨ (resolveName call.1).isSome = true := by
  induction calls generalizing table with
  | nil => simp [typeTable]
  | cons call rest ih =>
    obtain ⟨written, position⟩ := call
    rw [List.forall_mem_cons, typeTable]
    split
    · rename_i hthere
      exact ih.trans ⟨fun h => ⟨.inl hthere, h⟩, fun h => h.2⟩
    · rename_i hnew
      cases hname : resolveName written with
      | none =>
        dsimp only
        refine ⟨fun h => (by cases h), fun h => ?_⟩
        rcases h.1 with hin | hsome
        · exact absurd hin hnew
        · cases hsome
      | some full =>
        refine ih.trans ⟨fun h => ⟨.inr rfl, fun other hother => ?_⟩,
          fun h other hother => ?_⟩
        · by_cases heq : other.1 = written
          · exact .inr (by rw [heq, hname]; rfl)
          · refine (h other hother).imp_left fun hin => ?_
            rwa [NameMap.contains, NameMap.get?_insert_of_ne _ heq] at hin
        · by_cases heq : other.1 = written
          · exact .inl (by rw [heq, NameMap.contains, NameMap.get?_insert_self]; rfl)
          · refine (h.2 other hother).imp_left fun hin => ?_
            rwa [NameMap.contains, NameMap.get?_insert_of_ne _ heq]

/-- What a table leads to that is filled: what it led to before, or what a name is resolved to. -/
theorem get?_typeTable (file : String) (resolveName : String → Option String)
    (calls : List (String × Position)) (table : NameMap String) (name : String) :
    (typeTable file resolveName calls table).2.get? name =
      (table.get? name).or (if name ∈ calls.map Prod.fst then resolveName name else none) := by
  induction calls generalizing table with
  | nil => simp [typeTable]
  | cons call rest ih =>
    obtain ⟨written, position⟩ := call
    rw [typeTable, List.map_cons]
    split
    · rename_i hthere
      rw [ih]
      by_cases heq : name = written
      · subst heq
        obtain ⟨full, hfull⟩ := Option.isSome_iff_exists.1 hthere
        rw [hfull, Option.some_or, Option.some_or]
      · simp only [List.mem_cons, heq, false_or]
    · rename_i hnew
      by_cases heq : name = written
      · subst heq
        have hnone : table.get? name = none := by simpa [NameMap.contains] using hnew
        rw [hnone, Option.none_or, if_pos List.mem_cons_self]
        cases hname : resolveName name with
        | none =>
          dsimp only
          rw [ih, hnone, Option.none_or, hname, ite_self]
        | some full =>
          dsimp only
          rw [ih, NameMap.get?_insert_self, Option.some_or]
      · have hsame : (name ∈ written :: rest.map Prod.fst) = (name ∈ rest.map Prod.fst) := by
          simp [heq]
        simp only [hsame]
        cases hname : resolveName written with
        | none => exact ih table
        | some full => exact (ih _).trans (by rw [NameMap.get?_insert_of_ne _ heq])

/-- The types that a resolved class names. -/
theorem get?_typeRefs (known : String → Bool) (d : Declared) (name : String) :
    (d.resolved known).typeRefs.get? name =
      if name ∈ d.calls.map Prod.fst then d.meant? known name else none := by
  show (typeTable _ _ _ _).2.get? name = _
  rw [get?_typeTable, NameMap.get?_empty, Option.none_or]

/-! ## Resolved classes -/

/-- **A class is resolved without an error** if every name it writes stands for something, and its methods
have names of their own. -/
theorem resolve_eq_nil_iff : (resolve known d).1 = [] ↔
    (methodTable d.file d.decl.name d.decl.methods .empty).1 = [] ∧
      ∀ written ∈ d.written, (d.meant? known written).isSome = true := by
  have htypes : (typeTable d.file (d.meant? known) d.calls .empty).1 = [] ↔
      ∀ written ∈ d.calls.map Prod.fst, (d.meant? known written).isSome = true := by
    rw [typeTable_eq_nil_iff, List.forall_mem_map]
    exact forall₂_congr fun call _ => by simp [NameMap.contains]
  rw [Declared.written, List.forall_mem_append, ← htypes]
  unfold resolve
  dsimp only
  cases hbase : d.decl.base with
  | none =>
    simp only [Option.toList_none, List.not_mem_nil, false_implies, implies_true, true_and]
    exact List.append_eq_nil_iff
  | some written =>
    simp only [Option.toList_some, List.mem_singleton, forall_eq, Declared.meant?]
    cases (candidates written d.decl.scope d.uses).find? known with
    | none => simp
    | some full =>
      simp only [Option.isSome_some, true_and]
      exact List.append_eq_nil_iff

/-- What a class is resolved to, if there is no error. -/
theorem resolve_of_eq_nil (h : (resolve known d).1 = []) :
    (resolve known d).2 = some (d.resolved known) := by
  obtain ⟨-, hwritten⟩ := resolve_eq_nil_iff.1 h
  unfold resolve Declared.resolved
  dsimp only
  cases hbase : d.decl.base with
  | none => rfl
  | some written =>
    obtain ⟨full, hfull⟩ := Option.isSome_iff_exists.1
      (hwritten written (by simp [Declared.written, hbase]))
    have hfound : (candidates written d.decl.scope d.uses).find? known = some full := hfull
    dsimp only
    rw [hfound, Option.bind_some, hfull]
    rfl

/-- **The classes of a batch** in which every name stands for something. -/
theorem resolvedClasses_eq
    (h : ∀ d ∈ declarations units, (resolve (isKnown units references) d).1 = []) :
    resolvedClasses units references =
      (declarations units).map (Declared.resolved (isKnown units references)) := by
  rw [resolvedClasses, List.filterMap_map, ← List.filterMap_eq_map]
  exact List.filterMap_congr fun d hd => resolve_of_eq_nil (h d hd)

/-- What stands for something still does where more is known. -/
theorem isSome_meant?_mono (hknown : ∀ name, known name = true → known' name = true)
    (h : (d.meant? known written).isSome = true) : (d.meant? known' written).isSome = true := by
  obtain ⟨full, hmem, hfull⟩ := List.find?_isSome.1 h
  exact List.find?_isSome.2 ⟨full, hmem, hknown full hfull⟩

/-- What is resolved without an error is so where more is known. -/
theorem resolve_eq_nil_mono (hknown : ∀ name, known name = true → known' name = true)
    (h : (resolve known d).1 = []) : (resolve known' d).1 = [] := by
  obtain ⟨hmethods, hwritten⟩ := resolve_eq_nil_iff.1 h
  exact resolve_eq_nil_iff.2
    ⟨hmethods, fun written hmem => isSome_meant?_mono hknown (hwritten written hmem)⟩

/-- **Two ways to know names resolve a class alike** if and only if every name it writes stands for the
same. -/
theorem resolved_eq_iff : ((d.resolved known').base = (d.resolved known).base ∧
      (d.resolved known').typeRefs = (d.resolved known).typeRefs) ↔
    ∀ written ∈ d.written, d.meant? known' written = d.meant? known written := by
  have hbase : (d.resolved known').base = (d.resolved known).base ↔
      ∀ written ∈ d.decl.base.toList, d.meant? known' written = d.meant? known written := by
    show d.decl.base.bind _ = d.decl.base.bind _ ↔ _
    cases d.decl.base <;> simp
  have htypes : (d.resolved known').typeRefs = (d.resolved known).typeRefs ↔
      ∀ written ∈ d.calls.map Prod.fst, d.meant? known' written = d.meant? known written := by
    constructor
    · intro h written hmem
      have hget := congrArg (fun table : NameMap String => table.get? written) h
      rwa [get?_typeRefs, get?_typeRefs, if_pos hmem, if_pos hmem] at hget
    · intro h
      refine NameMap.ext_get? fun name => ?_
      rw [get?_typeRefs, get?_typeRefs]
      split
      · rename_i hmem
        exact h name hmem
      · rfl
  rw [hbase, htypes, Declared.written, List.forall_mem_append]

/-- A class is resolved alike if every name it writes stands for the same. -/
theorem resolved_congr (h : ∀ written ∈ d.written, d.meant? known' written = d.meant? known written) :
    d.resolved known' = d.resolved known := by
  obtain ⟨hbase, htypes⟩ := resolved_eq_iff.2 h
  have hbase' : d.decl.base.bind (d.meant? known') = d.decl.base.bind (d.meant? known) := hbase
  have htypes' : (typeTable d.file (d.meant? known') d.calls .empty).2 =
    (typeTable d.file (d.meant? known) d.calls .empty).2 := htypes
  unfold Declared.resolved
  rw [hbase', htypes']

end SiteHost.Script
