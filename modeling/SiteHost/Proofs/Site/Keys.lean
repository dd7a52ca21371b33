import SiteHost.Proofs.Site.Warm

/-!
# Keys of units

The base library is remembered under a key that no file of a site can have: the name of a script has
a dot, whatever the root and the naming rules of the site.

* `dot_mem_key` — the key of a script has a dot;
* `key_ne_of_resolve`, `key_ne_of_unitOfFile?`, `key_globalUnit_ne` — so no request path, no file and
  no global unit has the key of the base library;
* `not_startsWith_above` — and the base library lies below no directory;
* `tierOf_globalUnit_key`, `tierOf_leaf` — the layer of a key is the one it is called for in.
-/

namespace SiteHost

namespace Text

/-- A dot is its own lower case. -/
theorem dot_mem_lower {s : String} (h : '.' ∈ s.toList) : '.' ∈ (lower s).toList := by
  have hlower : ∀ before cs, '.' ∈ cs → '.' ∈ lowerAfter before cs := by
    intro before cs hcs
    induction cs generalizing before with
    | nil => cases hcs
    | cons c rest ih =>
      rw [lowerAfter]
      rcases List.mem_cons.1 hcs with rfl | hrest
      · rw [if_neg (by decide : '.' ≠ 'Σ')]
        exact List.mem_append_left _ (by decide)
      · exact List.mem_append_right _ (ih (c :: before) hrest)
  rw [lower, String.toList_ofList]
  exact hlower [] _ h

end Text

/-- A path has the characters of every path that it was continued by last. -/
theorem Path.mem_join {base part : String} {c : Char} (h : c ∈ part.toList) :
    c ∈ (Path.join base part).toList := by
  unfold Path.join
  split
  · exact h
  · split <;> simp [h]

theorem key_foundationUnit_dot : '.' ∉ foundationUnit.key.toList := by decide

/-- The base library lies below no directory. -/
theorem not_startsWith_above (directory : String) :
    ¬ foundationUnit.key.startsWith (Eviction.above directory) = true := by
  have hslash : '/' ∈ (Eviction.above directory).toList := by
    unfold Eviction.above
    dsimp only
    split
    · rename_i h
      rw [String.endsWith_eq_endsWith_toSlice, String.Slice.endsWith_string_iff,
        String.copy_toSlice] at h
      exact h.subset (by decide)
    · simp
  intro h
  have hmem := (String.startsWith_string_iff.1 h).subset hslash
  revert hmem
  decide

namespace Locator

variable {l : Locator} {names : List String} {unit : Identity}

theorem dot_mem_key (l : Locator) (dirs : List String) {file : String}
    (h : l.convention.isLeafName file = true) : '.' ∈ (l.unitAt (dirs ++ [file])).key.toList := by
  have hdot : '.' ∈ file.toList :=
    Convention.dot_of_isSourceName (Convention.isSourceName_of_isLeafName h)
  refine Text.dot_mem_lower ?_
  rw [unitAt, List.foldl_append]
  exact Path.mem_join hdot

theorem ne_foundation_of_dot (h : '.' ∈ unit.key.toList) : unit.key ≠ foundationUnit.key :=
  fun heq => key_foundationUnit_dot (heq ▸ h)

theorem key_toScript_ne (hne : names ≠ []) (hnames : ∀ name ∈ names, name ≠ "") :
    (l.unitAt (l.toScript names)).key ≠ foundationUnit.key := by
  obtain ⟨dirs, last, rfl⟩ := (List.eq_nil_or_concat names).resolve_left hne
  rw [List.concat_eq_append] at hnames ⊢
  rw [toScript_append]
  have hlast : last ≠ "" := hnames last (by simp)
  exact ne_foundation_of_dot (dot_mem_key l dirs (Convention.isLeafName_scriptName hlast))

/-- No request path has the key of the base library. -/
theorem key_ne_of_resolve {path : String} (h : l.resolve path = .ok unit) :
    unit.key ≠ foundationUnit.key := by
  obtain ⟨names, hne, hnames, rfl, -⟩ := names_of_resolve h
  exact key_toScript_ne hne fun name hname => (hnames name hname).ne_empty

/-- No file has the key of the base library. -/
theorem key_ne_of_unitOfFile? {path : String} (h : l.unitOfFile? path = some unit) :
    unit.key ≠ foundationUnit.key := by
  obtain ⟨names, hne, hnames, rfl⟩ := names_of_unitOfFile? h
  exact key_toScript_ne hne fun name hname => (hnames name hname).ne_empty

/-- The global unit does not have the key of the base library. -/
theorem key_globalUnit_ne (l : Locator) : l.globalUnit.key ≠ foundationUnit.key :=
  ne_foundation_of_dot (dot_mem_key l [] l.isLeafName_globalName)

theorem tierOf_globalUnit_key (l : Locator) : l.tierOf l.globalUnit.key = .siteGlobal := by
  rw [tierOf, if_neg l.key_globalUnit_ne, if_pos rfl]

theorem isGlobal_iff : l.isGlobal unit = true ↔ unit.key = l.globalUnit.key := by
  rw [isGlobal, beq_iff_eq]

/-- Units of one key are global alike. -/
theorem isGlobal_congr {other : Identity} (h : unit.key = other.key) :
    l.isGlobal unit = l.isGlobal other := by
  rw [isGlobal, h, isGlobal]

theorem tierOf_leaf (h : unit.key ≠ foundationUnit.key) (hglobal : ¬ l.isGlobal unit = true) :
    l.tierOf unit.key = .leaf := by
  rw [tierOf, if_neg h, if_neg fun hkey => hglobal (isGlobal_iff.2 hkey)]

end Locator

end SiteHost
