/-!
# Maps from names

A map from text to values whose entries stand in the order of their names, compared by code
point. The order is part of the type, so a map is determined by what it answers:

* `NameMap.insert` — replaces the value of a name that is there, else finds the name's place;
* `NameMap.get?`, `NameMap.contains`, `NameMap.erase` — by name;
* `NameMap.keys`, `NameMap.toList` — in ascending order;
* `NameMap.get?_eq_some_iff` — the answers are the entries;
* `NameMap.get?_ofList` — of several entries of one name the last counts;
* `NameMap.ext_get?` — two maps with the same answers are equal.
-/

namespace SiteHost

/-- Entries in strictly ascending order of their names. -/
abbrev Ascending {α : Type} (entries : List (String × α)) : Prop :=
  entries.Pairwise fun a b => a.1 < b.1

/-- Names with their values, in ascending order of the names. -/
structure NameMap (α : Type) where
  toList : List (String × α)
  ascending : Ascending toList

namespace NameMap

variable {α β : Type}

/-- Puts a name into ascending entries, over the value it may have there. -/
def insertEntry (name : String) (value : α) : List (String × α) → List (String × α)
  | [] => [(name, value)]
  | (k, v) :: rest =>
    if name < k then (name, value) :: (k, v) :: rest
    else if name = k then (name, value) :: rest
    else (k, v) :: insertEntry name value rest

theorem mem_insertEntry {name : String} {value : α} {entries : List (String × α)}
    {e : String × α} (h : e ∈ insertEntry name value entries) :
    e = (name, value) ∨ e ∈ entries := by
  induction entries with
  | nil => simpa [insertEntry] using h
  | cons d rest ih =>
    simp only [insertEntry] at h
    split at h
    · simpa using h
    · split at h
      · rcases List.mem_cons.1 h with h | h
        · exact .inl h
        · exact .inr (by simp [h])
      · rcases List.mem_cons.1 h with h | h
        · exact .inr (by simp [h])
        · exact (ih h).imp_right (by simp +contextual)

theorem ascending_insertEntry (name : String) (value : α) {entries : List (String × α)}
    (h : Ascending entries) : Ascending (insertEntry name value entries) := by
  induction entries with
  | nil => simp [insertEntry, Ascending]
  | cons e rest ih =>
    have hall := (List.pairwise_cons.1 h).1
    have hrest := (List.pairwise_cons.1 h).2
    simp only [insertEntry]
    split
    · rename_i hlt
      refine List.pairwise_cons.2 ⟨?_, h⟩
      intro d hd
      rcases List.mem_cons.1 hd with rfl | hd
      · exact hlt
      · exact String.lt_trans hlt (hall d hd)
    · split
      · rename_i _ heq
        subst heq
        exact List.pairwise_cons.2 ⟨hall, hrest⟩
      · rename_i hlt hne
        refine List.pairwise_cons.2 ⟨?_, ih hrest⟩
        intro d hd
        rcases mem_insertEntry hd with rfl | hd
        · exact Std.lt_of_le_of_ne (Std.not_lt.1 hlt) (Ne.symm hne)
        · exact hall d hd

/-- The map without entries. -/
def empty : NameMap α := ⟨[], .nil⟩

instance : Inhabited (NameMap α) := ⟨empty⟩

instance [Repr α] : Repr (NameMap α) := ⟨fun m n => reprPrec m.toList n⟩

theorem ext_toList {m n : NameMap α} (h : m.toList = n.toList) : m = n := by
  cases m; cases n; cases h; rfl

instance [DecidableEq α] : DecidableEq (NameMap α) := fun m n =>
  if h : m.toList = n.toList then isTrue (ext_toList h)
  else isFalse fun e => h (e ▸ rfl)

/-- The map with `name` standing for `value`. -/
def insert (m : NameMap α) (name : String) (value : α) : NameMap α :=
  ⟨insertEntry name value m.toList, ascending_insertEntry name value m.ascending⟩

/-- The value of a name. -/
def get? (m : NameMap α) (name : String) : Option α := m.toList.lookup name

/-- Whether a name has a value. -/
def contains (m : NameMap α) (name : String) : Bool := (m.get? name).isSome

/-- The entries that satisfy `p`. -/
def filter (p : String → α → Bool) (m : NameMap α) : NameMap α :=
  ⟨m.toList.filter fun e => p e.1 e.2, List.Pairwise.filter _ m.ascending⟩

/-- The map without `name`. -/
def erase (m : NameMap α) (name : String) : NameMap α := m.filter fun k _ => k != name

/-- The names in ascending order. -/
def keys (m : NameMap α) : List String := m.toList.map Prod.fst

/-- The values in the order of their names. -/
def values (m : NameMap α) : List α := m.toList.map Prod.snd

/-- How many names there are. -/
def size (m : NameMap α) : Nat := m.toList.length

/-- The map of a list of entries, a later one replacing an earlier one of its name. -/
def ofList (entries : List (String × α)) : NameMap α :=
  entries.foldl (fun m e => m.insert e.1 e.2) empty

/-- The same names with other values. -/
def map (f : α → β) (m : NameMap α) : NameMap β :=
  ⟨m.toList.map fun e => (e.1, f e.2), List.pairwise_map.2 m.ascending⟩

theorem lookup_cons_of_ne {name k : String} (h : name ≠ k) (value : α) (entries : List (String × α)) :
    List.lookup name ((k, value) :: entries) = entries.lookup name := by
  rw [List.lookup_cons, beq_eq_false_iff_ne.2 h]

theorem lookup_insertEntry_self (name : String) (value : α) (entries : List (String × α)) :
    (insertEntry name value entries).lookup name = some value := by
  induction entries with
  | nil => simp [insertEntry]
  | cons e rest ih =>
    obtain ⟨k, v⟩ := e
    simp only [insertEntry]
    split
    · simp
    · split
      · simp
      · rename_i h
        rw [lookup_cons_of_ne h, ih]

theorem lookup_insertEntry_of_ne {name other : String} (h : other ≠ name) (value : α)
    (entries : List (String × α)) :
    (insertEntry name value entries).lookup other = entries.lookup other := by
  induction entries with
  | nil => exact lookup_cons_of_ne h value []
  | cons e rest ih =>
    obtain ⟨k, v⟩ := e
    simp only [insertEntry]
    split
    · exact lookup_cons_of_ne h value _
    · split
      · rename_i _ hk
        subst hk
        rw [lookup_cons_of_ne h, lookup_cons_of_ne h]
      · rw [List.lookup_cons, List.lookup_cons, ih]

@[simp] theorem get?_empty (name : String) : (empty : NameMap α).get? name = none := rfl

@[simp] theorem get?_insert_self (m : NameMap α) (name : String) (value : α) :
    (m.insert name value).get? name = some value :=
  lookup_insertEntry_self name value m.toList

theorem get?_insert_of_ne (m : NameMap α) {name other : String} (h : other ≠ name) (value : α) :
    (m.insert name value).get? other = m.get? other :=
  lookup_insertEntry_of_ne h value m.toList

theorem get?_eq_some_iff {m : NameMap α} {name : String} {value : α} :
    m.get? name = some value ↔ (name, value) ∈ m.toList := by
  obtain ⟨entries, h⟩ := m
  simp only [get?]
  induction entries with
  | nil => simp
  | cons e rest ih =>
    obtain ⟨k, v⟩ := e
    obtain ⟨hall, hrest⟩ := List.pairwise_cons.1 h
    by_cases hk : name = k
    · subst hk
      have hnot : ∀ w, (name, w) ∉ rest := fun w hm => String.lt_irrefl _ (hall (name, w) hm)
      simp [hnot, eq_comm]
    · simp [lookup_cons_of_ne hk, hk, ih hrest]

theorem mem_keys {m : NameMap α} {name : String} :
    name ∈ m.keys ↔ ∃ value, m.get? name = some value := by
  simp [keys, get?_eq_some_iff]

/-- A name comes once. -/
theorem nodup_keys (m : NameMap α) : m.keys.Nodup := by
  refine List.pairwise_map.2 (m.ascending.imp ?_)
  intro a b hlt heq
  exact String.lt_irrefl b.1 (heq ▸ hlt)

theorem contains_iff {m : NameMap α} {name : String} : m.contains name = true ↔ name ∈ m.keys := by
  rw [contains, Option.isSome_iff_exists, mem_keys]

theorem mem_values {m : NameMap α} {value : α} :
    value ∈ m.values ↔ ∃ name, m.get? name = some value := by
  simp [values, get?_eq_some_iff]

theorem get?_filter (m : NameMap α) {f : String → α → Bool} {name : String}
    (h : ∀ value, f name value = true) : (m.filter f).get? name = m.get? name := by
  apply Option.ext
  intro value
  rw [get?_eq_some_iff, get?_eq_some_iff]
  simp [filter, h]

/-- A choice among the names leaves the values of the chosen ones. -/
theorem get?_filter_name (m : NameMap α) (p : String → Bool) (name : String) :
    (m.filter fun k _ => p k).get? name = if p name then m.get? name else none := by
  split
  · rename_i h
    exact get?_filter m fun _ => h
  · rename_i h
    rw [Option.eq_none_iff_forall_ne_some]
    intro value hvalue
    rw [get?_eq_some_iff] at hvalue
    exact h (List.mem_filter.1 hvalue).2

theorem get?_map (f : α → β) (m : NameMap α) (name : String) :
    (m.map f).get? name = (m.get? name).map f := by
  obtain ⟨entries, h⟩ := m
  unfold get? map
  dsimp only
  clear h
  induction entries with
  | nil => rfl
  | cons e rest ih =>
    rw [List.map_cons, List.lookup_cons, List.lookup_cons]
    split
    · rfl
    · exact ih

@[simp] theorem get?_erase_self (m : NameMap α) (name : String) :
    (m.erase name).get? name = none := by
  cases h : (m.erase name).get? name with
  | none => rfl
  | some v =>
    rw [get?_eq_some_iff] at h
    simp [erase, filter] at h

theorem get?_erase_of_ne (m : NameMap α) {name other : String} (h : other ≠ name) :
    (m.erase name).get? other = m.get? other := by
  apply Option.ext
  intro v
  rw [get?_eq_some_iff, get?_eq_some_iff]
  simp [erase, filter, h]

theorem lookup_eq_none_of_lt {k : String} {entries : List (String × α)}
    (h : ∀ e ∈ entries, k < e.1) : entries.lookup k = none := by
  induction entries with
  | nil => rfl
  | cons e rest ih =>
    have hk : k ≠ e.1 := fun heq => String.lt_irrefl _ (heq ▸ h e (by simp))
    exact (lookup_cons_of_ne hk e.2 rest).trans (ih fun d hd => h d (by simp [hd]))

theorem lookup_cons_self (e : String × α) (entries : List (String × α)) :
    List.lookup e.1 (e :: entries) = some e.2 :=
  List.lookup_cons_self

theorem eq_of_lookup_eq {xs ys : List (String × α)} (hx : Ascending xs) (hy : Ascending ys)
    (h : ∀ k, xs.lookup k = ys.lookup k) : xs = ys := by
  induction xs generalizing ys with
  | nil =>
    cases ys with
    | nil => rfl
    | cons e rest => cases (h e.1).trans (lookup_cons_self e rest)
  | cons e xs ih =>
    cases ys with
    | nil => cases (lookup_cons_self e xs).symm.trans (h e.1)
    | cons d ys =>
      obtain ⟨hxall, hxrest⟩ := List.pairwise_cons.1 hx
      obtain ⟨hyall, hyrest⟩ := List.pairwise_cons.1 hy
      have hkey : e.1 = d.1 := by
        rcases Std.lt_trichotomy e.1 d.1 with hlt | heq | hgt
        · have hnone : (d :: ys).lookup e.1 = none := lookup_eq_none_of_lt fun c hc => by
            rcases List.mem_cons.1 hc with rfl | hc
            · exact hlt
            · exact String.lt_trans hlt (hyall c hc)
          cases (lookup_cons_self e xs).symm.trans ((h e.1).trans hnone)
        · exact heq
        · have hnone : (e :: xs).lookup d.1 = none := lookup_eq_none_of_lt fun c hc => by
            rcases List.mem_cons.1 hc with rfl | hc
            · exact hgt
            · exact String.lt_trans hgt (hxall c hc)
          cases hnone.symm.trans ((h d.1).trans (lookup_cons_self d ys))
      have hval : e.2 = d.2 := by
        have hboth := h e.1
        rw [lookup_cons_self, hkey, lookup_cons_self] at hboth
        exact Option.some.inj hboth
      have hed : e = d := Prod.ext hkey hval
      subst hed
      congr 1
      refine ih hxrest hyrest fun k => ?_
      by_cases hk : k = e.1
      · rw [hk, lookup_eq_none_of_lt hxall, lookup_eq_none_of_lt hyall]
      · exact (lookup_cons_of_ne hk e.2 xs).symm.trans ((h k).trans (lookup_cons_of_ne hk e.2 ys))

theorem get?_foldl_insert_eq_or (m : NameMap α) (entries : List (String × α)) (name : String) :
    (entries.foldl (fun m e => m.insert e.1 e.2) m).get? name =
      (entries.reverse.lookup name).or (m.get? name) := by
  induction entries generalizing m with
  | nil => rfl
  | cons e rest ih =>
    rw [List.foldl_cons, ih, List.reverse_cons, List.lookup_append, Option.or_assoc]
    by_cases h : name = e.1
    · rw [h, get?_insert_self, lookup_cons_self, Option.some_or]
    · rw [get?_insert_of_ne _ h, lookup_cons_of_ne h, List.lookup_nil, Option.none_or]

/-- Of several entries of one name the last counts. -/
theorem get?_ofList (entries : List (String × α)) (name : String) :
    (ofList entries).get? name = entries.reverse.lookup name := by
  rw [ofList, get?_foldl_insert_eq_or, get?_empty, Option.or_none]

/-- Two maps with the same answers are equal. -/
theorem ext_get? {m n : NameMap α} (h : ∀ k, m.get? k = n.get? k) : m = n :=
  ext_toList (eq_of_lookup_eq m.ascending n.ascending h)

end NameMap

end SiteHost
