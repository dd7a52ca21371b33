import SiteHost.Proofs.Disk.Place
import SiteHost.Proofs.Text.Case

/-!
# Disks with lower-case names

On a disk whose names below some place are in lower-case ASCII, a path in another letter case leads
nowhere:

* `Place.lower` — the names of a place in the lower case of their ASCII letters;
* `Disk.Tidy` — below a path, all names are in lower-case ASCII and those of directories have no dot;
* `Disk.tidyEntry` — what that asks of one file or directory, as a test;
* `Disk.LowerBelow` — what stands below a place has a lower-case name.

Principal results:

* `walk_of_lower`, `readText?_of_lower` — names that are not in lower case lead to no file where the
  lower-case ones lead somewhere.
-/

namespace SiteHost

/-! ## Names in lower case -/

/-- A name is one in any letter case. -/
theorem Path.isName_asciiLower_iff {name : String} :
    Path.IsName (Text.asciiLower name) ↔ Path.IsName name := by
  have hslash : '/' ∈ (Text.asciiLower name).toList ↔ '/' ∈ name.toList :=
    Text.mem_toList_asciiLower (by decide)
  constructor
  · rintro ⟨hempty, hno, hdot, hdots⟩
    exact ⟨mt Text.asciiLower_eq_empty.2 hempty, mt hslash.2 hno, mt Text.asciiLower_eq_dot.2 hdot,
      mt Text.asciiLower_eq_dots.2 hdots⟩
  · rintro ⟨hempty, hno, hdot, hdots⟩
    exact ⟨mt Text.asciiLower_eq_empty.1 hempty, mt hslash.1 hno, mt Text.asciiLower_eq_dot.1 hdot,
      mt Text.asciiLower_eq_dots.1 hdots⟩

namespace Place

/-- The names of a place in the lower case of their ASCII letters. -/
def lower (place : Place) : Place := place.map Text.asciiLower

variable {p q : Place} {name : String}

@[simp] theorem lower_nil : lower [] = [] := rfl

@[simp] theorem lower_cons (name : String) (p : Place) :
    lower (name :: p) = Text.asciiLower name :: lower p := rfl

@[simp] theorem lower_append (p q : Place) : lower (p ++ q) = lower p ++ lower q := List.map_append

@[simp] theorem lower_lower (p : Place) : lower (lower p) = lower p := by
  simp [lower, Function.comp_def]

@[simp] theorem lower_eq_nil : lower p = [] ↔ p = [] := List.map_eq_nil_iff

theorem Named.lower (h : Named p) : Named (lower p) := by
  intro name hname
  obtain ⟨other, hother, rfl⟩ := List.mem_map.1 hname
  exact Path.isName_asciiLower_iff.2 (h other hother)

/-- Names with slashes between them, in lower case. -/
theorem asciiLower_joined (p : Place) :
    Text.asciiLower (String.intercalate "/" p) = String.intercalate "/" (lower p) := by
  have hslash : Text.asciiLower "/" = "/" := by decide
  rw [Text.asciiLower_intercalate, hslash, lower]

/-- The path of something below a place. -/
theorem path_append (p : Place) {names : List String} (hne : names ≠ []) :
    Place.path (p ++ names) = String.ofList (p.flatMap fun name => '/' :: name.toList) ++ "/" ++
      String.intercalate "/" names := by
  obtain ⟨first, rest, rfl⟩ := List.exists_cons_of_ne_nil hne
  have hrest : '/' :: (String.intercalate "/" (first :: rest)).toList =
      (first :: rest).flatMap fun name => '/' :: name.toList := by
    rw [← toList_path]
    simp [Place.path]
  rw [← String.toList_inj, toList_path_of_ne_nil (by simp), List.flatMap_append, ← hrest]
  simp

/-- The path of a place begins that of everything below it. -/
theorem path_prefix (p q : Place) : ∃ rest, Place.path (p ++ q) = p.path ++ rest := by
  by_cases hq : q = []
  · exact ⟨"", by simp [hq]⟩
  · by_cases hp : p = []
    · exact ⟨String.intercalate "/" q, by simp [hp, Place.path]⟩
    · refine ⟨"/" ++ String.intercalate "/" q, ?_⟩
      rw [path_append p hq, ← toList_path_of_ne_nil hp, String.ofList_toList, String.append_assoc]

end Place

/-! ## Paths that are well formed -/

namespace Disk

open Place

variable {d : Disk} {p q root : Place} {names : List String} {name : String}

/-- A path is well formed if one that goes on from it is. -/
theorem malformed?_left (h : malformed? (Place.path (p ++ q)) = none) :
    malformed? p.path = none := by
  obtain ⟨rest, hrest⟩ := path_prefix p q
  rw [hrest] at h
  unfold malformed? at h ⊢
  split at h
  · cases h
  rename_i hzero
  split at h
  · cases h
  split at h
  · cases h
  rename_i hlong
  rw [String.utf8ByteSize_append] at hlong
  have hzero' : p.path.toList.contains '\x00' = false := by
    simp only [String.toList_append, List.contains_eq_mem, List.mem_append, decide_eq_true_eq,
      not_or] at hzero
    simpa using hzero.1
  rw [hzero', if_neg Bool.false_ne_true, if_neg (path_ne_empty p), if_neg (by omega)]

/-- The letter case of names does not matter to whether their path is well formed. -/
theorem malformed?_lower (p : Place) (names : List String) :
    malformed? (Place.path (p ++ Place.lower names)) = malformed? (Place.path (p ++ names)) := by
  by_cases hne : names = []
  · rw [hne, lower_nil]
  · have hne' : Place.lower names ≠ [] := by simpa using hne
    have hzero : (Place.path (p ++ Place.lower names)).toList.contains '\x00' =
        (Place.path (p ++ names)).toList.contains '\x00' := by
      rw [path_append p hne, path_append p hne', ← asciiLower_joined, Bool.eq_iff_iff]
      simp only [String.toList_append, List.contains_eq_mem, List.mem_append, decide_eq_true_eq,
        Text.mem_toList_asciiLower (by decide : ('\x00' : Char).toNat < 65 ∨ 122 < '\x00'.toNat)]
    have hsize : (Place.path (p ++ Place.lower names)).utf8ByteSize =
        (Place.path (p ++ names)).utf8ByteSize := by
      rw [path_append p hne, path_append p hne', ← asciiLower_joined]
      simp only [String.utf8ByteSize_append, Text.utf8ByteSize_asciiLower]
    unfold malformed?
    rw [hzero, hsize]
    simp only [path_ne_empty, if_false]

/-! ## Lower-case names on a disk -/

/-- Below a path, all names are in lower-case ASCII and those of directories have no dot. -/
structure Tidy (d : Disk) (root : String) : Prop where
  lower : ∀ names node, Named names → d.nodes.get? (names.foldl Path.join root) = some node →
    ∀ name ∈ names, Text.IsLowerAscii name
  dotless : ∀ names name, Named (names ++ [name]) →
    d.nodes.get? ((names ++ [name]).foldl Path.join root) = some .directory → '.' ∉ name.toList

/-- What stands below a place has a lower-case name. -/
def LowerBelow (d : Disk) (p : Place) : Prop :=
  ∀ names, Named names → (d.node? (p ++ names)).isSome = true → Place.lower names = names

theorem get?_foldl_join (hroot : Named root) (hnames : Named names) (hne : names ≠ []) :
    d.nodes.get? (names.foldl Path.join root.path) = d.node? (root ++ names) := by
  rw [foldl_join_path hroot hnames, node?]
  simp [hne]

theorem Tidy.lowerBelow (h : d.Tidy root.path) (hroot : Named root) : LowerBelow d root := by
  intro names hnames hnode
  by_cases hne : names = []
  · rw [hne, lower_nil]
  · obtain ⟨node, hnode⟩ := Option.isSome_iff_exists.1 hnode
    rw [← get?_foldl_join hroot hnames hne] at hnode
    have hsame : ∀ name ∈ names, Text.asciiLower name = name := fun name hname =>
      (h.lower names node hnames hnode name hname).2
    exact (List.map_congr_left hsame).trans (List.map_id' names)

theorem Tidy.notMem_dot (h : d.Tidy root.path) (hroot : Named root)
    (hnames : Named (names ++ [name])) (hnode : d.node? (root ++ (names ++ [name])) = some .directory) :
    '.' ∉ name.toList := by
  rw [← get?_foldl_join hroot hnames (by simp)] at hnode
  exact h.dotless names name hnames hnode

/-- Whether the names on a path below another are in lower-case ASCII, and that of a directory has no
dot. -/
def tidyEntry (root path : String) (node : Node) : Bool :=
  match Path.under? root path with
  | none => true
  | some steps =>
    (steps.all fun step => decide (Text.IsLowerAscii step.text)) &&
      (!node.isDirectory || steps.getLast?.all fun step => !step.text.toList.contains '.')

/-- Whether a disk is tidy can be read off its entries. -/
theorem Tidy.of_entries (hroot : Named root)
    (h : ∀ e ∈ d.nodes.toList, tidyEntry root.path e.1 e.2 = true) : d.Tidy root.path := by
  have hentry : ∀ names node, Named names →
      d.nodes.get? (names.foldl Path.join root.path) = some node →
      (∀ name ∈ names, Text.IsLowerAscii name) ∧
        (node = .directory → ∀ name ∈ names.getLast?, '.' ∉ name.toList) := by
    intro names node hnames hget
    rw [foldl_join_path hroot hnames, NameMap.get?_eq_some_iff] at hget
    have htidy := h _ hget
    unfold tidyEntry at htidy
    rw [under?_path hroot hnames] at htidy
    simp only [List.all_map, List.getLast?_map, Bool.and_eq_true, List.all_eq_true, Function.comp_apply,
      Path.Component.text, Bool.or_eq_true] at htidy
    refine ⟨fun name hname => of_decide_eq_true (htidy.1 name hname), fun hdir name hname => ?_⟩
    subst hdir
    rw [Option.mem_def] at hname
    simpa [Node.isDirectory, hname] using htidy.2
  refine ⟨fun names node hnames hget => (hentry names node hnames hget).1,
    fun names name hnames hget => (hentry _ _ hnames hget).2 rfl name (by simp)⟩

theorem LowerBelow.step (h : LowerBelow d p) (hname : Path.IsName name) :
    LowerBelow d (p ++ [name]) := by
  intro names hnames hnode
  have hcons := h (name :: names) ((named_singleton hname).append hnames) (by simpa using hnode)
  rw [lower_cons] at hcons
  exact (List.cons.inj hcons).2

/-- Names that are not in lower case lead to nothing where the lower-case ones lead somewhere. -/
theorem walk_of_lower (h : LowerBelow d p) (hnames : Named names)
    (hopen : d.Open p (Place.lower names)) (hne : Place.lower names ≠ names) :
    d.walk p names = .error .notFound ∨
      (d.walk p names = .ok (p ++ names) ∧ d.node? (p ++ names) = none) := by
  induction names generalizing p with
  | nil => exact absurd rfl hne
  | cons name rest ih =>
    have hname := hnames name List.mem_cons_self
    have hrest : Named rest := fun n hn => hnames n (List.mem_cons_of_mem _ hn)
    obtain ⟨hdir, hsize, hmore⟩ := hopen
    rw [Text.utf8ByteSize_asciiLower] at hsize
    have hwalk : d.walk p (name :: rest) = d.walk (p ++ [name]) rest := by
      rw [walk_cons hname, hdir]
      exact if_neg (Nat.not_lt.2 hsize)
    have hassoc : p ++ name :: rest = p ++ [name] ++ rest := by simp
    rw [hwalk, hassoc]
    by_cases hlower : Text.asciiLower name = name
    · rw [hlower] at hmore
      exact ih (h.step hname) hrest hmore fun heq => hne (by rw [lower_cons, hlower, heq])
    · have hnone : d.node? (p ++ [name]) = none := by
        rw [← Option.not_isSome_iff_eq_none]
        intro hsome
        have hsingle := h [name] (named_singleton hname) hsome
        exact hlower (by simpa using hsingle)
      cases rest with
      | nil => exact .inr ⟨by simp [walk], by simpa using hnone⟩
      | cons next more =>
        refine .inl ?_
        rw [walk_cons (hrest next List.mem_cons_self), hnone]

/-- **No file is found under names that are not in lower case.** -/
theorem readText?_of_lower (h : LowerBelow d root) (hroot : Named root) (hnames : Named names)
    (hopen : d.Open [] (root ++ Place.lower names))
    (hok : malformed? (Place.path (root ++ Place.lower names)) = none)
    (hne : Place.lower names ≠ names) :
    d.readText? (Place.path (root ++ names)) = .ok none := by
  rw [malformed?_lower] at hok
  rw [open_append, List.nil_append] at hopen
  have hlocate : d.locate (Place.path (root ++ names)) = d.walk root names := by
    rw [locate_path (hroot.append hnames) hok, walk_append hroot,
      (walk_eq_ok_iff hroot).2 ⟨rfl, hopen.1⟩]
    rfl
  unfold readText? readText read resolve
  rw [hlocate]
  rcases walk_of_lower h hnames hopen.2 hne with hwalk | ⟨hwalk, hnone⟩
  · rw [hwalk]
    rfl
  · rw [hwalk]
    simp only [bind, Except.bind, hnone]
    rfl

end Disk

end SiteHost
