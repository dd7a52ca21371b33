import SiteHost.Proofs.Cache.Freshness
import SiteHost.Proofs.Disk.Below
import SiteHost.Proofs.Disk.Edit

/-!
# Directories above a source

Keys are paths in full lower case, and what lies below a directory is told from how its key begins. For paths
that are names with slashes between them this is the order of paths: no name that only begins like that of
the directory is taken for it, and a capital sigma at the end of a name is the same wherever the path goes on.

* `Path.IsSource`, `Path.IsDirectory` — the paths of sources and of directories;
* `Path.ProperlyAbove` — whether a directory is a proper ancestor of a path, in any letter case;
* `Place.lowered` — the names of a place in full lower case.

Principal results:

* `Place.keyOf_eq`, `Place.Named.lowered` — the key of a place is the path of its names in lower case;
* `Disk.opening_prefix_iff` — what is written behind a directory lies properly below it;
* `Path.startsWith_above_iff` — the keys that begin like those below a directory are those that lie below it.
-/

namespace SiteHost

variable {p q : Place} {path directory : String}

/-! ## Names in full lower case -/

/-- Names with slashes between them, in full lower case. -/
theorem Text.lower_intercalate (names : List String) :
    lower ("/".intercalate names) = "/".intercalate (names.map lower) := by
  induction names with
  | nil => rfl
  | cons name rest ih =>
    by_cases hrest : rest = []
    · rw [hrest, List.map_singleton, String.intercalate_singleton, String.intercalate_singleton]
    · rw [List.map_cons, String.intercalate_cons_of_ne_nil hrest, lower_append_slash, ih,
        String.intercalate_cons_of_ne_nil (by simpa using hrest)]

/-- A name in lower case is a name. -/
theorem Path.isName_lower {name : String} (h : Path.IsName name) : Path.IsName (Text.lower name) := by
  -- no other text has an empty text, a dot or two dots as its lower case
  have hsame (t : String) (ht : t.toList.all fun c => Text.IsLow c) (heq : Text.lower name = t) : name = t := by
    rw [← heq, List.all_iff_forall_prop] at ht
    rw [← heq, Text.lower_eq_self ht]
  refine ⟨fun heq => h.ne_empty (hsame "" (by decide) heq), fun hslash => h.noSlash ?_,
    fun heq => h.ne_here (hsame "." (by decide) heq), fun heq => h.ne_parent (hsame ".." (by decide) heq)⟩
  exact (Text.mem_lower_iff (by decide)).1 hslash

namespace Place

/-- The names of a place in full lower case. -/
def lowered (p : Place) : Place := p.map Text.lower

@[simp] theorem lowered_eq_nil : lowered p = [] ↔ p = [] := List.map_eq_nil_iff

theorem Named.lowered (h : Named p) : Named p.lowered :=
  List.forall_mem_map.2 fun name hname => Path.isName_lower (h name hname)

/-- **The key of a place is the path of its names in lower case.** -/
theorem keyOf_eq (p : Place) : keyOf p.path = p.lowered.path := by
  have hroot : p.path = "" ++ "/" ++ "/".intercalate p := by rw [String.empty_append, Place.path]
  rw [keyOf, hroot, Text.lower_append_slash, Text.lower_intercalate]
  rfl

end Place

/-! ## What lies properly below a directory -/

namespace Disk

open Place

/-- **What is written behind a directory lies properly below it.** -/
theorem opening_prefix_iff (hp : Named p) (hq : Named q) (hne : q ≠ []) :
    opening p <+: q.path.toList ↔ p <+: q ∧ p ≠ q := by
  by_cases hroot : p = []
  · subst hroot
    refine iff_of_true ?_ ⟨List.nil_prefix, hne.symm⟩
    rw [toList_path_of_ne_nil hne]
    obtain ⟨first, rest, rfl⟩ := List.exists_cons_of_ne_nil hne
    exact ⟨_, rfl⟩
  · have hwithin := isWithin_iff hp hroot hq
    rw [isWithin, Bool.or_eq_true, beq_iff_eq, List.isPrefixOf_iff_prefix] at hwithin
    constructor
    · intro h
      refine ⟨hwithin.1 (.inr h), ?_⟩
      rintro rfl
      have hlength := h.length_le
      rw [opening_eq hroot, List.length_append, List.length_singleton] at hlength
      omega
    · rintro ⟨hbegins, hother⟩
      exact (hwithin.2 hbegins).resolve_left fun heq => hother (path_injective hp hq heq.symm)

end Disk

namespace Path

open Place

/-- The path of a source: a file behind the names of directories, with nothing else between the slashes. -/
def IsSource (path : String) : Prop :=
  ∃ (dir : Place) (file : String), Named (dir ++ [file]) ∧ path = Place.path (dir ++ [file])

/-- The ways to write a directory: a slash may stand at the end. -/
def IsPathOf (dir : Place) (path : String) : Prop := path = dir.path ∨ dir ≠ [] ∧ path = dir.path ++ "/"

/-- The path of a directory: names with nothing else between the slashes, and perhaps a slash at the end. -/
def IsDirectory (path : String) : Prop := ∃ dir : Place, Named dir ∧ IsPathOf dir path

/-- Whether a directory is a proper ancestor of a path, both in full lower case. -/
def ProperlyAbove (directory path : String) : Prop :=
  ∃ rest, rest ≠ [] ∧ components (keyOf path) = components (keyOf directory) ++ rest

/-- The key of a directory is written as its names are, in lower case. -/
theorem IsPathOf.key {dir : Place} (h : IsPathOf dir directory) : IsPathOf dir.lowered (keyOf directory) := by
  rcases h with rfl | ⟨hne, rfl⟩
  · exact .inl (keyOf_eq dir)
  · refine .inr ⟨mt lowered_eq_nil.1 hne, ?_⟩
    rw [keyOf, Text.lower_concat_slash, ← keyOf, keyOf_eq]

/-- A slash at the end of a path is no step. -/
theorem IsPathOf.components {dir : Place} (h : IsPathOf dir directory) (hdir : Named dir) :
    components directory = .root :: dir.map .name := by
  rcases h with rfl | ⟨hne, rfl⟩
  · exact components_path hdir
  · have habsolute : isAbsolute (dir.path ++ "/") = true := by simp [isAbsolute, Place.path]
    have hslash : dir.path ++ "/" = dir.path ++ "/" ++ "" := String.append_empty.symm
    rw [← components_path hdir, components_of_isAbsolute habsolute,
      components_of_isAbsolute (isAbsolute_path dir), hslash, Text.pieces_append_slash, List.filterMap_append]
    exact congrArg _ (List.append_nil _)

theorem endsWith_slash_iff {s : String} : s.endsWith "/" = true ↔ s.toList.getLast? = some '/' := by
  rw [String.endsWith_eq_endsWith_toSlice, String.Slice.endsWith_string_iff, String.copy_toSlice]
  exact List.singleton_suffix_iff_getLast?_eq_some

/-- **How the keys below a directory begin**, however the directory is written. -/
theorem IsPathOf.toList_above {dir : Place} (h : IsPathOf dir directory) (hdir : Named dir) :
    (Eviction.above directory).toList = Disk.opening dir.lowered := by
  rw [Eviction.above]
  rcases h.key with hkey | ⟨hne, hkey⟩
  · rw [hkey]
    by_cases hroot : dir.lowered = []
    · rw [hroot, if_pos (endsWith_slash_iff.2 rfl)]
      rfl
    · have hends : ¬ dir.lowered.path.endsWith "/" = true :=
        mt endsWith_slash_iff.1 (getLast?_path_ne hdir.lowered hroot)
      rw [if_neg hends, String.toList_append, Place.opening_eq hroot]
      rfl
  · have hends : (dir.lowered.path ++ "/").endsWith "/" = true := endsWith_slash_iff.2 (by simp)
    rw [hkey, if_pos hends, String.toList_append, Place.opening_eq hne]
    rfl

/-- **The keys that begin like those below a directory are those of the sources that it is an ancestor of.** -/
theorem startsWith_above_iff (hpath : IsSource path) (hdirectory : IsDirectory directory) :
    (keyOf path).startsWith (Eviction.above directory) = true ↔ ProperlyAbove directory path := by
  obtain ⟨p, file, hp, rfl⟩ := hpath
  obtain ⟨q, hq, hwritten⟩ := hdirectory
  have hne : (p ++ [file]).lowered ≠ [] := by simp
  generalize p ++ [file] = p at hp hne
  rw [String.startsWith_string_iff, hwritten.toList_above hq, keyOf_eq,
    Disk.opening_prefix_iff hq.lowered hp.lowered hne, ProperlyAbove, keyOf_eq, components_path hp.lowered,
    hwritten.key.components hq.lowered]
  constructor
  · rintro ⟨⟨rest, hrest⟩, hother⟩
    refine ⟨rest.map .name, fun hnil => hother ?_, ?_⟩
    · rw [← hrest, List.map_eq_nil_iff.1 hnil, List.append_nil]
    · rw [← hrest, List.map_append, List.cons_append]
  · rintro ⟨rest, hrest, hsteps⟩
    obtain ⟨front, back, hsplit, hfront, hback⟩ := List.map_eq_append_iff.1 (List.cons.inj hsteps).2
    have hsame : front = q.lowered := List.map_injective_iff.2 (fun _ _ => Component.name.inj) hfront
    subst hsame
    refine ⟨⟨back, hsplit.symm⟩, fun heq => hrest ?_⟩
    rw [← hback, List.map_eq_nil_iff]
    have hlength := congrArg List.length (heq.trans hsplit)
    rw [List.length_append] at hlength
    exact List.length_eq_zero_iff.1 (by omega)

end Path

end SiteHost
