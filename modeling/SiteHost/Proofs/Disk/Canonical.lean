import SiteHost.Proofs.Disk.Place

/-!
# Absolute paths

The absolute path of a directory stays what it is while things change below the directory:

* `Disk.Keeps` — what a disk has above a place, another has as well.

Principal results:

* `walk_unique` — where steps lead does not depend on the disk, if they lead anywhere;
* `named_of_canonical` — an absolute path is that of a place;
* `Keeps.canonical_eq`, `Keeps.canonical_of_steps` — the absolute path of a place stays.
-/

namespace SiteHost.Disk

open Place

variable {d d' d'' : Disk} {root : Place} {path found found' : String}

/-! ## Steps -/

/-- Where steps lead does not depend on the disk, if they lead anywhere. -/
theorem walk_unique {p q q' : Place} {xs : List String} (h : d.walk p xs = .ok q)
    (h' : d'.walk p xs = .ok q') : q' = q := by
  induction xs generalizing p with
  | nil =>
    cases h
    cases h'
    rfl
  | cons step rest ih =>
    rw [walk] at h h'
    split at h <;> try cases h
    split at h' <;> try cases h'
    split at h
    · rename_i hhere
      rw [if_pos hhere] at h'
      exact ih h h'
    · rename_i hhere
      rw [if_neg hhere] at h'
      split at h
      · rename_i hparent
        rw [if_pos hparent] at h'
        exact ih h h'
      · rename_i hparent
        rw [if_neg hparent] at h'
        split at h <;> try cases h
        split at h' <;> try cases h'
        exact ih h h'

/-- Steps lead to a place with a proper name. -/
theorem named_of_walk {p q : Place} {xs : List String} (hp : Named p)
    (hxs : ∀ step ∈ xs, step ≠ "" ∧ '/' ∉ step.toList) (h : d.walk p xs = .ok q) : Named q := by
  induction xs generalizing p with
  | nil =>
    cases h
    exact hp
  | cons step rest ih =>
    have hrest := fun s hs => hxs s (List.mem_cons_of_mem _ hs)
    obtain ⟨hempty, hslash⟩ := hxs step List.mem_cons_self
    rw [walk] at h
    split at h <;> try cases h
    split at h
    · exact ih hp hrest h
    · rename_i hhere
      split at h
      · exact ih (hp.above (List.dropLast_prefix _)) hrest h
      · rename_i hparent
        split at h <;> try cases h
        exact ih (hp.append (named_singleton ⟨hempty, hslash, hhere, hparent⟩)) hrest h

/-- Steps that do not climb lead down, and lead there on every disk with the same directories. -/
theorem walk_of_directories {p q : Place} {xs : List String} (hxs : ".." ∉ xs)
    (h : d.walk p xs = .ok q)
    (hdirs : ∀ r, r <+: q → d.node? r = some .directory → d'.node? r = some .directory) :
    p <+: q ∧ d'.walk p xs = .ok q := by
  induction xs generalizing p with
  | nil =>
    cases h
    exact ⟨List.prefix_refl _, rfl⟩
  | cons step rest ih =>
    obtain ⟨hstep, hrest⟩ := not_or.1 (mt List.mem_cons.2 hxs)
    rw [walk] at h
    split at h <;> try cases h
    rename_i hdir
    rw [walk]
    split at h
    · rename_i hhere
      obtain ⟨hpre, hwalk⟩ := ih hrest h
      rw [hdirs p hpre hdir, if_pos hhere]
      exact ⟨hpre, hwalk⟩
    · rename_i hhere
      rw [if_neg (Ne.symm hstep)] at h
      split at h <;> try cases h
      rename_i hshort
      obtain ⟨hpre, hwalk⟩ := ih hrest h
      have hp : p <+: q := (List.prefix_append p [step]).trans hpre
      rw [hdirs p hp hdir, if_neg hhere, if_neg (Ne.symm hstep), if_neg hshort]
      exact ⟨hp, hwalk⟩

/-! ## Absolute paths -/

theorem canonical_eq_ok_iff : d.canonical path = .ok found ↔ ∃ place, malformed? path = none ∧
    d.walk (d.start path) (steps path) = .ok place ∧ (d.node? place).isSome = true ∧
      found = place.path := by
  unfold canonical resolve locate
  cases malformed? path with
  | some e => simp [bind, Except.bind]
  | none =>
    cases d.walk (d.start path) (steps path) with
    | error e => simp [bind, Except.bind]
    | ok place =>
      cases hnode : d.node? place with
      | none => simp [bind, Except.bind, hnode, throw, throwThe, MonadExceptOf.throw]
      | some node =>
        simp only [bind, Except.bind, pure, Except.pure, hnode, Except.ok.injEq]
        constructor
        · rintro rfl
          exact ⟨place, trivial, rfl, by rw [hnode]; rfl, rfl⟩
        · rintro ⟨place', -, hplace, -, rfl⟩
          rw [hplace]

/-- A path leads to a place with proper names. -/
theorem named_of_walk_steps (hd : Named d.workingDirectory) {place : Place}
    (h : d.walk (d.start path) (steps path) = .ok place) : Named place := by
  refine named_of_walk ?_ (fun step hstep => ?_) h
  · unfold start
    split
    · exact fun _ h => by cases h
    · exact hd
  · rcases List.mem_append.1 hstep with hpiece | hclosing
    · obtain ⟨hmem, hne⟩ := List.mem_filter.1 hpiece
      exact ⟨by simpa using hne, (Text.mem_of_mem_pieces hmem).1⟩
    · split at hclosing
      · rw [List.mem_singleton] at hclosing
        subst hclosing
        decide
      · cases hclosing

/-- An absolute path is that of a place with proper names. -/
theorem named_of_canonical (hd : Named d.workingDirectory) (h : d.canonical path = .ok found) :
    ∃ root : Place, found = root.path ∧ Named root := by
  obtain ⟨root, -, hwalk, -, rfl⟩ := canonical_eq_ok_iff.1 h
  exact ⟨root, rfl, named_of_walk_steps hd hwalk⟩

/-- Two disks with one working directory and with the same nodes above and at a place, as far as there
are any on the first. -/
structure Keeps (d d' : Disk) (root : Place) : Prop where
  workingDirectory : d'.workingDirectory = d.workingDirectory
  above : ∀ q node, q <+: root → d.node? q = some node → d'.node? q = some node

namespace Keeps

theorem refl (d : Disk) (root : Place) : d.Keeps d root := ⟨rfl, fun _ _ _ h => h⟩

theorem trans (h : d.Keeps d' root) (h' : d'.Keeps d'' root) : d.Keeps d'' root :=
  ⟨h'.workingDirectory.trans h.workingDirectory,
    fun q node hq hnode => h'.above q node hq (h.above q node hq hnode)⟩

theorem start (h : d.Keeps d' root) (path : String) : d'.start path = d.start path := by
  rw [Disk.start, Disk.start, h.workingDirectory]

/-- **A path has one absolute path on both disks, if it has any.** -/
theorem canonical_eq (h : d.Keeps d' root) (hfound : d.canonical path = .ok found)
    (hfound' : d'.canonical path = .ok found') : found' = found := by
  obtain ⟨place, -, hwalk, -, rfl⟩ := canonical_eq_ok_iff.1 hfound
  obtain ⟨place', -, hwalk', -, rfl⟩ := canonical_eq_ok_iff.1 hfound'
  rw [h.start] at hwalk'
  rw [walk_unique hwalk hwalk']

/-- **A path that does not climb has its absolute path on both disks.** -/
theorem canonical_of_steps (h : d.Keeps d' root) (hd : Named d.workingDirectory) (hroot : Named root)
    (hsteps : ".." ∉ steps path) (hfound : d.canonical path = .ok root.path) :
    d'.canonical path = .ok root.path := by
  obtain ⟨place, hok, hwalk, hsome, hpath⟩ := canonical_eq_ok_iff.1 hfound
  obtain ⟨node, hnode⟩ := Option.isSome_iff_exists.1 hsome
  have hplace : place = root := path_injective (named_of_walk_steps hd hwalk) hroot hpath.symm
  subst hplace
  have hwalk' := (walk_of_directories hsteps hwalk fun r hr => h.above r .directory hr).2
  rw [← h.start] at hwalk'
  have hnode' := h.above place node (List.prefix_refl _) hnode
  exact canonical_eq_ok_iff.2 ⟨place, hok, hwalk', by rw [hnode']; rfl, rfl⟩

end Keeps

end SiteHost.Disk
