import SiteHost.Proofs.Cache.Evicted
import SiteHost.Proofs.Disk.Edit
import SiteHost.Proofs.Site.Naming

/-!
# What a watcher tells of an edit

Every edit that is about a file of a unit leads to an eviction that is meant for the unit:

* `Report` — what a file watcher reports;
* `Edit.Reported` — whether reports tell of an edit;
* `Locator.evictions`, `Locator.heard` — what a change evicts, and what reports evict.

Principal results:

* `apply_eq` — a change does to a site what its evictions do to the cache;
* `change_of_hits` — an edit that is about a file amounts to a change of the file, or of a directory
  above it;
* `covers_of_hits`, `leaves_of_hits` — such a change evicts the unit of the file, and the leaves with
  the global unit.
-/

namespace SiteHost

open Place

/-! ## Reports -/

/-- What a file watcher reports, with the paths it concerns. -/
structure Report where
  raw : RawChange
  paths : List String
  deriving Repr, DecidableEq, Inhabited

/-- Whether reports tell of an edit. They may tell of more. -/
def Edit.Reported (e : Edit) (root : String) (reports : List Report) : Prop :=
  match e with
  | .write names _ => ∃ r ∈ reports, (r.raw = .created ∨ r.raw = .written) ∧
      names.foldl Path.join root ∈ r.paths
  | .makeDirectories _ => True
  | .remove names => ∃ r ∈ reports, r.raw = .removed ∧ names.foldl Path.join root ∈ r.paths
  | .move source target =>
    (∃ r ∈ reports, r.raw = .renamedBoth ∧
      r.paths = [source.foldl Path.join root, target.foldl Path.join root]) ∨
    (∃ r ∈ reports, r.raw = .renamed ∧ source.foldl Path.join root ∈ r.paths) ∧
      ∃ r ∈ reports, r.raw = .renamedTo ∧ target.foldl Path.join root ∈ r.paths

namespace Convention

variable {c : Convention} {reports : List Report} {path other : String} {r : Report}

/-- The changes that reports amount to. -/
def changes (c : Convention) (reports : List Report) : List Change :=
  reports.flatMap fun r => c.classify r.raw r.paths

theorem mem_changes_of_modified (hr : r ∈ reports)
    (hraw : r.raw = .created ∨ r.raw = .written ∨ r.raw = .renamedTo) (hpath : path ∈ r.paths)
    (haccept : c.accepts path = true) : ⟨path, .modified⟩ ∈ c.changes reports := by
  refine List.mem_flatMap.2 ⟨r, hr, ?_⟩
  have hmem : (⟨path, .modified⟩ : Change) ∈ r.paths.filterMap c.modified? :=
    List.mem_filterMap.2 ⟨path, hpath, by rw [modified?, if_pos haccept]⟩
  rcases hraw with h | h | h <;> rw [h] <;> exact hmem

theorem mem_changes_of_gone (hr : r ∈ reports) (hraw : r.raw = .removed ∨ r.raw = .renamed)
    (hpath : path ∈ r.paths) (hgone : c.gone? path = some ⟨path, .renamed⟩) :
    ⟨path, .renamed⟩ ∈ c.changes reports := by
  refine List.mem_flatMap.2 ⟨r, hr, ?_⟩
  have hmem : (⟨path, .renamed⟩ : Change) ∈ r.paths.filterMap c.gone? :=
    List.mem_filterMap.2 ⟨path, hpath, hgone⟩
  rcases hraw with h | h <;> rw [h] <;> exact hmem

theorem mem_changes_of_both (hr : r ∈ reports) (hraw : r.raw = .renamedBoth)
    (hpaths : r.paths = [path, other]) :
    (c.gone? path = some ⟨path, .renamed⟩ → ⟨path, .renamed⟩ ∈ c.changes reports) ∧
      (c.accepts other = true → ⟨other, .modified⟩ ∈ c.changes reports) := by
  have hclassify : c.classify r.raw r.paths =
      [path].filterMap c.gone? ++ [other].filterMap c.modified? := by
    rw [hraw, hpaths]
    rfl
  constructor
  · intro hgone
    refine List.mem_flatMap.2 ⟨r, hr, ?_⟩
    rw [hclassify]
    exact List.mem_append_left _ (List.mem_filterMap.2 ⟨path, List.mem_singleton_self _, hgone⟩)
  · intro haccept
    refine List.mem_flatMap.2 ⟨r, hr, ?_⟩
    rw [hclassify]
    refine List.mem_append_right _ (List.mem_filterMap.2 ⟨other, List.mem_singleton_self _, ?_⟩)
    rw [modified?, if_pos haccept]

variable {root : Place} {dirs : List String} {name : String}

theorem accepts_path (hnamed : Named (root ++ (dirs ++ [name]))) (hsource : c.isSourceName name = true) :
    c.accepts (Place.path (root ++ (dirs ++ [name]))) = true := by
  rw [← List.append_assoc] at hnamed ⊢
  rw [accepts, fileName?_path hnamed]
  exact hsource

theorem gone?_of_accepts (h : c.accepts path = true) : c.gone? path = some ⟨path, .renamed⟩ := by
  simp [gone?, h]

/-- A directory whose name has no dot is not taken for a source when it is gone. -/
theorem gone?_directory (hnamed : Named (root ++ (dirs ++ [name]))) (hdot : '.' ∉ name.toList) :
    c.gone? (Place.path (root ++ (dirs ++ [name]))) =
      some ⟨Place.path (root ++ (dirs ++ [name])), .renamed⟩ := by
  have hplain : Path.hasExtension name = false := by
    unfold Path.hasExtension
    rw [List.contains_eq_mem, decide_eq_false_iff_not]
    exact fun h => hdot (List.mem_of_mem_drop h)
  rw [← List.append_assoc] at hnamed ⊢
  rw [gone?, fileName?_path hnamed]
  simp [hplain]

end Convention

/-! ## From edits to changes -/

section Changes

variable {c : Convention} {e : Edit} {reports : List Report} {root : Place} {dirs : List String}
  {name : String}

/-- **An edit that is about a file amounts to a change of the file, or of a directory above it.** -/
theorem Edit.change_of_hits (hroot : Named root) (hnames : Named (dirs ++ [name]))
    (hsource : c.isSourceName name = true) (he : e.WellFormed)
    (hplain : ∀ above last, above ++ [last] <+: dirs → '.' ∉ last.toList)
    (hreported : e.Reported root.path reports) (hhits : e.Hits (dirs ++ [name])) :
    (∃ kind, ⟨Place.path (root ++ (dirs ++ [name])), kind⟩ ∈ c.changes reports) ∨
      ∃ above, above ≠ [] ∧ above <+: dirs ∧
        ⟨Place.path (root ++ above), .renamed⟩ ∈ c.changes reports := by
  have hpath : ∀ names, names <+: dirs ++ [name] →
      names.foldl Path.join root.path = Place.path (root ++ names) :=
    fun names hpre => foldl_join_path hroot (hnames.above hpre)
  have haccept := Convention.accepts_path (hroot.append hnames) hsource
  -- what is gone is the file itself or a directory without a dot in its name
  have hgone : ∀ gone, gone ≠ [] → gone <+: dirs ++ [name] →
      (c.gone? (Place.path (root ++ gone)) = some ⟨Place.path (root ++ gone), .renamed⟩ →
        ⟨Place.path (root ++ gone), .renamed⟩ ∈ c.changes reports) →
      (∃ kind, ⟨Place.path (root ++ (dirs ++ [name])), kind⟩ ∈ c.changes reports) ∨
        ∃ above, above ≠ [] ∧ above <+: dirs ∧
          ⟨Place.path (root ++ above), .renamed⟩ ∈ c.changes reports := by
    intro gone hne hpre hchange
    rcases List.prefix_concat_iff.1 hpre with rfl | hdirs
    · exact .inl ⟨_, hchange (Convention.gone?_of_accepts haccept)⟩
    · refine .inr ⟨gone, hne, hdirs, hchange ?_⟩
      obtain ⟨above, last, rfl⟩ := (List.eq_nil_or_concat gone).resolve_left hne
      rw [List.concat_eq_append] at hpre hdirs ⊢
      exact Convention.gone?_directory (hroot.append (hnames.above hpre))
        (hplain above last hdirs)
  cases e with
  | write names content =>
    obtain rfl : names = dirs ++ [name] := hhits
    obtain ⟨r, hr, hraw, hmem⟩ := hreported
    rw [hpath _ (List.prefix_refl _)] at hmem
    exact .inl ⟨_, Convention.mem_changes_of_modified hr (by tauto) hmem haccept⟩
  | makeDirectories names => exact hhits.elim
  | remove names =>
    obtain ⟨r, hr, hraw, hmem⟩ := hreported
    rw [hpath _ hhits] at hmem
    exact hgone names (he names (by simp [Edit.places])).1 hhits
      (Convention.mem_changes_of_gone hr (.inl hraw) hmem)
  | move source target =>
    have hsne := (he source (by simp [Edit.places])).1
    rcases hhits with hpre | rfl
    · refine hgone source hsne hpre ?_
      rw [← hpath _ hpre]
      rcases hreported with ⟨r, hr, hraw, hpaths⟩ | ⟨⟨r, hr, hraw, hmem⟩, -⟩
      · exact (Convention.mem_changes_of_both hr hraw hpaths).1
      · exact Convention.mem_changes_of_gone hr (.inr hraw) hmem
    · refine .inl ⟨.modified, ?_⟩
      rw [← hpath _ (List.prefix_refl _)] at haccept ⊢
      rcases hreported with ⟨r, hr, hraw, hpaths⟩ | ⟨-, ⟨r, hr, hraw, hmem⟩⟩
      · exact (Convention.mem_changes_of_both hr hraw hpaths).2 haccept
      · exact Convention.mem_changes_of_modified hr (by tauto) hmem haccept

end Changes

/-! ## From changes to evictions -/

/-- What a change of one of its files does to the unit of a key. -/
def ChangeKind.eviction (key : String) : ChangeKind → Eviction
  | .modified => .invalidate key
  | .renamed => .remove key

theorem ChangeKind.covers_eviction (kind : ChangeKind) {α : Type} {key : String} {entry : Entry α}
    (h : entry.identity.key = key) : (kind.eviction key).Covers entry := by
  cases kind <;> exact h

namespace Locator

/-- What a change evicts. -/
def evictions (l : Locator) (change : Change) : List Eviction :=
  match l.unitOfFile? change.path with
  | none =>
    match change.kind with
    | .modified => []
    | .renamed => [.under change.path]
  | some unit =>
    change.kind.eviction unit.key :: if l.isGlobal unit then [.tier .leaf] else []

/-- What reports evict. -/
def heard (l : Locator) (reports : List Report) : List Eviction :=
  (l.convention.changes reports).flatMap l.evictions

variable {l : Locator} {root : Place} {dirs : List String} {file name : String} {e : Edit}
  {reports : List Report} {unit : Identity} {path : String}

/-- A change of a file evicts its unit, and the leaves with the global unit. -/
theorem covers_of_file {kind : ChangeKind} (h : l.unitOfFile? path = some unit)
    (hmem : ⟨path, kind⟩ ∈ l.convention.changes reports) :
    (∃ ev ∈ l.heard reports, ∀ entry : Entry Artifact, entry.identity.key = unit.key →
        ev.Covers entry) ∧ (l.isGlobal unit = true → .tier .leaf ∈ l.heard reports) := by
  have hevictions : l.evictions ⟨path, kind⟩ =
      kind.eviction unit.key :: if l.isGlobal unit then [.tier .leaf] else [] := by
    unfold evictions
    dsimp only
    rw [h]
  have hheard : ∀ ev, ev ∈ l.evictions ⟨path, kind⟩ → ev ∈ l.heard reports :=
    fun ev hev => List.mem_flatMap.2 ⟨_, hmem, hev⟩
  rw [hevictions] at hheard
  refine ⟨⟨_, hheard _ List.mem_cons_self, fun _ => kind.covers_eviction⟩, fun hglobal => ?_⟩
  rw [if_pos hglobal] at hheard
  exact hheard _ (List.mem_cons_of_mem _ (List.mem_singleton_self _))

/-- A directory without a dot in its name that is gone evicts what lies below it. -/
theorem under_mem_heard (hl : l.At root) (hnames : Named (dirs ++ [name]))
    (hdot : '.' ∉ name.toList)
    (hmem : ⟨Place.path (root ++ (dirs ++ [name])), .renamed⟩ ∈ l.convention.changes reports) :
    .under (Place.path (root ++ (dirs ++ [name]))) ∈ l.heard reports := by
  have hnone : l.unitOfFile? (Place.path (root ++ (dirs ++ [name]))) = none := by
    rw [unitOfFile?_path hl hnames, if_neg fun h => hdot (Convention.dot_of_isSourceName h)]
  refine List.mem_flatMap.2 ⟨_, hmem, ?_⟩
  unfold evictions
  dsimp only
  rw [hnone]
  exact List.mem_singleton_self _

/-- Both files of a unit belong to it, and have the name of a source. -/
theorem unitOfFile?_of_files (hl : l.At root) (hscript : l.convention.IsScript dirs file)
    (hname : name = file ∨ name = l.convention.markupName file) :
    l.convention.isSourceName name = true ∧ Named (dirs ++ [name]) ∧
      l.unitOfFile? (Place.path (root ++ (dirs ++ [name]))) = some (l.unitAt (dirs ++ [file])) := by
  rcases hname with rfl | rfl
  · exact ⟨Convention.isSourceName_of_isLeafName hscript.leaf, hscript.named,
      unitOfFile?_script hl hscript.names⟩
  · exact ⟨Convention.isSourceName_markupName hscript.leaf, hscript.named_markup hl.plain.markup.noSlash,
      unitOfFile?_markup hl hscript.names⟩

/-- **An edit that is about a file of a unit evicts the unit.** -/
theorem covers_of_hits (hl : l.At root) (hscript : l.convention.IsScript dirs file)
    (hname : name = file ∨ name = l.convention.markupName file) (he : e.WellFormed)
    (hplain : ∀ above last, above ++ [last] <+: dirs → '.' ∉ last.toList)
    (hreported : e.Reported root.path reports) (hhits : e.Hits (dirs ++ [name])) :
    ∃ ev ∈ l.heard reports, ∀ entry : Entry Artifact,
      entry.identity.key = (l.unitAt (dirs ++ [file])).key → ev.Covers entry := by
  obtain ⟨hsource, hnamed, hunit⟩ := unitOfFile?_of_files hl hscript hname
  rcases Edit.change_of_hits hl.named hnamed hsource he hplain hreported hhits with
    ⟨kind, hmem⟩ | ⟨above, hne, hpre, hmem⟩
  · exact (covers_of_file hunit hmem).1
  · obtain ⟨rest, hrest⟩ := hpre
    obtain ⟨init, last, rfl⟩ := (List.eq_nil_or_concat above).resolve_left hne
    rw [List.concat_eq_append] at hne hrest hmem
    have hsplit : dirs ++ [file] = init ++ [last] ++ (rest ++ [file]) := by simp [← hrest]
    have hnames : Named (init ++ [last] ++ (rest ++ [file])) := hsplit ▸ hscript.named
    have hunder := under_mem_heard hl hnames.left (hplain init last ⟨rest, hrest⟩) hmem
    refine ⟨_, hunder, fun entry hkey => ?_⟩
    rw [hsplit] at hkey
    rw [Eviction.Covers, hkey]
    exact startsWith_above hl hnames hne (by simp) (hsplit ▸ hscript.ascii)

/-- **An edit that is about a file of the global unit evicts the unit and all leaves.** -/
theorem leaves_of_hits (hl : l.At root)
    (hname : name = l.globalName ∨ name = l.convention.markupName l.globalName) (he : e.WellFormed)
    (hreported : e.Reported root.path reports) (hhits : e.Hits [name]) :
    .tier .leaf ∈ l.heard reports ∧ ∃ ev ∈ l.heard reports, ∀ entry : Entry Artifact,
      entry.identity.key = l.globalUnit.key → ev.Covers entry := by
  have hscript := isScript_globalName hl
  obtain ⟨hsource, hnamed, hunit⟩ := unitOfFile?_of_files hl hscript hname
  have hplain : ∀ above last, above ++ [last] <+: ([] : List String) → '.' ∉ last.toList := by
    intro above last hpre
    simp at hpre
  rcases Edit.change_of_hits hl.named hnamed hsource he hplain hreported hhits with
    ⟨kind, hmem⟩ | ⟨above, hne, hpre, -⟩
  · obtain ⟨hcovers, hleaf⟩ := covers_of_file hunit hmem
    rw [← globalUnit_eq] at hcovers hleaf
    exact ⟨hleaf (by simp [isGlobal]), hcovers⟩
  · exact absurd (List.prefix_nil.1 hpre) hne

end Locator

/-! ## Changes of a site -/

namespace LiveSite

/-- **A change does to a site what its evictions do to the cache.** -/
theorem apply_eq (s : LiveSite) (change : Change) : (s.apply change).2 =
    { s with cache := (s.locator.evictions change).foldl Cache.evicted s.cache } := by
  unfold apply Locator.evictions
  cases s.locator.unitOfFile? change.path with
  | none => cases change.kind <;> rfl
  | some unit =>
    dsimp only
    cases change.kind <;> split <;> rfl

/-- Several changes do what all their evictions do. -/
theorem foldl_apply_eq (s : LiveSite) (changes : List Change) :
    changes.foldl (fun s change => (s.apply change).2) s =
      { s with cache := (changes.flatMap s.locator.evictions).foldl Cache.evicted s.cache } := by
  induction changes generalizing s with
  | nil => rfl
  | cons change rest ih =>
    rw [List.foldl_cons, ih, apply_eq, List.flatMap_cons, List.foldl_append]

end LiveSite

end SiteHost
