import SiteHost.Proofs.Config.Suffixes
import SiteHost.Proofs.Disk.Below
import SiteHost.Proofs.Site.Layers

/-!
# Requests stay below the root

A request path is trimmed, its backslashes are folded, the root is taken off it in either of two ways and a
default document or an extension may be added. The file that comes out may be respelled as it is on disk,
and has markup beside it. None of this leads out of the root:

* `Locator.Holds` — a unit of a script below the root;
* `LiveSite.filesRead` — the files that a build of a unit reads, respelled ones among them;
* `Disk.SameBelow` — two disks on which directories at or below the root have the same entries.

Principal results:

* `Locator.resolve_of_parent` — a request path that climbs is refused;
* `Locator.Holds.path_below`, `Locator.Holds.markupPath_below` — both files of a unit lie below the root;
* `LiveSite.run_buildUnit_congr` — a build reads nothing but these files, and directories at or below the
  root;
* `LiveSite.requests_stay_below` — requests and the builds that answer them stay below the root.
-/

namespace SiteHost

/-! ## Both files of a unit -/

/-- A path that is continued by a name, and goes on without a slash. -/
theorem Path.join_append {base name suffix : String} (h : IsName name) (hs : IsName (name ++ suffix)) :
    join base (name ++ suffix) = join base name ++ suffix := by
  simp only [join, isAbsolute_of_isName h, isAbsolute_of_isName hs]
  split
  · rfl
  · split <;> simp only [String.append_assoc]

namespace Locator

variable {l : Locator} {unit : Identity} {path raw : String}

/-- A unit of a script below the root. -/
def Holds (l : Locator) (unit : Identity) : Prop :=
  ∃ dirs file, l.convention.NamesScript dirs file ∧ unit = l.unitAt (dirs ++ [file])

theorem holds_toScript (hc : l.convention.Accepted) {names : List String} (hne : names ≠ [])
    (hnames : Place.Named names) : l.Holds (l.unitAt (l.toScript names)) := by
  obtain ⟨dirs, file, hscript, hsame⟩ := namesScript_toScript hc.leaf.ne_empty hc.leaf.noSlash hne hnames
  exact ⟨dirs, file, hscript, by rw [hsame]⟩

/-- What a request path stands for lies below the root. -/
theorem holds_of_resolve (hc : l.convention.Accepted) (h : l.resolve raw = .ok unit) : l.Holds unit := by
  obtain ⟨names, hne, hnames, rfl, -⟩ := names_of_resolve h
  exact holds_toScript hc hne hnames

/-- What a file belongs to lies below the root. -/
theorem holds_of_unitOfFile? (hc : l.convention.Accepted) (h : l.unitOfFile? path = some unit) :
    l.Holds unit := by
  obtain ⟨names, hne, hnames, rfl⟩ := names_of_unitOfFile? h
  exact holds_toScript hc hne hnames

/-- The markup of a unit has the suffix behind the last name. -/
theorem markupPath_eq (hslash : '/' ∉ l.convention.markupSuffix.toList) {dirs : List String} {file : String}
    (hfile : Path.IsName file) :
    l.markupPath (l.unitAt (dirs ++ [file])) =
      (dirs ++ [l.convention.markupName file]).foldl Path.join l.root := by
  have hmarkup := Convention.isName_markupName hslash hfile
  have hname : l.convention.markupName file = file ++ ("." ++ l.convention.markupSuffix) :=
    String.append_assoc ..
  rw [hname] at hmarkup ⊢
  simp only [markupPath, unitAt, List.foldl_append, List.foldl_cons, List.foldl_nil,
    Path.join_append hfile hmarkup, String.append_assoc]

namespace Holds

/-- The script of a unit lies below the root. -/
theorem path_below (hroot : Path.isAbsolute l.root = true) (h : l.Holds unit) :
    Path.Below l.root unit.path := by
  obtain ⟨dirs, file, hscript, rfl⟩ := h
  exact ⟨dirs ++ [file], by simp, hscript.named,
    Path.foldl_join (Path.ne_empty_of_isAbsolute hroot) (by simp) hscript.named⟩

/-- So does its markup. -/
theorem markupPath_below (hc : l.convention.Accepted) (hroot : Path.isAbsolute l.root = true)
    (h : l.Holds unit) : Path.Below l.root (l.markupPath unit) := by
  obtain ⟨dirs, file, hscript, rfl⟩ := h
  have hnamed : Place.Named (dirs ++ [l.convention.markupName file]) := hscript.named.left.append
    (Place.named_singleton (Convention.isName_markupName hc.markup.noSlash hscript.file_isName))
  rw [markupPath_eq hc.markup.noSlash hscript.file_isName]
  exact ⟨_, by simp, hnamed, Path.foldl_join (Path.ne_empty_of_isAbsolute hroot) (by simp) hnamed⟩

end Holds

/-! ## Paths that climb -/

/-- A request path fails for no other reason than that it is none. -/
theorem resolve_eq_error {failure : Failure} (h : l.resolve raw = .error failure) :
    ∃ reason, failure = .invalidPath raw reason := by
  rw [resolve_eq] at h
  split at h
  · exact ⟨_, (Except.error.inj h).symm⟩
  · split at h
    · exact ⟨_, (Except.error.inj h).symm⟩
    · split at h
      · exact ⟨_, (Except.error.inj h).symm⟩
      · cases h

/-- A step up is like no other step. -/
theorem eq_parent_of_same {path : String} {step : Path.Component} (hstep : step ∈ Path.components path)
    (h : Path.sameIgnoringCase step .parent = true) : step = .parent := by
  rw [Path.sameIgnoringCase, Text.eqIgnoringAsciiCase_iff] at h
  have htext : step.text = ".." := Text.asciiLower_eq_dots.1 h
  cases step with
  | root => exact absurd htext (by decide)
  | here => exact absurd htext (by decide)
  | parent => rfl
  | name text => exact absurd htext (isName_of_mem_components hstep).1.ne_parent

/-- A step up is left over below a directory that has none. -/
theorem parent_mem_of_below? {same : Path.Component → Path.Component → Bool}
    {base path rest : List Path.Component} (hbase : ∀ step ∈ base, same step .parent = false)
    (h : Path.below? same base path = some rest) (hpath : .parent ∈ path) : .parent ∈ rest := by
  induction base generalizing path with
  | nil =>
    cases h
    exact hpath
  | cons b base ih =>
    cases path with
    | nil => cases h
    | cons p path =>
      rw [Path.below?] at h
      split at h
      · rename_i hsame
        have hp : p ≠ .parent := by
          rintro rfl
          rw [hbase b List.mem_cons_self] at hsame
          cases hsame
        exact ih (fun step hstep => hbase step (List.mem_cons_of_mem _ hstep)) h
          ((List.mem_cons.1 hpath).resolve_left fun heq => hp heq.symm)
      · cases h

theorem parent_mem_of_under? {base path : String} {rest : List Path.Component}
    (hbase : .parent ∉ Path.components base) (h : Path.under? base path = some rest)
    (hpath : .parent ∈ Path.components path) : .parent ∈ rest := by
  unfold Path.under? at h
  split at h
  · cases h
    refine parent_mem_of_below? (fun step hstep => ?_) ‹_› hpath
    exact beq_eq_false_iff_ne.2 fun heq => hbase (heq ▸ hstep)
  · refine parent_mem_of_below? (fun step hstep => ?_) h hpath
    rw [← Bool.not_eq_true]
    exact fun hsame => hbase (eq_parent_of_same hstep hsame ▸ hstep)

/-- Steps that go up have no names. -/
theorem namesOf?_of_parent {steps : List Path.Component} (h : .parent ∈ steps) : namesOf? steps = none := by
  induction steps with
  | nil => cases h
  | cons step rest ih =>
    cases step with
    | parent => rfl
    | name text => rw [namesOf?, ih (by simpa using h), Option.map_none]
    | root => exact ih (by simpa using h)
    | here => exact ih (by simpa using h)

/-- Two dots between slashes are a step up. -/
theorem parent_mem_components {path : String} (h : ".." ∈ Text.pieces '/' path) :
    .parent ∈ Path.components path := by
  have hparent : Path.componentOf? ".." = some .parent := rfl
  by_cases habs : Path.isAbsolute path = true
  · rw [Path.components_of_isAbsolute habs]
    exact List.mem_cons_of_mem _ (List.mem_filterMap.2 ⟨_, h, hparent⟩)
  · unfold Path.components
    cases hpieces : Text.pieces '/' path with
    | nil =>
      rw [hpieces] at h
      cases h
    | cons first rest =>
      rw [hpieces] at h
      dsimp only
      rw [if_neg habs]
      rcases List.mem_cons.1 h with rfl | hrest
      · rw [if_neg (by decide), hparent]
        exact List.mem_cons_self
      · exact List.mem_append_right _ (List.mem_filterMap.2 ⟨_, hrest, hparent⟩)

theorem parent_mem_of_stepsBelow? {path : String} {steps : List Path.Component}
    (hroot : .parent ∉ Path.components l.root) (h : ".." ∈ Text.pieces '/' path)
    (hsteps : l.stepsBelow? path = some steps) : .parent ∈ steps := by
  unfold stepsBelow? at hsteps
  split at hsteps
  · exact parent_mem_of_under? hroot hsteps (parent_mem_components h)
  · cases hsteps
    exact parent_mem_components h

/-- **A request path that climbs is refused.** -/
theorem resolve_of_parent (hroot : .parent ∉ Path.components l.root)
    (h : ".." ∈ Text.pieces '/' (cleaned raw)) :
    ∃ reason, l.resolve raw = .error (.invalidPath raw reason) := by
  cases hresult : l.resolve raw with
  | error failure =>
    obtain ⟨reason, hreason⟩ := resolve_eq_error hresult
    exact ⟨reason, by rw [hreason]⟩
  | ok unit =>
    obtain ⟨-, steps, names, hsteps, hnames, -⟩ := resolve_eq_ok_iff.1 hresult
    rw [namesOf?_of_parent (parent_mem_of_stepsBelow? hroot h hsteps)] at hnames
    cases hnames

end Locator

/-! ## What a build reads -/

namespace Disk

/-- Two disks on which directories have the same entries that are the root or lie below it. -/
def SameBelow (root : String) (d d' : Disk) : Prop :=
  ∀ directory, directory = root ∨ Path.Below root directory → d'.list directory = d.list directory

end Disk

namespace LiveSite

variable {d d' : Disk} {l : Locator} {unit : Identity}

/-- The files that a build of a unit reads: its own, and those of the unit as it is spelled on disk. -/
def filesRead (d : Disk) (l : Locator) (unit : Identity) : List String :=
  (unit :: (spelledOnDisk? d l unit).toList).flatMap fun u => [u.path, l.markupPath u]

/-- **Every file that a build reads lies below the root.** -/
theorem below_of_mem_filesRead (hc : l.convention.Accepted) (hroot : Path.isAbsolute l.root = true)
    (h : l.Holds unit) {path : String} (hpath : path ∈ filesRead d l unit) : Path.Below l.root path := by
  obtain ⟨u, hu, hpath⟩ := List.mem_flatMap.1 hpath
  have hholds : l.Holds u := by
    rcases List.mem_cons.1 hu with rfl | hspelled
    · exact h
    · obtain ⟨found, -, hfound⟩ := Option.bind_eq_some_iff.1 (Option.mem_toList.1 hspelled)
      exact Locator.holds_of_unitOfFile? hc hfound
  rcases List.mem_pair.1 hpath with rfl | rfl
  · exact hholds.path_below hroot
  · exact hholds.markupPath_below hc hroot

/-- Entries are looked for at or below the root only. -/
theorem findIgnoringCase_of_sameBelow {root : String} (hroot : root ≠ "") (hsame : Disk.SameBelow root d d')
    {above wanted : List String} (habove : Place.Named above) (hwanted : Place.Named wanted) :
    findIgnoringCase d' (above.foldl Path.join root) wanted =
      findIgnoringCase d (above.foldl Path.join root) wanted := by
  induction wanted generalizing above with
  | nil => rfl
  | cons name rest ih =>
    have hat : above.foldl Path.join root = root ∨ Path.Below root (above.foldl Path.join root) := by
      by_cases hnil : above = []
      · exact .inl (by rw [hnil, List.foldl_nil])
      · exact .inr ⟨above, hnil, habove, Path.foldl_join hroot hnil habove⟩
    rw [findIgnoringCase, findIgnoringCase, hsame _ hat]
    cases hlist : d.list (above.foldl Path.join root) with
    | error e => rfl
    | ok names =>
      dsimp only
      cases hfind : names.find? (Text.eqIgnoringAsciiCase · name) with
      | none => rfl
      | some found =>
        have hcase := Text.eqIgnoringAsciiCase_iff.1
          (List.find?_some (p := (Text.eqIgnoringAsciiCase · name)) hfind)
        have hfound : Path.IsName found := by
          rw [← Path.isName_asciiLower_iff, hcase, Path.isName_asciiLower_iff]
          exact hwanted name List.mem_cons_self
        have hjoin : Path.join (above.foldl Path.join root) found =
            (above ++ [found]).foldl Path.join root := by
          rw [List.foldl_append, List.foldl_cons, List.foldl_nil]
        dsimp only
        rw [hjoin]
        exact ih (habove.append (Place.named_singleton hfound))
          fun n hn => hwanted n (List.mem_cons_of_mem _ hn)

theorem spelledOnDisk?_of_sameBelow (hroot : l.root ≠ "") (hsame : Disk.SameBelow l.root d d')
    (unit : Identity) : spelledOnDisk? d' l unit = spelledOnDisk? d l unit := by
  have hfind : ∀ path, (do
        let steps ← Path.below? (· == ·) (Path.components l.root) (Path.components path)
        findIgnoringCase d' l.root (← namesOf? steps) : Option String) = (do
        let steps ← Path.below? (· == ·) (Path.components l.root) (Path.components path)
        findIgnoringCase d l.root (← namesOf? steps)) := by
    intro path
    cases hsteps : Path.below? (· == ·) (Path.components l.root) (Path.components path) with
    | none => rfl
    | some steps =>
      cases hnames : namesOf? steps with
      | none => simp [hnames]
      | some names =>
        simp only [Option.bind_eq_bind, Option.bind_some, hnames]
        have hnamed : Place.Named names :=
          Locator.named_of_namesOf? (fun _ hstep => (Locator.suffix_of_below? hsteps).subset hstep) hnames
        have hnone : Place.Named [] := nofun
        exact findIgnoringCase_of_sameBelow hroot hsame hnone hnamed
  simp only [spelledOnDisk?, hfind]

end LiveSite

namespace Sources

variable {src : Sources} {d' : Disk} {unit : Identity}

theorem readUnit_congr (hread : ∀ path ∈ [unit.path, src.locator.markupPath unit],
    d'.readText? path = src.disk.readText? path) :
    { src with disk := d' }.readUnit unit = src.readUnit unit := by
  simp only [readUnit, readOptional, hread _ List.mem_cons_self,
    hread _ (List.mem_cons_of_mem _ List.mem_cons_self)]

/-- A unit is found by its files. -/
theorem findUnit_congr (src : Sources)
    (hread : ∀ path ∈ LiveSite.filesRead src.disk src.locator unit,
      d'.readText? path = src.disk.readText? path)
    (hspelled : LiveSite.spelledOnDisk? d' src.locator unit =
      LiveSite.spelledOnDisk? src.disk src.locator unit) :
    { src with disk := d' }.findUnit unit = src.findUnit unit := by
  have hunit : ∀ u ∈ unit :: (LiveSite.spelledOnDisk? src.disk src.locator unit).toList,
      { src with disk := d' }.readUnit u = src.readUnit u := fun u hu =>
    readUnit_congr fun path hpath => hread path (List.mem_flatMap.2 ⟨u, hu, hpath⟩)
  unfold findUnit
  rw [hunit unit List.mem_cons_self]
  dsimp only
  rw [hspelled]
  cases hcase : LiveSite.spelledOnDisk? src.disk src.locator unit with
  | none => rfl
  | some spelled =>
    have hspelledUnit := hunit spelled (by simp [hcase])
    simp only [hspelledUnit]

end Sources

namespace LiveSite

variable {d d' : Disk} {l : Locator} {unit : Identity}

/-- What is found of a unit follows from the disk, and the site stays as it is. -/
theorem run_findUnit (s : LiveSite) (d : Disk) (unit : Identity) :
    s.run d (findUnit unit) = (Sources.findUnit ⟨d, s.locator, s.sharedReferences⟩ unit, s) := by
  have hsettled : Settled ⟨d, s.locator, s.sharedReferences⟩ fun t =>
      t.locator = s.locator ∧ t.sharedReferences = s.sharedReferences :=
    ⟨fun _ h => h.1, fun _ h => h.2, fun _ _ h => h⟩
  have hanswer := (yields_findUnit hsettled unit s ⟨rfl, rfl⟩).1
  refine Prod.ext ?_ (reads_findUnit d unit s)
  rw [← hanswer]
  cases (s.run d (findUnit unit)).1 <;> rfl

/-- **A build reads the files of its unit, and directories that are the root or lie below it. It does the
same on all disks where these are the same.** -/
theorem run_buildUnit_congr {s : LiveSite} (hroot : s.locator.root ≠ "")
    (hread : ∀ path ∈ filesRead d s.locator unit, d'.readText? path = d.readText? path)
    (hlist : Disk.SameBelow s.locator.root d d') (tier : Tier) (references : List Artifact) :
    s.run d' (buildUnit unit tier references) = s.run d (buildUnit unit tier references) := by
  have hfound := Sources.findUnit_congr ⟨d, s.locator, s.sharedReferences⟩ hread
    (spelledOnDisk?_of_sameBelow hroot hlist unit)
  unfold buildUnit
  rw [run_bind, run_bind, run_findUnit, run_findUnit]
  dsimp only at hfound
  rw [hfound]
  cases Sources.findUnit ⟨d, s.locator, s.sharedReferences⟩ unit with
  | error failure => rfl
  | ok found =>
    obtain ⟨spelled, texts⟩ := found
    have hget : ∀ disk, s.run disk (get : Build LiveSite) = (.ok s, s) := fun _ => rfl
    dsimp only
    rw [run_bind, run_bind, hget, hget]
    dsimp only
    split
    · rw [run_compileUnit, run_compileUnit]
    · split
      · rfl
      · rw [run_compileUnit, run_compileUnit]

/-- **Requests stay below the root.** Whatever a request path says, it is refused or stands for a script whose
path is that of the root, followed by one name or more. If two dots stand between its slashes, it is refused.
All files that a build of the unit reads, respelled ones among them, lie below the root likewise, and the
build sees nothing else of the disk than these and the entries of directories at or below the root. -/
theorem requests_stay_below (hc : l.convention.Accepted) (hroot : Path.isAbsolute l.root = true)
    (hparent : .parent ∉ Path.components l.root) (raw : String) :
    ((∃ reason, l.resolve raw = .error (.invalidPath raw reason)) ∨
      ∃ unit, l.resolve raw = .ok unit ∧ Path.Below l.root unit.path) ∧
    (".." ∈ Text.pieces '/' (Text.substitute '\\' ['/'] (Text.trim raw)) →
      ∃ reason, l.resolve raw = .error (.invalidPath raw reason)) ∧
    ∀ unit, l.resolve raw = .ok unit → ∀ d : Disk,
      (∀ path ∈ filesRead d l unit, Path.Below l.root path) ∧
      ∀ (d' : Disk) (s : LiveSite), s.locator = l →
        (∀ path ∈ filesRead d l unit, d'.readText? path = d.readText? path) →
        Disk.SameBelow l.root d d' → ∀ tier references,
          s.run d' (buildUnit unit tier references) = s.run d (buildUnit unit tier references) := by
  refine ⟨?_, Locator.resolve_of_parent hparent, fun unit hunit d => ⟨fun path hpath => ?_, ?_⟩⟩
  · cases hresult : l.resolve raw with
    | error failure =>
      obtain ⟨reason, rfl⟩ := Locator.resolve_eq_error hresult
      exact .inl ⟨reason, rfl⟩
    | ok unit => exact .inr ⟨unit, rfl, (Locator.holds_of_resolve hc hresult).path_below hroot⟩
  · exact below_of_mem_filesRead hc hroot (Locator.holds_of_resolve hc hunit) hpath
  · rintro d' s rfl hread hlist tier references
    exact run_buildUnit_congr (Path.ne_empty_of_isAbsolute hroot) hread hlist tier references

/-- A request path with blanks around it, a backslash, and the root in capitals. -/
theorem requests_stay_below_shouted :
    Convention.default.Accepted ∧ Path.isAbsolute "/srv/site" = true ∧
    .parent ∉ Path.components "/srv/site" ∧
    Locator.resolve ⟨"/srv/site", .default⟩ " /SRV/site/forms\\log-in " =
      .ok ⟨"/srv/site/forms/log-in.ks", "Site.forms.log_in"⟩ ∧
    Path.Below "/srv/site" "/srv/site/forms/log-in.ks" := by
  have hresolve : Locator.resolve ⟨"/srv/site", .default⟩ " /SRV/site/forms\\log-in " =
      .ok ⟨"/srv/site/forms/log-in.ks", "Site.forms.log_in"⟩ := by decide +kernel
  refine ⟨Convention.accepted_default, by decide, by decide, hresolve, ?_⟩
  rcases (requests_stay_below (l := ⟨"/srv/site", .default⟩) Convention.accepted_default (by decide)
    (by decide) " /SRV/site/forms\\log-in ").1 with ⟨reason, hrefused⟩ | ⟨unit, hunit, hbelow⟩
  · rw [hresolve] at hrefused
    cases hrefused
  · rw [hresolve] at hunit
    obtain rfl := Except.ok.inj hunit
    exact hbelow

end LiveSite

end SiteHost
