import SiteHost.Proofs.Site.EarlierRequests
import SiteHost.Proofs.Site.Identities

/-!
# Units that are discovered

A unit is discovered by its files, whose names are recognised in any letter case. It is read under the path
that its files led to: the extension stays as it is written, but the suffix of markup is cut off, and put on
again as the naming rules have it. So markup can be discovered that is not found again:

* `Disk.Readable` — a directory in which all files are text;
* `LiveSite.Discovered` — what is discovered: for each key one unit, and none of the global unit's.

Principal results:

* `Locator.file_of_unit` — a file of a unit is its script, or has a suffix behind the script's path;
* `Sources.findUnit_eq_missing_iff`, `Sources.ordinary_eq_missing_iff` — when a unit is reported missing;
* `LiveSite.discovered_missing_iff` — **a unit that was discovered is missing if and only if** nothing is held
  for it and none of the files that are tried is there. Then all its files are markup with the suffix in
  another letter case.
-/

namespace SiteHost

/-! ## What is discovered -/

/-- Whether all files below a place are text, with names on the way to them. -/
def Disk.Readable (d : Disk) (root : Place) : Prop :=
  ∀ file ∈ d.filesBelow root, ∃ names, Place.Named names ∧ file = Place.path (root ++ names) ∧
    ∃ text, d.readText file = .ok text

theorem Disk.readText?_of_readText {d : Disk} {file text : String} (h : d.readText file = .ok text) :
    d.readText? file = .ok (some text) := by
  unfold readText?
  rw [h]

namespace LiveSite

variable {d : Disk} {l : Locator} {root : Place} {units : List Identity}

theorem exists_mem_distinct {us : List Identity} {u : Identity} (h : u ∈ us) :
    ∃ v ∈ distinct us, v.key = u.key := by
  induction us with
  | nil => cases h
  | cons first rest ih =>
    by_cases hkey : first.key = u.key
    · exact ⟨first, List.mem_cons_self, hkey⟩
    · have hrest : u ∈ rest := (List.mem_cons.1 h).resolve_left fun heq => hkey (heq ▸ rfl)
      obtain ⟨v, hv, hsame⟩ := ih hrest
      refine ⟨v, List.mem_cons_of_mem _ (List.mem_filter.2 ⟨hv, ?_⟩), hsame⟩
      rw [hsame]
      exact bne_iff_ne.2 (Ne.symm hkey)

theorem nodup_distinct (us : List Identity) : ((distinct us).map Identity.key).Nodup := by
  induction us with
  | nil => exact List.nodup_nil
  | cons first rest ih =>
    rw [distinct, List.map_cons, List.nodup_cons]
    refine ⟨fun hmem => ?_, ih.sublist (List.filter_sublist.map _)⟩
    obtain ⟨v, hv, hkey⟩ := List.mem_map.1 hmem
    exact bne_iff_ne.1 (List.mem_filter.1 hv).2 hkey

/-- What is discovered below a place: for each key of a file but that of the global unit, one unit. -/
structure Discovered (d : Disk) (l : Locator) (root : Place) (units : List Identity) : Prop where
  file : ∀ unit ∈ units, ∃ file ∈ d.filesBelow root, l.unitOfFile? file = some unit
  ordinary : ∀ unit ∈ units, ¬ l.isGlobal unit = true
  all : ∀ file ∈ d.filesBelow root, ∀ unit, l.unitOfFile? file = some unit → ¬ l.isGlobal unit = true →
    ∃ other ∈ units, other.key = unit.key
  nodup : (units.map Identity.key).Nodup

/-- What is discovered where a directory has these files below it. -/
theorem discover_of_files {place : Place} {files : List String}
    (hroot : d.resolve l.root = .ok (place, .directory)) (hfiles : d.filesBelow place = files) :
    discover d l = .ok ((distinct ((files.filterMap l.unitOfFile?).filter fun u => !l.isGlobal u)).mergeSort
      fun a b => a.typeName ≤ b.typeName) := by
  rw [discover, hroot]
  simp only [bind, Except.bind, pure, Except.pure, hfiles]
  rfl

theorem discovered (hroot : root.Named) (hl : l.root = root.path) (h : discover d l = .ok units) :
    Discovered d l root units := by
  obtain ⟨place, hresolve, hunits⟩ := discover_eq_ok h
  rw [hl] at hresolve
  obtain ⟨rfl, -⟩ := (Disk.resolve_eq_ok_iff hroot).1 hresolve
  refine ⟨fun unit hunit => ?_, fun unit hunit => (of_mem_discover h hunit).2,
    fun file hfile unit hunit hglobal => ?_, (hunits.map _).nodup_iff.2 (nodup_distinct _)⟩
  · have hmem := List.mem_of_mem_filter (mem_of_mem_distinct (hunits.mem_iff.1 hunit))
    exact List.mem_filterMap.1 hmem
  · have hfound : unit ∈ ((d.filesBelow place).filterMap l.unitOfFile?).filter fun u => !l.isGlobal u :=
      List.mem_filter.2 ⟨List.mem_filterMap.2 ⟨file, hfile, hunit⟩, by simpa using hglobal⟩
    obtain ⟨other, hother, hkey⟩ := exists_mem_distinct hfound
    exact ⟨other, hunits.mem_iff.2 hother, hkey⟩

end LiveSite

/-! ## The files of a unit -/

/-- The path of something whose name goes on. -/
theorem Place.path_append_suffix (p : Place) (dirs : List String) (name suffix : String) :
    Place.path (p ++ (dirs ++ [name ++ suffix])) = Place.path (p ++ (dirs ++ [name])) ++ suffix := by
  rw [← String.toList_inj, ← List.append_assoc, ← List.append_assoc, String.toList_append,
    toList_path_append_singleton, toList_path_append_singleton, String.toList_append, List.append_assoc]

/-- **A file of a unit is its script, or markup beside it** with the suffix in any letter case. -/
theorem Locator.file_of_unit {l : Locator} {root : Place} {names : List String} {unit : Identity}
    (hc : l.convention.Accepted) (hroot : root.Named) (hl : l.root = root.path)
    (hnames : Place.Named names) (h : l.unitOfFile? (Place.path (root ++ names)) = some unit) :
    Place.path (root ++ names) = unit.path ∨ ∃ suffix,
      Place.path (root ++ names) = unit.path ++ "." ++ suffix ∧
        Text.eqIgnoringAsciiCase suffix l.convention.markupSuffix = true := by
  have hunder : Path.under? l.root (Place.path (root ++ names)) = some (names.map .name) := by
    rw [hl, Place.under?_path hroot hnames]
  rcases List.eq_nil_or_concat names with rfl | ⟨dirs, name, rfl⟩
  · unfold unitOfFile? at h
    rw [hunder] at h
    cases h
  rw [List.concat_eq_append] at *
  rw [unitOfFile?_of_under? hunder] at h
  split at h
  · rename_i hsource
    cases h
    have hpath : ∀ script, Path.IsName script →
        (l.unitAt (dirs ++ [script])).path = Place.path (root ++ (dirs ++ [script])) := fun script hname => by
      rw [unitAt, hl, Place.foldl_join_path hroot (hnames.left.append (Place.named_singleton hname))]
    have hname : Path.IsName name := hnames name (by simp)
    cases hleaf : l.convention.isLeafName name with
    | true =>
      rw [Convention.scriptName_of_isLeafName hc.apart hleaf, hpath name hname]
      exact .inl rfl
    | false =>
      have hmarkup : l.convention.isMarkupName name = true := by
        rwa [Convention.isSourceName, hleaf, Bool.false_or] at hsource
      obtain ⟨script, suffix, hscript, rfl, hsuffix⟩ := Convention.isMarkupName_iff.1 hmarkup
      have hslash : '/' ∉ script.toList := fun hmem => hname.noSlash (by simp [hmem])
      rw [Convention.scriptName_of_markup hscript hsuffix,
        hpath script (Convention.isName_of_isLeafName hc.leaf.ne_empty hscript hslash)]
      exact .inr ⟨suffix, by rw [Place.path_append_suffix, Place.path_append_suffix],
        Text.eqIgnoringAsciiCase_iff.2 hsuffix⟩
  · cases h

/-! ## Units that are missing -/

namespace Sources

variable {src : Sources} {unit : Identity} {path : String}

/-- A unit is read as nothing where neither of its files is there. -/
theorem readUnit_eq_nothing_iff : src.readUnit unit = .ok none ↔
    ∀ file ∈ [unit.path, src.locator.markupPath unit], src.disk.readText? file = .ok none := by
  rw [readUnit_eq_ok_iff, List.forall_mem_cons, List.forall_mem_singleton]
  constructor
  · rintro ⟨script, markup, hscript, hmarkup, htexts⟩
    cases script <;> cases markup <;> cases htexts
    exact ⟨hscript, hmarkup⟩
  · rintro ⟨hscript, hmarkup⟩
    exact ⟨none, none, hscript, hmarkup, rfl⟩

/-- What follows a result that reports nothing missing is left to report it. -/
theorem bind_eq_missing {α β : Type} {r : Except Failure α} (h : Found r) {f : α → Except Failure β} :
    r >>= f = .error (.notFound path) ↔ ∃ a, r = .ok a ∧ f a = .error (.notFound path) := by
  cases r with
  | error e =>
    refine ⟨fun he => ?_, fun ⟨a, ha, _⟩ => by cases ha⟩
    cases he
    exact absurd rfl (h path)
  | ok a => exact ⟨fun ha => ⟨a, rfl, ha⟩, fun ⟨_, hb, ha⟩ => Except.ok.inj hb ▸ ha⟩

/-- None of the files is there that a build of a unit reads, if and only if every unit that is tried is read
as nothing. -/
theorem missing_filesRead_iff :
    (∀ file ∈ LiveSite.filesRead src.disk src.locator unit, src.disk.readText? file = .ok none) ↔
      ∀ u ∈ unit :: (LiveSite.spelledOnDisk? src.disk src.locator unit).toList,
        src.readUnit u = .ok none := by
  simp only [readUnit_eq_nothing_iff, LiveSite.filesRead, List.mem_flatMap]
  exact ⟨fun h u hu file hfile => h file ⟨u, hu, hfile⟩, fun h file ⟨u, hu, hfile⟩ => h u hu file hfile⟩

/-- **The files of a unit are missing if and only if** none of those is there that a build of it reads. -/
theorem findUnit_eq_missing_iff : src.findUnit unit = .error (.notFound path) ↔ path = unit.path ∧
    ∀ file ∈ LiveSite.filesRead src.disk src.locator unit, src.disk.readText? file = .ok none := by
  rw [missing_filesRead_iff, List.forall_mem_cons, findUnit, bind_eq_missing (src.found_readUnit unit)]
  cases LiveSite.spelledOnDisk? src.disk src.locator unit with
  | none =>
    constructor
    · rintro ⟨texts?, hread, h⟩
      cases texts? with
      | some texts => cases h
      | none =>
        cases h
        exact ⟨rfl, hread, by simp⟩
    · rintro ⟨rfl, hread, -⟩
      exact ⟨none, hread, rfl⟩
  | some spelled =>
    rw [Option.toList_some, List.forall_mem_singleton]
    constructor
    · rintro ⟨texts?, hread, h⟩
      cases texts? with
      | some texts => cases h
      | none =>
        obtain ⟨texts?, hspelled, h⟩ := (bind_eq_missing (src.found_readUnit spelled)).1 h
        cases texts? with
        | some texts => cases h
        | none =>
          cases h
          exact ⟨rfl, hread, hspelled⟩
    · rintro ⟨rfl, hread, hspelled⟩
      exact ⟨none, hread, (bind_eq_missing (src.found_readUnit spelled)).2 ⟨none, hspelled, rfl⟩⟩

/-- The global unit is never reported missing. -/
theorem found_globalUnit (src : Sources) : Found src.globalUnit := by
  unfold globalUnit
  split
  · split
    · exact .ok _
    · exact .ok _
    · rename_i failure hne hfailure
      intro path h
      cases h
      exact hne path rfl
  · exact .ok _

/-- **A unit is missing if and only if** its files are, though both layers below are there. -/
theorem ordinary_eq_missing_iff : src.ordinary unit = .error (.notFound path) ↔
    (∃ f, src.foundation = .ok f) ∧ (∃ g, src.globalUnit = .ok g) ∧ path = unit.path ∧
      ∀ file ∈ LiveSite.filesRead src.disk src.locator unit, src.disk.readText? file = .ok none := by
  rw [← findUnit_eq_missing_iff, ordinary, bind_eq_missing src.found_foundation]
  have hunit : ∀ references, src.unit unit references = .error (.notFound path) ↔
      src.findUnit unit = .error (.notFound path) := by
    intro references
    unfold Sources.unit
    cases src.findUnit unit with
    | error e => exact ⟨fun h => by cases h; rfl, fun h => by cases h; rfl⟩
    | ok found =>
      refine ⟨fun h => absurd h (src.found_assemble found.1 found.2 references path), fun h => ?_⟩
      cases h
  constructor
  · rintro ⟨f, hf, h⟩
    obtain ⟨g, hg, h⟩ := (bind_eq_missing src.found_globalUnit).1 h
    exact ⟨⟨f, hf⟩, ⟨g, hg⟩, (hunit _).1 h⟩
  · rintro ⟨⟨f, hf⟩, ⟨g, hg⟩, h⟩
    exact ⟨f, hf, (bind_eq_missing src.found_globalUnit).2 ⟨g, hg, (hunit _).2 h⟩⟩

end Sources

namespace LiveSite

variable {d : Disk} {l : Locator} {root : Place} {units : List Identity} {unit : Identity}
  {shared : List String} {held : String → Option Artifact} {s : LiveSite}

/-- **When a unit that was discovered is missing.** It is if and only if nothing is held for its key, both
layers below it are there, and nothing stands where its script and its markup would, under its own spelling
and under the one on disk. Then every file of it is markup whose suffix is not spelled as the naming rules
have it; so a unit is never missing of which there is a script, or markup with the suffix as configured. -/
theorem discovered_missing_iff (hc : l.convention.Accepted) (hroot : root.Named) (hl : l.root = root.path)
    (hd : d.Readable root) (hs : Remembers ⟨d, l, shared⟩ held [] s) (hunits : discover d l = .ok units)
    (hunit : unit ∈ units) :
    ((∃ path, (s.run d (leaf unit)).1 = .error (.notFound path)) ↔ held unit.key = none ∧
      (∃ f, Sources.foundation ⟨d, l, shared⟩ = .ok f) ∧ (∃ g, Sources.globalUnit ⟨d, l, shared⟩ = .ok g) ∧
      ∀ file ∈ filesRead d l unit, d.readText? file = .ok none) ∧
    ∀ path, (s.run d (leaf unit)).1 = .error (.notFound path) → path = unit.path ∧
      ∀ file ∈ d.filesBelow root, l.unitOfFile? file = some unit → ∃ suffix,
        file = unit.path ++ "." ++ suffix ∧ suffix ≠ l.convention.markupSuffix ∧
          Text.eqIgnoringAsciiCase suffix l.convention.markupSuffix = true := by
  obtain ⟨hkey, hglobal⟩ := of_mem_discover hunits hunit
  have hanswer := (run_leaf_of_remembers hkey hs).1
  have hmissing : ∀ path, (s.run d (leaf unit)).1 = .error (.notFound path) ↔
      Sources.recalled ⟨d, l, shared⟩ held unit = .error (.notFound path) := by
    intro path
    rw [← hanswer]
    cases (s.run d (leaf unit)).1 <;> simp [Except.map]
  have hiff : ∀ path, Sources.recalled ⟨d, l, shared⟩ held unit = .error (.notFound path) ↔
      held unit.key = none ∧ Sources.ordinary ⟨d, l, shared⟩ unit = .error (.notFound path) := by
    intro path
    unfold Sources.recalled
    cases held unit.key with
    | some a => simp
    | none => rw [Sources.leaf, if_neg hglobal]; simp
  simp only [hmissing, hiff, Sources.ordinary_eq_missing_iff]
  refine ⟨⟨?_, ?_⟩, ?_⟩
  · rintro ⟨path, hheld, hf, hg, -, hnone⟩
    exact ⟨hheld, hf, hg, hnone⟩
  · rintro ⟨hheld, hf, hg, hnone⟩
    exact ⟨_, hheld, hf, hg, rfl, hnone⟩
  rintro path ⟨-, -, -, rfl, hnone⟩
  refine ⟨rfl, fun file hfile hof => ?_⟩
  obtain ⟨names, hnames, rfl, text, htext⟩ := hd file hfile
  have hthere : ∀ other ∈ [unit.path, l.markupPath unit], Place.path (root ++ names) ≠ other := by
    rintro other hother rfl
    have hmem := hnone _ (List.mem_flatMap.2 ⟨unit, List.mem_cons_self, hother⟩)
    rw [Disk.readText?_of_readText htext] at hmem
    cases hmem
  rcases Locator.file_of_unit hc hroot hl hnames hof with hscript | ⟨suffix, hpath, hsuffix⟩
  · exact absurd hscript (hthere _ List.mem_cons_self)
  · refine ⟨suffix, hpath, ?_, hsuffix⟩
    rintro rfl
    exact hthere _ (List.mem_cons_of_mem _ List.mem_cons_self) hpath

/-- A directory with markup whose suffix is in capitals. -/
def shoutedMarkup (markup : String) : Disk :=
  ⟨[], (NameMap.empty.insert "/site" .directory).insert "/site/page.ks.HTML" (.file markup.toUTF8)⟩

theorem readable_shoutedMarkup (markup : String) : (shoutedMarkup markup).Readable ["site"] := by
  have hfiles : (shoutedMarkup markup).filesBelow ["site"] = ["/site/page.ks.HTML"] := rfl
  have hread : (shoutedMarkup markup).read "/site/page.ks.HTML" = .ok markup.toUTF8 := rfl
  intro file hfile
  rw [hfiles, List.mem_singleton] at hfile
  subst hfile
  exact ⟨["page.ks.HTML"], by decide, by decide, markup, readText_of_read hread⟩

/-- Its unit is discovered, and is missing when it is asked for. -/
theorem discovered_missing_shouted :
    Convention.default.Accepted ∧ Place.Named ["site"] ∧ (shoutedMarkup "<b>").Readable ["site"] ∧
    discover (shoutedMarkup "<b>") ⟨"/site", .default⟩ = .ok [⟨"/site/page.ks", "Site.page"⟩] ∧
    Remembers ⟨shoutedMarkup "<b>", ⟨"/site", .default⟩, []⟩ (fun _ => none) []
      (Site.liveSite ⟨"/site", .default⟩ {} 0 []) ∧
    ((Site.liveSite ⟨"/site", .default⟩ {} 0 []).run (shoutedMarkup "<b>")
      (leaf ⟨"/site/page.ks", "Site.page"⟩)).1 = .error (.notFound "/site/page.ks") := by
  have hroot : (shoutedMarkup "<b>").resolve "/site" = .ok (["site"], .directory) := rfl
  have hfiles : (shoutedMarkup "<b>").filesBelow ["site"] = ["/site/page.ks.HTML"] := rfl
  have hunits : discover (shoutedMarkup "<b>") ⟨"/site", .default⟩ =
      .ok [⟨"/site/page.ks", "Site.page"⟩] := by
    rw [discover_of_files hroot hfiles]
    decide +kernel
  have hfresh := remembers_liveSite ⟨"/site", .default⟩ {} (shoutedMarkup "<b>") 0 []
  have hmissing := discovered_missing_iff Convention.accepted_default (by decide) rfl
    (readable_shoutedMarkup "<b>") hfresh hunits List.mem_cons_self
  obtain ⟨path, hpath⟩ := hmissing.1.2 ⟨rfl, ⟨_, foundation_of_no_shared rfl⟩, ⟨none, rfl⟩, by decide +kernel⟩
  obtain ⟨rfl, -⟩ := hmissing.2 path hpath
  exact ⟨Convention.accepted_default, by decide, readable_shoutedMarkup "<b>", hunits, hfresh, hpath⟩

end LiveSite

end SiteHost
