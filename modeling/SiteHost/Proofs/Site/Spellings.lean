import SiteHost.Proofs.Disk.Distinct
import SiteHost.Proofs.Site.Outcomes
import SiteHost.Proofs.Site.Remembered
import SiteHost.Proofs.Site.Respelling

/-!
# Spellings of a unit

A unit is kept under a key that is the same for all spellings of its path, but each spelling may find other
files for it:

* `Sources.spelling?` — the spelling under which a request finds its files;
* `LiveSite.searched?` — the file that a path leads to without regard to letter case;
* `Sources.OneSpelling` — whether the script and the markup that a search finds for a unit go together.

Principal results:

* `Sources.ordinary_eq_iff` — two spellings amount to the same if and only if they find the same files;
* `Sources.spelling?_of_readUnit` — on a directory with distinct names all spellings find the same files, if
  script and markup go together.
-/

namespace SiteHost

open Place

/-! ## The spelling that is found -/

namespace Sources

variable {src : Sources} {u v unit : Identity} {a : Artifact}

/-- The spelling under which a request finds the files of a unit: its own if anything stands there, else the
one on disk. -/
def spelling? (src : Sources) (unit : Identity) : Option Identity :=
  match src.readUnit unit with
  | .ok none => LiveSite.spelledOnDisk? src.disk src.locator unit
  | _ => some unit

/-- A unit of which a file stands under its very spelling is found there. -/
theorem spelling?_of_own {texts : UnitTexts} (h : src.readUnit unit = .ok (some texts)) :
    src.spelling? unit = some unit := by
  unfold spelling?
  rw [h]

/-- Files are found under the spelling of a unit. -/
theorem findUnit_eq_ok_iff_spelling {found : Identity × UnitTexts} : src.findUnit unit = .ok found ↔
    src.spelling? unit = some found.1 ∧ src.readUnit found.1 = .ok (some found.2) := by
  obtain ⟨spelled, texts⟩ := found
  unfold findUnit spelling?
  rcases hread : src.readUnit unit with e | texts?
  · constructor
    · nofun
    · rintro ⟨hsame, hspelled⟩
      cases hsame
      rw [hread] at hspelled
      cases hspelled
  cases texts? with
  | some own =>
    constructor
    · intro h
      cases h
      exact ⟨rfl, hread⟩
    · rintro ⟨hsame, hspelled⟩
      cases hsame
      rw [hread] at hspelled
      cases hspelled
      rfl
  | none =>
    simp only [bind, Except.bind]
    cases LiveSite.spelledOnDisk? src.disk src.locator unit with
    | none => exact ⟨nofun, nofun⟩
    | some other =>
      dsimp only
      constructor
      · intro h
        rcases hother : src.readUnit other with e | texts?
        · rw [hother] at h
          cases h
        · rw [hother] at h
          cases texts? with
          | none => cases h
          | some found =>
            cases h
            exact ⟨rfl, hother⟩
      · rintro ⟨hsame, hspelled⟩
        cases hsame
        rw [hspelled]
        rfl

theorem ordinary_eq_ok_iff_spelling : src.ordinary unit = .ok a ↔
    ∃ foundation globalUnit spelled texts, src.foundation = .ok foundation ∧
      src.globalUnit = .ok globalUnit ∧ src.spelling? unit = some spelled ∧
      src.readUnit spelled = .ok (some texts) ∧
      src.assemble spelled texts (foundation :: globalUnit.toList) = .ok a := by
  constructor
  · intro h
    obtain ⟨foundation, hfoundation, h⟩ := bind_eq_ok.1 h
    obtain ⟨globalUnit, hglobal, h⟩ := bind_eq_ok.1 h
    obtain ⟨⟨spelled, texts⟩, hfound, h⟩ := bind_eq_ok.1 h
    obtain ⟨hspelling, hread⟩ := findUnit_eq_ok_iff_spelling.1 hfound
    exact ⟨foundation, globalUnit, spelled, texts, hfoundation, hglobal, hspelling, hread, h⟩
  · rintro ⟨foundation, globalUnit, spelled, texts, hfoundation, hglobal, hspelling, hread, h⟩
    refine bind_eq_ok.2 ⟨foundation, hfoundation, bind_eq_ok.2 ⟨globalUnit, hglobal, bind_eq_ok.2 ?_⟩⟩
    exact ⟨(spelled, texts), findUnit_eq_ok_iff_spelling.2 ⟨hspelling, hread⟩, h⟩

/-- An artifact tells the spelling that was found. -/
theorem spelling?_of_ordinary (h : src.ordinary unit = .ok a) : src.spelling? unit = some a.identity := by
  obtain ⟨_, _, _, _, -, -, hspelling, -, hassemble⟩ := ordinary_eq_ok_iff_spelling.1 h
  rw [hspelling, (assemble_eq_ok hassemble).1]

/-- **Two spellings amount to the same if and only if they find the same files.** -/
theorem ordinary_eq_iff (h : src.ordinary u = .ok a) :
    src.ordinary v = .ok a ↔ src.spelling? v = src.spelling? u := by
  constructor
  · intro hv
    rw [spelling?_of_ordinary h, spelling?_of_ordinary hv]
  · intro hsame
    rw [ordinary_eq_ok_iff_spelling] at h ⊢
    rwa [hsame]

end Sources

/-! ## Searching without regard to letter case -/

namespace LiveSite

variable {d : Disk} {l : Locator} {p root : Place} {names spelled : List String}

/-- The file that a path leads to without regard to the case of ASCII letters. -/
def searched? (d : Disk) (l : Locator) (path : String) : Option String := do
  let steps ← Path.below? (· == ·) (Path.components l.root) (Path.components path)
  findIgnoringCase d l.root (← namesOf? steps)

theorem spelledOnDisk?_eq_searched (d : Disk) (l : Locator) (unit : Identity) :
    spelledOnDisk? d l unit =
      ((searched? d l unit.path).or (searched? d l (l.markupPath unit))).bind l.unitOfFile? := by
  change ([unit.path, l.markupPath unit].findSome? (searched? d l)).bind l.unitOfFile? = _
  rw [List.findSome?_cons, List.findSome?_cons, List.findSome?_nil]
  cases searched? d l unit.path with
  | some found => rfl
  | none => cases searched? d l (l.markupPath unit) <;> rfl

theorem searched?_path (hroot : Named root) (hl : l.root = root.path) (hnames : Named names) :
    searched? d l (Place.path (root ++ names)) = findIgnoringCase d root.path names :=
  spelled_path hroot hl hnames

/-- A search goes by the names in lower case. -/
theorem findIgnoringCase_congr (directory : String) (hsame : lower spelled = lower names) :
    findIgnoringCase d directory spelled = findIgnoringCase d directory names := by
  induction names generalizing spelled directory with
  | nil =>
    rw [lower_nil, lower_eq_nil] at hsame
    rw [hsame]
  | cons name rest ih =>
    cases spelled with
    | nil => cases hsame
    | cons other more =>
      rw [lower_cons, lower_cons] at hsame
      obtain ⟨hfirst, hmore⟩ := List.cons.inj hsame
      have hwanted : (Text.eqIgnoringAsciiCase · other) = (Text.eqIgnoringAsciiCase · name) := by
        funext found
        rw [Bool.eq_iff_iff, Text.eqIgnoringAsciiCase_iff, Text.eqIgnoringAsciiCase_iff, hfirst]
      rw [findIgnoringCase, findIgnoringCase, hwanted]
      cases d.list directory with
      | error e => rfl
      | ok found =>
        dsimp only
        cases found.find? (Text.eqIgnoringAsciiCase · name) with
        | none => rfl
        | some next => exact ih _ hmore

/-- A search changes nothing but the case of letters. -/
theorem spelled_of_findIgnoringCase (hp : Named p) (hnames : Named names) {found : String}
    (hfound : findIgnoringCase d p.path names = some found) :
    ∃ spelled, Named spelled ∧ lower spelled = lower names ∧ found = Place.path (p ++ spelled) := by
  induction names generalizing p with
  | nil =>
    cases hfound
    exact ⟨[], hnames, rfl, by simp⟩
  | cons wanted rest ih =>
    rw [findIgnoringCase] at hfound
    split at hfound
    · cases hfound
    · split at hfound
      · rename_i name hfind
        have hmatch := List.find?_some hfind
        have hsame := Text.eqIgnoringAsciiCase_iff.1 hmatch
        have hname : Path.IsName name := by
          rw [← Path.isName_asciiLower_iff, hsame, Path.isName_asciiLower_iff]
          exact hnames wanted List.mem_cons_self
        rw [join_path hp hname] at hfound
        obtain ⟨spelled, hspelled, hlower, rfl⟩ := ih (hp.append (named_singleton hname))
          (fun n hn => hnames n (List.mem_cons_of_mem _ hn)) hfound
        refine ⟨name :: spelled, (named_singleton hname).append hspelled, ?_, by simp⟩
        rw [lower_cons, lower_cons, hsame, hlower]
      · cases hfound

/-- **Where names are distinct a search finds what stands under its very names.** -/
theorem findIgnoringCase_of_distinct (h : d.Distinct p) (hp : Named p) (hnames : Named names)
    (hthere : d.exists? (Place.path (p ++ names)) = true) :
    findIgnoringCase d p.path names = some (Place.path (p ++ names)) := by
  induction names generalizing p with
  | nil => simp [findIgnoringCase]
  | cons name rest ih =>
    have hname := hnames name List.mem_cons_self
    have hassoc : p ++ name :: rest = p ++ [name] ++ rest := by simp
    obtain ⟨hok, hopen, hnode⟩ := (Disk.exists?_iff (hp.append hnames)).1 hthere
    obtain ⟨hpopen, hdown⟩ := Disk.open_append.1 hopen
    rw [List.nil_append] at hdown
    have hlist : d.list p.path = .ok (d.names p) := by
      have hres : d.resolve p.path = .ok (p, .directory) :=
        (Disk.resolve_eq_ok_iff hp).2 ⟨rfl, Disk.malformed?_left hok, hpopen, hdown.1⟩
      unfold Disk.list
      rw [hres]
      rfl
    have hmem := Disk.mem_names_of_isName hname (Disk.isSome_of_open hdown hnode)
    have hfind : (d.names p).find? (Text.eqIgnoringAsciiCase · name) = some name := by
      cases hfound : (d.names p).find? (Text.eqIgnoringAsciiCase · name) with
      | none =>
        have hnone := List.find?_eq_none.1 hfound name hmem
        rw [Text.eqIgnoringAsciiCase_iff] at hnone
        exact absurd rfl hnone
      | some other =>
        have hmatch := List.find?_some hfound
        rw [h.here (List.mem_of_find?_eq_some hfound) hmem (Text.eqIgnoringAsciiCase_iff.1 hmatch)]
    rw [findIgnoringCase, hlist]
    dsimp only
    rw [hfind]
    dsimp only
    rw [join_path hp hname, hassoc]
    rw [hassoc] at hthere
    exact ih (h.step hname) (hp.append (named_singleton hname))
      (fun n hn => hnames n (List.mem_cons_of_mem _ hn)) hthere

end LiveSite

/-! ## Files that go together -/

/-- Whether the script and the markup that a search finds for a unit go together. -/
def Sources.OneSpelling (src : Sources) (unit : Identity) : Prop :=
  ∀ script markup, LiveSite.searched? src.disk src.locator unit.path = some script →
    LiveSite.searched? src.disk src.locator (src.locator.markupPath unit) = some markup →
    src.locator.unitOfFile? script = src.locator.unitOfFile? markup

section Spelled

open LiveSite

variable {src : Sources} {l : Locator} {root : Place} {dirs dirs' spelled : List String}
  {file file' : String} {texts : UnitTexts} {unit : Identity}

theorem lower_markup {c : Convention} (hc : c.Plain)
    (hsame : lower (dirs' ++ [file']) = lower (dirs ++ [file])) :
    lower (dirs' ++ [c.markupName file']) = lower (dirs ++ [c.markupName file]) := by
  simp only [lower_append, lower_cons, lower_nil, lower_markupName hc] at hsame ⊢
  obtain ⟨hdirs, hfile⟩ := List.append_inj' hsame rfl
  rw [hdirs, (List.cons.inj hfile).1]

/-- Names of a script in another spelling are names of a script. -/
theorem names_of_spelled {c : Convention} (h : c.NamesScript dirs file) (hspelled : Named spelled)
    (hsame : lower spelled = lower (dirs ++ [file])) :
    ∃ dirs' file', c.NamesScript dirs' file' ∧ spelled = dirs' ++ [file'] := by
  rw [lower_append] at hsame
  obtain ⟨dirs', last, rfl, -, hlast⟩ := List.map_eq_append_iff.1 hsame
  obtain ⟨file', rfl, hfile⟩ := List.map_eq_singleton_iff.1 hlast
  exact ⟨dirs', file', ⟨hspelled, (Convention.isLeafName_congr hfile).trans h.leaf⟩, rfl⟩

/-- The same of the names of its markup. -/
theorem names_of_spelled_markup {c : Convention} (h : c.NamesScript dirs file)
    (hspelled : Named spelled) (hsame : lower spelled = lower (dirs ++ [c.markupName file])) :
    ∃ dirs' name file', spelled = dirs' ++ [name] ∧ c.scriptName name = file' ∧
      c.isSourceName name = true ∧ c.NamesScript dirs' file' ∧
      lower (dirs' ++ [file']) = lower (dirs ++ [file]) := by
  rw [lower_append] at hsame
  obtain ⟨dirs', last, rfl, hdirs, hlast⟩ := List.map_eq_append_iff.1 hsame
  obtain ⟨name, rfl, hname⟩ := List.map_eq_singleton_iff.1 hlast
  rw [Convention.markupName, Text.asciiLower_append, Text.asciiLower_append] at hname
  obtain ⟨before, suffix, rfl, hbefore, hsuffix⟩ := Text.asciiLower_eq_append hname
  obtain ⟨file', dot, rfl, hfile, hdot⟩ := Text.asciiLower_eq_append hbefore
  obtain rfl := Text.asciiLower_eq_dot.1 hdot
  have hleaf : c.isLeafName file' = true := (Convention.isLeafName_congr hfile).trans h.leaf
  have hname : Path.IsName file' := by
    rw [← Path.isName_asciiLower_iff, hfile, Path.isName_asciiLower_iff]
    exact h.file_isName
  refine ⟨dirs', _, file', rfl, Convention.scriptName_of_markup hleaf hsuffix, ?_,
    ⟨hspelled.left.append (named_singleton hname), hleaf⟩, ?_⟩
  · rw [Convention.isSourceName, Convention.isMarkupName_iff.2 ⟨file', suffix, hleaf, rfl, hsuffix⟩,
      Bool.or_true]
  · rw [lower_append, lower_append, lower_cons, lower_cons, hfile]
    exact congrArg (· ++ _) hdirs

/-- The spelling that a search finds differs in the case of letters only. -/
theorem names_of_spelledOnDisk? (hl : l.At root) (h : l.convention.NamesScript dirs file) {d : Disk}
    (hfound : spelledOnDisk? d l (l.unitAt (dirs ++ [file])) = some unit) :
    ∃ dirs' file', l.convention.NamesScript dirs' file' ∧
      lower (dirs' ++ [file']) = lower (dirs ++ [file]) ∧ unit = l.unitAt (dirs' ++ [file']) := by
  rw [spelledOnDisk?_eq_searched, Locator.path_unitAt hl h.named, Locator.markupPath_unitAt hl h.named,
    searched?_path hl.named hl.path h.named,
    searched?_path hl.named hl.path (h.named_markup hl.plain.markup.noSlash)] at hfound
  obtain ⟨path, hpath, hunit⟩ := Option.bind_eq_some_iff.1 hfound
  rcases Option.or_eq_some_iff.1 hpath with hscript | ⟨-, hmarkup⟩
  · obtain ⟨spelled, hspelled, hsame, rfl⟩ := spelled_of_findIgnoringCase hl.named h.named hscript
    obtain ⟨dirs', file', hnames, rfl⟩ := names_of_spelled h hspelled hsame
    rw [Locator.unitOfFile?_script hl hnames] at hunit
    exact ⟨dirs', file', hnames, hsame, (Option.some.inj hunit).symm⟩
  · obtain ⟨spelled, hspelled, hsame, rfl⟩ :=
      spelled_of_findIgnoringCase hl.named (h.named_markup hl.plain.markup.noSlash) hmarkup
    obtain ⟨dirs', name, file', rfl, rfl, hsource, hnames, hsame⟩ :=
      names_of_spelled_markup h hspelled hsame
    rw [Locator.unitOfFile?_path hl hspelled, if_pos hsource] at hunit
    exact ⟨dirs', _, hnames, hsame, (Option.some.inj hunit).symm⟩

/-- So does the spelling that a request finds. -/
theorem names_of_spelling? (hl : src.locator.At root)
    (h : src.locator.convention.NamesScript dirs file)
    (hfound : src.spelling? (src.locator.unitAt (dirs ++ [file])) = some unit) :
    ∃ dirs' file', src.locator.convention.NamesScript dirs' file' ∧
      lower (dirs' ++ [file']) = lower (dirs ++ [file]) ∧
        unit = src.locator.unitAt (dirs' ++ [file']) := by
  unfold Sources.spelling? at hfound
  split at hfound
  · exact names_of_spelledOnDisk? hl h hfound
  · cases hfound
    exact ⟨dirs, file, h, rfl, rfl⟩

theorem searched_congr (hl : l.At root) (h : l.convention.NamesScript dirs file)
    (h' : l.convention.NamesScript dirs' file') (hsame : lower (dirs' ++ [file']) = lower (dirs ++ [file]))
    (d : Disk) :
    searched? d l (l.unitAt (dirs' ++ [file'])).path = searched? d l (l.unitAt (dirs ++ [file])).path ∧
      searched? d l (l.markupPath (l.unitAt (dirs' ++ [file']))) =
        searched? d l (l.markupPath (l.unitAt (dirs ++ [file]))) := by
  rw [Locator.path_unitAt hl h.named, Locator.path_unitAt hl h'.named, Locator.markupPath_unitAt hl h.named,
    Locator.markupPath_unitAt hl h'.named, searched?_path hl.named hl.path h.named,
    searched?_path hl.named hl.path h'.named,
    searched?_path hl.named hl.path (h.named_markup hl.plain.markup.noSlash),
    searched?_path hl.named hl.path (h'.named_markup hl.plain.markup.noSlash),
    findIgnoringCase_congr _ hsame, findIgnoringCase_congr _ (lower_markup hl.plain hsame)]
  exact ⟨rfl, rfl⟩

/-- A search leads to every spelling under which something stands. -/
theorem spelledOnDisk?_of_exists (hl : src.locator.At root) (hdistinct : src.disk.Distinct root)
    (h : src.locator.convention.NamesScript dirs file)
    (hone : src.OneSpelling (src.locator.unitAt (dirs ++ [file])))
    (hthere : src.disk.exists? (src.locator.unitAt (dirs ++ [file])).path = true ∨
      src.disk.exists? (src.locator.markupPath (src.locator.unitAt (dirs ++ [file]))) = true) :
    spelledOnDisk? src.disk src.locator (src.locator.unitAt (dirs ++ [file])) =
      some (src.locator.unitAt (dirs ++ [file])) := by
  have hmarkup := h.named_markup hl.plain.markup.noSlash
  rw [Sources.OneSpelling] at hone
  rw [spelledOnDisk?_eq_searched]
  rw [Locator.path_unitAt hl h.named, Locator.markupPath_unitAt hl h.named,
    searched?_path hl.named hl.path h.named, searched?_path hl.named hl.path hmarkup] at *
  rcases hthere with hthere | hthere
  · rw [findIgnoringCase_of_distinct hdistinct hl.named h.named hthere, Option.some_or, Option.bind_some]
    exact Locator.unitOfFile?_script hl h
  · have hfound := findIgnoringCase_of_distinct hdistinct hl.named hmarkup hthere
    have hunit := Locator.unitOfFile?_markup hl h
    cases hfirst : findIgnoringCase src.disk root.path (dirs ++ [file]) with
    | none => rw [hfound, Option.none_or, Option.bind_some, hunit]
    | some path => rw [Option.some_or, Option.bind_some, hone path _ hfirst hfound, hunit]

/-- Where names are distinct something stands under one spelling of a path only. -/
theorem eq_of_exists {d : Disk} {names : List String} (hroot : Named root) (hdistinct : d.Distinct root)
    (hnames : Named names) (hspelled : Named spelled) (hsame : lower spelled = lower names)
    (hthere : d.exists? (Place.path (root ++ names)) = true)
    (hthere' : d.exists? (Place.path (root ++ spelled)) = true) : spelled = names := by
  have hfound := findIgnoringCase_of_distinct hdistinct hroot hspelled hthere'
  rw [findIgnoringCase_congr _ hsame, findIgnoringCase_of_distinct hdistinct hroot hnames hthere] at hfound
  exact (List.append_cancel_left
    (path_injective (hroot.append hnames) (hroot.append hspelled) (Option.some.inj hfound))).symm

/-- A file that is read is there. -/
theorem exists?_of_readText? {d : Disk} {names : List String} (hroot : Named root) (hnames : Named names)
    {text : String} (htext : d.readText? (Place.path (root ++ names)) = .ok (some text)) :
    d.exists? (Place.path (root ++ names)) = true := by
  obtain ⟨hopen, hok, content, hnode⟩ := Disk.of_readText?_eq_some (hroot.append hnames) htext
  exact (Disk.exists?_iff (hroot.append hnames)).2 ⟨hok, hopen, by rw [hnode]; rfl⟩

/-- Something stands where a unit is read, and at both paths a file could stand. -/
theorem exists_or_of_readUnit (hl : src.locator.At root) (h : src.locator.convention.NamesScript dirs file)
    (hread : src.readUnit (src.locator.unitAt (dirs ++ [file])) = .ok (some texts)) :
    (src.disk.exists? (src.locator.unitAt (dirs ++ [file])).path = true ∨
      src.disk.exists? (src.locator.markupPath (src.locator.unitAt (dirs ++ [file]))) = true) ∧
    ∀ name ∈ [file, src.locator.convention.markupName file], src.disk.Open [] (root ++ (dirs ++ [name])) ∧
      Disk.malformed? (Place.path (root ++ (dirs ++ [name]))) = none := by
  have hmarkup := h.named_markup hl.plain.markup.noSlash
  obtain ⟨hopen, hdir⟩ := open_of_readUnit hl h hread
  obtain ⟨⟨hreadScript, hreadMarkup⟩, htext⟩ := exists_of_readUnit hread
  rw [Locator.path_unitAt hl h.named] at *
  rw [Locator.markupPath_unitAt hl h.named] at *
  have hcould : ∀ name text, Named (dirs ++ [name]) →
      src.disk.readText? (Place.path (root ++ (dirs ++ [name]))) = .ok text →
      src.disk.Open [] (root ++ (dirs ++ [name])) ∧
        Disk.malformed? (Place.path (root ++ (dirs ++ [name]))) = none := by
    intro name text hnames htext
    rw [← List.append_assoc] at htext ⊢
    exact Disk.open_of_readText?_eq_ok (by simpa using hl.named.append hnames) hopen hdir htext
  constructor
  · rcases htext with ⟨text, htext⟩ | ⟨text, htext⟩
    · exact .inl (exists?_of_readText? hl.named h.named (hreadScript.trans (congrArg _ htext)))
    · exact .inr (exists?_of_readText? hl.named hmarkup (hreadMarkup.trans (congrArg _ htext)))
  · rw [List.forall_mem_cons, List.forall_mem_singleton]
    exact ⟨hcould file _ h.named hreadScript, hcould _ _ hmarkup hreadMarkup⟩

/-- **Where names are distinct all spellings of a unit find the same files**, if its script and its markup go
together. -/
theorem spelling?_of_readUnit (hl : src.locator.At root) (hdistinct : src.disk.Distinct root)
    (h : src.locator.convention.NamesScript dirs file)
    (hread : src.readUnit (src.locator.unitAt (dirs ++ [file])) = .ok (some texts))
    (hone : src.OneSpelling (src.locator.unitAt (dirs ++ [file])))
    (h' : src.locator.convention.NamesScript dirs' file')
    (hsame : lower (dirs' ++ [file']) = lower (dirs ++ [file])) :
    src.spelling? (src.locator.unitAt (dirs' ++ [file'])) =
      some (src.locator.unitAt (dirs ++ [file])) := by
  obtain ⟨hscript, hmarkup⟩ := searched_congr hl h h' hsame src.disk
  obtain ⟨hthere, hcould⟩ := exists_or_of_readUnit hl h hread
  have hdisk := spelledOnDisk?_of_exists hl hdistinct h hone hthere
  have hdisk' : spelledOnDisk? src.disk src.locator (src.locator.unitAt (dirs' ++ [file'])) =
      some (src.locator.unitAt (dirs ++ [file])) := by
    rw [← hdisk, spelledOnDisk?_eq_searched, spelledOnDisk?_eq_searched, hscript, hmarkup]
  -- what stands under the other spelling is found by a search, so that it is no other
  have hother : src.disk.exists? (src.locator.unitAt (dirs' ++ [file'])).path = true ∨
      src.disk.exists? (src.locator.markupPath (src.locator.unitAt (dirs' ++ [file']))) = true →
      src.locator.unitAt (dirs' ++ [file']) = src.locator.unitAt (dirs ++ [file]) := by
    intro hstands
    have hone' : src.OneSpelling (src.locator.unitAt (dirs' ++ [file'])) := by
      rwa [Sources.OneSpelling, hscript, hmarkup]
    have hown := spelledOnDisk?_of_exists hl hdistinct h' hone' hstands
    rw [hdisk'] at hown
    exact (Option.some.inj hown).symm
  rw [List.forall_mem_cons, List.forall_mem_singleton] at hcould
  have hreadScript := Disk.readText?_of_distinct hdistinct hl.named h.named h'.named hcould.1.1
    hcould.1.2 hsame
  have hreadMarkup := Disk.readText?_of_distinct hdistinct hl.named (h.named_markup hl.plain.markup.noSlash)
    (h'.named_markup hl.plain.markup.noSlash) hcould.2.1 hcould.2.2 (lower_markup hl.plain hsame)
  rw [← Locator.path_unitAt hl h'.named] at hreadScript
  rw [← Locator.markupPath_unitAt hl h'.named] at hreadMarkup
  rcases hreadScript with hreadScript | hstands
  · rcases hreadMarkup with hreadMarkup | hstands
    · unfold Sources.spelling?
      rw [readUnit_eq_ok_iff.2 ⟨none, none, hreadScript, hreadMarkup, rfl⟩]
      exact hdisk'
    · rw [hother (.inr hstands), Sources.spelling?_of_own hread]
  · rw [hother (.inl hstands), Sources.spelling?_of_own hread]

/-- Where names are distinct the files of a unit are there under one spelling only. -/
theorem unitAt_eq_of_exists (hl : src.locator.At root) (hdistinct : src.disk.Distinct root)
    (h : src.locator.convention.NamesScript dirs file)
    (h' : src.locator.convention.NamesScript dirs' file')
    (hsame : lower (dirs' ++ [file']) = lower (dirs ++ [file]))
    (hthere : src.disk.exists? (src.locator.unitAt (dirs ++ [file])).path = true ∧
        src.disk.exists? (src.locator.unitAt (dirs' ++ [file'])).path = true ∨
      src.disk.exists? (src.locator.markupPath (src.locator.unitAt (dirs ++ [file]))) = true ∧
        src.disk.exists? (src.locator.markupPath (src.locator.unitAt (dirs' ++ [file']))) = true) :
    src.locator.unitAt (dirs' ++ [file']) = src.locator.unitAt (dirs ++ [file]) := by
  rw [Locator.path_unitAt hl h.named, Locator.path_unitAt hl h'.named, Locator.markupPath_unitAt hl h.named,
    Locator.markupPath_unitAt hl h'.named] at hthere
  rcases hthere with ⟨hthere, hthere'⟩ | ⟨hthere, hthere'⟩
  · rw [eq_of_exists hl.named hdistinct h.named h'.named hsame hthere hthere']
  · have hunit := Locator.unitOfFile?_markup hl h
    rw [← eq_of_exists hl.named hdistinct (h.named_markup hl.plain.markup.noSlash)
      (h'.named_markup hl.plain.markup.noSlash) (lower_markup hl.plain hsame) hthere hthere',
      Locator.unitOfFile?_markup hl h'] at hunit
    exact Option.some.inj hunit

/-- A template has its markup, and anything else its script. -/
theorem exists?_of_isTemplate {a : Artifact} {references : List Artifact} (hl : src.locator.At root)
    (h : src.locator.convention.NamesScript dirs file)
    (hread : src.readUnit (src.locator.unitAt (dirs ++ [file])) = .ok (some texts))
    (hassemble : src.assemble (src.locator.unitAt (dirs ++ [file])) texts references = .ok a) :
    src.disk.exists? (if a.isTemplate then src.locator.markupPath (src.locator.unitAt (dirs ++ [file]))
      else (src.locator.unitAt (dirs ++ [file])).path) = true := by
  obtain ⟨⟨hscript, hmarkup⟩, htext⟩ := exists_of_readUnit hread
  rw [Artifact.isTemplate, (Sources.assemble_eq_ok hassemble).2.1]
  cases hm : texts.markup with
  | some markup =>
    rw [hm, Locator.markupPath_unitAt hl h.named] at hmarkup
    rw [Locator.markupPath_unitAt hl h.named]
    exact exists?_of_readText? hl.named (h.named_markup hl.plain.markup.noSlash) hmarkup
  | none =>
    obtain ⟨text, ht⟩ := htext.resolve_right (by simp [hm])
    rw [ht, Locator.path_unitAt hl h.named] at hscript
    rw [Locator.path_unitAt hl h.named]
    exact exists?_of_readText? hl.named h.named hscript

/-- **Where names are distinct and two spellings of a unit find other files**, one of them finds markup and
the other does not. -/
theorem isTemplate_ne_of_spelling? {u v : Identity} {a b : Artifact} (hl : src.locator.At root)
    (hdistinct : src.disk.Distinct root) (h : src.locator.convention.NamesScript dirs file)
    (h' : src.locator.convention.NamesScript dirs' file')
    (hsame : lower (dirs' ++ [file']) = lower (dirs ++ [file]))
    (ha : src.ordinary u = .ok a) (hb : src.ordinary v = .ok b)
    (hu : src.spelling? u = some (src.locator.unitAt (dirs ++ [file])))
    (hv : src.spelling? v = some (src.locator.unitAt (dirs' ++ [file'])))
    (hne : src.spelling? u ≠ src.spelling? v) : a.isTemplate ≠ b.isTemplate := by
  intro hkind
  obtain ⟨_, _, k, texts, -, -, hk, hread, hassemble⟩ := Sources.ordinary_eq_ok_iff_spelling.1 ha
  obtain ⟨_, _, k', texts', -, -, hk', hread', hassemble'⟩ := Sources.ordinary_eq_ok_iff_spelling.1 hb
  obtain rfl := Option.some.inj (hu.symm.trans hk)
  obtain rfl := Option.some.inj (hv.symm.trans hk')
  have hthere := exists?_of_isTemplate hl h hread hassemble
  have hthere' := exists?_of_isTemplate hl h' hread' hassemble'
  rw [← hkind] at hthere'
  refine hne (hu.trans (Eq.trans (congrArg _ ?_) hv.symm))
  refine (unitAt_eq_of_exists hl hdistinct h h' hsame ?_).symm
  cases htemplate : a.isTemplate with
  | true =>
    rw [htemplate] at hthere hthere'
    exact .inr ⟨hthere, hthere'⟩
  | false =>
    rw [htemplate] at hthere hthere'
    exact .inl ⟨hthere, hthere'⟩

end Spelled

end SiteHost
