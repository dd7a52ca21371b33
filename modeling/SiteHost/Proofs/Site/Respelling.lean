import SiteHost.Proofs.Site.Warm

/-!
# Requests in any letter case

A request path may spell a unit in any letter case. On a tidy disk all spellings find the files of the
unit in lower case, or nothing.

Principal results:

* `findIgnoringCase_eq_some` — a search without regard to case leads to the names in lower case, if
  anywhere;
* `findUnit_eq_ok_iff` — which files are found for a unit, and under which spelling;
* `ordinary_eq_ok_iff` — a unit amounts to what its lower-case spelling amounts to;
* `consistent_of_tidy` — units of one key amount to the same.
-/

namespace SiteHost

open Place

/-! ## Names on disk -/

namespace LiveSite

variable {d : Disk} {p root : Place} {names : List String}

/-- A name found in a directory is the one that is looked for, in lower case. -/
theorem name_of_find? (h : d.LowerBelow p) {wanted name : String} (hwanted : Path.IsName wanted)
    (hfind : (d.names p).find? (Text.eqIgnoringAsciiCase · wanted) = some name) :
    name = Text.asciiLower wanted := by
  have hfound := List.find?_some hfind
  have hsame := Text.eqIgnoringAsciiCase_iff.1 hfound
  have hname : Path.IsName name := by
    rw [← Path.isName_asciiLower_iff, hsame, Path.isName_asciiLower_iff]
    exact hwanted
  obtain ⟨-, -, hnode⟩ := Disk.mem_names.1 (List.mem_of_find?_eq_some hfind)
  have hlower : lower [name] = [name] := h [name] (named_singleton hname) hnode
  rw [← hsame]
  exact (List.cons.inj hlower).1.symm

theorem list_path (hp : Named p) {ns : List String} (h : d.list p.path = .ok ns) :
    ns = d.names p := by
  unfold Disk.list at h
  cases hres : d.resolve p.path with
  | error e =>
    rw [hres] at h
    cases h
  | ok found =>
    obtain ⟨q, node⟩ := found
    obtain ⟨rfl, -⟩ := (Disk.resolve_eq_ok_iff hp).1 hres
    rw [hres] at h
    cases node with
    | file content => cases h
    | directory =>
      cases h
      rfl

/-- Going down without regard to case leads to the names in lower case. -/
theorem findIgnoringCase_eq_some (h : d.LowerBelow p) (hp : Named p) (hnames : Named names)
    {found : String} (hfound : findIgnoringCase d p.path names = some found) :
    found = Place.path (p ++ lower names) := by
  induction names generalizing p with
  | nil =>
    cases hfound
    simp
  | cons wanted rest ih =>
    have hwanted := hnames wanted List.mem_cons_self
    have hlower := Path.isName_asciiLower_iff.2 hwanted
    rw [findIgnoringCase] at hfound
    split at hfound
    · cases hfound
    · rename_i ns hlist
      rw [list_path hp hlist] at hfound
      split at hfound
      · rename_i name hfind
        rw [name_of_find? h hwanted hfind, join_path hp hlower] at hfound
        rw [ih (h.step hlower) (hp.append (named_singleton hlower))
          (fun n hn => hnames n (List.mem_cons_of_mem _ hn)) hfound]
        simp
      · cases hfound

/-- What is there in lower case is found without regard to case. -/
theorem isSome_findIgnoringCase (h : d.LowerBelow p) (hp : Named p) (hnames : Named names)
    (hopen : d.Open [] (p ++ lower names))
    (hok : Disk.malformed? (Place.path (p ++ lower names)) = none)
    (hnode : (d.node? (p ++ lower names)).isSome = true) :
    (findIgnoringCase d p.path names).isSome = true := by
  induction names generalizing p with
  | nil => rfl
  | cons wanted rest ih =>
    have hwanted := hnames wanted List.mem_cons_self
    have hlower := Path.isName_asciiLower_iff.2 hwanted
    have hassoc : p ++ lower (wanted :: rest) = p ++ [Text.asciiLower wanted] ++ lower rest := by
      simp
    obtain ⟨hpopen, hdir, -, hrest⟩ := Disk.open_append.1 hopen
    rw [List.nil_append] at hdir hrest
    have hlist : d.list p.path = .ok (d.names p) := by
      have hres : d.resolve p.path = .ok (p, .directory) :=
        (Disk.resolve_eq_ok_iff hp).2 ⟨rfl, Disk.malformed?_left hok, hpopen, hdir⟩
      unfold Disk.list
      rw [hres]
      rfl
    have hthere : (d.node? (p ++ [Text.asciiLower wanted])).isSome = true := by
      cases rest with
      | nil => simpa using hnode
      | cons next more => simp [hrest.1]
    have hmem : Text.asciiLower wanted ∈ d.names p :=
      Disk.mem_names.2 ⟨hlower.ne_empty, hlower.noSlash, hthere⟩
    have hsome : ((d.names p).find? (Text.eqIgnoringAsciiCase · wanted)).isSome = true :=
      List.find?_isSome.2 ⟨_, hmem, Text.eqIgnoringAsciiCase_iff.2 (by simp)⟩
    obtain ⟨name, hfind⟩ := Option.isSome_iff_exists.1 hsome
    rw [findIgnoringCase, hlist]
    dsimp only
    rw [hfind]
    dsimp only
    rw [name_of_find? h hwanted hfind, join_path hp hlower]
    rw [hassoc] at hopen hok hnode
    exact ih (h.step hlower) (hp.append (named_singleton hlower))
      (fun n hn => hnames n (List.mem_cons_of_mem _ hn)) hopen hok hnode

end LiveSite

/-! ## Files of a unit -/

section Files

variable {src : Sources} {unit : Identity} {texts : UnitTexts}

theorem readOptional_eq_ok_iff {path : String} {text : Option String} :
    src.readOptional unit path = .ok text ↔ src.disk.readText? path = .ok text := by
  unfold Sources.readOptional
  cases src.disk.readText? path <;> simp

/-- A unit is read from both its files, and there is one of them unless nothing is read. -/
theorem readUnit_eq_ok_iff {texts? : Option UnitTexts} : src.readUnit unit = .ok texts? ↔
    ∃ script markup, src.disk.readText? unit.path = .ok script ∧
      src.disk.readText? (src.locator.markupPath unit) = .ok markup ∧
      texts? = if script.isNone && markup.isNone then none else some ⟨script, markup⟩ := by
  simp only [← @readOptional_eq_ok_iff src unit]
  have hif : ∀ script markup : Option String,
      (if script.isNone && markup.isNone then return none
        else return some ⟨script, markup⟩ : Except Failure (Option UnitTexts)) =
      .ok (if script.isNone && markup.isNone then none else some ⟨script, markup⟩) := by
    intro script markup
    split <;> rfl
  unfold Sources.readUnit
  rcases src.readOptional unit unit.path with e | script
  · simp [bind, Except.bind]
  · rcases src.readOptional unit (src.locator.markupPath unit) with e | markup
    · simp [bind, Except.bind]
    · change (if script.isNone && markup.isNone then return none
        else return some ⟨script, markup⟩ : Except Failure (Option UnitTexts)) = _ ↔ _
      rw [hif]
      constructor
      · intro h
        exact ⟨script, markup, rfl, rfl, (Except.ok.inj h).symm⟩
      · rintro ⟨script', markup', hscript, hmarkup, rfl⟩
        cases hscript
        cases hmarkup
        rfl

/-- One of the files of a unit that is read is there. -/
theorem exists_of_readUnit (h : src.readUnit unit = .ok (some texts)) :
    (src.disk.readText? unit.path = .ok texts.script ∧
      src.disk.readText? (src.locator.markupPath unit) = .ok texts.markup) ∧
    ((∃ text, texts.script = some text) ∨ ∃ text, texts.markup = some text) := by
  obtain ⟨script, markup, hscript, hmarkup, htexts⟩ := readUnit_eq_ok_iff.1 h
  split at htexts
  · cases htexts
  · rename_i hnone
    cases htexts
    refine ⟨⟨hscript, hmarkup⟩, ?_⟩
    cases script with
    | some text => exact .inl ⟨text, rfl⟩
    | none =>
      cases markup with
      | some text => exact .inr ⟨text, rfl⟩
      | none => simp at hnone

variable {root : Place} {dirs : List String} {file : String}

/-- The names that lead to a file of a unit that is read: the directories are there. -/
theorem open_of_readUnit (hl : src.locator.At root)
    (hscript : src.locator.convention.NamesScript dirs file)
    (h : src.readUnit (src.locator.unitAt (dirs ++ [file])) = .ok (some texts)) :
    src.disk.Open [] (root ++ dirs) ∧ src.disk.node? (root ++ dirs) = some .directory := by
  obtain ⟨⟨hread, hmarkup⟩, htext⟩ := exists_of_readUnit h
  rw [Locator.path_unitAt hl hscript.named] at hread
  rw [Locator.markupPath_unitAt hl hscript.named] at hmarkup
  have hdir : ∀ name, src.disk.Open [] (root ++ (dirs ++ [name])) →
      src.disk.Open [] (root ++ dirs) ∧ src.disk.node? (root ++ dirs) = some .directory := by
    intro name hopen
    rw [← List.append_assoc, Disk.open_append, List.nil_append] at hopen
    exact ⟨hopen.1, hopen.2.1⟩
  rcases htext with ⟨text, htext⟩ | ⟨text, htext⟩
  · rw [htext] at hread
    exact hdir _ (Disk.of_readText?_eq_some (hl.named.append hscript.named) hread).1
  · rw [htext] at hmarkup
    exact hdir _
      (Disk.of_readText?_eq_some (hl.named.append (hscript.named_markup hl.plain.markup.noSlash)) hmarkup).1

/-! ## Spellings of a unit -/

theorem lower_markupName {c : Convention} (hc : c.Plain) (file : String) :
    Text.asciiLower (c.markupName file) = c.markupName (Text.asciiLower file) := by
  simp only [Convention.markupName, Text.asciiLower_append, hc.markup.lower]
  rfl

/-- The spelling on disk of a path below the root. -/
theorem spelled_path {d : Disk} {l : Locator} (hroot : Named root) (hl : l.root = root.path)
    {names : List String} (hnames : Named names) :
    (do
      let steps ← Path.below? (· == ·) (Path.components l.root)
        (Path.components (Place.path (root ++ names)))
      LiveSite.findIgnoringCase d l.root (← namesOf? steps)) =
      LiveSite.findIgnoringCase d root.path names := by
  rw [hl, below?_path hroot hnames]
  simp only [Option.bind_eq_bind, Option.bind_some, Locator.namesOf?_map]

/-- On a tidy disk a unit is spelled in lower case, if one of its files is found. -/
theorem spelledOnDisk?_eq {d : Disk} {l : Locator} (hl : l.At root) (htidy : d.Tidy root.path)
    (hscript : l.convention.IsScript dirs file) :
    LiveSite.spelledOnDisk? d l (l.unitAt (dirs ++ [file])) =
      ((LiveSite.findIgnoringCase d root.path (dirs ++ [file])).or
        (LiveSite.findIgnoringCase d root.path (dirs ++ [l.convention.markupName file]))).map
        fun _ => l.unitAt (lower (dirs ++ [file])) := by
  have hbelow := htidy.lowerBelow hl.named
  have hmarkup := hscript.named_markup hl.plain.markup.noSlash
  have hlower : lower (dirs ++ [file]) = lower dirs ++ [Text.asciiLower file] := by simp
  unfold LiveSite.spelledOnDisk?
  rw [Locator.path_unitAt hl hscript.named, Locator.markupPath_unitAt hl hscript.named]
  simp only [List.findSome?_cons, List.findSome?_nil]
  rw [spelled_path hl.named hl.path hscript.named, spelled_path hl.named hl.path hmarkup, hlower]
  cases hfirst : LiveSite.findIgnoringCase d root.path (dirs ++ [file]) with
  | some found =>
    have hfound := LiveSite.findIgnoringCase_eq_some hbelow hl.named hscript.named hfirst
    rw [hlower] at hfound
    simp only [Option.bind_eq_bind, Option.bind_some, Option.some_or, Option.map_some, hfound]
    exact Locator.unitOfFile?_script hl hscript.lower.names
  | none =>
    cases hsecond : LiveSite.findIgnoringCase d root.path (dirs ++ [l.convention.markupName file]) with
    | some found =>
      have hfound := LiveSite.findIgnoringCase_eq_some hbelow hl.named hmarkup hsecond
      have hlower' : lower (dirs ++ [l.convention.markupName file]) =
          lower dirs ++ [l.convention.markupName (Text.asciiLower file)] := by
        simp [lower_markupName hl.plain]
      rw [hlower'] at hfound
      simp only [Option.bind_eq_bind, Option.bind_some, Option.none_or, Option.map_some, hfound]
      exact Locator.unitOfFile?_markup hl hscript.lower.names
    | none => rfl

theorem lower_markup_iff {c : Convention} (hc : c.Plain) :
    lower (dirs ++ [c.markupName file]) = dirs ++ [c.markupName file] ↔
      lower (dirs ++ [file]) = dirs ++ [file] := by
  have hname : Text.asciiLower (c.markupName file) = c.markupName file ↔
      Text.asciiLower file = file := by
    rw [lower_markupName hc, Convention.markupName, Convention.markupName, String.append_assoc,
      String.append_assoc, String.append_left_inj]
  have hlast : ∀ name, lower (dirs ++ [name]) = dirs ++ [name] ↔
      lower dirs = dirs ∧ Text.asciiLower name = name := by
    intro name
    rw [lower_append, lower_cons, lower_nil]
    constructor
    · intro h
      obtain ⟨hdirs, hsingle⟩ := List.append_inj' h rfl
      exact ⟨hdirs, (List.cons.inj hsingle).1⟩
    · rintro ⟨hdirs, hsingle⟩
      rw [hdirs, hsingle]
  rw [hlast, hlast, hname]

/-- A unit whose files are read under its very spelling is spelled in lower case. -/
theorem lower_of_readUnit (hl : src.locator.At root) (htidy : src.disk.Tidy root.path)
    (hscript : src.locator.convention.IsScript dirs file)
    (h : src.readUnit (src.locator.unitAt (dirs ++ [file])) = .ok (some texts)) :
    lower (dirs ++ [file]) = dirs ++ [file] := by
  have hbelow := htidy.lowerBelow hl.named
  have hmarkup := hscript.named_markup hl.plain.markup.noSlash
  obtain ⟨⟨hread, hreadMarkup⟩, htext⟩ := exists_of_readUnit h
  rw [Locator.path_unitAt hl hscript.named] at hread
  rw [Locator.markupPath_unitAt hl hscript.named] at hreadMarkup
  rcases htext with ⟨text, htext⟩ | ⟨text, htext⟩
  · rw [htext] at hread
    obtain ⟨-, -, content, hnode⟩ := Disk.of_readText?_eq_some (hl.named.append hscript.named) hread
    exact hbelow _ hscript.named (by simp [hnode])
  · rw [htext] at hreadMarkup
    obtain ⟨-, -, content, hnode⟩ := Disk.of_readText?_eq_some (hl.named.append hmarkup) hreadMarkup
    exact (lower_markup_iff hl.plain).1 (hbelow _ hmarkup (by simp [hnode]))

/-- A unit that is not spelled in lower case is not read under its very spelling. -/
theorem readUnit_eq_none (hl : src.locator.At root) (htidy : src.disk.Tidy root.path)
    (hscript : src.locator.convention.IsScript dirs file)
    (h : src.readUnit (src.locator.unitAt (lower (dirs ++ [file]))) = .ok (some texts))
    (hne : lower (dirs ++ [file]) ≠ dirs ++ [file]) :
    src.readUnit (src.locator.unitAt (dirs ++ [file])) = .ok none := by
  have hbelow := htidy.lowerBelow hl.named
  have hlower := hscript.lower
  have hsplit : lower (dirs ++ [file]) = lower dirs ++ [Text.asciiLower file] := by simp
  rw [hsplit] at h
  obtain ⟨hopen, hdir⟩ := open_of_readUnit hl hlower.names h
  obtain ⟨⟨hread, hreadMarkup⟩, -⟩ := exists_of_readUnit h
  rw [Locator.path_unitAt hl hlower.named, ← List.append_assoc] at hread
  rw [Locator.markupPath_unitAt hl hlower.named, ← List.append_assoc] at hreadMarkup
  have hnone : ∀ name, Path.IsName name → lower (dirs ++ [name]) ≠ dirs ++ [name] →
      (∃ text, src.disk.readText?
        (Place.path (root ++ lower dirs ++ [Text.asciiLower name])) = .ok text) →
      src.disk.readText? (Place.path (root ++ (dirs ++ [name]))) = .ok none := by
    intro name hname hne ⟨text, htext⟩
    have hnames := hscript.named.left.append (named_singleton hname)
    have hassoc : root ++ lower dirs ++ [Text.asciiLower name] = root ++ lower (dirs ++ [name]) := by
      simp
    have hnamed : Named (root ++ lower dirs ++ [Text.asciiLower name]) := by
      rw [hassoc]
      exact hl.named.append hnames.lower
    obtain ⟨hopen', hok⟩ := Disk.open_of_readText?_eq_ok hnamed hopen hdir htext
    rw [hassoc] at hopen' hok
    exact Disk.readText?_of_lower hbelow hl.named hnames hopen' hok hne
  refine readUnit_eq_ok_iff.2 ⟨none, none, ?_, ?_, rfl⟩
  · rw [Locator.path_unitAt hl hscript.named]
    exact hnone file hscript.file_isName hne ⟨_, hread⟩
  · rw [Locator.markupPath_unitAt hl hscript.named]
    refine hnone _ (Convention.isName_markupName hl.plain.markup.noSlash hscript.file_isName)
      (mt (lower_markup_iff hl.plain).1 hne) ⟨texts.markup, ?_⟩
    rw [lower_markupName hl.plain]
    exact hreadMarkup

/-- A unit that is read under its lower-case spelling is found there from every spelling. -/
theorem spelledOnDisk?_of_readUnit (hl : src.locator.At root) (htidy : src.disk.Tidy root.path)
    (hscript : src.locator.convention.IsScript dirs file)
    (h : src.readUnit (src.locator.unitAt (lower (dirs ++ [file]))) = .ok (some texts)) :
    LiveSite.spelledOnDisk? src.disk src.locator (src.locator.unitAt (dirs ++ [file])) =
      some (src.locator.unitAt (lower (dirs ++ [file]))) := by
  have hbelow := htidy.lowerBelow hl.named
  have hmarkup := hscript.named_markup hl.plain.markup.noSlash
  have hlower := hscript.lower
  have hsplit : lower (dirs ++ [file]) = lower dirs ++ [Text.asciiLower file] := by simp
  rw [spelledOnDisk?_eq hl htidy hscript]
  rw [hsplit] at h
  obtain ⟨⟨hread, hreadMarkup⟩, htext⟩ := exists_of_readUnit h
  rw [Locator.path_unitAt hl hlower.named] at hread
  rw [Locator.markupPath_unitAt hl hlower.named, ← lower_markupName hl.plain] at hreadMarkup
  have hfound : ∀ names text, Named names →
      src.disk.readText? (Place.path (root ++ lower names)) = .ok (some text) →
      (LiveSite.findIgnoringCase src.disk root.path names).isSome = true := by
    intro names text hnames htext
    obtain ⟨hopen, hok, content, hnode⟩ :=
      Disk.of_readText?_eq_some (hl.named.append hnames.lower) htext
    exact LiveSite.isSome_findIgnoringCase hbelow hl.named hnames hopen hok (by simp [hnode])
  rw [Option.map_eq_some_iff]
  have hsome : ((LiveSite.findIgnoringCase src.disk root.path (dirs ++ [file])).or
      (LiveSite.findIgnoringCase src.disk root.path
        (dirs ++ [src.locator.convention.markupName file]))).isSome = true := by
    rw [Option.isSome_or, Bool.or_eq_true]
    rcases htext with ⟨text, htext⟩ | ⟨text, htext⟩
    · refine .inl (hfound _ text hscript.named ?_)
      rw [hsplit, ← htext]
      exact hread
    · refine .inr (hfound _ text hmarkup ?_)
      rw [← htext, lower_append]
      exact hreadMarkup
  obtain ⟨path, hpath⟩ := Option.isSome_iff_exists.1 hsome
  exact ⟨path, hpath, rfl⟩

/-- **The files found for a unit, in any letter case, are those under its lower-case spelling.** -/
theorem findUnit_eq_ok_iff (hl : src.locator.At root) (htidy : src.disk.Tidy root.path)
    (hscript : src.locator.convention.IsScript dirs file) {found : Identity × UnitTexts} :
    src.findUnit (src.locator.unitAt (dirs ++ [file])) = .ok found ↔
      found.1 = src.locator.unitAt (lower (dirs ++ [file])) ∧
        src.readUnit (src.locator.unitAt (lower (dirs ++ [file]))) = .ok (some found.2) := by
  obtain ⟨spelled, texts⟩ := found
  unfold Sources.findUnit
  constructor
  · intro h
    cases hread : src.readUnit (src.locator.unitAt (dirs ++ [file])) with
    | error e =>
      rw [hread] at h
      cases h
    | ok texts? =>
      rw [hread] at h
      cases texts? with
      | some texts' =>
        cases h
        rw [lower_of_readUnit hl htidy hscript hread]
        exact ⟨rfl, hread⟩
      | none =>
        simp only [bind, Except.bind] at h
        rw [spelledOnDisk?_eq hl htidy hscript] at h
        split at h
        · cases h
        · rename_i spelled' hspelled
          obtain ⟨path, -, rfl⟩ := Option.map_eq_some_iff.1 hspelled
          split at h
          · cases h
          · rename_i texts? hread'
            cases texts? with
            | none => cases h
            | some texts' =>
              cases h
              exact ⟨rfl, hread'⟩
  · rintro ⟨rfl, hread⟩
    by_cases hsame : lower (dirs ++ [file]) = dirs ++ [file]
    · rw [hsame] at hread ⊢
      rw [hread]
      rfl
    · rw [readUnit_eq_none hl htidy hscript hread hsame]
      simp only [bind, Except.bind]
      rw [spelledOnDisk?_of_readUnit hl htidy hscript hread]
      dsimp only
      rw [hread]
      rfl

/-- **A unit, in any letter case, amounts to what is read under its lower-case spelling.** -/
theorem ordinary_eq_ok_iff (hl : src.locator.At root) (htidy : src.disk.Tidy root.path)
    (hscript : src.locator.convention.IsScript dirs file) {a : Artifact} :
    src.ordinary (src.locator.unitAt (dirs ++ [file])) = .ok a ↔
      ∃ foundation globalUnit texts, src.foundation = .ok foundation ∧
        src.globalUnit = .ok globalUnit ∧
        src.readUnit (src.locator.unitAt (lower (dirs ++ [file]))) = .ok (some texts) ∧
        src.assemble (src.locator.unitAt (lower (dirs ++ [file]))) texts
          (foundation :: globalUnit.toList) = .ok a := by
  unfold Sources.ordinary Sources.unit
  constructor
  · intro h
    rcases hf : src.foundation with e | foundation
    · rw [hf] at h
      cases h
    rcases hg : src.globalUnit with e | globalUnit
    · rw [hf, hg] at h
      cases h
    rcases hu : src.findUnit (src.locator.unitAt (dirs ++ [file])) with e | ⟨spelled, texts⟩
    · rw [hf, hg, hu] at h
      cases h
    rw [hf, hg, hu] at h
    obtain ⟨rfl, hread⟩ := (findUnit_eq_ok_iff hl htidy hscript).1 hu
    exact ⟨foundation, globalUnit, texts, rfl, rfl, hread, h⟩
  · rintro ⟨foundation, globalUnit, texts, hf, hg, hread, ha⟩
    have hu : src.findUnit (src.locator.unitAt (dirs ++ [file])) =
        .ok (src.locator.unitAt (lower (dirs ++ [file])), texts) :=
      (findUnit_eq_ok_iff hl htidy hscript).2 ⟨rfl, hread⟩
    rw [hf, hg]
    change (src.findUnit (src.locator.unitAt (dirs ++ [file])) >>= fun found =>
      src.assemble found.1 found.2 (foundation :: globalUnit.toList)) = _
    rw [hu]
    exact ha

/-- **Units of one key amount to the same.** -/
theorem consistent_of_tidy (hl : src.locator.At root) (htidy : src.disk.Tidy root.path) :
    src.Consistent := by
  rintro unit other ⟨dirs, file, hscript, rfl⟩ ⟨dirs', file', hscript', rfl⟩ hkey a h
  rw [Locator.key_eq_iff hl hscript.named hscript'.named (by simp) (by simp) hscript.ascii
    hscript'.ascii] at hkey
  rw [ordinary_eq_ok_iff hl htidy hscript] at h
  rwa [ordinary_eq_ok_iff hl htidy hscript', ← hkey]

end Files

end SiteHost
