import SiteHost.Proofs.Site.ByBytes
import SiteHost.Proofs.Site.Confined

/-!
# Requests and reports agree on units

A request path is led to a script by adding to it what is missing; a file on disk is led to its script by
taking off what is too much, and the root is taken off either exactly or in any letter case. Both ways end at
the same units:

* `Locator.resolve_path` — the path of a unit is a request path for it;
* `Locator.unitOfFile?_scriptPath`, `Locator.unitOfFile?_markupPath` — both its files belong to it;
* `Locator.unitOfFile?_respelled` — in any letter case they belong to a unit with its names in that case;
* `Locator.key_congr` — such units have one key;
* `Locator.requests_and_reports_agree` — all of this for every request path that is resolved.
-/

namespace SiteHost

/-! ## Request paths that are clean already -/

namespace Text

theorem substitute_of_notMem {c : Char} {other : List Char} {s : String} (h : c ∉ s.toList) :
    substitute c other s = s := by
  have hsame : s.toList.flatMap (fun d => if d = c then other else [d]) = s.toList.flatMap ([·]) :=
    List.flatMap_congr fun d hd => if_neg fun hdc : d = c => h (hdc ▸ hd)
  rw [substitute, hsame, List.flatMap_singleton', String.ofList_toList]

/-- Text is trimmed already if it neither starts nor ends with a blank. -/
theorem trim_of_unblank {s : String} (hfirst : ∀ c, s.toList.head? = some c → isBlank c = false)
    (hlast : ∀ c, s.toList.getLast? = some c → isBlank c = false) : trim s = s := by
  have hkeep (cs : List Char) (hcs : ∀ c, cs.head? = some c → isBlank c = false) :
      cs.dropWhile isBlank = cs := by
    cases cs with
    | nil => rfl
    | cons c rest => exact List.dropWhile_cons_of_neg (by simp [hcs c rfl])
  rw [trim, trimStart, dropStart, hkeep _ hfirst, String.ofList_toList, trimEnd, dropEnd,
    hkeep _ fun c hc => hlast c (List.head?_reverse ▸ hc), List.reverse_reverse, String.ofList_toList]

end Text

namespace Path

variable {base part : String} {names : List String}

/-- A path that is continued ends as what continues it. -/
theorem suffix_join (base part : String) : part.toList <:+ (join base part).toList := by
  unfold join
  split
  · exact List.suffix_rfl
  · split <;> rw [String.toList_append] <;> exact List.suffix_append _ _

theorem getLast?_foldl_join (base : String) (names : List String) (hne : part ≠ "") :
    ((names ++ [part]).foldl join base).toList.getLast? = part.toList.getLast? := by
  obtain ⟨front, hfront⟩ := suffix_join (names.foldl join base) part
  rw [List.foldl_append, List.foldl_cons, List.foldl_nil, ← hfront,
    List.getLast?_append_of_ne_nil _ (by simpa using hne)]

/-- It has no characters but a slash and those that were there. -/
theorem of_mem_foldl_join {c : Char} (h : c ∈ (names.foldl join base).toList) :
    c ∈ base.toList ∨ c = '/' ∨ ∃ name ∈ names, c ∈ name.toList := by
  have hjoin : ∀ base part : String, c ∈ (join base part).toList →
      c ∈ base.toList ∨ c = '/' ∨ c ∈ part.toList := by
    intro base part hc
    unfold join at hc
    split at hc
    · exact .inr (.inr hc)
    · split at hc <;> simp only [String.toList_append, List.mem_append] at hc
      · exact hc.imp_right .inr
      · simpa [or_assoc] using hc
  induction names generalizing base with
  | nil => exact .inl h
  | cons name rest ih =>
    rcases ih h with hbase | hslash | ⟨other, hother, hc⟩
    · rcases hjoin _ _ hbase with hc | hslash | hc
      · exact .inl hc
      · exact .inr (.inl hslash)
      · exact .inr (.inr ⟨name, List.mem_cons_self, hc⟩)
    · exact .inr (.inl hslash)
    · exact .inr (.inr ⟨other, List.mem_cons_of_mem _ hother, hc⟩)

end Path

/-- The name of a script or of its markup, in any letter case, stands for the script in that case. -/
theorem Convention.scriptName_respelled {c : Convention} (hc : c.Apart) {file name : String}
    (hfile : c.isLeafName file = true) (h : Text.asciiLower name = Text.asciiLower file ∨
      Text.asciiLower name = Text.asciiLower (c.markupName file)) :
    c.isSourceName name = true ∧ Text.asciiLower (c.scriptName name) = Text.asciiLower file := by
  rcases h with hscript | hmarkup
  · have hleaf : c.isLeafName name = true := (isLeafName_congr hscript).trans hfile
    exact ⟨isSourceName_of_isLeafName hleaf, by rw [scriptName_of_isLeafName hc hleaf, hscript]⟩
  · rw [markupName, Text.asciiLower_append, Text.asciiLower_append] at hmarkup
    obtain ⟨before, suffix, rfl, hbefore, hsuffix⟩ := Text.asciiLower_eq_append hmarkup
    obtain ⟨script, dot, rfl, hscript, hdot⟩ := Text.asciiLower_eq_append hbefore
    obtain rfl : dot = "." := Text.asciiLower_eq_dot.1 hdot
    have hleaf : c.isLeafName script = true := (isLeafName_congr hscript).trans hfile
    have hmark : c.isMarkupName (script ++ "." ++ suffix) = true :=
      isMarkupName_iff.2 ⟨script, suffix, hleaf, rfl, hsuffix⟩
    exact ⟨by rw [isSourceName, hmark, Bool.or_true], by rw [scriptName_of_markup hleaf hsuffix, hscript]⟩

namespace Locator

variable {l : Locator} {dirs names : List String} {file path raw : String} {unit : Identity}

/-- No backslash is left in a request path. -/
theorem backslash_notMem_cleaned (raw : String) : '\\' ∉ (cleaned raw).toList := by
  intro hmem
  rw [cleaned, Text.substitute, String.toList_ofList] at hmem
  obtain ⟨d, -, hd⟩ := List.mem_flatMap.1 hmem
  split at hd
  · exact absurd (List.mem_singleton.1 hd) (by decide)
  · rename_i hne
    exact hne (List.mem_singleton.1 hd).symm

/-- Every request path stands for the unit of a script without a backslash. -/
theorem clean_of_resolve (hc : l.convention.Accepted) (h : l.resolve raw = .ok unit) :
    ∃ dirs file, l.convention.NamesScript dirs file ∧ unit = l.unitAt (dirs ++ [file]) ∧
      ∀ name ∈ dirs ++ [file], '\\' ∉ name.toList := by
  obtain ⟨names, hne, hnames, rfl, hparts⟩ := names_of_resolve h
  have hclean : ∀ name ∈ names, '\\' ∉ name.toList := by
    intro name hname
    rcases hparts name hname with rfl | hmem
    · decide
    · exact fun hslash => backslash_notMem_cleaned raw ((isName_of_mem_components hmem).2 _ hslash)
  obtain ⟨dirs, last, rfl⟩ := (List.eq_nil_or_concat names).resolve_left hne
  rw [List.concat_eq_append] at *
  obtain ⟨dirs', file, hscript, hsame⟩ := namesScript_toScript hc.leaf.ne_empty hc.leaf.noSlash hne hnames
  rw [hsame]
  refine ⟨dirs', file, hscript, rfl, ?_⟩
  rw [← hsame, toScript_append]
  intro name hname
  rcases List.mem_append.1 hname with hdir | hfile
  · exact hclean name (List.mem_append_left _ hdir)
  · rw [List.mem_singleton.1 hfile]
    intro hslash
    rcases Convention.mem_scriptName hslash with hmem | hdot | hmem
    · exact hclean last (by simp) hmem
    · exact absurd hdot (by decide)
    · exact hc.leaf.noBackslash hmem

/-- The file name of a script does not end in a blank. -/
theorem unblank_of_isLeafName (hc : l.convention.Accepted) (h : l.convention.isLeafName file = true)
    (c : Char) (hlast : file.toList.getLast? = some c) : Text.isBlank c = false := by
  obtain ⟨stem, tail, -, rfl, htail⟩ := Convention.isLeafName_iff.1 h
  have hnil : tail.toList ≠ [] := by
    intro hnil
    have hempty : l.convention.leafExtension = "" := Text.asciiLower_eq_empty.1 (by
      rw [← htail, ← String.toList_inj, Text.toList_asciiLower, hnil]
      rfl)
    exact hc.leaf.ne_empty hempty
  rw [String.toList_append, List.getLast?_append_of_ne_nil _ hnil] at hlast
  have hlower := congrArg (fun s => s.toList.getLast?) htail
  simp only [Text.toList_asciiLower, List.getLast?_map, hlast, Option.map_some] at hlower
  obtain ⟨d, hd, hsame⟩ := Option.map_eq_some_iff.1 hlower.symm
  rw [← Text.isBlank_toLower, ← hsame, Text.isBlank_toLower]
  exact hc.leaf.unblank d hd

theorem isAbsolute_path (hroot : Path.isAbsolute l.root = true) (hne : names ≠ [])
    (hnames : Place.Named names) : Path.isAbsolute (l.unitAt names).path = true := by
  rw [unitAt, Path.foldl_join (Path.ne_empty_of_isAbsolute hroot) hne hnames]
  exact Path.isAbsolute_opening hroot _

/-- The path of a script ends as its file name. -/
theorem getLast?_path (hfile : file ≠ "") :
    (l.unitAt (dirs ++ [file])).path.toList.getLast? = file.toList.getLast? :=
  Path.getLast?_foldl_join l.root dirs hfile

/-- The path of a script is clean already. -/
theorem cleaned_path (hc : l.convention.Accepted) (hroot : Path.isAbsolute l.root = true)
    (hclean : '\\' ∉ l.root.toList) (h : l.convention.NamesScript dirs file)
    (hnames : ∀ name ∈ dirs ++ [file], '\\' ∉ name.toList) :
    Text.trim (l.unitAt (dirs ++ [file])).path = (l.unitAt (dirs ++ [file])).path ∧
      cleaned (l.unitAt (dirs ++ [file])).path = (l.unitAt (dirs ++ [file])).path := by
  have hbackslash : '\\' ∉ (l.unitAt (dirs ++ [file])).path.toList := by
    intro hmem
    rcases Path.of_mem_foldl_join hmem with hmem | hslash | ⟨name, hname, hmem⟩
    · exact hclean hmem
    · exact absurd hslash (by decide)
    · exact hnames name hname hmem
  have htrim : Text.trim (l.unitAt (dirs ++ [file])).path = (l.unitAt (dirs ++ [file])).path := by
    refine Text.trim_of_unblank (fun c hfirst => ?_) fun c hlast => ?_
    · have habs := isAbsolute_path hroot (by simp) h.named
      rw [beq_iff_eq.1 habs] at hfirst
      obtain rfl := Option.some.inj hfirst
      decide
    · rw [getLast?_path h.file_isName.ne_empty] at hlast
      exact unblank_of_isLeafName hc h.leaf c hlast
  exact ⟨htrim, by rw [cleaned, htrim, Text.substitute_of_notMem hbackslash]⟩

/-! ## Paths of units -/

/-- **The path of a unit is a request path for it.** -/
theorem resolve_path (hc : l.convention.Accepted) (hroot : Path.isAbsolute l.root = true)
    (hclean : '\\' ∉ l.root.toList) (h : l.convention.NamesScript dirs file)
    (hnames : ∀ name ∈ dirs ++ [file], '\\' ∉ name.toList) :
    l.resolve (l.unitAt (dirs ++ [file])).path = .ok (l.unitAt (dirs ++ [file])) := by
  obtain ⟨htrim, hcleaned⟩ := cleaned_path hc hroot hclean h hnames
  have habs := isAbsolute_path hroot (by simp) h.named
  have hslash : (l.unitAt (dirs ++ [file])).path.toList.getLast? ≠ some '/' := by
    rw [getLast?_path h.file_isName.ne_empty]
    exact fun hlast => h.file_isName.noSlash (List.mem_of_getLast? hlast)
  refine resolve_eq_ok_iff.2 ⟨?_, (dirs ++ [file]).map .name, dirs ++ [file], ?_, namesOf?_map _, ?_⟩
  · rw [htrim]
    exact Path.ne_empty_of_isAbsolute habs
  · rw [hcleaned, stepsBelow?, if_pos habs]
    exact Path.under?_foldl_join hroot (by simp) h.named
  · have hdocument : document (l.unitAt (dirs ++ [file])).path (dirs ++ [file]) = dirs ++ [file] := by
      rw [document, if_neg (by simpa using hslash)]
    rw [hcleaned, hdocument, toScript_append, Convention.scriptName_of_isLeafName hc.apart h.leaf]

/-- Steps are names if they are so in lower case. -/
theorem names_of_lower {steps : List Path.Component} (h : steps.map Path.Component.lower = names.map .name) :
    ∃ names', steps = names'.map .name ∧ Place.lower names' = names := by
  induction steps generalizing names with
  | nil => exact ⟨[], rfl, (List.map_eq_nil_iff.1 h.symm).symm⟩
  | cons step rest ih =>
    cases names with
    | nil => cases h
    | cons name more =>
      obtain ⟨hstep, hrest⟩ := List.cons.inj h
      obtain ⟨names', rfl, rfl⟩ := ih hrest
      cases step with
      | name text =>
        cases hstep
        exact ⟨text :: names', rfl, rfl⟩
      | root => cases hstep
      | here => cases hstep
      | parent => cases hstep

/-- A path below the root in another letter case takes steps by names in that case. -/
theorem under?_respelled (hroot : Path.isAbsolute l.root = true) {name : String}
    (hnames : Place.Named (dirs ++ [name]))
    (hsame : Text.asciiLower path = Text.asciiLower ((dirs ++ [name]).foldl Path.join l.root)) :
    ∃ dirs' name', Place.lower dirs' = Place.lower dirs ∧ Text.asciiLower name' = Text.asciiLower name ∧
      Path.under? l.root path = some ((dirs' ++ [name']).map .name) := by
  obtain ⟨steps, hunder, hlower⟩ := Path.under?_of_same
    (Path.components_foldl_join hroot (by simp) hnames) (isAbsolute_path hroot (by simp) hnames) hsame
  have hsteps : steps.map Path.Component.lower = (Place.lower (dirs ++ [name])).map .name := by
    rw [hlower, Place.lower, List.map_map, List.map_map]
    rfl
  obtain ⟨names', rfl, hnames'⟩ := names_of_lower hsteps
  rw [Place.lower_append] at hnames'
  obtain ⟨dirs', last, rfl, hdirs, hlast⟩ := List.map_eq_append_iff.1 hnames'
  obtain ⟨name', rfl, hname⟩ := List.map_eq_singleton_iff.1 hlast
  exact ⟨dirs', name', hdirs, hname, hunder⟩

/-- Names in the same lower case give units of one key. -/
theorem key_congr {names' : List String} (hroot : Path.isAbsolute l.root = true)
    (hnames : Place.Named names) (h : Place.lower names' = Place.lower names) :
    (l.unitAt names').key = (l.unitAt names).key :=
  Text.lower_congr (Path.asciiLower_foldl_join hroot rfl hnames h)

/-- A script or its markup in another letter case belongs to a unit of the same key. -/
theorem unitOfFile?_respelled (hc : l.convention.Accepted) (hroot : Path.isAbsolute l.root = true)
    (h : l.convention.NamesScript dirs file) {name : String}
    (hname : name = file ∨ name = l.convention.markupName file)
    (hsame : Text.asciiLower path = Text.asciiLower ((dirs ++ [name]).foldl Path.join l.root)) :
    ∃ other, l.unitOfFile? path = some other ∧ other.key = (l.unitAt (dirs ++ [file])).key := by
  have hnamed : Place.Named (dirs ++ [name]) := by
    rcases hname with rfl | rfl
    · exact h.named
    · exact h.named_markup hc.markup.noSlash
  obtain ⟨dirs', name', hdirs, hlower, hunder⟩ := under?_respelled hroot hnamed hsame
  obtain ⟨hsource, hscript⟩ := Convention.scriptName_respelled hc.apart h.leaf
    (hname.imp (fun heq => heq ▸ hlower) fun heq => heq ▸ hlower)
  refine ⟨_, (unitOfFile?_of_under? hunder).trans (if_pos hsource), key_congr hroot h.named ?_⟩
  rw [Place.lower_append, Place.lower_append, hdirs]
  exact congrArg (Place.lower dirs ++ [·]) hscript

/-- The script of a unit belongs to it. -/
theorem unitOfFile?_scriptPath (hc : l.convention.Accepted) (hroot : Path.isAbsolute l.root = true)
    (h : l.convention.NamesScript dirs file) :
    l.unitOfFile? (l.unitAt (dirs ++ [file])).path = some (l.unitAt (dirs ++ [file])) := by
  refine (unitOfFile?_of_under? (Path.under?_foldl_join hroot (by simp) h.named)).trans ?_
  rw [if_pos (Convention.isSourceName_of_isLeafName h.leaf),
    Convention.scriptName_of_isLeafName hc.apart h.leaf]

/-- So does its markup. -/
theorem unitOfFile?_markupPath (hc : l.convention.Accepted) (hroot : Path.isAbsolute l.root = true)
    (h : l.convention.NamesScript dirs file) :
    l.unitOfFile? (l.markupPath (l.unitAt (dirs ++ [file]))) = some (l.unitAt (dirs ++ [file])) := by
  rw [markupPath_eq hc.markup.noSlash h.file_isName,
    unitOfFile?_of_under? (Path.under?_foldl_join hroot (by simp) (h.named_markup hc.markup.noSlash)),
    if_pos (Convention.isSourceName_markupName h.leaf), Convention.scriptName_markupName h.leaf]

/-- **Requests and reports agree on units.** For every request path that is resolved, whatever is cut from the
end of a name is cut where a character starts; the path of the unit is a request path for it; both its files
belong to it; and a file that differs from either in the case of ASCII letters only, those of the root among
them, belongs to a unit with the same key. -/
theorem requests_and_reports_agree (hc : l.convention.Accepted) (hroot : Path.isAbsolute l.root = true)
    (hclean : '\\' ∉ l.root.toList) (h : l.resolve raw = .ok unit) :
    (l.resolveByBytes? raw = some (.ok unit) ∧ l.resolveByBytes? unit.path = some (.ok unit) ∧
      ∀ path, l.unitOfFileByBytes? path = some (l.unitOfFile? path)) ∧
    l.resolve unit.path = .ok unit ∧
    l.unitOfFile? unit.path = some unit ∧
    l.unitOfFile? (l.markupPath unit) = some unit ∧
    ∀ path, (Text.eqIgnoringAsciiCase path unit.path = true ∨
        Text.eqIgnoringAsciiCase path (l.markupPath unit) = true) →
      ∃ other, l.unitOfFile? path = some other ∧ other.key = unit.key := by
  obtain ⟨dirs, file, hscript, rfl, hnames⟩ := clean_of_resolve hc h
  have hagain := resolve_path hc hroot hclean hscript hnames
  refine ⟨⟨by rw [resolveByBytes?_eq, h], by rw [resolveByBytes?_eq, hagain], unitOfFileByBytes?_eq l⟩,
    hagain, unitOfFile?_scriptPath hc hroot hscript, unitOfFile?_markupPath hc hroot hscript,
    fun path hpath => ?_⟩
  rw [Text.eqIgnoringAsciiCase_iff, Text.eqIgnoringAsciiCase_iff,
    markupPath_eq hc.markup.noSlash hscript.file_isName] at hpath
  rcases hpath with hsame | hsame
  · exact unitOfFile?_respelled hc hroot hscript (.inl rfl) hsame
  · exact unitOfFile?_respelled hc hroot hscript (.inr rfl) hsame

/-- A file name with two dots and a letter outside ASCII, with its extension in capitals. -/
theorem requests_and_reports_agree_dotted :
    Convention.default.Accepted ∧ Path.isAbsolute "/srv/site" = true ∧ '\\' ∉ "/srv/site".toList ∧
    Locator.resolve ⟨"/srv/site", .default⟩ "Forms\\É.v2.KS" =
      .ok ⟨"/srv/site/Forms/É.v2.KS", "Site.Forms.É.v2"⟩ ∧
    ∃ other, Locator.unitOfFile? ⟨"/srv/site", .default⟩ "/SRV/Site/forms/É.V2.ks.HTML" = some other ∧
      other.key = Identity.key ⟨"/srv/site/Forms/É.v2.KS", "Site.Forms.É.v2"⟩ := by
  have hresolve : Locator.resolve ⟨"/srv/site", .default⟩ "Forms\\É.v2.KS" =
      .ok ⟨"/srv/site/Forms/É.v2.KS", "Site.Forms.É.v2"⟩ := by decide +kernel
  have hagree := requests_and_reports_agree (l := ⟨"/srv/site", .default⟩) Convention.accepted_default
    (by decide) (by decide) hresolve
  exact ⟨Convention.accepted_default, by decide, by decide, hresolve,
    hagree.2.2.2.2 "/SRV/Site/forms/É.V2.ks.HTML" (.inr (by decide +kernel))⟩

end Locator

end SiteHost
