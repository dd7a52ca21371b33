import SiteHost.Proofs.Cache.Freshness
import SiteHost.Proofs.Disk.Tidy
import SiteHost.Site.Live

/-!
# Units, their files and their keys

How request paths, files and cache keys of a site belong together:

* `IsSuffix`, `Convention.Plain` — naming rules in lower-case ASCII, as they are accepted;
* `Convention.NamesScript`, `Convention.IsScript` — directories and the file name of a script, in any
  letters or in ASCII;
* `Convention.markupName` — the file name of the markup that goes with a script;
* `Locator.Asked` — the units that ASCII request paths stand for;
* `Locator.cleaned`, `Locator.stepsBelow?`, `Locator.document` — a request path as it is read, the steps it
  takes below the root, and the names that it asks for. `resolve_eq` puts them together.

Principal results:

* `unitOfFile?_script`, `unitOfFile?_markup` — both files of a unit belong to it;
* `key_eq_iff` — units have one key if their names differ in the case of letters only;
* `startsWith_above` — the keys below a directory start as `Cache.removeUnder` expects;
* `asked_of_resolve` — every ASCII request path stands for a unit that can be asked for.
-/

namespace SiteHost

/-! ## Names of files -/

/-- A file suffix as it is accepted, in lower-case ASCII. -/
structure IsSuffix (s : String) : Prop where
  ascii : Text.IsAscii s
  lower : Text.asciiLower s = s
  ne_empty : s ≠ ""
  noDot : '.' ∉ s.toList
  noSlash : '/' ∉ s.toList

/-- A suffix without a dot has none in any letter case. -/
theorem notMem_dot {s suffix : String} (hs : '.' ∉ suffix.toList)
    (h : Text.asciiLower s = Text.asciiLower suffix) : '.' ∉ s.toList := by
  rwa [← Text.mem_toList_asciiLower (by decide), h, Text.mem_toList_asciiLower (by decide)]

/-- Naming rules as they are accepted, in lower-case ASCII. -/
structure Convention.Plain (c : Convention) : Prop where
  leaf : IsSuffix c.leafExtension
  markup : IsSuffix c.markupSuffix
  differ : c.leafExtension ≠ c.markupSuffix

/-- Naming rules by which scripts are told from markup: the two suffixes have no dot, and differ in more
than letter case. -/
structure Convention.Apart (c : Convention) : Prop where
  leaf : '.' ∉ c.leafExtension.toList
  markup : '.' ∉ c.markupSuffix.toList
  differ : Text.asciiLower c.leafExtension ≠ Text.asciiLower c.markupSuffix

theorem Convention.Plain.apart {c : Convention} (h : c.Plain) : c.Apart where
  leaf := h.leaf.noDot
  markup := h.markup.noDot
  differ heq := h.differ (by rw [← h.leaf.lower, heq, h.markup.lower])

/-- A name with an extension has something before the dot. -/
theorem endsWithExtension_iff {extension name : String} :
    endsWithExtension extension name = true ↔ ∃ stem tail, stem ≠ "" ∧ name = stem ++ "." ++ tail ∧
      Text.asciiLower tail = Text.asciiLower extension := by
  have hnum : endsWithExtension extension name = true ↔
      extension.toList.length + 1 < name.toList.length ∧
        (name.toList.drop (name.toList.length - (extension.toList.length + 1))).map Char.toLower =
          '.' :: extension.toList.map Char.toLower := by
    simp [endsWithExtension, String.length_toList]
  rw [hnum]
  constructor
  · rintro ⟨hlen, htail⟩
    generalize hn : name.toList.length - (extension.toList.length + 1) = n at htail
    obtain ⟨dot, tail, hdrop, hdot, htail⟩ := List.map_eq_cons_iff.1 htail
    refine ⟨.ofList (name.toList.take n), .ofList tail, ?_, ?_, ?_⟩
    · intro hnil
      have htake : name.toList.take n = [] := by simpa using congrArg String.toList hnil
      have := congrArg List.length htake
      rw [List.length_take, List.length_nil] at this
      omega
    · rw [← String.toList_inj]
      conv_lhs => rw [← List.take_append_drop n name.toList, hdrop,
        (Text.toLower_eq_iff (by decide)).1 hdot]
      simp
    · rw [← String.toList_inj]
      simpa using htail
  · rintro ⟨stem, tail, hne, rfl, htail⟩
    have hlen : tail.toList.length = extension.toList.length := by
      rw [String.length_toList, String.length_toList, ← Text.length_asciiLower tail, htail,
        Text.length_asciiLower]
    have hstem : 0 < stem.toList.length := List.length_pos_of_ne_nil (by simpa using hne)
    rw [← String.toList_inj, Text.toList_asciiLower, Text.toList_asciiLower] at htail
    have hsplit : (stem ++ "." ++ tail).toList = stem.toList ++ '.' :: tail.toList := by simp
    rw [hsplit, List.length_append, List.length_cons, hlen]
    refine ⟨by omega, ?_⟩
    rw [List.drop_left' (by omega), List.map_cons, htail]
    rfl

namespace Convention

variable {c : Convention} {name : String}

/-- The file name of the markup that goes with a script. -/
def markupName (c : Convention) (file : String) : String := file ++ "." ++ c.markupSuffix

theorem isLeafName_iff : c.isLeafName name = true ↔ ∃ stem tail, stem ≠ "" ∧
    name = stem ++ "." ++ tail ∧ Text.asciiLower tail = Text.asciiLower c.leafExtension :=
  endsWithExtension_iff

theorem isLeafName_append (hne : name ≠ "") :
    c.isLeafName (name ++ "." ++ c.leafExtension) = true :=
  isLeafName_iff.2 ⟨name, c.leafExtension, hne, rfl, rfl⟩

/-- A name of markup is that of a script with the suffix. -/
theorem isMarkupName_iff : c.isMarkupName name = true ↔ ∃ script suffix,
    c.isLeafName script = true ∧ name = script ++ "." ++ suffix ∧
      Text.asciiLower suffix = Text.asciiLower c.markupSuffix := by
  unfold isMarkupName
  rw [endsWithExtension_iff]
  constructor
  · rintro ⟨stem, tail, hne, rfl, htail⟩
    rw [Text.asciiLower_append, Text.asciiLower_append] at htail
    obtain ⟨before, suffix, rfl, hbefore, hsuffix⟩ := Text.asciiLower_eq_append htail
    obtain ⟨extension, dot, rfl, hextension, hdot⟩ := Text.asciiLower_eq_append hbefore
    have hdot' : dot = "." := Text.asciiLower_eq_dot.1 hdot
    subst hdot'
    exact ⟨stem ++ "." ++ extension, suffix, isLeafName_iff.2 ⟨stem, extension, hne, rfl, hextension⟩,
      by simp [String.append_assoc], hsuffix⟩
  · rintro ⟨script, suffix, hscript, rfl, hsuffix⟩
    obtain ⟨stem, extension, hne, rfl, hextension⟩ := isLeafName_iff.1 hscript
    exact ⟨stem, extension ++ "." ++ suffix, hne, by simp [String.append_assoc], by
      simp [hextension, hsuffix]⟩

theorem isMarkupName_markupName (h : c.isLeafName name = true) :
    c.isMarkupName (c.markupName name) = true :=
  isMarkupName_iff.2 ⟨name, c.markupSuffix, h, rfl, rfl⟩

/-- The letter case of a file name does not matter. -/
theorem isLeafName_congr {other : String} (h : Text.asciiLower other = Text.asciiLower name) :
    c.isLeafName other = c.isLeafName name := by
  have hlength : other.toList.length = name.toList.length := by
    rw [String.length_toList, String.length_toList, ← Text.length_asciiLower, h, Text.length_asciiLower]
  rw [← String.toList_inj, Text.toList_asciiLower, Text.toList_asciiLower] at h
  simp only [isLeafName, endsWithExtension, List.map_drop, h, hlength]

theorem isLeafName_asciiLower (h : c.isLeafName name = true) :
    c.isLeafName (Text.asciiLower name) = true :=
  (isLeafName_congr (Text.asciiLower_asciiLower name)).trans h

theorem dot_of_isSourceName (h : c.isSourceName name = true) : '.' ∈ name.toList := by
  unfold isSourceName at h
  rcases Bool.or_eq_true_iff.1 h with h | h
  · obtain ⟨stem, extension, -, rfl, -⟩ := isLeafName_iff.1 h
    simp
  · obtain ⟨script, suffix, -, rfl, -⟩ := isMarkupName_iff.1 h
    simp

theorem isSourceName_of_isLeafName (h : c.isLeafName name = true) : c.isSourceName name = true := by
  simp [isSourceName, h]

theorem isSourceName_markupName (h : c.isLeafName name = true) :
    c.isSourceName (c.markupName name) = true := by
  simp [isSourceName, isMarkupName_markupName h]

/-- A script is not markup, since its last dot stands before the extension. -/
theorem not_isMarkupName (hc : c.Apart) (h : c.isLeafName name = true) :
    c.isMarkupName name = false := by
  rw [← Bool.not_eq_true]
  intro hmarkup
  obtain ⟨stem, extension, -, rfl, hextension⟩ := isLeafName_iff.1 h
  obtain ⟨script, suffix, -, hname, hsuffix⟩ := isMarkupName_iff.1 hmarkup
  have hlast : extension = suffix := by
    have hcut := congrArg (fun s => (Text.cut '.' s.toList).getLast?) hname
    simp only [String.toList_append, List.append_assoc] at hcut
    change (Text.cut '.' (stem.toList ++ '.' :: extension.toList)).getLast? =
      (Text.cut '.' (script.toList ++ '.' :: suffix.toList)).getLast? at hcut
    rw [Text.cut_append, Text.cut_append, Text.cut_of_notMem (notMem_dot hc.leaf hextension),
      Text.cut_of_notMem (notMem_dot hc.markup hsuffix), List.getLast?_concat,
      List.getLast?_concat] at hcut
    exact String.toList_inj.1 (Option.some.inj hcut)
  subst hlast
  exact hc.differ (hextension.symm.trans hsuffix)

/-- A script stands for itself. -/
theorem scriptName_of_isLeafName (hc : c.Apart) (h : c.isLeafName name = true) :
    c.scriptName name = name := by
  simp [scriptName, not_isMarkupName hc h, h]

/-- Markup stands for the script without the suffix. -/
theorem scriptName_of_markup {script suffix : String} (hscript : c.isLeafName script = true)
    (hsuffix : Text.asciiLower suffix = Text.asciiLower c.markupSuffix) :
    c.scriptName (script ++ "." ++ suffix) = script := by
  have hlen : suffix.toList.length = c.markupSuffix.length := by
    rw [String.length_toList, ← Text.length_asciiLower suffix, hsuffix, Text.length_asciiLower]
  unfold scriptName
  rw [if_pos (isMarkupName_iff.2 ⟨script, suffix, hscript, rfl, hsuffix⟩), ← String.toList_inj,
    String.toList_ofList, ← String.length_toList]
  have hsplit : (script ++ "." ++ suffix).toList = script.toList ++ '.' :: suffix.toList := by simp
  rw [hsplit, List.length_append, List.length_cons, hlen, Nat.add_sub_cancel, List.take_left]

theorem scriptName_markupName (h : c.isLeafName name = true) :
    c.scriptName (c.markupName name) = name := scriptName_of_markup h rfl

/-- Every name stands for a script. -/
theorem isLeafName_scriptName (hne : name ≠ "") : c.isLeafName (c.scriptName name) = true := by
  cases hmarkup : c.isMarkupName name with
  | true =>
    obtain ⟨script, suffix, hscript, rfl, hsuffix⟩ := isMarkupName_iff.1 hmarkup
    rw [scriptName_of_markup hscript hsuffix]
    exact hscript
  | false =>
    cases hleaf : c.isLeafName name with
    | true => simp [scriptName, hmarkup, hleaf]
    | false =>
      simp only [scriptName, hmarkup, hleaf]
      exact isLeafName_append hne

/-- The script that a name stands for has the characters of the name, and of the extension. -/
theorem mem_scriptName {d : Char} (h : d ∈ (c.scriptName name).toList) :
    d ∈ name.toList ∨ d = '.' ∨ d ∈ c.leafExtension.toList := by
  unfold scriptName at h
  split at h
  · rw [String.toList_ofList] at h
    exact .inl (List.mem_of_mem_take h)
  · split at h
    · exact .inl h
    · simpa [or_assoc] using h

/-- The name of a script is a name. -/
theorem isName_of_isLeafName (hc : c.leafExtension ≠ "") (h : c.isLeafName name = true)
    (hslash : '/' ∉ name.toList) : Path.IsName name := by
  have hlen : 2 < name.length := by
    obtain ⟨stem, extension, hne, rfl, hextension⟩ := isLeafName_iff.1 h
    have hstem : stem.length ≠ 0 := mt String.length_eq_zero_iff.1 hne
    have hext : extension.length ≠ 0 := by
      rw [← Text.length_asciiLower, hextension, Text.length_asciiLower]
      exact mt String.length_eq_zero_iff.1 hc
    rw [String.length_append, String.length_append]
    have hdot : ".".length = 1 := rfl
    omega
  refine ⟨?_, hslash, ?_, ?_⟩
  · rintro rfl
    exact absurd hlen (by decide)
  · rintro rfl
    exact absurd hlen (by decide)
  · rintro rfl
    exact absurd hlen (by decide)

/-- So is the name of the markup that goes with something. -/
theorem isName_markupName (hc : '/' ∉ c.markupSuffix.toList) (h : Path.IsName name) :
    Path.IsName (c.markupName name) := by
  have hchars : (c.markupName name).toList = name.toList ++ '.' :: c.markupSuffix.toList := by
    simp [markupName]
  obtain ⟨first, rest, hname⟩ := List.exists_cons_of_ne_nil (l := name.toList) (by simpa using h.ne_empty)
  have hsame : ∀ other, c.markupName name = other →
      first :: (rest ++ '.' :: c.markupSuffix.toList) = other.toList := by
    rintro _ rfl
    rw [hchars, hname, List.cons_append]
  refine ⟨fun h0 => ?_, ?_, fun h0 => ?_, fun h0 => ?_⟩
  · simpa using hsame _ h0
  · rw [hchars]
    simpa using ⟨h.noSlash, hc⟩
  · simpa using hsame _ h0
  · -- nothing but a dot could stand before the dot
    obtain ⟨rfl, hrest⟩ := List.cons.inj (hsame _ h0)
    obtain ⟨rfl, -⟩ := List.append_eq_singleton_iff.1 hrest |>.resolve_right (by simp)
    exact h.ne_here (String.toList_inj.1 hname)

/-- So is the name of the script that something stands for. -/
theorem isName_scriptName (hne : c.leafExtension ≠ "") (hslash : '/' ∉ c.leafExtension.toList)
    (h : Path.IsName name) : Path.IsName (c.scriptName name) := by
  refine isName_of_isLeafName hne (isLeafName_scriptName h.ne_empty) fun hmem => ?_
  rcases mem_scriptName hmem with hmem | hdot | hmem
  · exact h.noSlash hmem
  · exact absurd hdot (by decide)
  · exact hslash hmem

/-! ### Type names -/

theorem asciiLower_typeSegment (name : String) :
    Text.asciiLower (typeSegment name) = typeSegment (Text.asciiLower name) := by
  have hdash : ∀ d : Char, (if d = '-' then ['_'] else [d]).map Char.toLower =
      if d.toLower = '-' then ['_'] else [d.toLower] := by
    intro d
    simp only [Text.toLower_eq_iff (by decide : ('-' : Char).toNat < 65 ∨ 122 < '-'.toNat)]
    split
    · decide
    · rfl
  rw [typeSegment, typeSegment, Text.substitute, Text.substitute, ← String.toList_inj]
  simp only [Text.toList_asciiLower, String.toList_ofList, List.map_flatMap, List.flatMap_map, hdash]

theorem asciiLower_stem (c : Convention) (name : String) :
    Text.asciiLower (c.stem name) = c.stem (Text.asciiLower name) := by
  unfold stem
  dsimp only
  rw [Text.length_asciiLower]
  split
  · rw [← String.toList_inj]
    simp only [Text.toList_asciiLower, String.toList_ofList, List.map_take]
  · rfl

theorem map_typeSegments (c : Convention) (names : List String) :
    (c.typeSegments names).map Text.asciiLower = c.typeSegments (Place.lower names) := by
  fun_induction c.typeSegments names with
  | case1 => rfl
  | case2 file => simp [typeSegments, asciiLower_typeSegment, asciiLower_stem]
  | case3 dir rest hrest ih =>
    obtain ⟨next, more, rfl⟩ := List.exists_cons_of_ne_nil hrest
    rw [List.map_cons, ih, asciiLower_typeSegment]
    rfl

/-- Names that differ in the case of letters only give such type names. -/
theorem asciiLower_typeName_congr {names names' : List String}
    (h : Place.lower names = Place.lower names') :
    Text.asciiLower (c.typeName names) = Text.asciiLower (c.typeName names') := by
  unfold typeName Text.joined
  dsimp only
  rw [Text.asciiLower_intercalate, Text.asciiLower_intercalate, List.map_append, List.map_append,
    map_typeSegments, map_typeSegments, h]

/-- Directories and the file name of a script. -/
structure NamesScript (c : Convention) (dirs : List String) (file : String) : Prop where
  named : Place.Named (dirs ++ [file])
  leaf : c.isLeafName file = true

namespace NamesScript

variable {dirs : List String} {file : String}

theorem file_isName (h : c.NamesScript dirs file) : Path.IsName file := h.named file (by simp)

theorem named_markup (hc : '/' ∉ c.markupSuffix.toList) (h : c.NamesScript dirs file) :
    Place.Named (dirs ++ [c.markupName file]) :=
  h.named.left.append (Place.named_singleton (isName_markupName hc h.file_isName))

end NamesScript

/-- Directories and the file name of a script, in ASCII. -/
structure IsScript (c : Convention) (dirs : List String) (file : String) : Prop where
  named : Place.Named (dirs ++ [file])
  ascii : ∀ name ∈ dirs ++ [file], Text.IsAscii name
  leaf : c.isLeafName file = true

namespace IsScript

variable {dirs : List String} {file : String}

theorem names (h : c.IsScript dirs file) : c.NamesScript dirs file := ⟨h.named, h.leaf⟩

theorem file_isName (h : c.IsScript dirs file) : Path.IsName file := h.names.file_isName

theorem named_markup (hc : '/' ∉ c.markupSuffix.toList) (h : c.IsScript dirs file) :
    Place.Named (dirs ++ [c.markupName file]) := h.names.named_markup hc

end IsScript

end Convention

theorem Convention.IsScript.lower {c : Convention} {dirs : List String} {file : String}
    (h : c.IsScript dirs file) : c.IsScript (Place.lower dirs) (Text.asciiLower file) := by
  have hmap : Place.lower dirs ++ [Text.asciiLower file] = Place.lower (dirs ++ [file]) := by simp
  refine ⟨hmap ▸ h.named.lower, fun name hname => ?_, Convention.isLeafName_asciiLower h.leaf⟩
  rw [hmap] at hname
  obtain ⟨other, hother, rfl⟩ := List.mem_map.1 hname
  exact (h.ascii other hother).asciiLower

/-! ## Units and their files -/

/-- A site that lies at a place, with naming rules as they are accepted. -/
structure Locator.At (l : Locator) (root : Place) : Prop where
  path : l.root = root.path
  named : root.Named
  plain : l.convention.Plain

namespace Locator

variable {l : Locator} {root : Place} {dirs : List String} {file : String}

theorem path_unitAt (hl : l.At root) {names : List String} (hnames : Place.Named names) :
    (l.unitAt names).path = Place.path (root ++ names) := by
  rw [unitAt, hl.path, Place.foldl_join_path hl.named hnames]

theorem markupPath_unitAt (hl : l.At root) (hnames : Place.Named (dirs ++ [file])) :
    l.markupPath (l.unitAt (dirs ++ [file])) =
      Place.path (root ++ (dirs ++ [l.convention.markupName file])) := by
  rw [markupPath, path_unitAt hl hnames, ← String.toList_inj, ← List.append_assoc,
    ← List.append_assoc, String.toList_append, String.toList_append,
    Place.toList_path_append_singleton, Place.toList_path_append_singleton]
  simp [Convention.markupName]

theorem toScript_append (l : Locator) (dirs : List String) (name : String) :
    l.toScript (dirs ++ [name]) = dirs ++ [l.convention.scriptName name] := by
  simp [toScript]

theorem namesOf?_map (names : List String) :
    namesOf? (names.map Path.Component.name) = some names := by
  induction names with
  | nil => rfl
  | cons name rest ih => simp [namesOf?, ih]

/-- The unit that a file below the root belongs to, by the steps on the way to it. -/
theorem unitOfFile?_of_steps {path name : String} {steps : List Path.Component}
    (h : Path.under? l.root path = some steps) (hlast : steps.getLast? = some (.name name))
    (hnames : namesOf? steps = some (dirs ++ [name])) :
    l.unitOfFile? path = if l.convention.isSourceName name then
      some (l.unitAt (dirs ++ [l.convention.scriptName name])) else none := by
  unfold unitOfFile?
  rw [h]
  simp only [Option.bind_eq_bind, Option.bind_some, hlast, hnames, toScript_append]
  rfl

/-- The unit that a file below the root belongs to, by the names on the way to it. -/
theorem unitOfFile?_of_under? {path name : String}
    (h : Path.under? l.root path = some ((dirs ++ [name]).map .name)) :
    l.unitOfFile? path = if l.convention.isSourceName name then
      some (l.unitAt (dirs ++ [l.convention.scriptName name])) else none :=
  unitOfFile?_of_steps h (by simp) (namesOf?_map _)

/-- The unit that a file under the root belongs to. -/
theorem unitOfFile?_path (hl : l.At root) {name : String} (hnames : Place.Named (dirs ++ [name])) :
    l.unitOfFile? (Place.path (root ++ (dirs ++ [name]))) =
      if l.convention.isSourceName name then
        some (l.unitAt (dirs ++ [l.convention.scriptName name]))
      else none :=
  unitOfFile?_of_under? (by rw [hl.path, Place.under?_path hl.named hnames])

theorem unitOfFile?_script (hl : l.At root) (h : l.convention.NamesScript dirs file) :
    l.unitOfFile? (Place.path (root ++ (dirs ++ [file]))) = some (l.unitAt (dirs ++ [file])) := by
  rw [unitOfFile?_path hl h.named, if_pos (Convention.isSourceName_of_isLeafName h.leaf),
    Convention.scriptName_of_isLeafName hl.plain.apart h.leaf]

theorem unitOfFile?_markup (hl : l.At root) (h : l.convention.NamesScript dirs file) :
    l.unitOfFile? (Place.path (root ++ (dirs ++ [l.convention.markupName file]))) =
      some (l.unitAt (dirs ++ [file])) := by
  rw [unitOfFile?_path hl (h.named_markup hl.plain.markup.noSlash),
    if_pos (Convention.isSourceName_markupName h.leaf), Convention.scriptName_markupName h.leaf]

/-! ## Keys -/

/-- How the keys of all units below a place begin. -/
def keyAbove (root : Place) : String :=
  Text.lower (String.ofList (root.flatMap fun name => '/' :: name.toList) ++ "/")

theorem isAscii_joined {names : List String} (h : ∀ name ∈ names, Text.IsAscii name) :
    Text.IsAscii (String.intercalate "/" names) := by
  induction names with
  | nil => simp [Text.IsAscii]
  | cons name rest ih =>
    have hname := h name List.mem_cons_self
    have hrest := ih fun n hn => h n (List.mem_cons_of_mem _ hn)
    by_cases hne : rest = []
    · subst hne
      rwa [String.intercalate_singleton]
    · rw [String.intercalate_cons_of_ne_nil hne]
      intro c hc
      simp only [String.toList_append, List.mem_append] at hc
      rcases hc with (hc | hc) | hc
      · exact hname c hc
      · have hslash : c = '/' := by simpa using hc
        subst hslash
        decide
      · exact hrest c hc

/-- The key of a path below a place is the lower case of its names. -/
theorem keyOf_path (root : Place) {names : List String} (hne : names ≠ [])
    (hascii : ∀ name ∈ names, Text.IsAscii name) :
    keyOf (Place.path (root ++ names)) =
      keyAbove root ++ String.intercalate "/" (Place.lower names) := by
  rw [keyOf, Place.path_append root hne, Text.lower_append_slash, Text.lower_of_isAscii (isAscii_joined hascii),
    Place.asciiLower_joined, keyAbove, Text.lower_concat_slash]

/-- **Units have one key if their names differ in the case of letters only.** -/
theorem key_eq_iff (hl : l.At root) {names names' : List String} (hnames : Place.Named names)
    (hnames' : Place.Named names') (hne : names ≠ []) (hne' : names' ≠ [])
    (hascii : ∀ name ∈ names, Text.IsAscii name) (hascii' : ∀ name ∈ names', Text.IsAscii name) :
    (l.unitAt names).key = (l.unitAt names').key ↔ Place.lower names = Place.lower names' := by
  rw [Identity.key, Identity.key, path_unitAt hl hnames, path_unitAt hl hnames',
    keyOf_path root hne hascii, keyOf_path root hne' hascii', String.append_right_inj]
  constructor
  · intro h
    refine Place.path_injective hnames.lower hnames'.lower ?_
    rw [Place.path, Place.path, h]
  · rintro h
    rw [h]

/-- **The key of a unit starts with that of every directory above it, and a slash.** -/
theorem startsWith_above (hl : l.At root) {above below : List String}
    (hnames : Place.Named (above ++ below)) (habove : above ≠ []) (hbelow : below ≠ [])
    (hascii : ∀ name ∈ above ++ below, Text.IsAscii name) :
    (l.unitAt (above ++ below)).key.startsWith
      (Eviction.above (Place.path (root ++ above))) = true := by
  have hkey : (l.unitAt (above ++ below)).key =
      keyOf (Place.path (root ++ above)) ++ "/" ++ String.intercalate "/" (Place.lower below) := by
    have hne : Place.lower above ≠ [] := by simpa using habove
    have hne' : Place.lower below ≠ [] := by simpa using hbelow
    rw [Identity.key, path_unitAt hl hnames, keyOf_path root (by simp [habove]) hascii,
      keyOf_path root habove fun n hn => hascii n (List.mem_append_left _ hn), Place.lower_append,
      String.intercalate_append_of_ne_nil hne hne']
    simp only [String.append_assoc]
  rw [String.startsWith_string_iff, hkey, Eviction.above]
  simp only [String.toList_append]
  split
  · rw [List.append_assoc]
    exact List.prefix_append _ _
  · rw [String.toList_append]
    exact List.prefix_append _ _

/-- The key of a unit starts with a slash. -/
theorem head?_key (hl : l.At root) {names : List String} (hnames : Place.Named names) :
    (l.unitAt names).key.toList.head? = some '/' := by
  rw [Identity.key, path_unitAt hl hnames, keyOf, Text.lower]
  have hpath : (Place.path (root ++ names)).toList =
      '/' :: (String.intercalate "/" (root ++ names)).toList := by simp [Place.path]
  rw [hpath, String.toList_ofList, Text.lowerAfter]
  rfl

theorem key_ne_foundation (hl : l.At root) {names : List String} (hnames : Place.Named names) :
    (l.unitAt names).key ≠ foundationUnit.key := by
  intro h
  have hhead := head?_key hl hnames
  rw [h] at hhead
  revert hhead
  decide

/-! ## Units that are asked for -/

/-- A unit that an ASCII request path stands for. -/
def Asked (l : Locator) (unit : Identity) : Prop :=
  ∃ dirs file, l.convention.IsScript dirs file ∧ unit = l.unitAt (dirs ++ [file])

theorem globalUnit_eq (l : Locator) : l.globalUnit = l.unitAt ([] ++ [l.globalName]) := rfl

/-- The name of the global unit is that of a script. -/
theorem isLeafName_globalName (l : Locator) : l.convention.isLeafName l.globalName = true :=
  Convention.isLeafName_iff.2 ⟨"global", l.convention.leafExtension, by decide, by
    rw [globalName, ← String.toList_inj]
    simp, rfl⟩

theorem namesScript_globalName (hne : l.convention.leafExtension ≠ "")
    (hslash : '/' ∉ l.convention.leafExtension.toList) : l.convention.NamesScript [] l.globalName :=
  ⟨Place.named_singleton (Convention.isName_of_isLeafName hne l.isLeafName_globalName
    (by simpa [globalName] using hslash)), l.isLeafName_globalName⟩

theorem isScript_globalName (hl : l.At root) : l.convention.IsScript [] l.globalName := by
  have hscript := namesScript_globalName hl.plain.leaf.ne_empty hl.plain.leaf.noSlash
  refine ⟨hscript.named, ?_, hscript.leaf⟩
  intro name hname
  rw [List.nil_append, List.mem_singleton] at hname
  subst hname
  intro c hc
  rw [globalName, String.toList_append, List.mem_append] at hc
  rcases hc with hc | hc
  · exact (by decide : Text.IsAscii "global.") c hc
  · exact hl.plain.leaf.ascii c hc

theorem globalUnit_ne_foundation (hl : l.At root) : l.globalUnit.key ≠ foundationUnit.key := by
  rw [globalUnit_eq]
  exact key_ne_foundation hl (isScript_globalName hl).named

/-- A name of a path is a name, and has only characters of the path. -/
theorem isName_of_mem_components {path name : String}
    (h : Path.Component.name name ∈ Path.components path) :
    Path.IsName name ∧ ∀ c ∈ name.toList, c ∈ path.toList := by
  have hpiece : name ∈ Text.pieces '/' path ∧ name ≠ "" ∧ name ≠ "." ∧ name ≠ ".." := by
    unfold Path.components at h
    cases hpieces : Text.pieces '/' path with
    | nil =>
      rw [hpieces] at h
      cases h
    | cons first rest =>
      rw [hpieces] at h
      rcases List.mem_append.1 h with hstart | hrest
      · split at hstart
        · simp at hstart
        · split at hstart
          · simp at hstart
          · obtain ⟨rfl, hname⟩ := Path.componentOf?_eq_name (Option.mem_toList.1 hstart)
            exact ⟨List.mem_cons_self, hname⟩
      · obtain ⟨piece, hmem, hpiece⟩ := List.mem_filterMap.1 hrest
        obtain ⟨rfl, hname⟩ := Path.componentOf?_eq_name hpiece
        exact ⟨List.mem_cons_of_mem _ hmem, hname⟩
  obtain ⟨hmem, hne, hhere, hparent⟩ := hpiece
  obtain ⟨hslash, hsub⟩ := Text.mem_of_mem_pieces hmem
  exact ⟨⟨hne, hslash, hhere, hparent⟩, hsub⟩

theorem mem_of_mem_namesOf? {steps : List Path.Component} {names : List String}
    (h : namesOf? steps = some names) {name : String} (hname : name ∈ names) :
    .name name ∈ steps := by
  induction steps generalizing names with
  | nil =>
    cases h
    cases hname
  | cons step rest ih =>
    cases step with
    | root => exact List.mem_cons_of_mem _ (ih h hname)
    | here => exact List.mem_cons_of_mem _ (ih h hname)
    | parent => cases h
    | name text =>
      obtain ⟨more, hmore, rfl⟩ := Option.map_eq_some_iff.1 h
      rcases List.mem_cons.1 hname with rfl | hname
      · exact List.mem_cons_self
      · exact List.mem_cons_of_mem _ (ih hmore hname)

theorem mem_namesOf? {steps : List Path.Component} {names : List String}
    (h : namesOf? steps = some names) {name : String} (hname : .name name ∈ steps) :
    name ∈ names := by
  induction steps generalizing names with
  | nil => cases hname
  | cons step rest ih =>
    cases step with
    | parent => cases h
    | name text =>
      obtain ⟨more, hmore, rfl⟩ := Option.map_eq_some_iff.1 h
      rcases List.mem_cons.1 hname with hsame | hrest
      · cases hsame
        exact List.mem_cons_self
      · exact List.mem_cons_of_mem _ (ih hmore hrest)
    | _ =>
      rcases List.mem_cons.1 hname with hsame | hrest
      · cases hsame
      · exact ih h hrest

/-- The names of steps of a path are names. -/
theorem named_of_namesOf? {path : String} {steps : List Path.Component} {names : List String}
    (hsteps : ∀ step ∈ steps, step ∈ Path.components path) (h : namesOf? steps = some names) :
    Place.Named names :=
  fun _ hname => (isName_of_mem_components (hsteps _ (mem_of_mem_namesOf? h hname))).1

/-- What is left of a path below a directory are its last steps. -/
theorem suffix_of_below? {same : Path.Component → Path.Component → Bool}
    {base path rest : List Path.Component} (h : Path.below? same base path = some rest) :
    rest <:+ path := by
  induction base generalizing path with
  | nil =>
    cases h
    exact List.suffix_rfl
  | cons b base ih =>
    cases path with
    | nil => cases h
    | cons p path =>
      simp only [Path.below?] at h
      split at h
      · exact (ih h).trans (List.suffix_cons p path)
      · cases h

theorem suffix_of_under? {base path : String} {rest : List Path.Component}
    (h : Path.under? base path = some rest) : rest <:+ Path.components path := by
  unfold Path.under? at h
  cases hbelow : Path.below? (· == ·) (Path.components base) (Path.components path) with
  | some found =>
    rw [hbelow] at h
    cases h
    exact suffix_of_below? hbelow
  | none =>
    rw [hbelow] at h
    exact suffix_of_below? h

theorem mem_of_mem_under? {base path : String} {rest : List Path.Component}
    (h : Path.under? base path = some rest) {step : Path.Component} (hstep : step ∈ rest) :
    step ∈ Path.components path := (suffix_of_under? h).subset hstep

theorem mem_trim {s : String} {c : Char} (h : c ∈ (Text.trim s).toList) : c ∈ s.toList := by
  simp only [Text.trim, Text.trimEnd, Text.trimStart, Text.dropEnd, Text.dropStart,
    String.toList_ofList, List.mem_reverse] at h
  exact (List.dropWhile_sublist _).subset (List.mem_reverse.1 ((List.dropWhile_sublist _).subset h))

theorem isAscii_substitute {s : String} (h : Text.IsAscii s) :
    Text.IsAscii (Text.substitute '\\' ['/'] s) := by
  intro c hc
  rw [Text.substitute, String.toList_ofList] at hc
  obtain ⟨d, hd, hcd⟩ := List.mem_flatMap.1 hc
  split at hcd
  · rw [List.mem_singleton] at hcd
    subst hcd
    decide
  · rw [List.mem_singleton] at hcd
    exact hcd ▸ h d hd

/-- Names of a request, the last of them made that of a script, stand for a unit. -/
theorem asked_toScript (hl : l.At root) {names : List String} (hne : names ≠ [])
    (hnames : Place.Named names) (hascii : ∀ name ∈ names, Text.IsAscii name) :
    l.Asked (l.unitAt (l.toScript names)) := by
  obtain ⟨dirs, last, rfl⟩ := (List.eq_nil_or_concat names).resolve_left hne
  rw [List.concat_eq_append] at hnames hascii ⊢
  have hlast : Path.IsName last := hnames last (by simp)
  have hleaf := Convention.isLeafName_scriptName (c := l.convention) hlast.ne_empty
  refine ⟨dirs, l.convention.scriptName last, ⟨hnames.left.append
    (Place.named_singleton (Convention.isName_scriptName hl.plain.leaf.ne_empty hl.plain.leaf.noSlash
      hlast)), fun name hname => ?_, hleaf⟩, by
      rw [toScript_append]⟩
  rcases List.mem_append.1 hname with hname | hname
  · exact hascii name (List.mem_append_left _ hname)
  · rw [List.mem_singleton] at hname
    subst hname
    intro d hd
    rcases Convention.mem_scriptName hd with hd | rfl | hd
    · exact hascii last (by simp) d hd
    · decide
    · exact hl.plain.leaf.ascii d hd

/-- A request path as it is read: trimmed, and with slashes for backslashes. -/
def cleaned (raw : String) : String := Text.substitute '\\' ['/'] (Text.trim raw)

/-- The steps below the root that a request path takes. -/
def stepsBelow? (l : Locator) (path : String) : Option (List Path.Component) :=
  if Path.isAbsolute path then Path.under? l.root path else some (Path.components path)

/-- The names that are asked for: a directory stands for the default document in it. -/
def document (path : String) (names : List String) : List String :=
  if path.toList.getLast? == some '/' || names.isEmpty then names ++ [defaultDocument] else names

/-- What a request path is resolved to, step by step. -/
theorem resolve_eq (raw : String) : l.resolve raw =
    if Text.trim raw = "" then .error (.invalidPath raw "path must not be empty")
    else match l.stepsBelow? (cleaned raw) with
      | none => .error (.invalidPath raw "path is outside the site root")
      | some steps => match namesOf? steps with
        | none => .error (.invalidPath raw "parent directory segments are not allowed")
        | some names => .ok (l.unitAt (l.toScript (document (cleaned raw) names))) := by
  unfold resolve stepsBelow? document cleaned
  by_cases htrim : Text.trim raw = ""
  · rw [if_pos htrim, if_pos htrim]
    rfl
  rw [if_neg htrim, if_neg htrim]
  dsimp only
  generalize Text.substitute '\\' ['/'] (Text.trim raw) = clean
  by_cases habs : Path.isAbsolute clean = true
  · rw [if_pos habs, if_pos habs]
    cases Path.under? l.root clean with
    | none => rfl
    | some steps => rfl
  · rw [if_neg habs, if_neg habs]
    rfl

theorem resolve_eq_ok_iff {raw : String} {unit : Identity} : l.resolve raw = .ok unit ↔
    Text.trim raw ≠ "" ∧ ∃ steps names, l.stepsBelow? (cleaned raw) = some steps ∧
      namesOf? steps = some names ∧ unit = l.unitAt (l.toScript (document (cleaned raw) names)) := by
  rw [resolve_eq]
  by_cases htrim : Text.trim raw = ""
  · simp [htrim]
  rw [if_neg htrim]
  cases l.stepsBelow? (cleaned raw) with
  | none => simp
  | some steps =>
    dsimp only
    cases hnames : namesOf? steps with
    | none => simp [hnames]
    | some names => simp [htrim, hnames, eq_comm]

/-- The steps of a request path are steps of what was asked for. -/
theorem mem_components_of_mem_stepsBelow? {path : String} {steps : List Path.Component}
    (h : l.stepsBelow? path = some steps) {step : Path.Component} (hstep : step ∈ steps) :
    step ∈ Path.components path := by
  unfold stepsBelow? at h
  split at h
  · exact mem_of_mem_under? h hstep
  · cases h
    exact hstep

/-- A request path that is resolved consists of names. -/
theorem resolve_eq_ok {path : String} {unit : Identity} (h : l.resolve path = .ok unit) :
    ∃ steps names, (∀ step ∈ steps, step ∈ Path.components (cleaned path)) ∧
      namesOf? steps = some names ∧ (unit = l.unitAt (l.toScript (names ++ [defaultDocument])) ∨
        names ≠ [] ∧ unit = l.unitAt (l.toScript names)) := by
  obtain ⟨-, steps, names, hsteps, hnames, rfl⟩ := resolve_eq_ok_iff.1 h
  refine ⟨steps, names, fun step hstep => mem_components_of_mem_stepsBelow? hsteps hstep, hnames, ?_⟩
  unfold document
  split
  · exact .inl rfl
  · rename_i hdir
    refine .inr ⟨?_, rfl⟩
    rintro rfl
    simp at hdir

/-- Names, the last of them made that of a script, are names of a script. -/
theorem namesScript_toScript (hne : l.convention.leafExtension ≠ "")
    (hslash : '/' ∉ l.convention.leafExtension.toList) {names : List String} (hnil : names ≠ [])
    (hnames : Place.Named names) :
    ∃ dirs file, l.convention.NamesScript dirs file ∧ l.toScript names = dirs ++ [file] := by
  obtain ⟨dirs, last, rfl⟩ := (List.eq_nil_or_concat names).resolve_left hnil
  rw [List.concat_eq_append] at hnames ⊢
  have hlast : Path.IsName last := hnames last (by simp)
  exact ⟨dirs, l.convention.scriptName last,
    ⟨hnames.left.append (Place.named_singleton (Convention.isName_scriptName hne hslash hlast)),
      Convention.isLeafName_scriptName hlast.ne_empty⟩, toScript_append l dirs last⟩

/-- Every request path stands for the unit of names that are parts of it, or for the default document. -/
theorem names_of_resolve {path : String} {unit : Identity} (h : l.resolve path = .ok unit) :
    ∃ names, names ≠ [] ∧ Place.Named names ∧ unit = l.unitAt (l.toScript names) ∧
      ∀ name ∈ names, name = defaultDocument ∨
        .name name ∈ Path.components (cleaned path) := by
  obtain ⟨steps, names, hsteps, hnames, hunit⟩ := resolve_eq_ok h
  have hparts : ∀ name ∈ names, .name name ∈ Path.components (cleaned path) :=
    fun name hname => hsteps _ (mem_of_mem_namesOf? hnames hname)
  have hnamed : Place.Named names := named_of_namesOf? hsteps hnames
  rcases hunit with rfl | ⟨hne, rfl⟩
  · refine ⟨_, by simp, hnamed.append (Place.named_singleton (by decide)), rfl, fun name hname => ?_⟩
    rcases List.mem_append.1 hname with hname | hname
    · exact .inr (hparts name hname)
    · exact .inl (List.mem_singleton.1 hname)
  · exact ⟨names, hne, hnamed, rfl, fun name hname => .inr (hparts name hname)⟩

/-- Every file that belongs to a unit belongs to one of names. -/
theorem names_of_unitOfFile? {path : String} {unit : Identity} (h : l.unitOfFile? path = some unit) :
    ∃ names, names ≠ [] ∧ Place.Named names ∧ unit = l.unitAt (l.toScript names) := by
  obtain ⟨steps, hsteps, h⟩ := Option.bind_eq_some_iff.1 h
  split at h
  · rename_i fileName hlast
    split at h
    · obtain ⟨names, hnames, hunit⟩ := Option.bind_eq_some_iff.1 h
      cases hunit
      have hfile : fileName ∈ names := mem_namesOf? hnames (List.mem_of_getLast? hlast)
      exact ⟨names, List.ne_nil_of_mem hfile,
        named_of_namesOf? (fun _ hstep => mem_of_mem_under? hsteps hstep) hnames, rfl⟩
    · cases h
  · cases h

/-- Every request path stands for the unit of a script below the root. -/
theorem exists_names_of_resolve (hl : l.At root) {path : String} {unit : Identity}
    (h : l.resolve path = .ok unit) :
    ∃ dirs file, l.convention.NamesScript dirs file ∧ unit = l.unitAt (dirs ++ [file]) := by
  obtain ⟨names, hne, hnames, rfl, -⟩ := names_of_resolve h
  obtain ⟨dirs, file, hscript, hsame⟩ :=
    namesScript_toScript hl.plain.leaf.ne_empty hl.plain.leaf.noSlash hne hnames
  exact ⟨dirs, file, hscript, by rw [hsame]⟩

/-- **Every ASCII request path stands for a unit that can be asked for.** -/
theorem asked_of_resolve (hl : l.At root) {path : String} (hpath : Text.IsAscii path)
    {unit : Identity} (h : l.resolve path = .ok unit) : l.Asked unit := by
  obtain ⟨steps, names, hsteps, hnames, hunit⟩ := resolve_eq_ok h
  have hascii : Text.IsAscii (cleaned path) :=
    isAscii_substitute fun c hc => hpath c (mem_trim hc)
  have hparts : ∀ name ∈ names, Path.IsName name ∧ Text.IsAscii name := by
    intro name hname
    obtain ⟨his, hchars⟩ := isName_of_mem_components (hsteps _ (mem_of_mem_namesOf? hnames hname))
    exact ⟨his, fun c hc => hascii c (hchars c hc)⟩
  rcases hunit with rfl | ⟨hne, rfl⟩
  · refine asked_toScript hl (by simp) ?_ ?_
    · exact Place.Named.append (fun n hn => (hparts n hn).1) (Place.named_singleton (by decide))
    · intro name hname
      rcases List.mem_append.1 hname with hname | hname
      · exact (hparts name hname).2
      · rw [List.mem_singleton] at hname
        subst hname
        decide
  · exact asked_toScript hl hne (fun n hn => (hparts n hn).1) fun n hn => (hparts n hn).2

end Locator

end SiteHost
