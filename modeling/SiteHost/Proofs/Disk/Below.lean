import SiteHost.Proofs.Disk.Tidy

/-!
# Paths below a directory

A directory may be written with slashes repeated, with slashes at its end and with steps that lead to where
they start. Names that are put behind it are still the last steps of the path:

* `Path.opening` — how everything begins that is written behind a directory;
* `Path.Below` — a path that is a directory's, followed by one name or more;
* `Path.Component.lower` — a step with its name in lower case.

Principal results:

* `Path.foldl_join` — a path that goes on by names is below;
* `Path.components_foldl_join`, `Path.under?_foldl_join` — what it means, and what is left of it below the
  directory;
* `Path.under?_of_same` — so it is in any case of its ASCII letters, those of the directory among them.
-/

namespace SiteHost

/-! ## Pieces -/

namespace Text

theorem pieces_append_slash (a b : String) :
    pieces '/' (a ++ "/" ++ b) = pieces '/' a ++ pieces '/' b := pieces_append '/' a b

/-- Names are the pieces of the text that has slashes between them. -/
theorem pieces_joined_names {names : List String} (hne : names ≠ []) (hnames : Place.Named names) :
    pieces '/' (joined "/" names) = names :=
  pieces_joined '/' hne fun name hname => (hnames name hname).noSlash

/-- Text is cut at the same places in any letter case. -/
theorem pieces_asciiLower (s : String) : pieces '/' (asciiLower s) = (pieces '/' s).map asciiLower := by
  have hcut : ∀ cs, cut '/' (cs.map Char.toLower) = (cut '/' cs).map (List.map Char.toLower) := by
    intro cs
    induction cs with
    | nil => rfl
    | cons c rest ih =>
      have hslash : c.toLower = '/' ↔ c = '/' := toLower_eq_iff (by decide)
      simp only [List.map_cons, cut, ih, hslash]
      split
      · rfl
      · cases cut '/' rest <;> rfl
  rw [pieces, pieces, toList_asciiLower, hcut, List.map_map, List.map_map]
  refine List.map_congr_left fun cs _ => ?_
  rw [← String.toList_inj]
  simp

end Text

namespace Path

variable {base name path other : String} {names : List String}

/-! ## Names behind a directory -/

/-- How everything begins that is written behind a directory. -/
def opening (directory : String) : String :=
  if directory.toList.getLast? = some '/' then directory else directory ++ "/"

/-- Whether a path is that of a directory, followed by one name or more. -/
def Below (directory path : String) : Prop :=
  ∃ names : List String, names ≠ [] ∧ Place.Named names ∧
    path = opening directory ++ Text.joined "/" names

theorem ne_empty_of_isAbsolute (h : isAbsolute base = true) : base ≠ "" := by
  rintro rfl
  cases h

theorem join_eq (hbase : base ≠ "") (hname : IsName name) : join base name = opening base ++ name := by
  rw [join, if_neg (by simp [isAbsolute_of_isName hname, hbase]), opening]
  split
  · rfl
  · rfl

/-- Names do not end a path by a slash. -/
theorem opening_append (hname : IsName name) : opening (base ++ name) = base ++ name ++ "/" := by
  have hnil : name.toList ≠ [] := by simpa using hname.ne_empty
  rw [opening, if_neg]
  rw [String.toList_append, List.getLast?_append, List.getLast?_eq_some_getLast hnil, Option.some_or]
  exact fun h => hname.noSlash (Option.some.inj h ▸ List.getLast_mem hnil)

/-- **A path that goes on by names is below.** -/
theorem foldl_join (hbase : base ≠ "") (hne : names ≠ []) (hnames : Place.Named names) :
    names.foldl join base = opening base ++ Text.joined "/" names := by
  induction names generalizing base with
  | nil => exact absurd rfl hne
  | cons name rest ih =>
    have hname := hnames name List.mem_cons_self
    rw [List.foldl_cons, join_eq hbase hname]
    by_cases hrest : rest = []
    · rw [hrest, Text.joined, String.intercalate_singleton, List.foldl_nil]
    · have hlonger : opening base ++ name ≠ "" := by
        intro h
        have hchars := congrArg String.toList h
        rw [String.toList_append] at hchars
        exact hname.ne_empty (by simpa using (List.append_eq_nil_iff.1 hchars).2)
      rw [ih hlonger hrest fun n hn => hnames n (List.mem_cons_of_mem name hn), opening_append hname,
        Text.joined, Text.joined, String.intercalate_cons_of_ne_nil hrest]
      simp only [String.append_assoc]

/-! ## Steps -/

/-- The steps of a path that starts at the root. -/
theorem components_of_isAbsolute (h : isAbsolute path = true) :
    components path = .root :: (Text.pieces '/' path).filterMap componentOf? := by
  obtain ⟨rest, hrest⟩ : ∃ rest, path.toList = '/' :: rest := by
    cases hl : path.toList with
    | nil => simp [isAbsolute, hl] at h
    | cons c rest => exact ⟨rest, by simpa [isAbsolute, hl] using h⟩
  have hpieces : Text.pieces '/' path = "" :: (Text.cut '/' rest).map String.ofList := by
    rw [Text.pieces, hrest, Text.cut, if_pos rfl]
    rfl
  rw [components, hpieces]
  dsimp only
  rw [if_pos h]
  rfl

/-- A step is left out of the steps of a path only if it leads to where it starts. -/
theorem filterMap_pieces_opening (base after : String) :
    (Text.pieces '/' (opening base ++ after)).filterMap componentOf? =
      (Text.pieces '/' base).filterMap componentOf? ++ (Text.pieces '/' after).filterMap componentOf? := by
  unfold opening
  split
  · rename_i hlast
    obtain ⟨front, hfront⟩ := List.getLast?_eq_some_iff.1 hlast
    have hbase : base = String.ofList front ++ "/" ++ "" := by
      rw [← String.toList_inj, hfront]
      simp
    have hafter : base ++ after = String.ofList front ++ "/" ++ after := by
      rw [← String.toList_inj, String.toList_append, hfront]
      simp
    have hempty : (Text.pieces '/' "").filterMap componentOf? = [] := by decide
    rw [hafter, Text.pieces_append_slash, List.filterMap_append]
    rw [hbase, Text.pieces_append_slash, List.filterMap_append, hempty, List.append_nil]
  · rw [Text.pieces_append_slash, List.filterMap_append]

theorem filterMap_names (hnames : Place.Named names) : names.filterMap componentOf? = names.map .name := by
  rw [← List.filterMap_eq_map]
  exact List.filterMap_congr fun name hname => (hnames name hname).componentOf?

theorem isAbsolute_opening (h : isAbsolute base = true) (after : String) :
    isAbsolute (opening base ++ after) = true := by
  obtain ⟨rest, hrest⟩ := List.head?_eq_some_iff.1 (beq_iff_eq.1 h)
  unfold opening
  split <;> simp [isAbsolute, hrest]

/-- **A path that goes on by names has these as its last steps.** -/
theorem components_foldl_join (h : isAbsolute base = true) (hne : names ≠ []) (hnames : Place.Named names) :
    components (names.foldl join base) = components base ++ names.map .name := by
  rw [foldl_join (ne_empty_of_isAbsolute h) hne hnames, components_of_isAbsolute (isAbsolute_opening h _),
    components_of_isAbsolute h, filterMap_pieces_opening, Text.pieces_joined_names hne hnames,
    filterMap_names hnames, List.cons_append]

/-- What is left of it below the directory. -/
theorem under?_foldl_join (h : isAbsolute base = true) (hne : names ≠ []) (hnames : Place.Named names) :
    under? base (names.foldl join base) = some (names.map .name) := by
  rw [under?, components_foldl_join h hne hnames, Place.below?_append]

/-! ## Steps in another letter case -/

/-- A step with its name in the lower case of its ASCII letters. -/
def Component.lower : Component → Component
  | .name text => .name (Text.asciiLower text)
  | step => step

theorem componentOf?_asciiLower (piece : String) :
    componentOf? (Text.asciiLower piece) = (componentOf? piece).map Component.lower := by
  simp only [componentOf?, Text.asciiLower_eq_empty, Text.asciiLower_eq_dot, Text.asciiLower_eq_dots]
  split
  · rfl
  · split <;> rfl

theorem isAbsolute_asciiLower (path : String) : isAbsolute (Text.asciiLower path) = isAbsolute path := by
  rw [Bool.eq_iff_iff, isAbsolute, isAbsolute, beq_iff_eq, beq_iff_eq, Text.toList_asciiLower, List.head?_map]
  cases path.toList.head? with
  | none => simp
  | some c => simp [Text.toLower_eq_iff]

theorem components_asciiLower (h : isAbsolute path = true) :
    components (Text.asciiLower path) = (components path).map Component.lower := by
  rw [components_of_isAbsolute ((isAbsolute_asciiLower path).trans h), components_of_isAbsolute h,
    Text.pieces_asciiLower, List.filterMap_map, List.map_cons, List.map_filterMap]
  exact congrArg (List.cons _) (List.filterMap_congr fun piece _ => componentOf?_asciiLower piece)

theorem sameIgnoringCase_of_lower {a b : Component} (h : a.lower = b.lower) :
    sameIgnoringCase a b = true := by
  rw [sameIgnoringCase, Text.eqIgnoringAsciiCase_iff]
  cases a <;> cases b <;> simp only [Component.lower, Component.name.injEq, reduceCtorEq] at h
  all_goals simp only [Component.text, h]

theorem below?_of_lower {steps front rest : List Component}
    (h : front.map Component.lower = steps.map Component.lower) :
    below? sameIgnoringCase steps (front ++ rest) = some rest := by
  induction steps generalizing front with
  | nil =>
    rw [List.map_nil, List.map_eq_nil_iff] at h
    rw [h, List.nil_append, below?]
  | cons step more ih =>
    cases front with
    | nil => cases h
    | cons first next =>
      obtain ⟨hfirst, hnext⟩ := List.cons.inj h
      rw [List.cons_append, below?, if_pos (sameIgnoringCase_of_lower hfirst.symm), ih hnext]

theorem below?_eq_some_iff {steps path rest : List Component} :
    below? (· == ·) steps path = some rest ↔ path = steps ++ rest := by
  constructor
  · intro h
    induction steps generalizing path with
    | nil => exact Option.some.inj h
    | cons step more ih =>
      cases path with
      | nil => cases h
      | cons first next =>
        rw [below?] at h
        split at h
        · rename_i hsame
          rw [ih h, beq_iff_eq.1 hsame, List.cons_append]
        · cases h
  · rintro rfl
    exact Place.below?_append steps rest

/-- What is left of a path whose first steps are those of a directory in any letter case. -/
theorem under?_of_lower {front rest : List Component} (hpath : components path = front ++ rest)
    (hfront : front.map Component.lower = (components base).map Component.lower) :
    under? base path = some rest := by
  rw [under?, hpath]
  cases hexact : below? (· == ·) (components base) (front ++ rest) with
  | none => exact below?_of_lower hfront
  | some found =>
    have hlength := congrArg List.length hfront
    rw [List.length_map, List.length_map] at hlength
    rw [(List.append_inj (below?_eq_some_iff.1 hexact) hlength).2]

theorem asciiLower_opening_congr (h : Text.asciiLower other = Text.asciiLower base) :
    Text.asciiLower (opening other) = Text.asciiLower (opening base) := by
  have hlast : other.toList.getLast? = some '/' ↔ base.toList.getLast? = some '/' := by
    have hlower := congrArg (fun s => s.toList.getLast?) h
    simp only [Text.toList_asciiLower, List.getLast?_map] at hlower
    cases ho : other.toList.getLast? <;> cases hb : base.toList.getLast? <;>
      simp only [ho, hb, Option.map_none, Option.map_some, reduceCtorEq, Option.some.injEq] at hlower ⊢
    rw [← Text.toLower_eq_iff (by decide), hlower, Text.toLower_eq_iff (by decide)]
  unfold opening
  simp only [hlast]
  split <;> simp [h]

/-- A path that goes on by names differs in letter case only if the directory and the names do. -/
theorem asciiLower_foldl_join {names' : List String} (habs : isAbsolute base = true)
    (hsame : Text.asciiLower other = Text.asciiLower base) (hnames : Place.Named names)
    (hlower : Place.lower names' = Place.lower names) :
    Text.asciiLower (names'.foldl join other) = Text.asciiLower (names.foldl join base) := by
  have hother : isAbsolute other = true := by
    rw [← isAbsolute_asciiLower, hsame, isAbsolute_asciiLower, habs]
  by_cases hne : names = []
  · subst hne
    rw [Place.lower_nil, Place.lower_eq_nil] at hlower
    rw [hlower, List.foldl_nil, List.foldl_nil, hsame]
  · have hne' : names' ≠ [] := fun hnil => hne (Place.lower_eq_nil.1 (by rw [← hlower, hnil, Place.lower_nil]))
    have hnames' : Place.Named names' := fun name hname => by
      have hmem : Text.asciiLower name ∈ Place.lower names := hlower ▸ List.mem_map_of_mem hname
      exact isName_asciiLower_iff.1 (hnames.lower _ hmem)
    rw [foldl_join (ne_empty_of_isAbsolute habs) hne hnames,
      foldl_join (ne_empty_of_isAbsolute hother) hne' hnames', Text.asciiLower_append,
      Text.asciiLower_append, Text.joined, Text.joined, Place.asciiLower_joined, Place.asciiLower_joined,
      asciiLower_opening_congr hsame, hlower]

/-- **What is left of a path below a directory is left of it in any letter case.** -/
theorem under?_of_same {rest : List Component}
    (hpath : components path = components base ++ rest) (habs : isAbsolute path = true)
    (hsame : Text.asciiLower other = Text.asciiLower path) :
    ∃ rest', under? base other = some rest' ∧ rest'.map Component.lower = rest.map Component.lower := by
  have hother : isAbsolute other = true := by
    rw [← isAbsolute_asciiLower, hsame, isAbsolute_asciiLower, habs]
  have hlower := congrArg components hsame
  rw [components_asciiLower hother, components_asciiLower habs, hpath, List.map_append] at hlower
  obtain ⟨front, rest', hsplit, hfront, hrest⟩ := List.map_eq_append_iff.1 hlower
  exact ⟨rest', under?_of_lower hsplit hfront, hrest⟩

/-- A directory that is written in another letter case has the same steps below it. -/
theorem under?_foldl_join_of_same (habs : isAbsolute base = true)
    (hsame : Text.asciiLower other = Text.asciiLower base) (hnames : Place.Named names) :
    isAbsolute other = true ∧ under? base (names.foldl join other) = some (names.map .name) := by
  have hother : isAbsolute other = true := by
    rw [← isAbsolute_asciiLower, hsame, isAbsolute_asciiLower, habs]
  have hlower := congrArg components hsame
  rw [components_asciiLower hother, components_asciiLower habs] at hlower
  have hpath : components (names.foldl join other) = components other ++ names.map .name := by
    by_cases hne : names = []
    · rw [hne, List.foldl_nil, List.map_nil, List.append_nil]
    · exact components_foldl_join hother hne hnames
  exact ⟨hother, under?_of_lower hpath hlower⟩

end Path

end SiteHost
