import SiteHost.Disk.Basic

/-!
# Places and their paths

* `Path.IsName` — a text that stands for one step down from a directory;
* `Place.Named` — a place all of whose names are such;
* `Disk.Open` — whether names lead down from a place: every directory on the way is there, and no name
  is too long;
* `Disk.Agree` — two disks with the same nodes on the way to a place.

Principal results:

* `Place.components_path`, `Place.path_injective` — the path of a place means its names;
* `Disk.walk_eq_ok_iff`, `Disk.resolve_eq_ok_iff` — where the path of a place leads;
* `Disk.resolve_congr` — it depends on nothing but the nodes on the way;
* `Disk.mem_names` — the names in a directory are those of the nodes in it.
-/

namespace SiteHost

/-! ## Pieces of text -/

namespace Text

theorem cut_of_notMem {sep : Char} {cs : List Char} (h : sep ∉ cs) : cut sep cs = [cs] := by
  induction cs with
  | nil => rfl
  | cons c rest ih =>
    have hc : c ≠ sep := fun hc => h (by simp [hc])
    have hrest : sep ∉ rest := fun hmem => h (by simp [hmem])
    simp only [cut, if_neg hc, ih hrest]

/-- A separator ends a piece. -/
theorem cut_append (sep : Char) (xs ys : List Char) :
    cut sep (xs ++ sep :: ys) = cut sep xs ++ cut sep ys := by
  induction xs with
  | nil => simp [cut]
  | cons c rest ih =>
    simp only [List.cons_append, cut, ih]
    split
    · rfl
    · cases hcut : cut sep rest with
      | nil => exact absurd hcut (cut_ne_nil sep rest)
      | cons piece more => rfl

/-- A piece has no separator, and only characters of the text. -/
theorem mem_of_mem_cut {sep : Char} {cs piece : List Char} (h : piece ∈ cut sep cs) :
    sep ∉ piece ∧ ∀ c ∈ piece, c ∈ cs := by
  induction cs generalizing piece with
  | nil =>
    rw [cut, List.mem_singleton] at h
    subst h
    simp
  | cons c rest ih =>
    simp only [cut] at h
    split at h
    · rcases List.mem_cons.1 h with rfl | hrest
      · simp
      · exact (ih hrest).imp_right fun hsub d hd => List.mem_cons_of_mem _ (hsub d hd)
    · rename_i hc
      cases hcut : cut sep rest with
      | nil => exact absurd hcut (cut_ne_nil sep rest)
      | cons first more =>
        rw [hcut] at h
        rcases List.mem_cons.1 h with rfl | hmore
        · obtain ⟨hsep, hsub⟩ := ih (hcut ▸ List.mem_cons_self)
          refine ⟨fun hmem => ?_, fun d hd => ?_⟩
          · rcases List.mem_cons.1 hmem with heq | hmem
            · exact hc heq.symm
            · exact hsep hmem
          · rcases List.mem_cons.1 hd with rfl | hd
            · exact List.mem_cons_self
            · exact List.mem_cons_of_mem _ (hsub d hd)
        · exact (ih (hcut ▸ List.mem_cons_of_mem _ hmore)).imp_right fun hsub d hd =>
            List.mem_cons_of_mem _ (hsub d hd)

theorem mem_of_mem_pieces {sep : Char} {s piece : String} (h : piece ∈ pieces sep s) :
    sep ∉ piece.toList ∧ ∀ c ∈ piece.toList, c ∈ s.toList := by
  obtain ⟨cs, hcs, rfl⟩ := List.mem_map.1 h
  simpa using mem_of_mem_cut hcs

theorem pieces_of_notMem {sep : Char} {s : String} (h : sep ∉ s.toList) : pieces sep s = [s] := by
  rw [pieces, cut_of_notMem h, List.map_singleton, String.ofList_toList]

theorem pieces_append (sep : Char) (a b : String) :
    pieces sep (a ++ String.singleton sep ++ b) = pieces sep a ++ pieces sep b := by
  have hsep : (a ++ String.singleton sep ++ b).toList = a.toList ++ sep :: b.toList := by simp
  rw [pieces, pieces, pieces, hsep, cut_append, List.map_append]

/-- Texts without a separator are the pieces of the text that has it between them. -/
theorem pieces_joined (sep : Char) {parts : List String} (hne : parts ≠ [])
    (h : ∀ part ∈ parts, sep ∉ part.toList) :
    pieces sep (joined (String.singleton sep) parts) = parts := by
  induction parts with
  | nil => exact absurd rfl hne
  | cons part rest ih =>
    have hpart : pieces sep part = [part] := pieces_of_notMem (h part List.mem_cons_self)
    by_cases hrest : rest = []
    · rw [hrest, joined, String.intercalate_singleton, hpart]
    · rw [joined, String.intercalate_cons_of_ne_nil hrest, pieces_append, hpart, ← joined,
        ih hrest fun n hn => h n (List.mem_cons_of_mem part hn), List.singleton_append]

end Text

/-! ## Names -/

/-- A text that stands for one step down from a directory. -/
structure Path.IsName (name : String) : Prop where
  ne_empty : name ≠ ""
  noSlash : '/' ∉ name.toList
  ne_here : name ≠ "."
  ne_parent : name ≠ ".."

instance (name : String) : Decidable (Path.IsName name) :=
  decidable_of_iff (name ≠ "" ∧ '/' ∉ name.toList ∧ name ≠ "." ∧ name ≠ "..")
    ⟨fun ⟨h₁, h₂, h₃, h₄⟩ => ⟨h₁, h₂, h₃, h₄⟩, fun ⟨h₁, h₂, h₃, h₄⟩ => ⟨h₁, h₂, h₃, h₄⟩⟩

theorem Path.componentOf?_eq_name {piece text : String}
    (h : Path.componentOf? piece = some (.name text)) :
    piece = text ∧ text ≠ "" ∧ text ≠ "." ∧ text ≠ ".." := by
  unfold Path.componentOf? at h
  split at h
  · cases h
  · rename_i hne
    split at h
    · cases h
    · rename_i hparent
      cases h
      exact ⟨rfl, fun h => hne (.inl h), fun h => hne (.inr h), hparent⟩

/-- A name leads on from where it stands. -/
theorem Path.isAbsolute_of_isName {name : String} (h : Path.IsName name) : Path.isAbsolute name = false := by
  unfold Path.isAbsolute
  cases hl : name.toList with
  | nil => rfl
  | cons c rest =>
    have hslash := h.noSlash
    rw [hl] at hslash
    simpa using fun hc : c = '/' => hslash (by simp [hc])

theorem Path.IsName.componentOf? {name : String} (h : Path.IsName name) :
    Path.componentOf? name = some (.name name) := by
  simp [Path.componentOf?, h.ne_empty, h.ne_here, h.ne_parent]

namespace Place

/-- A place all of whose names are names. -/
def Named (place : Place) : Prop := ∀ name ∈ place, Path.IsName name

instance (p : Place) : Decidable p.Named := List.decidableBAll Path.IsName p

variable {p q : Place} {name : String}

theorem Named.append (hp : Named p) (hq : Named q) : Named (p ++ q) := by
  intro n hn
  rcases List.mem_append.1 hn with h | h
  · exact hp n h
  · exact hq n h

theorem Named.left (h : Named (p ++ q)) : Named p := fun n hn => h n (List.mem_append_left _ hn)

theorem Named.above (h : Named p) (hq : q <+: p) : Named q := fun n hn => h n (hq.subset hn)

theorem named_singleton (h : Path.IsName name) : Named [name] := by
  intro n hn
  rw [List.mem_singleton] at hn
  exact hn ▸ h

/-! ## The path of a place -/

theorem toList_path (p : Place) (name : String) :
    (Place.path (name :: p)).toList = (name :: p).flatMap fun n => '/' :: n.toList := by
  induction p generalizing name with
  | nil => simp [Place.path]
  | cons next rest ih =>
    have h := ih next
    simp only [Place.path, String.toList_append] at h ⊢
    rw [String.intercalate_cons_of_ne_nil (by simp)]
    simp only [String.toList_append, List.flatMap_cons, List.cons_append] at h ⊢
    simpa using h

/-- The path of something in a directory. -/
theorem toList_path_append_singleton (p : Place) (name : String) :
    (Place.path (p ++ [name])).toList = Disk.opening p ++ name.toList := by
  cases p with
  | nil => simp [Place.path, Disk.opening]
  | cons first rest =>
    rw [List.cons_append, toList_path, ← List.cons_append, List.flatMap_append, Disk.opening]
    simp

theorem toList_path_of_ne_nil (hp : p ≠ []) :
    p.path.toList = p.flatMap fun n => '/' :: n.toList := by
  cases p with
  | nil => exact absurd rfl hp
  | cons first rest => exact toList_path rest first

theorem opening_eq (hp : p ≠ []) : Disk.opening p = p.path.toList ++ ['/'] := by
  rw [toList_path_of_ne_nil hp, Disk.opening]

theorem isAbsolute_path (p : Place) : Path.isAbsolute p.path = true := by
  simp [Path.isAbsolute, Place.path]

theorem path_ne_empty (p : Place) : p.path ≠ "" := by
  intro h
  have := congrArg String.toList h
  simp [Place.path] at this

theorem cut_flatMap (hp : Named p) :
    Text.cut '/' (p.flatMap fun n => '/' :: n.toList) = [] :: p.map String.toList := by
  induction p with
  | nil => rfl
  | cons name rest ih =>
    have hname : '/' ∉ name.toList := (hp name List.mem_cons_self).noSlash
    have hrest := ih fun n hn => hp n (List.mem_cons_of_mem _ hn)
    rw [List.flatMap_cons, List.cons_append, Text.cut, if_pos rfl]
    cases rest with
    | nil => simp [Text.cut_of_notMem hname]
    | cons next more =>
      rw [List.flatMap_cons, List.cons_append] at hrest ⊢
      rw [Text.cut, if_pos rfl, List.cons.injEq] at hrest
      rw [Text.cut_append, Text.cut_of_notMem hname, hrest.2]
      rfl

theorem pieces_path (hp : Named p) (hne : p ≠ []) : Text.pieces '/' p.path = "" :: p := by
  rw [Text.pieces, toList_path_of_ne_nil hne, cut_flatMap hp]
  simp

theorem pieces_path_nil : Text.pieces '/' (Place.path []) = ["", ""] := by decide

theorem filter_pieces_path (hp : Named p) : (Text.pieces '/' p.path).filter (· != "") = p := by
  by_cases hne : p = []
  · subst hne
    rw [pieces_path_nil]
    rfl
  · rw [pieces_path hp hne]
    simpa using fun n hn => (hp n hn).ne_empty

/-- **A place is told by its path.** -/
theorem path_injective (hp : Named p) (hq : Named q) (h : p.path = q.path) : p = q := by
  rw [← filter_pieces_path hp, h, filter_pieces_path hq]

/-- **The path of a place means its names.** -/
theorem components_path (hp : Named p) : Path.components p.path = .root :: p.map .name := by
  unfold Path.components
  by_cases hne : p = []
  · subst hne
    decide
  · rw [pieces_path hp hne]
    simp only [isAbsolute_path, if_true, List.singleton_append, List.cons.injEq, true_and]
    clear hne
    induction p with
    | nil => rfl
    | cons name rest ih =>
      have hname := hp name List.mem_cons_self
      rw [List.filterMap_cons_some hname.componentOf?,
        ih fun n hn => hp n (List.mem_cons_of_mem _ hn)]
      rfl

theorem fileName?_path (hp : Named (p ++ [name])) :
    Path.fileName? (Place.path (p ++ [name])) = some name := by
  unfold Path.fileName?
  rw [components_path hp, List.map_append, ← List.cons_append, List.map_singleton,
    List.getLast?_concat]

/-- A slash stands at the end of the path to the root only. -/
theorem getLast?_path_ne (hp : Named p) (hne : p ≠ []) : p.path.toList.getLast? ≠ some '/' := by
  obtain ⟨init, last, rfl⟩ := (List.eq_nil_or_concat p).resolve_left hne
  rw [List.concat_eq_append, toList_path_append_singleton]
  have hnamed : Path.IsName last := hp last (by simp)
  have hnil : last.toList ≠ [] := by simpa using hnamed.ne_empty
  rw [List.getLast?_append, List.getLast?_eq_some_getLast hnil, Option.some_or]
  exact fun h => hnamed.noSlash (Option.some.inj h ▸ List.getLast_mem hnil)

/-- A path goes on by a name. -/
theorem join_path (hp : Named p) (hname : Path.IsName name) :
    Path.join p.path name = Place.path (p ++ [name]) := by
  unfold Path.join
  rw [if_neg (by simp [Path.isAbsolute_of_isName hname, path_ne_empty]), ← String.toList_inj]
  by_cases hne : p = []
  · subst hne
    simp [Place.path]
  · rw [if_neg (getLast?_path_ne hp hne), toList_path_append_singleton, opening_eq hne]
    simp

theorem foldl_join_path {names : List String} (hp : Named p) (hnames : Named names) :
    names.foldl Path.join p.path = Place.path (p ++ names) := by
  induction names generalizing p with
  | nil => simp
  | cons name rest ih =>
    have hname : Path.IsName name := hnames name List.mem_cons_self
    rw [List.foldl_cons, join_path hp hname, ih (hp.append (named_singleton hname))
      fun n hn => hnames n (List.mem_cons_of_mem _ hn), List.append_assoc, List.singleton_append]

theorem below?_append (base rest : List Path.Component) :
    Path.below? (· == ·) base (base ++ rest) = some rest := by
  induction base with
  | nil => rfl
  | cons b base ih => simp [Path.below?, ih]

/-- What is left of a path below a place. -/
theorem below?_path {names : List String} (hp : Named p) (hnames : Named names) :
    Path.below? (· == ·) (Path.components p.path) (Path.components (Place.path (p ++ names))) =
      some (names.map .name) := by
  rw [components_path hp, components_path (hp.append hnames), List.map_append, ← List.cons_append,
    below?_append]

theorem under?_path {names : List String} (hp : Named p) (hnames : Named names) :
    Path.under? p.path (Place.path (p ++ names)) = some (names.map .name) := by
  unfold Path.under?
  rw [below?_path hp hnames]

end Place

/-! ## Where paths lead -/

namespace Disk

open Place

variable {d d' : Disk} {p q : Place} {name : String}

/-- Whether names lead down from a place: every directory on the way is there, and no name is too
long. -/
def Open (d : Disk) (p : Place) : List String → Prop
  | [] => True
  | name :: rest =>
    d.node? p = some .directory ∧ name.utf8ByteSize ≤ nameLimit ∧ d.Open (p ++ [name]) rest

theorem open_append {p : Place} {xs ys : List String} :
    d.Open p (xs ++ ys) ↔ d.Open p xs ∧ d.Open (p ++ xs) ys := by
  induction xs generalizing p with
  | nil => simp [Open]
  | cons name rest ih => simp [Open, ih, and_assoc]

theorem walk_cons (hname : Path.IsName name) (p : Place) (rest : List String) :
    d.walk p (name :: rest) = match d.node? p with
      | none => .error .notFound
      | some (.file _) => .error .notADirectory
      | some .directory =>
        if nameLimit < name.utf8ByteSize then .error .nameTooLong
        else d.walk (p ++ [name]) rest := by
  rw [walk]
  cases d.node? p with
  | none => rfl
  | some node =>
    cases node with
    | file content => rfl
    | directory => simp only [if_neg hname.ne_here, if_neg hname.ne_parent]

theorem walk_append {p : Place} {xs : List String} (hxs : Named xs) (ys : List String) :
    d.walk p (xs ++ ys) = d.walk p xs >>= fun q => d.walk q ys := by
  induction xs generalizing p with
  | nil => rfl
  | cons name rest ih =>
    have hname := hxs name List.mem_cons_self
    have hrest : Named rest := fun n hn => hxs n (List.mem_cons_of_mem _ hn)
    rw [List.cons_append, walk_cons hname, walk_cons hname]
    cases d.node? p with
    | none => rfl
    | some node =>
      cases node with
      | file content => rfl
      | directory =>
        dsimp only
        split
        · rfl
        · exact ih hrest

/-- Names lead to the place that they name, if they lead down at all. -/
theorem walk_eq_ok_iff {p q : Place} {xs : List String} (hxs : Named xs) :
    d.walk p xs = .ok q ↔ q = p ++ xs ∧ d.Open p xs := by
  induction xs generalizing p with
  | nil => simp [walk, Open, eq_comm]
  | cons name rest ih =>
    have hname := hxs name List.mem_cons_self
    have hrest : Named rest := fun n hn => hxs n (List.mem_cons_of_mem _ hn)
    rw [walk_cons hname, Open]
    cases hnode : d.node? p with
    | none => simp
    | some node =>
      cases node with
      | file content => simp
      | directory =>
        dsimp only
        split
        · rename_i hlong
          simp [Nat.not_le.2 hlong]
        · rename_i hshort
          rw [ih hrest]
          simp [Nat.not_lt.1 hshort]

/-- Two disks with the same nodes on the way to a place. -/
def Agree (d d' : Disk) (p : Place) : Prop := ∀ q, q <+: p → d'.node? q = d.node? q

theorem walk_congr {p : Place} {xs : List String} (hxs : Named xs) (h : Agree d d' (p ++ xs)) :
    d'.walk p xs = d.walk p xs := by
  induction xs generalizing p with
  | nil => rfl
  | cons name rest ih =>
    have hname := hxs name List.mem_cons_self
    have hrest : Named rest := fun n hn => hxs n (List.mem_cons_of_mem _ hn)
    rw [walk_cons hname, walk_cons hname, h p (List.prefix_append p _)]
    rw [ih hrest (by rwa [List.append_assoc, List.singleton_append])]

theorem start_path (d : Disk) (p : Place) : d.start p.path = [] := by
  rw [start, if_pos (isAbsolute_path p)]

theorem steps_path (hp : Named p) (hne : p ≠ []) : steps p.path = p := by
  have hfilter := filter_pieces_path hp
  have hlast : (Text.pieces '/' p.path).getLast? ≠ some "" := by
    rw [pieces_path hp hne]
    obtain ⟨init, last, rfl⟩ := (List.eq_nil_or_concat p).resolve_left hne
    rw [List.concat_eq_append, ← List.cons_append, List.getLast?_concat]
    exact fun h => (hp last (by simp)).ne_empty (Option.some.inj h)
  simp [steps, hfilter, hlast]

/-- The path of a place is walked from the root along its names. -/
theorem locate_path (hp : Named p) (hok : malformed? p.path = none) :
    d.locate p.path = d.walk [] p := by
  unfold locate
  rw [hok, start_path]
  by_cases hne : p = []
  · subst hne
    rfl
  · rw [steps_path hp hne]

theorem resolve_eq_ok_iff (hp : Named p) {node : Node} : d.resolve p.path = .ok (q, node) ↔
    q = p ∧ malformed? p.path = none ∧ d.Open [] p ∧ d.node? p = some node := by
  unfold resolve
  cases hok : malformed? p.path with
  | some e => simp [locate, hok, bind, Except.bind]
  | none =>
    rw [locate_path hp hok]
    cases hwalk : d.walk [] p with
    | error e =>
      have hnot : ¬ d.Open [] p := fun hopen => by
        rw [(walk_eq_ok_iff hp).2 ⟨rfl, hopen⟩] at hwalk
        cases hwalk
      simp [hnot, bind, Except.bind]
    | ok place =>
      obtain ⟨hplace, hopen⟩ := (walk_eq_ok_iff hp).1 hwalk
      rw [List.nil_append] at hplace
      rw [hplace]
      cases hnode : d.node? p with
      | none => simp [bind, Except.bind, hnode, throw, throwThe, MonadExceptOf.throw]
      | some found =>
        simp [bind, Except.bind, hnode, hopen, pure, Except.pure, eq_comm]

/-- **Where the path of a place leads depends on nothing but the nodes on the way.** -/
theorem resolve_congr (hp : Named p) (h : Agree d d' p) : d'.resolve p.path = d.resolve p.path := by
  unfold resolve
  cases hok : malformed? p.path with
  | some e => simp [locate, hok, bind, Except.bind]
  | none =>
    rw [locate_path hp hok, locate_path hp hok, walk_congr hp (by simpa using h)]
    cases hwalk : d.walk [] p with
    | error e => rfl
    | ok place =>
      obtain ⟨hplace, -⟩ := (walk_eq_ok_iff hp).1 hwalk
      rw [List.nil_append] at hplace
      simp only [bind, Except.bind, hplace, h p (List.prefix_refl p)]

theorem readText?_congr (hp : Named p) (h : Agree d d' p) :
    d'.readText? p.path = d.readText? p.path := by
  unfold readText? readText read
  rw [resolve_congr hp h]

theorem exists?_congr (hp : Named p) (h : Agree d d' p) : d'.exists? p.path = d.exists? p.path := by
  unfold exists?
  rw [resolve_congr hp h]

/-- A file that is read is there. -/
theorem of_readText?_eq_some (hp : Named p) {text : String}
    (h : d.readText? p.path = .ok (some text)) : d.Open [] p ∧ malformed? p.path = none ∧
      ∃ content, d.node? p = some (.file content) := by
  unfold readText? readText read at h
  cases hres : d.resolve p.path with
  | error e =>
    rw [hres] at h
    cases e <;> simp [bind, Except.bind] at h
  | ok found =>
    obtain ⟨place, node⟩ := found
    obtain ⟨rfl, hok, hopen, hnode⟩ := (resolve_eq_ok_iff hp).1 hres
    rw [hres] at h
    cases node with
    | directory => simp [bind, Except.bind, throw, throwThe, MonadExceptOf.throw] at h
    | file content => exact ⟨hopen, hok, content, hnode⟩

/-- Where something is read, whether or not it is there, the path is well formed and its name is not
too long. -/
theorem open_of_readText?_eq_ok (hp : Named (p ++ [name])) (hopen : d.Open [] p)
    (hdir : d.node? p = some .directory) {text : Option String}
    (h : d.readText? (Place.path (p ++ [name])) = .ok text) :
    d.Open [] (p ++ [name]) ∧ malformed? (Place.path (p ++ [name])) = none := by
  have hlocate : ∀ e, d.locate (Place.path (p ++ [name])) = .error e → e = .notFound := by
    intro e he
    unfold readText? readText read resolve at h
    rw [he] at h
    cases e <;> first | rfl | simp [bind, Except.bind] at h
  have hok : malformed? (Place.path (p ++ [name])) = none := by
    cases hbad : malformed? (Place.path (p ++ [name])) with
    | none => rfl
    | some e =>
      have he : e = .notFound := hlocate e (by rw [locate, hbad])
      rw [he] at hbad
      unfold malformed? at hbad
      rw [if_neg (path_ne_empty _)] at hbad
      split at hbad
      · cases hbad
      · split at hbad <;> cases hbad
  refine ⟨?_, hok⟩
  rw [open_append, List.nil_append]
  refine ⟨hopen, hdir, Nat.not_lt.1 fun hlong => ?_, trivial⟩
  have hwalk : d.locate (Place.path (p ++ [name])) = .error .nameTooLong := by
    rw [locate_path hp hok, walk_append hp.left, (walk_eq_ok_iff hp.left).2 ⟨rfl, hopen⟩,
      List.nil_append]
    change d.walk p [name] = _
    rw [walk_cons (hp name (by simp)), hdir]
    exact if_pos hlong
  cases hlocate _ hwalk

/-! ## Names in a directory -/

/-- The names in a directory are those of the nodes in it. -/
theorem mem_names : name ∈ d.names p ↔
    name ≠ "" ∧ '/' ∉ name.toList ∧ (d.node? (p ++ [name])).isSome = true := by
  unfold names
  rw [List.mem_filterMap]
  have hnode : d.node? (p ++ [name]) = d.nodes.get? (Place.path (p ++ [name])) := by
    simp [node?]
  rw [hnode, Option.isSome_iff_exists]
  constructor
  · rintro ⟨path, hpath, hname⟩
    obtain ⟨node, hget⟩ := NameMap.mem_keys.1 hpath
    cases hstrip : Text.stripStart? (opening p) path.toList with
    | none => simp [hstrip] at hname
    | some rest =>
      simp only [hstrip, Option.ite_none_left_eq_some, Option.some.injEq, Bool.or_eq_true,
        List.isEmpty_iff, List.contains_eq_mem, decide_eq_true_eq, not_or] at hname
      obtain ⟨⟨hne, hslash⟩, rfl⟩ := hname
      refine ⟨by simpa using hne, by simpa using hslash, node, ?_⟩
      rw [← hget]
      congr 1
      rw [← String.toList_inj, toList_path_append_singleton, String.toList_ofList]
      unfold Text.stripStart? at hstrip
      split at hstrip
      · rename_i hpre
        obtain ⟨tail, htail⟩ := List.isPrefixOf_iff_prefix.1 hpre
        cases hstrip
        rw [← htail, List.drop_left]
      · cases hstrip
  · rintro ⟨hne, hslash, node, hget⟩
    refine ⟨_, NameMap.mem_keys.2 ⟨node, hget⟩, ?_⟩
    have hstrip : Text.stripStart? (opening p) (Place.path (p ++ [name])).toList =
        some name.toList := by
      rw [toList_path_append_singleton, Text.stripStart?,
        if_pos (List.isPrefixOf_iff_prefix.2 (List.prefix_append _ _)), List.drop_left]
    rw [hstrip]
    simp [hne, hslash]

end Disk

end SiteHost
