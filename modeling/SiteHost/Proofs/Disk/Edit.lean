import SiteHost.Disk.Change
import SiteHost.Proofs.Disk.Canonical
import SiteHost.Proofs.Disk.Tidy

/-!
# What a change of a disk leaves alone

* `Edit` — a change of the files and directories below a path;
* `Edit.Hits` — whether an edit is about some names or about a directory above them;
* `Disk.Occupied` — a directory is there, with something in it.

Principal results:

* `node?_put_of_ne`, `node?_clear`, `node?_relocated` — what stays where it is;
* `Edit.agree_or_hits` — an edit that is not about a file, nor about a directory above it, changes
  nothing on the way to the file.
-/

namespace SiteHost

namespace Disk

open Place

variable {d d' : Disk} {p q r source target : Place} {node : Node}

/-! ## Places below a place -/

/-- What lies within a place is what it begins. -/
theorem isWithin_iff (hp : Named p) (hne : p ≠ []) (hq : Named q) :
    isWithin p q.path = true ↔ p <+: q := by
  unfold isWithin
  rw [Bool.or_eq_true, beq_iff_eq, List.isPrefixOf_iff_prefix, opening_eq hne]
  constructor
  · rintro (h | ⟨rest, hrest⟩)
    · obtain rfl := path_injective hq hp h
      exact List.prefix_refl _
    · refine ⟨(Text.pieces '/' (.ofList rest)).filter (· != ""), ?_⟩
      rw [← filter_pieces_path hq]
      conv_lhs => rw [← filter_pieces_path hp]
      rw [← List.filter_append, Text.pieces, Text.pieces, Text.pieces, ← List.map_append,
        String.toList_ofList, ← Text.cut_append, ← hrest]
      simp
  · rintro ⟨rest, rfl⟩
    by_cases hrest : rest = []
    · exact .inl (by rw [hrest, List.append_nil])
    · refine .inr ⟨(String.intercalate "/" rest).toList, ?_⟩
      rw [path_append p hrest, ← toList_path_of_ne_nil hne]
      simp

theorem node?_put_of_ne (hp : Named p) (hq : Named q) (hne : q ≠ p) :
    (d.put p node).node? q = d.node? q := by
  unfold node? put
  split
  · rfl
  · exact NameMap.get?_insert_of_ne _ (fun h => hne (path_injective hq hp h)) _

/-- What is not below a place stays when the place is cleared. -/
theorem node?_clear (hp : Named p) (hne : p ≠ []) (hq : Named q) (h : ¬ p <+: q) :
    (d.clear p).node? q = d.node? q := by
  unfold node? clear
  split
  · rfl
  · refine NameMap.get?_filter _ fun _ => ?_
    rw [Bool.not_eq_true', ← Bool.not_eq_true, isWithin_iff hp hne hq]
    exact h

/-- Whatever is moved comes to lie within its new place. -/
theorem isWithin_rebase (hs : source ≠ []) (ht : target ≠ []) {path : String}
    (h : isWithin source path = true) : isWithin target (rebase source target path) = true := by
  unfold isWithin at h
  rw [Bool.or_eq_true, beq_iff_eq, List.isPrefixOf_iff_prefix, opening_eq hs] at h
  unfold rebase Text.stripStart?
  rcases h with rfl | ⟨rest, hrest⟩
  · rw [if_pos (List.isPrefixOf_iff_prefix.2 (List.prefix_refl _))]
    simp [isWithin]
  · have hpre : source.path.toList <+: path.toList :=
      ⟨'/' :: rest, by rw [← hrest]; simp⟩
    rw [if_pos (List.isPrefixOf_iff_prefix.2 hpre)]
    have hdrop : path.toList.drop source.path.toList.length = '/' :: rest := by
      rw [← hrest, List.append_assoc, List.drop_left]
      rfl
    rw [hdrop, isWithin, Bool.or_eq_true, List.isPrefixOf_iff_prefix, opening_eq ht]
    exact .inr ⟨rest, by simp⟩

theorem get?_foldl_insert {entries : List (String × Node)} {f : String → String} {name : String}
    (h : ∀ e ∈ entries, name ≠ f e.1) (d : Disk) :
    (entries.foldl (fun d e => { d with nodes := d.nodes.insert (f e.1) e.2 }) d).nodes.get? name =
      d.nodes.get? name := by
  induction entries generalizing d with
  | nil => rfl
  | cons e rest ih =>
    rw [List.foldl_cons, ih fun e he => h e (List.mem_cons_of_mem _ he)]
    exact NameMap.get?_insert_of_ne _ (h e List.mem_cons_self) _

/-! ## Where paths lead -/

theorem locate_eq_ok (hp : Named p) (h : d.locate p.path = .ok q) : q = p ∧ d.Open [] p := by
  cases hok : malformed? p.path with
  | some e =>
    rw [locate, hok] at h
    cases h
  | none =>
    rw [locate_path hp hok] at h
    obtain ⟨hq, hopen⟩ := (walk_eq_ok_iff hp).1 h
    exact ⟨hq, hopen⟩

/-- A file is written where no directory stands; nothing else changes. -/
theorem write_eq_ok (hp : Named p) {content : ByteArray} (h : d.write p.path content = .ok d') :
    d' = d.put p (.file content) ∧ d.node? p ≠ some .directory := by
  unfold write at h
  rcases hloc : d.locate p.path with e | place
  · rw [hloc] at h
    cases h
  · rw [hloc] at h
    obtain ⟨rfl, -⟩ := locate_eq_ok hp hloc
    simp only [bind, Except.bind] at h
    split at h
    · cases h
    · rename_i hnode
      cases h
      exact ⟨rfl, by simp [hnode]⟩
    · rename_i hnode
      split at h
      · cases h
        exact ⟨rfl, by simp [hnode]⟩
      · cases h
      · cases h

theorem remove_eq_ok (hp : Named p) (h : d.remove p.path = .ok d') : d' = d.clear p := by
  unfold remove at h
  rcases hres : d.resolve p.path with e | ⟨place, node⟩
  · rw [hres] at h
    cases h
  · rw [hres] at h
    obtain ⟨rfl, -⟩ := (resolve_eq_ok_iff hp).1 hres
    cases h
    rfl

/-- Directories are made where nothing stands; nothing else changes. -/
theorem node?_makeAlong (hp : Named p) {names : List String} (hnames : Named names) (hq : Named q) :
    (d.makeAlong p names).2.node? q = d.node? q ∨
      (d.node? q = none ∧ (d.makeAlong p names).2.node? q = some .directory) := by
  induction names generalizing d p with
  | nil => exact .inl rfl
  | cons name rest ih =>
    have hname := hnames name List.mem_cons_self
    have hrest : Named rest := fun n hn => hnames n (List.mem_cons_of_mem _ hn)
    have hnext : Named (p ++ [name]) := hp.append (named_singleton hname)
    rw [makeAlong]
    simp only [if_neg hname.ne_here, if_neg hname.ne_parent]
    split
    · exact .inl rfl
    · split
      · exact ih hnext hrest
      · exact .inl rfl
      · rename_i hnone
        have hput : (d.put (p ++ [name]) .directory).node? (p ++ [name]) = some .directory := by
          simp [node?, put]
        by_cases hne : q = p ++ [name]
        · subst hne
          rcases @ih (d.put (p ++ [name]) .directory) _ hnext hrest with h | ⟨h, -⟩
          · exact .inr ⟨hnone, by rw [h, hput]⟩
          · rw [hput] at h
            cases h
        · have hsame := @node?_put_of_ne d _ _ .directory hnext hq hne
          rcases @ih (d.put (p ++ [name]) .directory) _ hnext hrest with h | ⟨h, hdir⟩
          · exact .inl (h.trans hsame)
          · exact .inr ⟨hsame ▸ h, hdir⟩

theorem node?_makeDirectories (hp : Named p) (hne : p ≠ []) (hq : Named q) :
    (d.makeDirectories p.path).2.node? q = d.node? q ∨
      (d.node? q = none ∧ (d.makeDirectories p.path).2.node? q = some .directory) := by
  unfold makeDirectories
  rw [if_neg (path_ne_empty p)]
  split
  · exact .inl rfl
  · rw [start_path, steps_path hp hne]
    exact node?_makeAlong (fun _ h => by cases h) hp hq

/-- The disk on which everything below one place has come to lie below another. -/
def relocated (d : Disk) (source target : Place) : Disk :=
  (d.nodes.toList.filter fun e => isWithin source e.1).foldl (fun d e =>
      { d with nodes := d.nodes.insert (rebase source target e.1) e.2 })
    ((d.clear source).clear target)

theorem node?_relocated (hs : Named source) (hsne : source ≠ []) (ht : Named target)
    (htne : target ≠ []) (hq : Named q) (hsource : ¬ source <+: q) (htarget : ¬ target <+: q) :
    (d.relocated source target).node? q = d.node? q := by
  have hclear := (node?_clear (d := d.clear source) ht htne hq htarget).trans
    (node?_clear hs hsne hq hsource)
  unfold node? at hclear ⊢
  split
  · rfl
  · rename_i hne
    rw [if_neg hne, if_neg hne] at hclear
    rw [← hclear, relocated, get?_foldl_insert]
    intro e he heq
    have hwithin := isWithin_rebase hsne htne (List.mem_filter.1 he).2
    rw [← heq, isWithin_iff ht htne hq] at hwithin
    exact htarget hwithin

/-- What is moved takes the place of no directory with something in it. -/
theorem move_eq_ok (hs : Named source) (ht : Named target)
    (h : d.move source.path target.path = .ok d') :
    d' = d ∨ (d' = d.relocated source target ∧
      (d.node? target = some .directory → d.names target = [])) := by
  unfold move at h
  rcases hres : d.resolve source.path with e | ⟨place, moved⟩
  · rw [hres] at h
    cases h
  rcases hloc : d.locate target.path with e | place'
  · rw [hres, hloc] at h
    cases h
  rw [hres, hloc] at h
  obtain ⟨rfl, -⟩ := (resolve_eq_ok_iff hs).1 hres
  obtain ⟨rfl, -⟩ := locate_eq_ok ht hloc
  simp only [bind, Except.bind, pure, Except.pure, throw, throwThe, MonadExceptOf.throw] at h
  split at h
  · cases h
    exact .inl rfl
  · split at h
    · cases h
    · split at h
      · split at h
        · cases h
        · cases h
        · rename_i hdir _
          split at h
          · cases h
          · rename_i hempty
            cases h
            exact .inr ⟨rfl, fun _ => by simpa using hempty⟩
        · rename_i moved _ _ hfile _ hdir
          cases h
          refine .inr ⟨rfl, fun hthere => ?_⟩
          cases moved with
          | file content => exact (hfile content rfl hthere).elim
          | directory => exact (hdir rfl hthere).elim
      · cases h
      · cases h

/-! ## The working directory -/

@[simp] theorem workingDirectory_makeAlong (d : Disk) (p : Place) (steps : List String) :
    (d.makeAlong p steps).2.workingDirectory = d.workingDirectory := by
  induction steps generalizing d p with
  | nil => rfl
  | cons step rest ih =>
    rw [makeAlong]
    split
    · exact ih d p
    · split
      · exact ih d p.dropLast
      · split
        · rfl
        · dsimp only
          split
          · exact ih d _
          · rfl
          · exact ih _ _

@[simp] theorem workingDirectory_makeDirectories (d : Disk) (path : String) :
    (d.makeDirectories path).2.workingDirectory = d.workingDirectory := by
  unfold makeDirectories
  split
  · rfl
  · split
    · rfl
    · exact workingDirectory_makeAlong d _ _

@[simp] theorem workingDirectory_relocated (d : Disk) (source target : Place) :
    (d.relocated source target).workingDirectory = d.workingDirectory := by
  have hfold : ∀ (entries : List (String × Node)) (d : Disk), (entries.foldl (fun d e =>
      { d with nodes := d.nodes.insert (rebase source target e.1) e.2 }) d).workingDirectory =
        d.workingDirectory := by
    intro entries
    induction entries with
    | nil => exact fun _ => rfl
    | cons e rest ih => exact fun d => ih _
  exact hfold _ _

/-! ## Directories with something in them -/

/-- Whether directories below a place are there with all above them, the last with something in it
unless it is the place itself. -/
structure Occupied (d : Disk) (root : Place) (dirs : List String) : Prop where
  above : ∀ q, q <+: root ++ dirs → d.node? q = some .directory
  inside : dirs ≠ [] → d.names (root ++ dirs) ≠ []

variable {root : Place} {dirs : List String} {name : String}

/-- Names that lead down to a directory lead through directories. -/
theorem node?_of_open (hopen : d.Open [] p) (hdir : d.node? p = some .directory) (h : q <+: p) :
    d.node? q = some .directory := by
  obtain ⟨rest, rfl⟩ := h
  cases rest with
  | nil => simpa using hdir
  | cons name more => exact (open_append.1 hopen).2.1

/-- The directory of something that is there. -/
theorem Occupied.of_open (hopen : d.Open [] (root ++ dirs))
    (hdir : d.node? (root ++ dirs) = some .directory)
    (hthere : ∃ name, Path.IsName name ∧ (d.node? (root ++ dirs ++ [name])).isSome = true) :
    d.Occupied root dirs := by
  refine ⟨fun q hq => node?_of_open hopen hdir hq, fun _ hempty => ?_⟩
  obtain ⟨name, hname, hnode⟩ := hthere
  have hmem : name ∈ d.names (root ++ dirs) := mem_names.2 ⟨hname.ne_empty, hname.noSlash, hnode⟩
  rw [hempty] at hmem
  cases hmem

/-- The place that everything lies below is there. -/
theorem Occupied.outermost (h : d.Occupied root dirs) : d.Occupied root [] :=
  ⟨fun q hq => h.above q (hq.trans (by simp)), fun hne => absurd rfl hne⟩

/-- No directory on the way down is empty. -/
theorem Occupied.names_ne_nil (h : d.Occupied root dirs) (hdirs : Named dirs) {above : List String}
    (hne : above ≠ []) (habove : above <+: dirs) : d.names (root ++ above) ≠ [] := by
  obtain ⟨rest, rfl⟩ := habove
  cases rest with
  | nil =>
    rw [List.append_nil] at h
    exact h.inside hne
  | cons name more =>
    have hname : Path.IsName name := hdirs name (by simp)
    have hnode : d.node? (root ++ above ++ [name]) = some .directory :=
      h.above _ ⟨more, by simp⟩
    have hmem : name ∈ d.names (root ++ above) :=
      mem_names.2 ⟨hname.ne_empty, hname.noSlash, Option.isSome_iff_exists.2 ⟨_, hnode⟩⟩
    intro hempty
    rw [hempty] at hmem
    cases hmem

end Disk

/-! ## Edits -/

/-- A change of the files and directories below a path. Places are told by the names that lead
there. -/
inductive Edit where
  | write (names : List String) (content : ByteArray)
  | makeDirectories (names : List String)
  | remove (names : List String)
  | move (source target : List String)
  deriving Inhabited

namespace Edit

open Place Disk

/-- The places that an edit names. -/
def places : Edit → List (List String)
  | .write names _ | .makeDirectories names | .remove names => [names]
  | .move source target => [source, target]

/-- The places where an edit puts something in the place of something else. -/
def touched : Edit → List (List String)
  | .makeDirectories _ => []
  | e => e.places

/-- Whether an edit names places below the path only. -/
def WellFormed (e : Edit) : Prop := ∀ names ∈ e.places, names ≠ [] ∧ Named names

instance (e : Edit) : Decidable e.WellFormed :=
  List.decidableBAll (fun names => names ≠ [] ∧ Named names) e.places

/-- Does an edit below a path. -/
def apply (e : Edit) (root : String) (d : Disk) : Except DiskError Disk :=
  match e with
  | .write names content => d.write (names.foldl Path.join root) content
  | .makeDirectories names => .ok (d.makeDirectories (names.foldl Path.join root)).2
  | .remove names => d.remove (names.foldl Path.join root)
  | .move source target => d.move (source.foldl Path.join root) (target.foldl Path.join root)

/-- Whether an edit is about some names or about a directory above them. -/
def Hits (e : Edit) (names : List String) : Prop :=
  match e with
  | .write written _ => written = names
  | .makeDirectories _ => False
  | .remove removed => removed <+: names
  | .move source target => source <+: names ∨ target = names

variable {d d' : Disk} {root q : Place} {dirs names : List String} {name : String} {e : Edit}

/-- The places that an edit names lie below the path. -/
theorem WellFormed.path_place (he : e.WellFormed) (hroot : Named root) (hmem : names ∈ e.places) :
    Named (root ++ names) ∧ root ++ names ≠ [] ∧
      names.foldl Path.join root.path = Place.path (root ++ names) := by
  obtain ⟨hne, hnamed⟩ := he names hmem
  exact ⟨hroot.append hnamed, by simp [hne], foldl_join_path hroot hnamed⟩

/-- What an edit does not touch stays, but for directories that are made where nothing stood. -/
theorem node?_of_untouched (hroot : Named root) (he : e.WellFormed)
    (h : e.apply root.path d = .ok d') (hq : Named q)
    (hout : ∀ names ∈ e.touched, ¬ root ++ names <+: q) :
    d'.node? q = d.node? q ∨ (d.node? q = none ∧ d'.node? q = some .directory) := by
  cases e with
  | write written content =>
    obtain ⟨hw, -, hpath⟩ := he.path_place hroot (show written ∈ _ from List.mem_cons_self)
    rw [apply, hpath] at h
    obtain ⟨rfl, -⟩ := write_eq_ok hw h
    refine .inl (node?_put_of_ne hw hq ?_)
    rintro rfl
    exact hout written List.mem_cons_self (List.prefix_refl _)
  | makeDirectories made =>
    obtain ⟨hm, hne, hpath⟩ := he.path_place hroot (show made ∈ _ from List.mem_cons_self)
    rw [apply, hpath] at h
    cases h
    exact node?_makeDirectories hm hne hq
  | remove removed =>
    obtain ⟨hr, hne, hpath⟩ := he.path_place hroot (show removed ∈ _ from List.mem_cons_self)
    rw [apply, hpath] at h
    obtain rfl := remove_eq_ok hr h
    exact .inl (node?_clear hr hne hq (hout removed List.mem_cons_self))
  | move source target =>
    obtain ⟨hs, hsne, hspath⟩ := he.path_place hroot (show source ∈ _ from List.mem_cons_self)
    obtain ⟨ht, htne, htpath⟩ :=
      he.path_place hroot (show target ∈ _ from List.mem_cons_of_mem _ List.mem_cons_self)
    rw [apply, hspath, htpath] at h
    rcases move_eq_ok hs ht h with rfl | ⟨rfl, -⟩
    · exact .inl rfl
    · exact .inl (node?_relocated hs hsne ht htne hq (hout source List.mem_cons_self)
        (hout target (List.mem_cons_of_mem _ List.mem_cons_self)))

/-- **An edit that is not about a file, nor about a directory above it, changes nothing on the way to
the file.** No edit puts something in the place of a directory that is occupied. -/
theorem agree_or_hits (hroot : Named root) (hnames : Named (dirs ++ [name])) (he : e.WellFormed)
    (h : e.apply root.path d = .ok d') (hdirs : d.Occupied root dirs)
    (hfile : d'.node? (root ++ (dirs ++ [name])) ≠ some .directory) :
    d.Agree d' (root ++ (dirs ++ [name])) ∨ e.Hits (dirs ++ [name]) := by
  have habove : ∀ q, q <+: root ++ (dirs ++ [name]) → q ≠ root ++ (dirs ++ [name]) →
      d.node? q = some .directory := by
    intro q hq hne
    rw [← List.append_assoc] at hq hne
    exact hdirs.above q ((List.prefix_concat_iff.1 hq).resolve_left hne)
  by_cases hin : ∃ names ∈ e.touched, names <+: dirs ++ [name]
  · obtain ⟨names, hmem, hpre⟩ := hin
    have hdir : names ≠ dirs ++ [name] → d.node? (root ++ names) = some .directory :=
      fun hne => habove _ ((List.prefix_append_right_inj root).2 hpre)
        fun heq => hne (List.append_cancel_left heq)
    cases e with
    | write written content =>
      obtain rfl := List.mem_singleton.1 hmem
      obtain ⟨hw, -, hpath⟩ := he.path_place hroot hmem
      rw [apply, hpath] at h
      exact .inr (by_contra fun hne => (write_eq_ok hw h).2 (hdir hne))
    | makeDirectories made => cases hmem
    | remove removed =>
      obtain rfl := List.mem_singleton.1 hmem
      exact .inr hpre
    | move source target =>
      have htarget : target ∈ (Edit.move source target).places :=
        List.mem_cons_of_mem _ List.mem_cons_self
      obtain ⟨hs, -, hspath⟩ := he.path_place hroot (show source ∈ _ from List.mem_cons_self)
      obtain ⟨ht, -, htpath⟩ := he.path_place hroot htarget
      rw [apply, hspath, htpath] at h
      rcases List.mem_cons.1 hmem with rfl | hmem
      · exact .inr (.inl hpre)
      obtain rfl := List.mem_singleton.1 hmem
      rcases move_eq_ok hs ht h with rfl | ⟨-, hempty⟩
      · exact .inl fun _ _ => rfl
      · -- the target is no directory above the file, since those have something in them
        refine .inr (.inr (by_contra fun hne => ?_))
        have hpre' := (List.prefix_concat_iff.1 hpre).resolve_left hne
        exact hdirs.names_ne_nil hnames.left (he _ htarget).1 hpre' (hempty (hdir hne))
  · refine .inl fun q hq => ?_
    have hout : ∀ names ∈ e.touched, ¬ root ++ names <+: q := fun names hmem hle =>
      hin ⟨names, hmem, (List.prefix_append_right_inj root).1 (hle.trans hq)⟩
    rcases node?_of_untouched hroot he h ((hroot.append hnames).above hq) hout with
      hsame | ⟨hnone, hmade⟩
    · exact hsame
    · by_cases heq : q = root ++ (dirs ++ [name])
      · exact absurd (heq ▸ hmade) hfile
      · rw [habove q hq heq] at hnone
        cases hnone

theorem workingDirectory_apply (hroot : Named root) (he : e.WellFormed)
    (h : e.apply root.path d = .ok d') : d'.workingDirectory = d.workingDirectory := by
  cases e with
  | write written content =>
    obtain ⟨hw, -, hpath⟩ := he.path_place hroot (show written ∈ _ from List.mem_cons_self)
    rw [apply, hpath] at h
    rw [(write_eq_ok hw h).1]
    rfl
  | makeDirectories made =>
    cases h
    exact workingDirectory_makeDirectories d _
  | remove removed =>
    obtain ⟨hr, -, hpath⟩ := he.path_place hroot (show removed ∈ _ from List.mem_cons_self)
    rw [apply, hpath] at h
    rw [remove_eq_ok hr h]
    rfl
  | move source target =>
    obtain ⟨hs, -, hspath⟩ := he.path_place hroot (show source ∈ _ from List.mem_cons_self)
    obtain ⟨ht, -, htpath⟩ :=
      he.path_place hroot (show target ∈ _ from List.mem_cons_of_mem _ List.mem_cons_self)
    rw [apply, hspath, htpath] at h
    rcases move_eq_ok hs ht h with rfl | ⟨rfl, -⟩
    · rfl
    · exact workingDirectory_relocated d _ _

/-- **An edit below a path leaves what stands above and at the path, and the working directory.** -/
theorem keeps (hroot : Named root) (he : e.WellFormed) (h : e.apply root.path d = .ok d') :
    d.Keeps d' root := by
  refine ⟨workingDirectory_apply hroot he h, fun q node hq hnode => ?_⟩
  have hout : ∀ names ∈ e.touched, ¬ root ++ names <+: q := by
    intro names hmem hle
    have hplace : names ∈ e.places := by
      cases e <;> first | exact hmem | cases hmem
    have hself : root ++ names <+: root ++ [] := by simpa using hle.trans hq
    exact (he names hplace).1 (List.prefix_nil.1 ((List.prefix_append_right_inj root).1 hself))
  rcases node?_of_untouched hroot he h (hroot.above hq) hout with hsame | ⟨hnone, -⟩
  · rw [hsame, hnode]
  · rw [hnode] at hnone
    cases hnone

end Edit

end SiteHost
