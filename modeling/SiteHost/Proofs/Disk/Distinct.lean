import SiteHost.Proofs.Disk.Tidy

/-!
# Disks whose names differ in more than letter case

Where no two names in one directory are equal but for the case of ASCII letters, a path leads to something
under one spelling only:

* `Disk.Distinct` — below a place, no two names in one directory are equal ignoring ASCII case.

Principal results:

* `walk_of_distinct` — another spelling of a path that leads down leads to nothing, or down as well;
* `readText?_of_distinct` — so that nothing is read under it unless something stands there.
-/

namespace SiteHost.Disk

open Place

variable {d : Disk} {p root : Place} {name : String} {names spelled : List String}

/-- Below a place, no two names in one directory are equal ignoring ASCII case. -/
def Distinct (d : Disk) (p : Place) : Prop :=
  ∀ below, Named below → ∀ a ∈ d.names (p ++ below), ∀ b ∈ d.names (p ++ below),
    Text.eqIgnoringAsciiCase a b = true → a = b

theorem Distinct.step (h : d.Distinct p) (hname : Path.IsName name) : d.Distinct (p ++ [name]) := by
  intro below hbelow
  have hassoc : p ++ [name] ++ below = p ++ (name :: below) := by simp
  rw [hassoc]
  exact h _ ((named_singleton hname).append hbelow)

theorem Distinct.here (h : d.Distinct p) {a b : String} (ha : a ∈ d.names p) (hb : b ∈ d.names p)
    (hsame : Text.asciiLower a = Text.asciiLower b) : a = b :=
  h [] (fun _ hn => absurd hn List.not_mem_nil) a (by simpa using ha) b (by simpa using hb)
    (Text.eqIgnoringAsciiCase_iff.2 hsame)

/-- Whether names are distinct can be read off the entries of a disk. -/
theorem Distinct.of_entries
    (h : ∀ a ∈ d.nodes.keys, ∀ b ∈ d.nodes.keys, Text.eqIgnoringAsciiCase a b = true → a = b) :
    d.Distinct root := by
  intro below _ a ha b hb hsame
  have hkey : ∀ name, name ∈ d.names (root ++ below) →
      Place.path (root ++ below ++ [name]) ∈ d.nodes.keys := by
    intro name hname
    obtain ⟨node, hnode⟩ := Option.isSome_iff_exists.1 (mem_names.1 hname).2.2
    rw [node?, if_neg (by simp)] at hnode
    exact NameMap.mem_keys.2 ⟨node, hnode⟩
  rw [Text.eqIgnoringAsciiCase_iff, ← String.toList_inj, Text.toList_asciiLower,
    Text.toList_asciiLower] at hsame
  have hpath := h _ (hkey a ha) _ (hkey b hb) <| Text.eqIgnoringAsciiCase_iff.2 <| by
    rw [← String.toList_inj, Text.toList_asciiLower, Text.toList_asciiLower,
      toList_path_append_singleton, toList_path_append_singleton, List.map_append, hsame,
      List.map_append]
  rw [← String.toList_inj, toList_path_append_singleton, toList_path_append_singleton] at hpath
  exact String.toList_inj.1 (List.append_cancel_left hpath)

theorem mem_names_of_isName (hname : Path.IsName name) (h : (d.node? (p ++ [name])).isSome = true) :
    name ∈ d.names p := mem_names.2 ⟨hname.ne_empty, hname.noSlash, h⟩

/-- Where names lead down to something, the first of them is that of something. -/
theorem isSome_of_open {rest : List String} (hopen : d.Open p (name :: rest))
    (hnode : (d.node? (p ++ name :: rest)).isSome = true) : (d.node? (p ++ [name])).isSome = true := by
  cases rest with
  | nil => exact hnode
  | cons next more => simp [hopen.2.2.1]

/-- **Another spelling of names that lead down leads to nothing, or down as well.** -/
theorem walk_of_distinct (h : d.Distinct p) (hnames : Named names) (hspelled : Named spelled)
    (hopen : d.Open p names) (hsame : lower spelled = lower names) :
    d.walk p spelled = .error .notFound ∨ d.walk p spelled = .ok (p ++ spelled) := by
  induction names generalizing p spelled with
  | nil =>
    rw [lower_nil, lower_eq_nil] at hsame
    subst hsame
    exact .inr (by simp [walk])
  | cons name rest ih =>
    cases spelled with
    | nil => cases hsame
    | cons other more =>
      rw [lower_cons, lower_cons] at hsame
      obtain ⟨hfirst, hmore⟩ := List.cons.inj hsame
      have hother := hspelled other List.mem_cons_self
      have hrest : Named more := fun n hn => hspelled n (List.mem_cons_of_mem _ hn)
      obtain ⟨hdir, hsize, hdown⟩ := hopen
      rw [← Text.utf8ByteSize_asciiLower, ← hfirst, Text.utf8ByteSize_asciiLower] at hsize
      have hwalk : d.walk p (other :: more) = d.walk (p ++ [other]) more := by
        rw [walk_cons hother, hdir]
        exact if_neg (Nat.not_lt.2 hsize)
      rw [hwalk]
      cases more with
      | nil => exact .inr rfl
      | cons next last =>
        cases hnode : d.node? (p ++ [other]) with
        | none =>
          refine .inl ?_
          rw [walk_cons (hrest next List.mem_cons_self), hnode]
        | some node =>
          -- something stands there, so that it is the directory that leads down
          have hname := hnames name List.mem_cons_self
          have hthere : (d.node? (p ++ [name])).isSome = true := by
            cases rest with
            | nil => cases hmore
            | cons _ _ => simp [hdown.1]
          obtain rfl : other = name := h.here (mem_names_of_isName hother (by simp [hnode]))
            (mem_names_of_isName hname hthere) hfirst
          have hassoc : p ++ other :: next :: last = p ++ [other] ++ next :: last := by simp
          rw [hassoc]
          exact ih (h.step hother) (fun n hn => hnames n (List.mem_cons_of_mem _ hn)) hrest hdown hmore

/-- What it means that something stands at a place. -/
theorem exists?_iff (hp : Named p) : d.exists? p.path = true ↔
    malformed? p.path = none ∧ d.Open [] p ∧ (d.node? p).isSome = true := by
  unfold exists?
  constructor
  · intro h
    cases hres : d.resolve p.path with
    | error e =>
      rw [hres] at h
      cases h
    | ok found =>
      obtain ⟨q, node⟩ := found
      obtain ⟨rfl, hok, hopen, hnode⟩ := (resolve_eq_ok_iff hp).1 hres
      exact ⟨hok, hopen, by rw [hnode]; rfl⟩
  · rintro ⟨hok, hopen, hnode⟩
    obtain ⟨node, hnode⟩ := Option.isSome_iff_exists.1 hnode
    rw [(resolve_eq_ok_iff hp).2 ⟨rfl, hok, hopen, hnode⟩]
    rfl

/-- **Nothing is read under another spelling unless something stands there.** -/
theorem readText?_of_distinct (h : d.Distinct root) (hroot : Named root) (hnames : Named names)
    (hspelled : Named spelled) (hopen : d.Open [] (root ++ names))
    (hok : malformed? (Place.path (root ++ names)) = none) (hsame : lower spelled = lower names) :
    d.readText? (Place.path (root ++ spelled)) = .ok none ∨
      d.exists? (Place.path (root ++ spelled)) = true := by
  rw [← malformed?_lower, ← hsame, malformed?_lower] at hok
  rw [open_append, List.nil_append] at hopen
  have hlocate : d.locate (Place.path (root ++ spelled)) = d.walk root spelled := by
    rw [locate_path (hroot.append hspelled) hok, walk_append hroot,
      (walk_eq_ok_iff hroot).2 ⟨rfl, hopen.1⟩]
    rfl
  have hread : d.resolve (Place.path (root ++ spelled)) = .error .notFound →
      d.readText? (Place.path (root ++ spelled)) = .ok none := by
    intro hres
    rw [readText?, readText, read, hres]
    rfl
  unfold resolve at hread
  rw [hlocate] at hread
  rcases walk_of_distinct h hnames hspelled hopen.2 hsame with hwalk | hwalk
  · rw [hwalk] at hread
    exact .inl (hread rfl)
  · rw [hwalk] at hread
    cases hnode : d.node? (root ++ spelled) with
    | none => exact .inl (hread (by simp only [bind, Except.bind, hnode]; rfl))
    | some node =>
      refine .inr ((exists?_iff (hroot.append hspelled)).2 ⟨hok, ?_, by rw [hnode]; rfl⟩)
      rw [open_append, List.nil_append]
      exact ⟨hopen.1, ((walk_eq_ok_iff hspelled).1 hwalk).2⟩

end SiteHost.Disk
