import SiteHost.Proofs.Site.Respelling
import SiteHost.Proofs.Site.Watching

/-!
# Warm sites in a changing directory

Edits below the root that are reported leave a warm site warm, for the disk as it is then:

* `Sources.EditedBy`, `Edited` — an edit, and several, of which reports tell;
* `occupied_of_readUnit` — the directory of a unit that is read is there, with the unit in it;
* `readUnit_of_agree`, `globalUnit_of_agree` — a unit is read as before if nothing has changed on the
  way to its files.

Principal results:

* `agree_of_not_hits` — nothing has changed on the way to the files of a unit if the edit is not
  about them;
* `Sources.EditedBy.tells` — an artifact is what the sources amount to, after an edit as before it, if
  no eviction was meant for it;
* `Warm.edits` — what is still in the cache when the reports have been heard is what the sources
  amount to after the edits.
-/

namespace SiteHost

open Place

variable {src : Sources} {d d' : Disk} {root : Place} {dirs : List String} {file name : String}
  {texts : UnitTexts} {e : Edit} {reports : List Report}

/-! ## What does not depend on the rest of the disk -/

theorem Disk.exists?_of_readText?_eq_none {path : String} (h : d.readText? path = .ok none) :
    d.exists? path = false := by
  unfold readText? readText read at h
  unfold exists?
  cases hres : d.resolve path with
  | error e => rfl
  | ok found =>
    obtain ⟨place, node⟩ := found
    rw [hres] at h
    cases node with
    | directory => simp [bind, Except.bind, throw, throwThe, MonadExceptOf.throw] at h
    | file content =>
      simp only [bind, Except.bind, pure, Except.pure, throw, throwThe, MonadExceptOf.throw] at h
      split at h
      · cases h
      · rename_i hnone
        split at hnone <;> cases hnone
      · cases h

/-- The directory of a unit that is read is there, with the unit in it. -/
theorem occupied_of_readUnit (hl : src.locator.At root)
    (hscript : src.locator.convention.IsScript dirs file)
    (h : src.readUnit (src.locator.unitAt (dirs ++ [file])) = .ok (some texts)) :
    src.disk.Occupied root dirs := by
  obtain ⟨hopen, hdir⟩ := open_of_readUnit hl hscript.names h
  obtain ⟨⟨hread, hmarkup⟩, htext⟩ := exists_of_readUnit h
  rw [Locator.path_unitAt hl hscript.named] at hread
  rw [Locator.markupPath_unitAt hl hscript.named] at hmarkup
  have hmarkupName := Convention.isName_markupName hl.plain.markup.noSlash hscript.file_isName
  refine .of_open hopen hdir ?_
  rcases htext with ⟨text, htext⟩ | ⟨text, htext⟩
  · rw [htext] at hread
    obtain ⟨-, -, content, hnode⟩ :=
      Disk.of_readText?_eq_some (hl.named.append hscript.named) hread
    exact ⟨file, hscript.file_isName, by simp [hnode]⟩
  · rw [htext] at hmarkup
    obtain ⟨-, -, content, hnode⟩ :=
      Disk.of_readText?_eq_some (hl.named.append (hscript.named_markup hl.plain.markup.noSlash)) hmarkup
    exact ⟨_, hmarkupName, by simp [hnode]⟩

/-- A global unit that counts lies in a directory that is there. -/
theorem occupied_of_globalUnit (hl : src.locator.At root) {a : Artifact}
    (h : src.globalUnit = .ok (some a)) : src.disk.Occupied root [] := by
  have hnamed := (Locator.isScript_globalName hl).named
  have hpath : src.locator.globalUnit.path = Place.path (root ++ [src.locator.globalName]) :=
    Locator.path_unitAt hl hnamed
  have hexists : src.disk.exists? src.locator.globalUnit.path = true := by
    rw [← Bool.not_eq_false]
    intro habsent
    simp [Sources.globalUnit, habsent] at h
  unfold Disk.exists? at hexists
  cases hres : src.disk.resolve src.locator.globalUnit.path with
  | error e =>
    rw [hres] at hexists
    cases hexists
  | ok found =>
    obtain ⟨place, node⟩ := found
    rw [hpath] at hres
    obtain ⟨-, -, hopen, -⟩ := (Disk.resolve_eq_ok_iff (hl.named.append hnamed)).1 hres
    rw [Disk.open_append, List.nil_append] at hopen
    refine ⟨fun q hq => ?_, fun hne => absurd rfl hne⟩
    rw [List.append_nil] at hq
    exact Disk.node?_of_open hopen.1 hopen.2.1 hq

/-- A unit is read as before if nothing has changed on the way to its files. -/
theorem readUnit_of_agree (hl : src.locator.At root)
    (hscript : src.locator.convention.IsScript dirs file)
    (h : ∀ name, name = file ∨ name = src.locator.convention.markupName file →
      src.disk.Agree d' (root ++ (dirs ++ [name]))) :
    ({ src with disk := d' } : Sources).readUnit (src.locator.unitAt (dirs ++ [file])) =
      src.readUnit (src.locator.unitAt (dirs ++ [file])) := by
  unfold Sources.readUnit Sources.readOptional
  dsimp only
  rw [Locator.path_unitAt hl hscript.named, Locator.markupPath_unitAt hl hscript.named,
    Disk.readText?_congr (hl.named.append hscript.named) (h file (.inl rfl)),
    Disk.readText?_congr (hl.named.append (hscript.named_markup hl.plain.markup.noSlash)) (h _ (.inr rfl))]

/-- A unit whose script is there is read under its very spelling, if at all. -/
theorem readUnit_ne_none {unit : Identity} (h : src.disk.exists? unit.path = true) :
    src.readUnit unit ≠ .ok none := by
  intro hnone
  obtain ⟨script, markup, hscript, -, htexts⟩ := readUnit_eq_ok_iff.1 hnone
  cases script with
  | none =>
    rw [Disk.exists?_of_readText?_eq_none hscript] at h
    cases h
  | some text => simp at htexts

/-- Such a unit amounts to what it did if it is read as before. -/
theorem unit_of_readUnit {unit : Identity} (hthere : src.disk.exists? unit.path = true)
    (hread : ({ src with disk := d' } : Sources).readUnit unit = src.readUnit unit)
    (references : List Artifact) :
    ({ src with disk := d' } : Sources).unit unit references = src.unit unit references := by
  have hsome := readUnit_ne_none hthere
  have hfind : ({ src with disk := d' } : Sources).findUnit unit = src.findUnit unit := by
    unfold Sources.findUnit
    rw [hread]
    cases hunit : src.readUnit unit with
    | error e => rfl
    | ok texts? =>
      cases texts? with
      | none => exact absurd hunit hsome
      | some texts => rfl
  unfold Sources.unit
  rw [hfind]
  rfl

/-- The global unit amounts to what it did if nothing has changed on the way to its files. -/
theorem globalUnit_of_agree (hl : src.locator.At root)
    (hfoundation : ({ src with disk := d' } : Sources).foundation = src.foundation)
    (h : ∀ name, name = src.locator.globalName ∨
        name = src.locator.convention.markupName src.locator.globalName →
      src.disk.Agree d' (root ++ [name])) :
    ({ src with disk := d' } : Sources).globalUnit = src.globalUnit := by
  have hscript := Locator.isScript_globalName hl
  have hread := readUnit_of_agree hl hscript h
  rw [← Locator.globalUnit_eq] at hread
  have hpath : src.locator.globalUnit.path = Place.path (root ++ [src.locator.globalName]) :=
    Locator.path_unitAt hl hscript.named
  have hexists : d'.exists? src.locator.globalUnit.path =
      src.disk.exists? src.locator.globalUnit.path := by
    rw [hpath]
    exact Disk.exists?_congr (hl.named.append hscript.named) (h _ (.inl rfl))
  unfold Sources.globalUnit
  dsimp only
  rw [hexists]
  split
  · rename_i hthere
    unfold Sources.globalArtifact
    rw [hfoundation]
    simp only [unit_of_readUnit hthere hread]
  · rfl

/-! ## What an edit leaves alone -/

/-- **Nothing has changed on the way to the files of a unit if the edit is not about them.** -/
theorem agree_of_not_hits {l : Locator} (hl : l.At root) (hscript : l.convention.IsScript dirs file)
    (he : e.WellFormed) (h : e.apply root.path d = .ok d') (htidy : d'.Tidy root.path)
    (hdirs : d.Occupied root dirs) (hname : name = file ∨ name = l.convention.markupName file)
    (hhits : ¬ e.Hits (dirs ++ [name])) : d.Agree d' (root ++ (dirs ++ [name])) := by
  obtain ⟨hsource, hnamed, -⟩ := Locator.unitOfFile?_of_files hl hscript hname
  refine (Edit.agree_or_hits hl.named hnamed he h hdirs fun hdir => ?_).resolve_right hhits
  exact htidy.notMem_dot hl.named hnamed hdir (Convention.dot_of_isSourceName hsource)

/-- Directories that are there have no dot in their names. -/
theorem notMem_dot_of_occupied (hroot : Named root) (hnames : Named dirs) (htidy : d.Tidy root.path)
    (hdirs : d.Occupied root dirs) (above : List String) (last : String)
    (h : above ++ [last] <+: dirs) : '.' ∉ last.toList :=
  htidy.notMem_dot hroot (hnames.above h)
    (hdirs.above _ ((List.prefix_append_right_inj root).2 h))

/-! ## Warm sites -/

/-- An edit below the root of a site that reports tell of. Names stay in lower case and the base
library stays as it is. -/
structure Sources.EditedBy (src : Sources) (root : Place) (e : Edit) (reports : List Report)
    (d' : Disk) : Prop where
  site : src.locator.At root
  before : src.disk.Tidy root.path
  wellFormed : e.WellFormed
  apply : e.apply root.path src.disk = .ok d'
  reported : e.Reported root.path reports
  after : d'.Tidy root.path
  foundation : ({ src with disk := d' } : Sources).foundation = src.foundation

namespace Sources.EditedBy

variable {entry : Entry Artifact} {a : Artifact}

/-- The global unit amounts to what it did if the edit is not about its files. -/
theorem globalUnit (h : src.EditedBy root e reports d') (hdirs : src.disk.Occupied root dirs)
    (hhits : ∀ name, name = src.locator.globalName ∨
      name = src.locator.convention.markupName src.locator.globalName → ¬ e.Hits [name]) :
    ({ src with disk := d' } : Sources).globalUnit = src.globalUnit := by
  refine globalUnit_of_agree h.site h.foundation fun name hname => ?_
  exact agree_of_not_hits h.site (Locator.isScript_globalName h.site) h.wellFormed h.apply h.after
    hdirs.outermost hname (hhits name hname)

/-- A unit is read as before if no eviction was meant for it. -/
theorem readUnit (h : src.EditedBy root e reports d')
    (hscript : src.locator.convention.IsScript dirs file)
    (hread : src.readUnit (src.locator.unitAt (dirs ++ [file])) = .ok (some texts))
    (hkey : entry.identity.key = (src.locator.unitAt (dirs ++ [file])).key)
    (hspared : ∀ ev ∈ src.locator.heard reports, ¬ ev.Covers entry) :
    ({ src with disk := d' } : Sources).readUnit (src.locator.unitAt (dirs ++ [file])) =
      .ok (some texts) := by
  have hdirs := occupied_of_readUnit h.site hscript hread
  rw [readUnit_of_agree h.site hscript fun name hname => ?_, hread]
  refine agree_of_not_hits h.site hscript h.wellFormed h.apply h.after hdirs hname fun hhits => ?_
  obtain ⟨ev, hev, hcovers⟩ := Locator.covers_of_hits h.site hscript hname h.wellFormed
    (notMem_dot_of_occupied h.site.named hscript.named.left h.before hdirs) h.reported hhits
  exact hspared ev hev (hcovers entry hkey)

/-- A unit other than the global one amounts to what it did if no eviction was meant for it. -/
theorem ordinary (h : src.EditedBy root e reports d')
    (hscript : src.locator.convention.IsScript dirs file)
    (hold : src.ordinary (src.locator.unitAt (dirs ++ [file])) = .ok a)
    (hkey : entry.identity.key = (src.locator.unitAt (dirs ++ [file])).key)
    (htier : entry.tier = .leaf) (hspared : ∀ ev ∈ src.locator.heard reports, ¬ ev.Covers entry) :
    ({ src with disk := d' } : Sources).ordinary (src.locator.unitAt (dirs ++ [file])) = .ok a := by
  have hlower := hscript.lower
  have hsplit : lower (dirs ++ [file]) = lower dirs ++ [Text.asciiLower file] := by simp
  obtain ⟨foundation, globalUnit, texts, hf, hg, hread, ha⟩ :=
    (ordinary_eq_ok_iff h.site h.before hscript).1 hold
  rw [hsplit] at hread
  have hglobal := h.globalUnit (occupied_of_readUnit h.site hlower hread) fun name hname hhits =>
    hspared _ (Locator.leaves_of_hits h.site hname h.wellFormed h.reported hhits).1 htier
  have hkey' : entry.identity.key =
      (src.locator.unitAt (lower dirs ++ [Text.asciiLower file])).key := by
    rw [hkey, Locator.key_eq_iff h.site hscript.named hlower.named (by simp) (by simp)
      hscript.ascii hlower.ascii]
    simp
  have hread' := h.readUnit hlower hread hkey' hspared
  rw [← hsplit] at hread'
  have hiff := @ordinary_eq_ok_iff { src with disk := d' } root dirs file h.site h.after hscript a
  exact hiff.2 ⟨foundation, globalUnit, texts, h.foundation.trans hf, hglobal.trans hg, hread', ha⟩

/-- **What an artifact was made of is still there if no eviction was meant for it.** -/
theorem tells (h : src.EditedBy root e reports d') {key : String} (htells : src.Tells key a)
    (hkey : entry.identity.key = key) (htier : entry.tier = src.locator.tierOf key)
    (hspared : ∀ ev ∈ src.locator.heard reports, ¬ ev.Covers entry) :
    ({ src with disk := d' } : Sources).Tells key a := by
  refine ⟨fun hlayer => ?_, fun hlayer => ?_, fun hlayer unit hunit hunitKey => ?_⟩
  · exact h.foundation.trans (htells.foundation hlayer)
  · have hold := htells.globalUnit hlayer
    have hown := Locator.eq_of_tierOf_eq_siteGlobal hlayer
    refine (h.globalUnit (occupied_of_globalUnit h.site hold) fun name hname hhits => ?_).trans hold
    obtain ⟨-, ev, hev, hcovers⟩ :=
      Locator.leaves_of_hits h.site hname h.wellFormed h.reported hhits
    exact hspared ev hev (hcovers entry (hkey.trans hown))
  · have hold := htells.leaf hlayer unit hunit hunitKey
    obtain ⟨dirs, file, hscript, rfl⟩ := hunit
    exact h.ordinary hscript hold (hkey.trans hunitKey.symm) (htier.trans hlayer) hspared

end Sources.EditedBy

/-- Edits below a path, one after the other, all of which reports tell of. Names stay in lower case
and the shared references stay as they are. -/
inductive Edited (root : String) (shared : List String) (reports : List Report) (d : Disk) :
    Disk → Prop where
  | none : Edited root shared reports d d
  | next {d' d'' : Disk} (e : Edit) : Edited root shared reports d d' → e.WellFormed →
      e.apply root d' = .ok d'' → e.Reported root reports → d''.Tidy root →
      (∀ path ∈ shared, d''.readText path = d'.readText path) →
      Edited root shared reports d d''

variable {shared : List String}

theorem Edited.tidy {r : String} (h : Edited r shared reports d d') (htidy : d.Tidy r) :
    d'.Tidy r := by
  cases h with
  | none => exact htidy
  | next _ _ _ _ _ htidy' _ => exact htidy'

theorem Edited.keeps (h : Edited root.path shared reports d d') (hroot : Named root) :
    d.Keeps d' root := by
  induction h with
  | none => exact .refl d root
  | next _ _ he happly _ _ _ ih => exact ih.trans (Edit.keeps hroot he happly)

/-- The base library depends on the disk only by the shared references. -/
theorem Sources.foundation_congr
    (h : ∀ path ∈ src.sharedReferences, d'.readText path = src.disk.readText path) :
    ({ src with disk := d' } : Sources).foundation = src.foundation := by
  have hshared : ({ src with disk := d' } : Sources).shared = src.shared := by
    unfold Sources.shared
    dsimp only
    generalize src.sharedReferences = paths at h
    induction paths with
    | nil => rfl
    | cons path rest ih =>
      rw [List.mapM_cons, List.mapM_cons, h path List.mem_cons_self,
        ih fun p hp => h p (List.mem_cons_of_mem _ hp)]
  unfold Sources.foundation
  rw [hshared]

/-- What an artifact was made of is still there after all edits. -/
theorem Sources.Tells.edits {key : String} {a : Artifact} (h : src.Tells key a)
    (hl : src.locator.At root) (htidy : src.disk.Tidy root.path)
    (hedits : Edited root.path src.sharedReferences reports src.disk d')
    {entry : Entry Artifact} (hkey : entry.identity.key = key)
    (htier : entry.tier = src.locator.tierOf key)
    (hspared : ∀ ev ∈ src.locator.heard reports, ¬ ev.Covers entry) :
    ({ src with disk := d' } : Sources).Tells key a := by
  induction hedits with
  | none => exact h
  | @next d' d'' e hbefore he happly hreported htidy'' hshared ih =>
    have hstep : ({ src with disk := d' } : Sources).EditedBy root e reports d'' :=
      ⟨hl, hbefore.tidy htidy, he, happly, hreported, htidy'', Sources.foundation_congr hshared⟩
    exact hstep.tells ih hkey htier hspared

/-- **Reported edits leave a warm site warm.** What is still in the cache when the reports have been
heard is what the sources amount to after the edits. -/
theorem Warm.edits {s : LiveSite} (h : Warm src [] s) (hl : src.locator.At root)
    (htidy : src.disk.Tidy root.path)
    (hedits : Edited root.path src.sharedReferences reports src.disk d') :
    Warm { src with disk := d' } []
      { s with cache := (src.locator.heard reports).foldl Cache.evicted s.cache } := by
  have horderly := h.orderly.thinned (Cache.thinned_foldl s.cache (src.locator.heard reports))
  refine .of_orderly h.locator h.shared (horderly.mono fun key a hat htells => ?_)
  obtain ⟨-, id, entry, hid, hentry, hkey, hspared⟩ := Cache.spared_of_built h.sound hat
  exact htells.edits hl htidy hedits hkey (h.tiers key id hid entry hentry) hspared

end SiteHost
