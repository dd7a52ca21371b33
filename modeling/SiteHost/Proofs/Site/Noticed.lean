import SiteHost.Proofs.Cache.Forgotten
import SiteHost.Proofs.Site.Identities
import SiteHost.Proofs.Site.Keys
import SiteHost.Proofs.Site.Watching

/-!
# No report of a source is lost

What a watcher reports passes two tests by name, one when reports are made into changes and one when
changes are made into evictions. The file may be written in any letter case, with slashes repeated, and
may be markup, which has no entry of its own:

* `Convention.IsSourceOf` — whether a file name is that of a script, or of markup for it;
* `LiveSite.hear` — what reports do to a site.

Principal results:

* `Convention.exists_change` — every report with the path of a source amounts to a change of it;
* `Locator.unitOfFile?_source` — every source below the root belongs to the unit of its script;
* `LiveSite.outdated_hear` — **a report of a source puts its unit out of date**, and the leaves with the
  global unit.
-/

namespace SiteHost

/-! ## From reports to changes -/

namespace Convention

variable {c : Convention} {name path : String} {r : Report}

/-- Whether a file name is that of a script, or of markup for it, in any case of its suffix. -/
def IsSourceOf (c : Convention) (script name : String) : Prop :=
  c.isLeafName script = true ∧ (name = script ∨ ∃ suffix,
    Text.asciiLower suffix = Text.asciiLower c.markupSuffix ∧ name = script ++ "." ++ suffix)

/-- The name of a source is that of a script, or of markup for it. -/
theorem isSourceOf_scriptName (hc : c.Apart) (h : c.isSourceName name = true) :
    c.IsSourceOf (c.scriptName name) name := by
  rcases Bool.or_eq_true_iff.1 h with hleaf | hmarkup
  · rw [scriptName_of_isLeafName hc hleaf]
    exact ⟨hleaf, .inl rfl⟩
  · obtain ⟨script, suffix, hscript, rfl, hsuffix⟩ := isMarkupName_iff.1 hmarkup
    rw [scriptName_of_markup hscript hsuffix]
    exact ⟨hscript, .inr ⟨suffix, hsuffix, rfl⟩⟩

/-- **Every report with the path of a source amounts to a change of it**, unless it is of a kind that tells
of no change. -/
theorem exists_change
    (hraw : r.raw ∈ [.created, .removed, .written, .renamedTo, .renamedBoth, .renamed])
    (hboth : r.raw = .renamedBoth → r.paths.length ≤ 2) (hpath : path ∈ r.paths)
    (haccept : c.accepts path = true) : ∃ kind, ⟨path, kind⟩ ∈ c.changes [r] := by
  have hself := List.mem_singleton_self r
  have hgone := gone?_of_accepts haccept
  simp only [List.mem_cons, List.not_mem_nil, or_false] at hraw
  rcases hraw with h | h | h | h | h | h
  · exact ⟨_, mem_changes_of_modified hself (.inl h) hpath haccept⟩
  · exact ⟨_, mem_changes_of_gone hself (.inl h) hpath hgone⟩
  · exact ⟨_, mem_changes_of_modified hself (.inr (.inl h)) hpath haccept⟩
  · exact ⟨_, mem_changes_of_modified hself (.inr (.inr h)) hpath haccept⟩
  · obtain ⟨raw, paths⟩ := r
    dsimp only at h hpath hboth
    subst h
    -- of two paths the first is gone and the second holds something new
    match paths, hboth rfl with
    | [], _ => cases hpath
    | [first], _ =>
      obtain rfl := List.mem_singleton.1 hpath
      exact ⟨.renamed, by simp [changes, classify, hgone]⟩
    | [first, second], _ =>
      rcases List.mem_cons.1 hpath with rfl | hsecond
      · exact ⟨_, (mem_changes_of_both hself rfl rfl).1 hgone⟩
      · obtain rfl := List.mem_singleton.1 hsecond
        exact ⟨_, (mem_changes_of_both hself rfl rfl).2 haccept⟩
    | _ :: _ :: _ :: _, hlength => simp at hlength
  · exact ⟨_, mem_changes_of_gone hself (.inr h) hpath hgone⟩

end Convention

/-! ## From changes to units -/

/-- Steps that do not climb and end in a name lead along names, of which it is the last. -/
theorem namesOf?_concat {steps : List Path.Component} {name : String} (h : .parent ∉ steps)
    (hlast : steps.getLast? = some (.name name)) : ∃ dirs, namesOf? steps = some (dirs ++ [name]) := by
  induction steps with
  | nil => cases hlast
  | cons step rest ih =>
    rw [List.mem_cons, not_or] at h
    by_cases hrest : rest = []
    · subst hrest
      obtain rfl : step = .name name := Option.some.inj hlast
      exact ⟨[], rfl⟩
    · obtain ⟨first, more, rfl⟩ := List.exists_cons_of_ne_nil hrest
      rw [List.getLast?_cons_cons] at hlast
      obtain ⟨dirs, hdirs⟩ := ih h.2 hlast
      cases step with
      | root => exact ⟨dirs, hdirs⟩
      | here => exact ⟨dirs, hdirs⟩
      | parent => exact absurd rfl h.1
      | name text => exact ⟨text :: dirs, by rw [namesOf?, hdirs]; rfl⟩

namespace Locator

variable {l : Locator} {path name : String} {steps : List Path.Component}

/-- What is left of a path below the root ends as the path does. -/
theorem getLast?_of_under? (hunder : Path.under? l.root path = some steps) (hne : steps ≠ [])
    (hname : Path.fileName? path = some name) : steps.getLast? = some (.name name) := by
  obtain ⟨front, hfront⟩ := suffix_of_under? hunder
  unfold Path.fileName? at hname
  rw [← hfront, List.getLast?_append_of_ne_nil _ hne] at hname
  split at hname
  · rename_i text hlast
    cases hname
    exact hlast
  · cases hname

/-- **Every source below the root belongs to the unit of its script.** -/
theorem unitOfFile?_source (hunder : Path.under? l.root path = some steps) (hne : steps ≠ [])
    (hparent : .parent ∉ steps) (hname : Path.fileName? path = some name)
    (hsource : l.convention.isSourceName name = true) :
    ∃ dirs, namesOf? steps = some (dirs ++ [name]) ∧
      l.unitOfFile? path = some (l.unitAt (dirs ++ [l.convention.scriptName name])) := by
  have hlast := getLast?_of_under? hunder hne hname
  obtain ⟨dirs, hdirs⟩ := namesOf?_concat hparent hlast
  exact ⟨dirs, hdirs, (unitOfFile?_of_steps hunder hlast hdirs).trans (if_pos hsource)⟩

/-- The unit of a script is the global one if its name is that of the global unit, in any letter case. -/
theorem isGlobal_unitAt {script : String}
    (h : Text.eqIgnoringAsciiCase script l.globalName = true) : l.isGlobal (l.unitAt [script]) = true := by
  rw [Text.eqIgnoringAsciiCase_iff] at h
  have habsolute : Path.isAbsolute script = Path.isAbsolute l.globalName := by
    rw [← Path.isAbsolute_asciiLower, h, Path.isAbsolute_asciiLower]
  have hjoin : Text.asciiLower (Path.join l.root script) =
      Text.asciiLower (Path.join l.root l.globalName) := by
    unfold Path.join
    rw [habsolute]
    split
    · exact h
    · split <;> simp [h]
  exact isGlobal_iff.2 (Text.lower_congr hjoin)

end Locator

/-! ## From units to entries -/

namespace LiveSite

/-- A site takes notice of reports. -/
def hear (s : LiveSite) (reports : List Report) : LiveSite :=
  (s.locator.convention.changes reports).foldl (fun s change => (s.apply change).2) s

theorem hear_eq (s : LiveSite) (reports : List Report) : s.hear reports =
    { s with cache := (s.locator.heard reports).foldl Cache.evicted s.cache } :=
  foldl_apply_eq s _

/-- **A report of a source puts its unit out of date.** Whatever the cache has come to hold and build, and
for all naming rules that are accepted: when a file under the root is reported to be created, written,
removed or renamed, then the entry of the unit it belongs to, which for markup is that of the script,
holds neither an artifact nor a build, and no build that was running brings anything to it any more. If
the file is that of the global unit, no leaf holds an artifact or a build either. -/
theorem outdated_hear {sys : System Artifact} (hsys : sys.Reachable) {site : LiveSite}
    (hcache : site.cache = sys.cache) (hc : site.locator.convention.Accepted) {r : Report}
    (hraw : r.raw ∈ [.created, .removed, .written, .renamedTo, .renamedBoth, .renamed])
    (hboth : r.raw = .renamedBoth → r.paths.length ≤ 2) {path name : String} (hpath : path ∈ r.paths)
    {steps : List Path.Component} (hunder : Path.under? site.locator.root path = some steps)
    (hne : steps ≠ []) (hparent : .parent ∉ steps) (hname : Path.fileName? path = some name)
    (hsource : site.locator.convention.isSourceName name = true) :
    ∃ dirs script unit, namesOf? steps = some (dirs ++ [name]) ∧
      script = site.locator.convention.scriptName name ∧ site.locator.convention.IsSourceOf script name ∧
      unit = site.locator.unitAt (dirs ++ [script]) ∧
      sys.Outdated { sys with cache := (site.hear [r]).cache } unit.key ∧
      (site.locator.isGlobal unit = true ∨
          dirs = [] ∧ Text.eqIgnoringAsciiCase script site.locator.globalName = true →
        ¬ (site.hear [r]).cache.HoldsLeaf) := by
  obtain ⟨dirs, hdirs, hunit⟩ := Locator.unitOfFile?_source hunder hne hparent hname hsource
  have haccept : site.locator.convention.accepts path = true := by
    rw [Convention.accepts, hname]
    exact hsource
  obtain ⟨kind, hchange⟩ := Convention.exists_change hraw hboth hpath haccept
  obtain ⟨⟨ev, hmem, hcov⟩, hleaves⟩ := Locator.covers_of_file hunit hchange
  have hafter : (site.hear [r]).cache = (site.locator.heard [r]).foldl Cache.evicted sys.cache := by
    rw [hear_eq, hcache]
  rw [hafter]
  refine ⟨dirs, _, _, hdirs, rfl, Convention.isSourceOf_scriptName hc.apart hsource, rfl,
    System.outdated_evicted hsys.sound hmem hcov, fun hglobal => ?_⟩
  refine System.not_holdsLeaf_evicted hsys.sound (hleaves ?_)
  rcases hglobal with hsame | ⟨rfl, hscript⟩
  · exact hsame
  · exact Locator.isGlobal_unitAt hscript

/-- A site whose global unit and one page are being built. -/
def underWay : System Artifact := (System.start 1000).run
  [.enter ⟨"/srv/site/global.ks", "Site.global"⟩ .siteGlobal, .look 0,
    .enter ⟨"/srv/site/a.ks", "Site.a"⟩ .leaf, .look 1]

/-- A draft is moved to where the markup of the global unit belongs, and reported there in other letters. -/
theorem outdated_hear_moved : ∃ (site : LiveSite) (r : Report),
    site = ⟨⟨"/srv/site", .default⟩, [], underWay.cache, 0⟩ ∧
    r = ⟨.renamedBoth, ["/srv/site/draft", "/SRV/site//GLOBAL.ks.Html"]⟩ ∧
    underWay.cache.status? "/srv/site/global.ks" = some .building ∧ underWay.cache.HoldsLeaf ∧
    underWay.Outdated { underWay with cache := (site.hear [r]).cache } "/srv/site/global.ks" ∧
    ¬ (site.hear [r]).cache.HoldsLeaf := by
  refine ⟨_, _, rfl, rfl, rfl, ⟨1, _, ⟨"/srv/site/a.ks", rfl⟩, rfl, rfl, rfl⟩, ?_⟩
  have hreachable : underWay.Reachable := ⟨1000, _, rfl⟩
  have hcache : LiveSite.cache ⟨⟨"/srv/site", .default⟩, [], underWay.cache, 0⟩ = underWay.cache := rfl
  have hunder : Path.under? "/srv/site" "/SRV/site//GLOBAL.ks.Html" = some [.name "GLOBAL.ks.Html"] := by
    decide +kernel
  have hname : Path.fileName? "/SRV/site//GLOBAL.ks.Html" = some "GLOBAL.ks.Html" := by decide +kernel
  have hkey : (Locator.unitAt ⟨"/srv/site", .default⟩
      ([] ++ [Convention.default.scriptName "GLOBAL.ks.Html"])).key = "/srv/site/global.ks" := by
    decide +kernel
  obtain ⟨dirs, script, unit, hdirs, rfl, -, rfl, houtdated, hleaves⟩ := outdated_hear
    (r := ⟨.renamedBoth, ["/srv/site/draft", "/SRV/site//GLOBAL.ks.Html"]⟩) hreachable hcache
    Convention.accepted_default (by simp) (by simp) (by simp) hunder (by simp) (by simp) hname
    (by decide +kernel)
  obtain rfl : dirs = [] := by simpa [namesOf?] using hdirs
  exact ⟨hkey ▸ houtdated, hleaves (.inr ⟨rfl, by decide +kernel⟩)⟩

end LiveSite

end SiteHost
