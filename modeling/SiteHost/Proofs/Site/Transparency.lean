import SiteHost.Proofs.Cache.Orderly
import SiteHost.Proofs.Config.Suffixes
import SiteHost.Proofs.Site.Upkeep
import SiteHost.Site.Hosted

/-!
# Nobody can tell that a site has a cache

A live site answers every request as a site would that has just been started, whatever was asked for
and changed on disk before, so long as it has been told of the changes:

* `Site.hear` — a site takes notice of the reports of its watcher;
* `Site.History` — what happens to a site and its disk: edits that are reported, and requests;
* `Sources.answer` — what a request amounts to;
* `Site.Serves` — a site answers every request with what it amounts to.

Principal results:

* `Serves.create`, `Serves.hear` — requests and reported edits keep it so;
* `serves_start`, `History.serves` — it is so at the start, and at the end of every history;
* `cache_transparent` — a site and a fresh one answer alike.
-/

namespace SiteHost

open Place

/-- What a request amounts to. -/
def Sources.answer (src : Sources) (path : String) (args : List Script.Value) :
    Except Failure Handler := do
  let unit ← src.locator.resolve path
  let a ← src.leaf unit
  a.instantiate (a.instanceType windowName a.identity.typeName) args

theorem Sources.answer_of_resolve {src : Sources} {path : String} {unit : Identity}
    (h : src.locator.resolve path = .ok unit) (args : List Script.Value) :
    src.answer path args = src.leaf unit >>= fun a =>
      a.instantiate (a.instanceType windowName a.identity.typeName) args := by
  simp only [answer, h, bind, Except.bind]

namespace Site

/-- A site takes notice of the reports of its watcher. -/
def hear (s : Site) (reports : List Report) : Site :=
  (s.locator.convention.changes reports).foldl (fun s change => (s.apply change).2) s

/-- What happens to a site and its disk. Edits come with reports of all of them, which the site hears
before the next request. -/
inductive History (shared : List String) (site : Site) (d₀ : Disk) : Site → Disk → Prop where
  | start : History shared site d₀ site d₀
  | edits {s : Site} {d d' : Disk} {reports : List Report} : History shared site d₀ s d →
      Edited site.locator.root shared reports d d' →
      History shared site d₀ (s.hear reports) d'
  | request {s : Site} {d : Disk} {path : String} (args : List Script.Value) :
      History shared site d₀ s d → Text.IsAscii path →
      History shared site d₀ (s.create d path none args).2 d

/-- Whether a site answers every request with what it amounts to. -/
structure Serves (s : Site) (src : Sources) : Prop where
  locator : s.locator = src.locator
  live : ∃ live, s.mode = .live live ∧ Warm src [] live

variable {s : Site} {src : Sources} {root : Place} {d' : Disk} {reports : List Report}

/-- Changes of a live site are changes of its cache. -/
theorem foldl_apply_eq {live : LiveSite} (h : s.mode = .live live) (changes : List Change) :
    changes.foldl (fun s change => (s.apply change).2) s = { s with
      mode := .live (changes.foldl (fun l change => (l.apply change).2) live) } := by
  induction changes generalizing s live with
  | nil => rw [List.foldl_nil, List.foldl_nil, ← h]
  | cons change rest ih =>
    have hstep : (s.apply change).2 = { s with mode := .live (live.apply change).2 } := by
      rw [apply, h]
    rw [List.foldl_cons, List.foldl_cons, hstep, ih rfl]

theorem hear_eq {live : LiveSite} (h : s.mode = .live live) (hlocator : s.locator = live.locator) :
    s.hear reports = { s with mode := .live { live with
      cache := (s.locator.heard reports).foldl Cache.evicted live.cache } } := by
  rw [hear, foldl_apply_eq h, LiveSite.foldl_apply_eq, hlocator]
  rfl

/-- A live site answers a request with an object of what it has built for the unit. -/
theorem create_live {live : LiveSite} {unit : Identity} {path : String} (hmode : s.mode = .live live)
    (hres : s.locator.resolve path = .ok unit) (d : Disk) (args : List Script.Value) :
    s.create d path none args =
      ((live.run d (LiveSite.leaf unit)).1.map Artifact.plain >>= fun a =>
          a.instantiate (a.instanceType windowName a.identity.typeName) args,
        { s with mode := .live (live.run d (LiveSite.leaf unit)).2 }) := by
  unfold Site.create
  rw [hres, hmode]
  dsimp only
  cases (live.run d (LiveSite.leaf unit)).1 with
  | error failure => rfl
  | ok a =>
    simp only [Except.map, bind, Except.bind]
    rw [Artifact.instantiate_plain, Artifact.instanceType_plain, Artifact.identity_plain]
    rfl

namespace Serves

/-- **A request is answered with what it amounts to**, and the site goes on so. -/
theorem create (h : s.Serves src) (hl : src.locator.At root) (htidy : src.disk.Tidy root.path)
    {path : String} (hpath : Text.IsAscii path) (args : List Script.Value) :
    (s.create src.disk path none args).1 = src.answer path args ∧
      (s.create src.disk path none args).2.Serves src := by
  obtain ⟨live, hmode, hwarm⟩ := h.live
  cases hres : src.locator.resolve path with
  | error failure =>
    unfold Site.create Sources.answer
    rw [h.locator, hres]
    exact ⟨rfl, h⟩
  | ok unit =>
    have hasked := Locator.asked_of_resolve hl hpath hres
    obtain ⟨hanswer, hafter⟩ := yields_leaf hl (consistent_of_tidy hl htidy) hasked live hwarm
    rw [create_live hmode (h.locator ▸ hres), hanswer, Sources.answer_of_resolve hres]
    exact ⟨rfl, h.locator, _, rfl, hafter⟩

/-- **A site that hears of edits goes on to answer every request with what it amounts to.** -/
theorem hear (h : s.Serves src) (hl : src.locator.At root) (htidy : src.disk.Tidy root.path)
    (hedits : Edited root.path src.sharedReferences reports src.disk d') :
    (s.hear reports).Serves { src with disk := d' } := by
  obtain ⟨live, hmode, hwarm⟩ := h.live
  rw [hear_eq hmode (h.locator.trans hwarm.locator.symm), h.locator]
  exact ⟨rfl, _, rfl, hwarm.edits hl htidy hedits⟩

end Serves

/-! ## Starts -/

variable {draft : Config.CompilerDraft} {compiler : CompilerSettings} {settings : SiteSettings}
  {d₀ d : Disk} {serial serial' : Nat} {metrics metrics' : Metrics} {site fresh : Site}

/-- A site without a bundle starts as a live site with an empty cache. -/
theorem start_eq_ok_iff (hlive : settings.prebuilt = none) :
    Site.start settings compiler d serial metrics = .ok site ↔
      ∃ found, d.canonical settings.root = .ok found ∧
        site = ⟨settings.name, settings.hosts, ⟨found, settings.convention compiler⟩,
          .live (liveSite ⟨found, settings.convention compiler⟩ compiler serial metrics),
          settings.watch⟩ := by
  unfold Site.start locatorOf
  rw [hlive]
  cases d.canonical settings.root with
  | error e => simp [bind, Except.bind]
  | ok found => simp [bind, Except.bind, pure, Except.pure, eq_comm]

/-- A site with an empty cache is warm. -/
theorem warm_liveSite (l : Locator) (compiler : CompilerSettings) (d : Disk) (serial : Nat)
    (metrics : Metrics) :
    Warm ⟨d, l, compiler.sharedReferences⟩ [] (liveSite l compiler serial metrics) :=
  .of_orderly rfl rfl (.empty _ _ _ metrics)

/-- **A site that has just been started answers every request with what it amounts to.** -/
theorem serves_start (hlive : settings.prebuilt = none)
    (h : Site.start settings compiler d serial metrics = .ok site) :
    site.Serves ⟨d, site.locator, compiler.sharedReferences⟩ := by
  obtain ⟨found, -, rfl⟩ := (start_eq_ok_iff hlive).1 h
  exact ⟨rfl, _, rfl, warm_liveSite _ compiler d serial metrics⟩

/-- Where a site lies, and with which naming rules. -/
theorem at_of_start (hcompiler : draft.check = .ok compiler)
    (hleaf : Text.IsLowerAscii compiler.leafExtension)
    (hmarkup : Text.IsLowerAscii compiler.markupSuffix)
    (hlive : settings.prebuilt = none) (hd : Named d.workingDirectory)
    (h : Site.start settings compiler d serial metrics = .ok site) :
    ∃ root, site.locator.At root := by
  obtain ⟨found, hfound, rfl⟩ := (start_eq_ok_iff hlive).1 h
  obtain ⟨root, hroot, hnamed⟩ := Disk.named_of_canonical hd hfound
  exact ⟨root, hroot, hnamed, Config.plain_of_check hcompiler settings hleaf hmarkup⟩

/-! ## Histories -/

/-- What lies above the root stays through every history, and names stay in lower case. -/
theorem History.keeps {shared : List String} (h : History shared site d₀ s d)
    (hl : site.locator.At root) (htidy : d₀.Tidy root.path) :
    d₀.Keeps d root ∧ d.Tidy root.path := by
  induction h with
  | start => exact ⟨.refl d₀ root, htidy⟩
  | edits _ hedits ih =>
    rw [hl.path] at hedits
    exact ⟨ih.1.trans (hedits.keeps hl.named), hedits.tidy ih.2⟩
  | request _ _ _ ih => exact ih

/-- **At the end of every history a site answers every request with what it amounts to.** -/
theorem History.serves {shared : List String} (h : History shared site d₀ s d)
    (hl : site.locator.At root) (htidy : d₀.Tidy root.path)
    (hstart : site.Serves ⟨d₀, site.locator, shared⟩) : s.Serves ⟨d, site.locator, shared⟩ := by
  induction h with
  | start => exact hstart
  | @edits s d d' reports hbefore hedits ih =>
    rw [hl.path] at hedits
    exact @Serves.hear s ⟨d, site.locator, shared⟩ root d' reports ih hl (hbefore.keeps hl htidy).2
      hedits
  | @request s d path args hbefore hpath ih =>
    exact (@Serves.create s ⟨d, site.locator, shared⟩ root ih hl (hbefore.keeps hl htidy).2 path
      hpath args).2

/-- **Nobody can tell that a site has a cache.** After every history a site answers a request as one
does that has just been started on the disk as it is then. It can be started, unless the way to the
root climbs out of a directory that may be gone. -/
theorem cache_transparent (hcompiler : draft.check = .ok compiler)
    (hleaf : Text.IsLowerAscii compiler.leafExtension)
    (hmarkup : Text.IsLowerAscii compiler.markupSuffix)
    (hlive : settings.prebuilt = none) (hd₀ : Named d₀.workingDirectory)
    (hstart : Site.start settings compiler d₀ serial metrics = .ok site)
    (htidy : d₀.Tidy site.locator.root)
    (h : History compiler.sharedReferences site d₀ s d) (serial' : Nat) (metrics' : Metrics) :
    (∀ fresh, Site.start settings compiler d serial' metrics' = .ok fresh →
      ∀ path args, Text.IsAscii path →
        (s.create d path none args).1 = (fresh.create d path none args).1) ∧
      (".." ∉ Disk.steps settings.root →
        ∃ fresh, Site.start settings compiler d serial' metrics' = .ok fresh) := by
  obtain ⟨root, hl⟩ := at_of_start hcompiler hleaf hmarkup hlive hd₀ hstart
  rw [hl.path] at htidy
  obtain ⟨hkeeps, htidy'⟩ := h.keeps hl htidy
  have hwarm := h.serves hl htidy (serves_start hlive hstart)
  obtain ⟨found, hfound, rfl⟩ := (start_eq_ok_iff hlive).1 hstart
  have hroot : found = root.path := hl.path
  constructor
  · intro fresh hfresh path args hpath
    have hcold := serves_start hlive hfresh
    obtain ⟨found', hfound', rfl⟩ := (start_eq_ok_iff hlive).1 hfresh
    rw [hkeeps.canonical_eq hfound hfound'] at hcold ⊢
    exact (hwarm.create hl htidy' hpath args).1.trans (hcold.create hl htidy' hpath args).1.symm
  · intro hsteps
    subst hroot
    have hthere := hkeeps.canonical_of_steps hd₀ hl.named hsteps hfound
    exact ⟨_, (start_eq_ok_iff hlive).2 ⟨_, hthere, rfl⟩⟩

/-- A script is rewritten between two requests that spell its path in different ways. -/
theorem cache_transparent_rewritten : ∃ (d₀ d : Disk) (site fresh : Site),
    d₀.nodes.toList = [("/site", .directory), ("/site/index.ks", .file "".toUTF8)] ∧
    (Edit.write ["index.ks"] "namespace Site \x7b \x7d".toUTF8).apply "/site" d₀ = .ok d ∧
    Site.start { name := "main", root := "/site" } {} d₀ 1 [] = .ok site ∧
    Site.start { name := "main", root := "/site" } {} d 1 [] = .ok fresh ∧
    (((site.create d₀ "Index" none []).2.hear [⟨.written, ["/site/index.ks"]⟩]).create d
      "INDEX.ks" none []).1 = (fresh.create d "INDEX.ks" none []).1 := by
  generalize hedit : Edit.write ["index.ks"] "namespace Site \x7b \x7d".toUTF8 = e
  generalize hsettings : ({ name := "main", root := "/site" } : SiteSettings) = settings
  obtain ⟨d₀, hd₀⟩ : ∃ d₀ : Disk, d₀ = ⟨[], (NameMap.empty.insert "/site" .directory).insert
    "/site/index.ks" (.file "".toUTF8)⟩ := ⟨_, rfl⟩
  obtain ⟨d, hd⟩ : ∃ d : Disk, d = ⟨[], (NameMap.empty.insert "/site" .directory).insert
    "/site/index.ks" (.file "namespace Site \x7b \x7d".toUTF8)⟩ := ⟨_, rfl⟩
  have hwrite : e.apply "/site" d₀ = .ok d := by subst hedit hd₀ hd; rfl
  obtain ⟨site, hsite, hroot⟩ : ∃ site, Site.start settings {} d₀ 1 [] = .ok site ∧
      site.locator.root = "/site" := by subst hsettings hd₀; exact ⟨_, rfl, rfl⟩
  obtain ⟨fresh, hfresh⟩ : ∃ fresh, Site.start settings {} d 1 [] = .ok fresh := by
    subst hsettings hd; exact ⟨_, rfl⟩
  have htidy : ∀ (d : Disk) text, d.nodes.toList =
      [("/site", .directory), ("/site/index.ks", .file text)] → d.Tidy "/site" := by
    intro d text hnodes
    have hpath : Place.path ["site"] = "/site" := by decide
    rw [← hpath]
    refine .of_entries (by decide) ?_
    rw [hnodes, hpath, List.forall_mem_cons, List.forall_mem_singleton]
    dsimp only
    exact ⟨rfl, rfl⟩
  have hwell : e.WellFormed := by subst hedit; decide
  have hreported : e.Reported "/site" [⟨.written, ["/site/index.ks"]⟩] := by
    subst hedit
    exact ⟨_, List.mem_singleton_self _, .inr rfl, by decide⟩
  have hedits : Edited site.locator.root [] [⟨.written, ["/site/index.ks"]⟩] d₀ d := by
    rw [hroot]
    exact .next e .none hwell hwrite hreported (htidy d _ (by rw [hd]; rfl))
      fun _ h => (List.not_mem_nil h).elim
  have hhistory : History [] site d₀
      ((site.create d₀ "Index" none []).2.hear [⟨.written, ["/site/index.ks"]⟩]) d :=
    .edits (.request [] .start (by decide)) hedits
  have hcheck : ({} : Config.CompilerDraft).check = .ok {} := rfl
  have htidy₀ : d₀.Tidy site.locator.root := by
    rw [hroot]
    exact htidy d₀ _ (by rw [hd₀]; rfl)
  refine ⟨d₀, d, site, fresh, by rw [hd₀]; rfl, hwrite, hsite, hfresh, ?_⟩
  exact (cache_transparent hcheck (by decide) (by decide) (by rw [← hsettings])
    (by rw [hd₀]; decide) hsite htidy₀ hhistory 1 []).1 fresh
    hfresh "INDEX.ks" [] (by decide)

end Site

end SiteHost
