import SiteHost.Proofs.Cache.Orderly
import SiteHost.Proofs.Site.Requests
import SiteHost.Proofs.Site.Upkeep

/-!
# What requests keep of a site

A request builds what it needs, one layer after the other, on a site that may have been asked for
anything before. Whatever it does, the site goes on to hold what was made for it:

* `Against`, `Made` — an artifact was compiled from its sources, against artifacts of the layers below;
* `Locator.Fits` — what may be held for a key. Where there is no global unit, none is held;
* `Tended` — the state of a site between the steps of a request: everything it holds fits;
* `Tends` — a build that leaves such a site so, keeps all it holds, and ends in a certain way.

Principal results:

* `tends_getOrBuild` — a call ends in what its key holds then;
* `tends_foundation`, `tends_globalUnit`, `tends_leaf` — so does a request for each layer;
* `LiveSite.Arises.tended` — a site is tended after any requests and changes.
-/

namespace SiteHost

/-! ## Artifacts of a layer -/

/-- What an artifact of a layer is linked against. -/
inductive Against : Tier → List Artifact → Prop where
  | foundation : Against .foundation []
  | siteGlobal {foundation : Artifact} (h : foundation.tier = .foundation) :
    Against .siteGlobal [foundation]
  | leaf {foundation : Artifact} {globalUnit : Option Artifact}
    (h : foundation.tier = .foundation) (hglobal : ∀ g ∈ globalUnit, g.tier = .siteGlobal) :
    Against .leaf (foundation :: globalUnit.toList)

/-- Whether an artifact of a layer was compiled from its sources against its references. -/
structure Made (tier : Tier) (a : Artifact) : Prop where
  against : Against tier a.references
  compiled : ∃ m, a.module? = some m ∧ compile a.sources a.references = .ok m
  tier : a.tier = tier

theorem made_of_linked {serial : Nat} {unit : Identity} {tier : Tier} {kind : UnitKind}
    {sources : List SourceText} {references : List Artifact} {a : Artifact}
    (h : linked serial unit tier kind sources references = .ok a) (hagainst : Against tier references) :
    Made tier a := by
  unfold linked at h
  split at h
  · cases h
  · rename_i m hm
    cases h
    exact ⟨hagainst, ⟨m, rfl, hm⟩, rfl⟩

/-- What may be held for a key. -/
structure Locator.Fits (l : Locator) (absent : Prop) (key : String) (a : Artifact) : Prop where
  made : Made (l.tierOf key) a
  present : absent → key ≠ l.globalUnit.key

/-! ## Tended sites -/

/-- A site in the course of a request. Everything it holds fits, and `busy` are the keys whose builds are
on their way. -/
structure Tended (src : Sources) (absent : Prop) (busy : List (String × Generation)) (s : LiveSite) :
    Prop where
  locator : s.locator = src.locator
  shared : s.sharedReferences = src.sharedReferences
  orderly : s.cache.Orderly src.locator.tierOf (src.locator.Fits absent) busy

/-- Whether a build leaves a tended site tended, keeps what it holds, and ends as `post` says of the
result and the cache. -/
def Tends {α : Type} (src : Sources) (absent : Prop) (busy : List (String × Generation)) (x : Build α)
    (post : Except Failure α → Cache Artifact → Prop) : Prop :=
  ∀ s, Tended src absent busy s → Tended src absent busy (s.run src.disk x).2 ∧
    s.cache.Keeps (s.run src.disk x).2.cache ∧ post (s.run src.disk x).1 (s.run src.disk x).2.cache

section Rules

variable {α β : Type} {src : Sources} {absent : Prop} {busy : List (String × Generation)}

theorem settled_tended (src : Sources) (absent : Prop) (busy : List (String × Generation)) :
    Settled src (Tended src absent busy) :=
  ⟨fun _ h => h.locator, fun _ h => h.shared, fun _ _ h => ⟨h.locator, h.shared, h.orderly⟩⟩

/-- A site that holds no global unit is tended without one. -/
theorem Tended.without {s : LiveSite} (h : Tended src False busy s)
    (hnone : absent → ∀ a, s.cache.at? src.locator.globalUnit.key ≠ some (.built a)) :
    Tended src absent busy s := by
  refine ⟨h.locator, h.shared, h.orderly.sound, h.orderly.tiers, h.orderly.running,
    h.orderly.building, fun key a hat => ⟨(h.orderly.built key a hat).made, fun habsent heq => ?_⟩⟩
  subst heq
  exact hnone habsent a hat

namespace Tends

variable {x : Build α} {f : α → Build β} {post post' : Except Failure α → Cache Artifact → Prop}
  {next : Except Failure β → Cache Artifact → Prop}

theorem mono (h : Tends src absent busy x post)
    (hpost : ∀ r c, c.Orderly src.locator.tierOf (src.locator.Fits absent) busy → post r c → post' r c) :
    Tends src absent busy x post' := by
  intro s hs
  obtain ⟨htended, hkeeps, hends⟩ := h s hs
  exact ⟨htended, hkeeps, hpost _ _ htended.orderly hends⟩

theorem pure (a : α) (h : ∀ c, post (.ok a) c) : Tends src absent busy (pure a) post :=
  fun s hs => ⟨hs, .refl _, h s.cache⟩

theorem throw (e : Failure) (h : ∀ c, post (.error e) c) : Tends src absent busy (throw e) post :=
  fun s hs => ⟨hs, .refl _, h s.cache⟩

/-- One build after the other. The second may rely on what the first has left, since it is kept. -/
theorem bind (hx : Tends src absent busy x post)
    (hf : ∀ a c, c.Orderly src.locator.tierOf (src.locator.Fits absent) busy → post (.ok a) c →
      Tends src absent busy (f a) fun r c' => c.Keeps c' → next r c')
    (herror : ∀ e c, post (.error e) c → next (.error e) c) : Tends src absent busy (x >>= f) next := by
  intro s hs
  obtain ⟨htended, hkeeps, hends⟩ := hx s hs
  rw [LiveSite.run_bind]
  rcases hrun : s.run src.disk x with ⟨e | a, s'⟩
  · rw [hrun] at htended hkeeps hends
    exact ⟨htended, hkeeps, herror e s'.cache hends⟩
  · rw [hrun] at htended hkeeps hends
    obtain ⟨htended', hkeeps', hends'⟩ := hf a s'.cache htended.orderly hends s' htended
    exact ⟨htended', hkeeps.trans hkeeps', hends' hkeeps'⟩

theorem get_bind {f : LiveSite → Build β} (h : ∀ s, Tended src absent busy s →
    Tends src absent busy (f s) next) : Tends src absent busy (get >>= f) next :=
  fun s hs => h s hs s hs

theorem outcome (hx : Tends src absent busy x post) :
    Tends src absent busy (LiveSite.outcome x) fun r c => ∃ r', r = .ok r' ∧ post r' c := by
  intro s hs
  rw [LiveSite.run_outcome]
  obtain ⟨htended, hkeeps, hends⟩ := hx s hs
  exact ⟨htended, hkeeps, _, rfl, hends⟩

end Tends

/-- A build that links its sources gives what was made, and what the sources amount to. -/
theorem tends_of_links {x : Build Artifact} {tier : Tier} {references : List Artifact}
    {answer : Except Failure Artifact} (hlinks : Links src.disk tier references x)
    (hyields : Yields src.disk (Tended src absent busy) x Artifact.plain answer)
    (hagainst : Against tier references) :
    Tends src absent busy x fun r _ =>
      (∀ a, r = .ok a → Made tier a) ∧ r.map Artifact.plain = answer := by
  intro s hs
  obtain ⟨hanswer, htended⟩ := hyields s hs
  refine ⟨htended, ?_, ?_, hanswer⟩
  · rcases hlinks s with ⟨failure, h⟩ | ⟨unit, kind, sources, h⟩
    · rw [h]
      exact .refl _
    · rw [h, LiveSite.run_compileUnit]
      split <;> exact .refl _
  · intro a ha
    rcases hlinks s with ⟨failure, h⟩ | ⟨unit, kind, sources, h⟩
    · rw [h] at ha
      cases ha
    · rw [h, LiveSite.run_compileUnit] at ha
      split at ha
      · rename_i b hb
        cases ha
        exact made_of_linked hb hagainst
      · cases ha

open LiveSite in
/-- **A call ends in what its key holds then.** A failure is one that the build ends in. -/
theorem tends_getOrBuild {unit : Identity} {build : Build Artifact}
    (ends : Except Failure Artifact → Prop) (hfree : ∀ g, (unit.key, g) ∉ busy)
    (hbuild : ∀ g, Tends src absent ((unit.key, g) :: busy) build fun r _ => ends r)
    (hfits : ∀ a, ends (.ok a) → src.locator.Fits absent unit.key a) :
    Tends src absent busy (getOrBuild unit (src.locator.tierOf unit.key) build) fun r c =>
      (∀ a, c.at? unit.key = some (.built a) ↔ r = .ok a) ∧ ∀ e, r = .error e → ends (.error e) := by
  intro s hs
  obtain ⟨hkeeps, hcases⟩ := hs.orderly.get unit hfree
  rcases hcases with ⟨a, hhit, hat, horderly⟩ | ⟨g, hstart, horderly⟩
  · rw [run_getOrBuild_of_hit s src.disk hhit]
    refine ⟨⟨hs.locator, hs.shared, horderly⟩, hkeeps, fun b => ?_, fun e he => ?_⟩
    · change (s.cache.get unit (src.locator.tierOf unit.key)).2.at? unit.key = some (.built b) ↔
        Except.ok a = .ok b
      rw [hat]
      simp
    · cases he
  · obtain ⟨htended, hkept, hends⟩ := hbuild g
      { s with cache := (s.cache.get unit (src.locator.tierOf unit.key)).2 }
      ⟨hs.locator, hs.shared, horderly⟩
    generalize hran : LiveSite.run _ src.disk build = ran at htended hkept hends
    obtain ⟨r, s'⟩ := ran
    obtain ⟨c, hsettle, hdone, hkept', hat⟩ := htended.orderly.finish hfree (r := r) fun a ha => by
      subst ha
      exact hfits a hends
    rw [run_getOrBuild_of_started s src.disk hstart hran hsettle]
    refine ⟨⟨htended.locator, htended.shared, hdone⟩, hkeeps.trans (hkept.trans hkept'), fun a => ?_,
      fun e he => he ▸ hends⟩
    change c.at? unit.key = some (.built a) ↔ r = .ok a
    rw [hat]
    cases r <;> simp [EntryState.ofResult]

end Rules

/-! ## Results that report nothing missing -/

/-- Whether a result is not that a source is missing. -/
def Found {α : Type} (r : Except Failure α) : Prop := ∀ path, r ≠ .error (.notFound path)

namespace Found

variable {α β : Type}

theorem ok (a : α) : Found (.ok a : Except Failure α) := fun _ h => by cases h

theorem compile (e : CompileError) : Found (.error (.compile e) : Except Failure α) :=
  fun _ h => by cases h

theorem bind {x : Except Failure α} {f : α → Except Failure β} (hx : Found x)
    (hf : ∀ a, x = .ok a → Found (f a)) : Found (x >>= f) := by
  cases x with
  | error e =>
    intro path h
    cases h
    exact hx path rfl
  | ok a => exact hf a rfl

theorem mapM {f : α → Except Failure β} (h : ∀ a, Found (f a)) (xs : List α) :
    Found (xs.mapM f) := by
  induction xs with
  | nil => exact ok []
  | cons a rest ih =>
    rw [List.mapM_cons]
    exact bind (h a) fun b _ => bind ih fun bs _ => ok (b :: bs)

end Found

namespace Sources

variable (src : Sources)

theorem found_artifact (unit : Identity) (kind : UnitKind) (texts : List SourceText)
    (references : List Artifact) : Found (artifact unit kind texts references) := by
  unfold artifact
  split
  · exact .compile _
  · exact .ok _

/-- The base library is never missing. -/
theorem found_foundation : Found src.foundation := by
  refine .bind (.mapM (fun path => ?_) _) fun _ _ => found_artifact _ _ _ _
  split
  · exact .ok _
  · exact .compile _

theorem found_readUnit (unit : Identity) : Found (src.readUnit unit) := by
  have hoptional : ∀ path, Found (src.readOptional unit path) := by
    intro path
    unfold readOptional
    split
    · exact .ok _
    · exact .compile _
  refine .bind (hoptional _) fun script _ => .bind (hoptional _) fun markup _ => ?_
  split <;> exact .ok _

theorem found_assemble (unit : Identity) (texts : UnitTexts) (references : List Artifact) :
    Found (src.assemble unit texts references) := by
  unfold assemble
  dsimp only
  split
  · exact found_artifact _ _ _ _
  · split
    · exact .compile _
    · exact found_artifact _ _ _ _

/-- A unit whose script is there is not missing. -/
theorem found_unit {unit : Identity} (h : src.disk.exists? unit.path = true)
    (references : List Artifact) : Found (src.unit unit references) := by
  refine .bind (.bind (src.found_readUnit unit) fun texts? htexts => ?_) fun found _ =>
    src.found_assemble _ _ _
  cases texts? with
  | none => exact absurd htexts (readUnit_ne_none h)
  | some texts => exact .ok _

end Sources

/-! ## Requests -/

section Requests

open LiveSite

variable {src : Sources} {absent : Prop} {busy : List (String × Generation)}

/-- A request for the base library. -/
theorem tends_foundation (hfree : ∀ g, (foundationUnit.key, g) ∉ busy) :
    Tends src absent busy foundation fun r c =>
      (∀ a, c.at? foundationUnit.key = some (.built a) ↔ r = .ok a) ∧ Found r := by
  have htier := tierOf_foundation src.locator
  have h := tends_getOrBuild (fun r => (∀ a, r = .ok a → Made .foundation a) ∧ Found r) hfree
    (fun g => (tends_of_links (links_buildFoundation src.disk)
      (yields_buildFoundation (settled_tended src absent _)) .foundation).mono
        fun r c _ ⟨hmade, hanswer⟩ => ⟨hmade, ?_⟩)
    fun a ha => ⟨htier ▸ ha.1 a rfl, fun _ => src.locator.key_globalUnit_ne.symm⟩
  · rw [htier] at h
    refine h.mono fun r c _ ⟨hat, herror⟩ => ⟨hat, ?_⟩
    cases r with
    | ok a => exact .ok a
    | error e => exact (herror e rfl).2
  · rintro path rfl
    exact src.found_foundation path hanswer.symm

/-- The base library that a build has asked for is one. -/
theorem Cache.Orderly.tier_foundation {c : Cache Artifact} {a : Artifact}
    (h : c.Orderly src.locator.tierOf (src.locator.Fits absent) busy)
    (hat : c.at? foundationUnit.key = some (.built a)) : a.tier = .foundation :=
  (h.built _ a hat).made.tier.trans (tierOf_foundation src.locator)

theorem Cache.Orderly.tier_globalUnit {c : Cache Artifact} {a : Artifact}
    (h : c.Orderly src.locator.tierOf (src.locator.Fits absent) busy)
    (hat : c.at? src.locator.globalUnit.key = some (.built a)) : a.tier = .siteGlobal :=
  (h.built _ a hat).made.tier.trans src.locator.tierOf_globalUnit_key

/-- A request for the global unit, where there may be one. -/
theorem tends_globalArtifact (hpresent : ¬ absent) (hfoundation : ∀ g, (foundationUnit.key, g) ∉ busy)
    (hfree : ∀ g, (src.locator.globalUnit.key, g) ∉ busy) :
    Tends src absent busy
      (getOrBuild src.locator.globalUnit .siteGlobal do
        buildUnit src.locator.globalUnit .siteGlobal [← foundation]) fun r c =>
      (∀ a, c.at? src.locator.globalUnit.key = some (.built a) ↔ r = .ok a) ∧
        (src.disk.exists? src.locator.globalUnit.path = true → Found r) := by
  have htier := src.locator.tierOf_globalUnit_key
  rw [← htier]
  refine (tends_getOrBuild (fun r => (∀ a, r = .ok a → Made .siteGlobal a) ∧
    (src.disk.exists? src.locator.globalUnit.path = true → Found r)) hfree (fun g => ?_)
    fun a ha => ⟨htier ▸ ha.1 a rfl, fun habsent => absurd habsent hpresent⟩).mono
      fun r c _ ⟨hat, herror⟩ => ⟨hat, fun hexists => ?_⟩
  · have hne := src.locator.key_globalUnit_ne.symm
    refine .bind (tends_foundation (not_busy_cons hne hfoundation)) (fun f c horderly hf => ?_)
      fun e c he => ⟨nofun, fun _ path hpath => he.2 path (by cases hpath; rfl)⟩
    have hagainst := Against.siteGlobal (horderly.tier_foundation ((hf.1 f).2 rfl))
    rw [htier]
    refine (tends_of_links (links_buildUnit src.disk _ _ _)
      (yields_buildUnit (settled_tended src absent _) _ _ _) hagainst).mono
        fun r c _ ⟨hmade, hanswer⟩ _ => ⟨hmade, ?_⟩
    rintro hexists path rfl
    exact src.found_unit hexists _ path hanswer.symm
  · cases r with
    | ok a => exact .ok a
    | error e => exact (herror e rfl).2 hexists

/-- **A request for the global unit.** If there is none, its script is not on disk. -/
theorem tends_globalUnit (hgone : absent → src.disk.exists? src.locator.globalUnit.path = false)
    (hfoundation : ∀ g, (foundationUnit.key, g) ∉ busy)
    (hfree : ∀ g, (src.locator.globalUnit.key, g) ∉ busy) :
    Tends src absent busy globalUnit fun r c =>
      (∀ a, c.at? src.locator.globalUnit.key = some (.built a) ↔ r = .ok (some a)) ∧
        (r = .ok none → src.disk.exists? src.locator.globalUnit.path = false) := by
  intro s hs
  rw [run_globalUnit, hs.locator]
  split
  · rename_i hcond
    simp only [Bool.and_eq_true, decide_eq_true_eq, Bool.not_eq_true'] at hcond
    refine ⟨hs, .refl _, fun a => ⟨fun hat => absurd ?_ hcond.1, fun h => by cases h⟩, fun _ => hcond.2⟩
    change s.cache.at? src.locator.globalUnit.key = some (.built a) at hat
    rw [Cache.status?_eq, hat]
    rfl
  · rename_i hcond
    have hheld : src.disk.exists? src.locator.globalUnit.path = false →
        ∃ a, s.cache.at? src.locator.globalUnit.key = some (.built a) := by
      intro hexists
      simp only [hexists, Bool.not_false, Bool.and_true, decide_eq_true_eq, not_not] at hcond
      rw [Cache.status?_eq] at hcond
      obtain ⟨st, hst, hstatus⟩ := Option.map_eq_some_iff.1 hcond
      cases st with
      | built a => exact ⟨a, hst⟩
      | _ => cases hstatus
    have hpresent : ¬ absent := by
      intro habsent
      obtain ⟨a, hat⟩ := hheld (hgone habsent)
      exact (hs.orderly.built _ a hat).present habsent rfl
    obtain ⟨htended, hkeeps, hat, hfound⟩ := tends_globalArtifact hpresent hfoundation hfree s hs
    generalize s.run src.disk (getOrBuild _ _ _) = ran at htended hkeeps hat hfound ⊢
    obtain ⟨r, s'⟩ := ran
    -- what is held is found, and a script that is there is not missing
    have hsome : Found r := by
      cases hexists : src.disk.exists? src.locator.globalUnit.path with
      | true => exact hfound hexists
      | false =>
        obtain ⟨a, hheld⟩ := hheld hexists
        obtain rfl := (hat a).1 (hkeeps _ a hheld)
        exact .ok a
    rcases r with e | a
    · cases e with
      | notFound path => exact absurd rfl (hsome path)
      | _ => exact ⟨htended, hkeeps, fun a => (hat a).trans (by simp), nofun⟩
    · exact ⟨htended, hkeeps, fun b => (hat b).trans (by simp), nofun⟩

/-- **A request for a unit**, which the base library is not. -/
theorem tends_leaf (hgone : absent → src.disk.exists? src.locator.globalUnit.path = false)
    {unit : Identity} (hunit : unit.key ≠ foundationUnit.key) :
    Tends src absent [] (leaf unit) fun r c =>
      ¬ src.locator.isGlobal unit = true → ∀ a, c.at? unit.key = some (.built a) ↔ r = .ok a := by
  have hnone : ∀ (key : String) (g : Generation), (key, g) ∉ [] := fun _ _ => List.not_mem_nil
  refine .get_bind fun s hs => ?_
  rw [hs.locator]
  split
  · rename_i hglobal
    refine .bind (tends_globalUnit hgone (hnone _) (hnone _)) (fun globalUnit c _ _ => ?_)
      fun e c _ hnot => absurd hglobal hnot
    cases globalUnit with
    | some a => exact .pure a fun c _ hnot => absurd hglobal hnot
    | none => exact .throw _ fun c _ hnot => absurd hglobal hnot
  · rename_i hglobal
    have htier := Locator.tierOf_leaf hunit hglobal
    have hne : unit.key ≠ src.locator.globalUnit.key := fun h => hglobal (Locator.isGlobal_iff.2 h)
    rw [← htier]
    refine (tends_getOrBuild (fun r => ∀ a, r = .ok a → Made .leaf a) (hnone _) (fun g => ?_)
      fun a ha => ⟨htier ▸ ha a rfl, fun _ => hne⟩).mono fun r c _ hends _ => hends.1
    refine .bind (tends_foundation (not_busy_cons hunit.symm (hnone _))) (fun f c horderly hf => ?_)
      fun e c _ => nofun
    have hfoundation := horderly.tier_foundation ((hf.1 f).2 rfl)
    refine .bind (tends_globalUnit hgone (not_busy_cons hunit.symm (hnone _))
      (not_busy_cons hne.symm (hnone _))) (fun globalUnit c horderly hg => ?_) fun e c _ _ => nofun
    have hglobals : ∀ a ∈ globalUnit, a.tier = .siteGlobal :=
      fun a ha => horderly.tier_globalUnit ((hg.1 a).2 (congrArg Except.ok ha))
    rw [htier]
    exact (tends_of_links (links_buildUnit src.disk _ _ _)
      (yields_buildUnit (settled_tended src absent _) _ _ _) (.leaf hfoundation hglobals)).mono
        fun r c _ ⟨hmade, _⟩ _ _ => hmade

end Requests

/-! ## Everything that comes about -/

/-- What a build leaves is tended whatever the disk is by then. -/
theorem Tended.run {α : Type} {d : Disk} {l : Locator} {shared : List String} {absent : Prop}
    {s : LiveSite} {x : Build α} {post : Except Failure α → Cache Artifact → Prop}
    (hs : Tended ⟨d, l, shared⟩ absent [] s) (hx : Tends ⟨d, l, shared⟩ absent [] x post) (d' : Disk) :
    Tended ⟨d', l, (s.run d x).2.sharedReferences⟩ absent [] (s.run d x).2 := by
  obtain ⟨htended, -, -⟩ := hx s hs
  exact ⟨htended.locator, rfl, htended.orderly⟩

/-- **A site is tended after any requests and changes**, whatever the disk is by then. -/
theorem LiveSite.Arises.tended {l : Locator} {s : LiveSite} (h : s.Arises l) (d : Disk) :
    Tended ⟨d, l, s.sharedReferences⟩ False [] s := by
  have hnone : ∀ (key : String) (g : Generation), (key, g) ∉ [] := fun _ _ => List.not_mem_nil
  induction h generalizing d with
  | start timeLimit sharedReferences => exact ⟨rfl, rfl, .empty _ _ timeLimit []⟩
  | foundation d' _ ih => exact (ih d').run (tends_foundation (hnone _)) d
  | globalUnit d' _ ih => exact (ih d').run (tends_globalUnit False.elim (hnone _) (hnone _)) d
  | leaf d' unit hunit _ ih => exact (ih d').run (tends_leaf False.elim hunit) d
  | @apply site change _ ih =>
    have hsite := ih d
    rw [apply_eq]
    exact ⟨hsite.locator, rfl, hsite.orderly.thinned (Cache.thinned_foldl _ _)⟩

end SiteHost
