import Mathlib.Data.List.Nodup
import SiteHost.Config.Check
import SiteHost.Proofs.Text.Case

/-!
# Sites that are accepted

* `Config.IsHost` — a host name as it comes out of the configuration;
* `HostsApart` — sites of which no two claim one host name, and none claims one twice;
* `SiteDraft.Makes` — what is asked of a site, and what is made of it.

Principal results:

* `claimHosts_eq_ok` — the host names of a site are none that other sites claim;
* `checkSites_keeps` — what holds of all sites because every one that is accepted keeps it;
* `hostsApart_of_check` — all settings that are accepted keep the host names of their sites apart;
* `HostsApart.unique` — a host name belongs to one site.
-/

namespace SiteHost.Config

/-- A host name as it comes out of the configuration: not empty, and in lower case. -/
structure IsHost (host : String) : Prop where
  ne_empty : host ≠ ""
  lower : Text.asciiLower host = host

/-- Sites of which no two claim one host name, and none claims one twice. -/
structure HostsApart (sites : List SiteSettings) : Prop where
  isHost : ∀ host ∈ sites.flatMap SiteSettings.hosts, IsHost host
  nodup : (sites.flatMap SiteSettings.hosts).Nodup

/-- The host names of a site are none that are claimed already. -/
theorem claimHosts_eq_ok {claimed written hosts : List String} (h : claimHosts claimed written = .ok hosts) :
    (∀ host ∈ hosts, IsHost host ∧ host ∉ claimed) ∧ hosts.Nodup := by
  induction written generalizing claimed hosts with
  | nil =>
    cases h
    exact ⟨List.forall_mem_nil _, List.nodup_nil⟩
  | cons first rest ih =>
    have hlower := Text.asciiLower_asciiLower (Text.trim first)
    rw [claimHosts] at h
    generalize Text.asciiLower (Text.trim first) = host at h hlower
    by_cases hempty : host = ""
    · rw [if_pos hempty] at h
      exact ih h
    · rw [if_neg hempty] at h
      by_cases hclaimed : host ∈ claimed
      · rw [if_pos (List.contains_iff_mem.2 hclaimed)] at h
        cases h
      · rw [if_neg (by rwa [List.contains_iff_mem])] at h
        cases hmore : claimHosts (host :: claimed) rest with
        | error e =>
          rw [hmore] at h
          cases h
        | ok more =>
          rw [hmore] at h
          cases h
          obtain ⟨hfresh, hnodup⟩ := ih hmore
          refine ⟨List.forall_mem_cons.2 ⟨⟨⟨hempty, hlower⟩, hclaimed⟩, ?_⟩, ?_⟩
          · exact fun other hother =>
              ⟨(hfresh other hother).1, fun hmem => (hfresh other hother).2 (List.mem_cons_of_mem _ hmem)⟩
          · exact List.nodup_cons.2 ⟨fun hmem => (hfresh host hmem).2 List.mem_cons_self, hnodup⟩

/-! ## Sites that are accepted -/

/-- A guard is passed, and what comes behind it gives the result. -/
theorem guard_eq_ok_iff {ε α : Type} {c : Prop} [Decidable c] {e : ε} {behind : PUnit → Except ε α} {a : α} :
    (if c then throw e >>= behind else behind ⟨⟩) = .ok a ↔ ¬ c ∧ behind ⟨⟩ = .ok a := by
  by_cases hc : c
  · rw [if_pos hc]
    exact iff_of_false nofun fun h => h.1 hc
  · rw [if_neg hc, and_iff_right hc]

/-- A site that has no namespace, or one that is a dotted name. -/
def HasNamespace (site : SiteSettings) : Prop :=
  site.namespaceName = "" ∨ isDottedName site.namespaceName = true

/-- The site that a draft makes behind the sites before it, and all that was asked of it. -/
structure SiteDraft.Makes (d : SiteDraft) (before : List SiteSettings) (site : SiteSettings) : Prop where
  name : site.name = Text.trim (d.name.getD "")
  named : site.name ≠ ""
  other : ∀ s ∈ before, s.name ≠ site.name
  root : nonEmpty d.root = some site.root
  namespaceName : site.namespaceName = d.namespaceName.getD "Site"
  hasNamespace : HasNamespace site
  hosts : claimHosts (before.flatMap SiteSettings.hosts) (d.hosts.getD []) = .ok site.hosts
  prebuilt : site.prebuilt = nonEmpty d.prebuilt
  watch : site.watch = d.watch.getD true

theorem SiteDraft.makes_of_check {d : SiteDraft} {before : List SiteSettings} {site : SiteSettings}
    (h : d.check before = .ok site) : d.Makes before site := by
  unfold SiteDraft.check at h
  obtain ⟨hnamed, h⟩ := guard_eq_ok_iff.1 h
  obtain ⟨hother, h⟩ := guard_eq_ok_iff.1 h
  cases hroot : nonEmpty d.root with
  | none =>
    rw [hroot] at h
    cases h
  | some root =>
    rw [hroot] at h
    obtain ⟨hdotted, h⟩ := guard_eq_ok_iff.1 h
    cases hclaim : claimHosts (before.flatMap SiteSettings.hosts) (d.hosts.getD []) with
    | error e =>
      rw [hclaim] at h
      cases h
    | ok hosts =>
      rw [hclaim] at h
      obtain rfl := Except.ok.inj h
      exact {
        name := rfl
        named := hnamed
        other := by simpa using hother
        root := hroot
        namespaceName := rfl
        hasNamespace := or_iff_not_imp_left.2 (by simpa using hdotted)
        hosts := hclaim
        prebuilt := rfl
        watch := rfl }

theorem HostsApart.append {before : List SiteSettings} {site : SiteSettings} (h : HostsApart before)
    {written : List String}
    (hclaim : claimHosts (before.flatMap SiteSettings.hosts) written = .ok site.hosts) :
    HostsApart (before ++ [site]) := by
  obtain ⟨hfresh, hnodup⟩ := claimHosts_eq_ok hclaim
  have hhosts : (before ++ [site]).flatMap SiteSettings.hosts =
      before.flatMap SiteSettings.hosts ++ site.hosts := by
    rw [List.flatMap_append, List.flatMap_singleton]
  refine ⟨?_, ?_⟩
  · rw [hhosts, List.forall_mem_append]
    exact ⟨h.isHost, fun host hhost => (hfresh host hhost).1⟩
  · rw [hhosts]
    exact h.nodup.append hnodup fun host hbefore hhost => (hfresh host hhost).2 hbefore

/-- What every site that is accepted keeps of the sites before it, all sites have. -/
theorem checkSites_keeps (kept : List SiteSettings → Prop) {before sites : List SiteSettings}
    {drafts : List SiteDraft} (h : checkSites before drafts = .ok sites)
    (hstep : ∀ before d site, kept before → SiteDraft.Makes d before site → kept (before ++ [site]))
    (hbefore : kept before) : kept sites := by
  induction drafts generalizing before with
  | nil =>
    cases h
    exact hbefore
  | cons d rest ih =>
    rw [checkSites] at h
    cases hcheck : d.check before with
    | error e =>
      rw [hcheck] at h
      cases h
    | ok site =>
      rw [hcheck] at h
      exact ih h (hstep before d site hbefore (SiteDraft.makes_of_check hcheck))

/-- The sites of settings that are accepted are accepted one behind the other. -/
theorem checkSites_of_check {draft : Draft} {settings : Settings} (h : draft.check = .ok settings) :
    checkSites [] draft.sites = .ok settings.sites := by
  unfold Draft.check at h
  simp only [bind, Except.bind, pure, Except.pure] at h
  split at h
  · cases h
  split at h
  · cases h
  split at h
  · cases h
  split at h
  · cases h
  rename_i hsites
  cases h
  exact hsites

/-- **Settings that are accepted keep the host names of their sites apart.** -/
theorem hostsApart_of_check {draft : Draft} {settings : Settings} (h : draft.check = .ok settings) :
    HostsApart settings.sites :=
  checkSites_keeps HostsApart (checkSites_of_check h)
    (fun _ _ _ hbefore hsite => hbefore.append hsite.hosts)
    ⟨List.forall_mem_nil _, List.nodup_nil⟩

/-- **A host name belongs to one site.** -/
theorem HostsApart.unique {sites : List SiteSettings} (h : HostsApart sites) {i j : Nat}
    {first second : SiteSettings} {host : String} (hi : sites[i]? = some first) (hj : sites[j]? = some second)
    (hfirst : host ∈ first.hosts) (hsecond : host ∈ second.hosts) : i = j := by
  have hpairwise := List.pairwise_iff_getElem.1 (List.nodup_flatMap.1 h.nodup).2
  obtain ⟨hilt, hget⟩ := List.getElem?_eq_some_iff.1 hi
  obtain ⟨hjlt, hget'⟩ := List.getElem?_eq_some_iff.1 hj
  subst hget
  subst hget'
  rcases Nat.lt_trichotomy i j with hlt | heq | hlt
  · exact absurd hsecond (hpairwise i j hilt hjlt hlt hfirst)
  · exact heq
  · exact absurd hfirst (hpairwise j i hjlt hilt hlt hsecond)

end SiteHost.Config
