import SiteHost.Http.Directory
import SiteHost.Program.Run
import SiteHost.Proofs.Config.Hosts
import SiteHost.Proofs.Script.Names

/-!
# Which hosts reach which site

A `Host` header is looked up without its port and its brackets, while the hosts of a site are stored as they
are configured. So a host reaches its site by what is left of it:

* `IsBare` — a host name that has no port and no brackets to lose;
* `hostName_forms` — the three forms of a host, and what is left of each.

Principal results:

* `hostName_eq_self_iff` — bare names, and only those, are looked up as they are;
* `hostName_asciiLower` — the case of letters does not matter to what is left;
* `hosts_of_startSites` — sites are started with the hosts of their settings, in order;
* `pick_eq_findIdx?` — a header picks the first site whose hosts have what is left of it;
* `pick_configured_host` — the header of a configured host picks its site if what is left of the host belongs
  to that site; if it belongs to none, the first site answers.
-/

namespace SiteHost

/-! ## Cutting text at a separator -/

namespace Text

variable {sep : Char} {before after cs : List Char}

theorem cutFirst?_append (h : sep ∉ before) : cutFirst? sep (before ++ sep :: after) = some (before, after) := by
  induction before with
  | nil => rw [List.nil_append, cutFirst?_cons, if_pos rfl]
  | cons c rest ih =>
    have hne : c ≠ sep := fun heq => h (heq ▸ List.mem_cons_self)
    rw [List.cons_append, cutFirst?_cons, if_neg hne, ih fun hmem => h (List.mem_cons_of_mem _ hmem)]
    rfl

theorem cutFirst?_of_notMem (h : sep ∉ cs) : cutFirst? sep cs = none := by
  cases hcut : cutFirst? sep cs with
  | none => rfl
  | some found =>
    refine absurd ?_ h
    rw [(cutFirst?_eq_some hcut).1]
    exact List.mem_append_right _ List.mem_cons_self

theorem cutLast?_append (h : sep ∉ after) : cutLast? sep (before ++ sep :: after) = some (before, after) := by
  have hreverse : (before ++ sep :: after).reverse = after.reverse ++ sep :: before.reverse := by simp
  rw [cutLast?, hreverse, cutFirst?_append (by simpa using h)]
  simp

theorem cutLast?_of_notMem (h : sep ∉ cs) : cutLast? sep cs = none := by
  rw [cutLast?, cutFirst?_of_notMem (by simpa using h)]
  rfl

/-- A character that is no letter is no other character in lower case. -/
theorem toLower_eq_iff_of_unlettered {c d : Char}
    (hd : d.toNat < 65 ∨ 90 < d.toNat ∧ d.toNat < 97 ∨ 122 < d.toNat) : c.toLower = d ↔ c = d := by
  rw [← Char.toNat_inj, ← Char.toNat_inj, toNat_toLower]
  split <;> omega

theorem mem_map_toLower {d : Char} (hd : d.toNat < 65 ∨ 90 < d.toNat ∧ d.toNat < 97 ∨ 122 < d.toNat) :
    d ∈ cs.map Char.toLower ↔ d ∈ cs := by
  simp [toLower_eq_iff_of_unlettered hd]

theorem head?_map_toLower {d : Char} (hd : d.toNat < 65 ∨ 90 < d.toNat ∧ d.toNat < 97 ∨ 122 < d.toNat) :
    (cs.map Char.toLower).head? = some d ↔ cs.head? = some d := by
  simp [toLower_eq_iff_of_unlettered hd]

end Text

namespace Http

variable {host header : String} {cs : List Char}

/-! ## What is left of a host -/

/-- Whether a host has no port and no brackets to lose. -/
def IsBare (host : String) : Prop :=
  if host.toList.head? = some '[' then ']' ∉ host.toList else ':' ∉ host.toList

instance (host : String) : Decidable (IsBare host) := by
  unfold IsBare
  infer_instance

/-- In brackets stands what is left. -/
theorem hostName_bracketed {address rest : List Char} (h : ']' ∉ address)
    (hhost : host.toList = '[' :: (address ++ ']' :: rest)) : hostName host = String.ofList address := by
  unfold hostName
  rw [hhost]
  simp only [Text.splitFirst?, String.toList_ofList, Text.cutFirst?_append h, Option.map_some]

/-- Before the last colon stands what is left, where there are no brackets. -/
theorem hostName_ported {name port : List Char} (hopen : host.toList.head? ≠ some '[') (h : ':' ∉ port)
    (hhost : host.toList = name ++ ':' :: port) : hostName host = String.ofList name := by
  unfold hostName
  split
  · rename_i rest heq
    rw [heq] at hopen
    exact absurd rfl hopen
  · rw [Text.splitLast?, hhost, Text.cutLast?_append h]
    rfl

/-- A bare name is left as it is. -/
theorem hostName_of_isBare (h : IsBare host) : hostName host = host := by
  unfold IsBare at h
  unfold hostName
  split
  · rename_i rest heq
    rw [heq, List.head?_cons, if_pos rfl] at h
    rw [Text.splitFirst?, String.toList_ofList,
      Text.cutFirst?_of_notMem fun hmem => h (List.mem_cons_of_mem _ hmem)]
    rfl
  · rename_i hopen
    have hhead : host.toList.head? ≠ some '[' := by
      intro hhead
      obtain ⟨rest, hrest⟩ := List.head?_eq_some_iff.1 hhead
      exact hopen rest hrest
    rw [if_neg hhead] at h
    rw [Text.splitLast?, Text.cutLast?_of_notMem h]
    rfl

/-- The three forms of a host. -/
theorem hostName_forms (host : String) : IsBare host ∨
    (∃ address rest, host.toList = '[' :: (address ++ ']' :: rest) ∧ ']' ∉ address) ∨
    (∃ name port, host.toList.head? ≠ some '[' ∧ host.toList = name ++ ':' :: port ∧ ':' ∉ port) := by
  by_cases hopen : host.toList.head? = some '['
  · obtain ⟨inside, hhost⟩ := List.head?_eq_some_iff.1 hopen
    cases hcut : Text.cutFirst? ']' inside with
    | none =>
      refine .inl ?_
      rw [IsBare, if_pos hopen, hhost, List.mem_cons]
      exact not_or.2 ⟨by decide, Text.cutFirst?_eq_none hcut⟩
    | some found =>
      obtain ⟨hinside, hnot⟩ := Text.cutFirst?_eq_some hcut
      exact .inr (.inl ⟨found.1, found.2, by rw [hhost, hinside], hnot⟩)
  · cases hcut : Text.cutLast? ':' host.toList with
    | none => exact .inl (by rw [IsBare, if_neg hopen]; exact Text.cutLast?_eq_none hcut)
    | some found =>
      obtain ⟨hhost, hnot⟩ := Text.cutLast?_eq_some hcut
      exact .inr (.inr ⟨found.1, found.2, hopen, hhost, hnot⟩)

/-- **Bare names, and only those, are looked up as they are.** -/
theorem hostName_eq_self_iff : hostName host = host ↔ IsBare host := by
  refine ⟨fun h => ?_, hostName_of_isBare⟩
  have hlength := congrArg String.toList h
  rcases hostName_forms host with hbare | ⟨address, rest, hhost, hnot⟩ | ⟨name, port, hopen, hhost, hnot⟩
  · exact hbare
  · rw [hostName_bracketed hnot hhost, hhost, String.toList_ofList] at hlength
    have hcount := congrArg List.length hlength
    simp only [List.length_cons, List.length_append] at hcount
    omega
  · rw [hostName_ported hopen hnot hhost, hhost, String.toList_ofList] at hlength
    have hcount := congrArg List.length hlength
    simp only [List.length_cons, List.length_append] at hcount
    omega

theorem isBare_asciiLower : IsBare (Text.asciiLower host) ↔ IsBare host := by
  unfold IsBare
  rw [Text.toList_asciiLower]
  simp only [Text.head?_map_toLower (d := '[') (by decide), Text.mem_map_toLower (d := ']') (by decide),
    Text.mem_map_toLower (d := ':') (by decide)]

/-- **The case of letters does not matter to what is left of a host.** -/
theorem hostName_asciiLower (host : String) :
    hostName (Text.asciiLower host) = Text.asciiLower (hostName host) := by
  rcases hostName_forms host with hbare | ⟨address, rest, hhost, hnot⟩ | ⟨name, port, hopen, hhost, hnot⟩
  · rw [hostName_of_isBare hbare, hostName_of_isBare (isBare_asciiLower.2 hbare)]
  · have hlower : (Text.asciiLower host).toList =
        '[' :: (address.map Char.toLower ++ ']' :: rest.map Char.toLower) := by
      rw [Text.toList_asciiLower, hhost]
      simp
    rw [hostName_bracketed hnot hhost,
      hostName_bracketed (by rwa [Text.mem_map_toLower (by decide)]) hlower, Text.asciiLower,
      String.toList_ofList]
  · have hlower : (Text.asciiLower host).toList = name.map Char.toLower ++ ':' :: port.map Char.toLower := by
      rw [Text.toList_asciiLower, hhost]
      simp
    rw [hostName_ported hopen hnot hhost,
      hostName_ported _ (by rwa [Text.mem_map_toLower (by decide)]) hlower, Text.asciiLower,
      String.toList_ofList]
    rwa [Text.toList_asciiLower, ne_eq, Text.head?_map_toLower (by decide)]

end Http

/-! ## Sites that are started -/

theorem hosts_of_start {settings : SiteSettings} {compiler : CompilerSettings} {d : Disk} {serial : Nat}
    {metrics : Metrics} {site : Site} (h : Site.start settings compiler d serial metrics = .ok site) :
    site.hosts = settings.hosts := by
  unfold Site.start at h
  simp only [bind, Except.bind, pure, Except.pure, throw, throwThe, MonadExceptOf.throw] at h
  cases hlocator : Site.locatorOf settings compiler d with
  | error e =>
    rw [hlocator] at h
    cases h
  | ok locator =>
    rw [hlocator] at h
    dsimp only at h
    cases hprebuilt : settings.prebuilt with
    | none =>
      rw [hprebuilt] at h
      cases h
      rfl
    | some path =>
      rw [hprebuilt] at h
      dsimp only at h
      split at h
      · cases h
      · split at h
        · cases h
        · cases h
          rfl

/-- **Sites are started with the hosts of their settings, in order.** -/
theorem hosts_of_startSites {d : Disk} {settings : Settings} {sites : List Site}
    (h : startSites d settings = .ok sites) :
    sites.map Site.hosts = settings.sites.map SiteSettings.hosts := by
  unfold startSites at h
  generalize settings.sites = configured at h ⊢
  induction configured generalizing sites with
  | nil =>
    cases h
    rfl
  | cons first rest ih =>
    rw [List.mapM_cons] at h
    cases hfirst : Site.start first settings.compiler d 1 [] with
    | error e =>
      rw [hfirst] at h
      cases h
    | ok site =>
      cases hrest : rest.mapM fun site => Site.start site settings.compiler d 1 [] with
      | error e =>
        rw [hfirst, hrest] at h
        cases h
      | ok more =>
        rw [hfirst, hrest] at h
        cases h
        rw [List.map_cons, List.map_cons, ih hrest, hosts_of_start hfirst]

namespace Http

variable {draft : Config.Draft} {settings : Settings} {d : Disk} {sites : List Site} {host header : String}
  {i : Nat} {site : SiteSettings}

/-- Whether a site is known under a name. -/
def isKnown (name : String) (site : SiteSettings) : Bool :=
  site.hosts.any fun claimed => Text.asciiLower claimed == name

theorem isKnown_iff {name : String} (h : ∀ host ∈ site.hosts, Config.IsHost host) :
    isKnown name site = true ↔ name ∈ site.hosts := by
  rw [isKnown, List.any_eq_true]
  constructor
  · rintro ⟨claimed, hmem, heq⟩
    rw [beq_iff_eq, (h claimed hmem).lower] at heq
    rwa [← heq]
  · exact fun hmem => ⟨name, hmem, beq_iff_eq.2 (h name hmem).lower⟩

/-- **A header picks the first site that is known under what is left of it**, or else the first of all. -/
theorem pick_eq_findIdx? (hstart : startSites d settings = .ok sites) (hne : settings.sites ≠ [])
    (header : String) : pick sites (some header) =
      some ((settings.sites.findIdx? (isKnown (hostName (Text.asciiLower header)))).getD 0) := by
  have hhosts := hosts_of_startSites hstart
  have hsites : sites.isEmpty = false := by
    rw [List.isEmpty_eq_false_iff]
    rintro rfl
    exact hne (List.map_eq_nil_iff.1 hhosts.symm)
  have hfound : sites.findIdx? (claims (hostName (Text.asciiLower header))) =
      settings.sites.findIdx? (isKnown (hostName (Text.asciiLower header))) := by
    have hmapped := congrArg (List.findIdx? fun hosts : List String =>
      hosts.any fun claimed => Text.asciiLower claimed == hostName (Text.asciiLower header)) hhosts
    rwa [List.findIdx?_map, List.findIdx?_map] at hmapped
  rw [pick, hsites, if_neg Bool.false_ne_true, Option.bind_some, ← hostName_asciiLower, hfound]

/-- **The header of a configured host picks its site if what is left of the host belongs to that site**, and so
it does if the host is a bare name. A host with a port, or an address with colons or in brackets, is looked up
as another name: if that belongs to no site, the first site answers, and if it belongs to another site, that
site does. -/
theorem pick_configured_host (hcheck : draft.check = .ok settings) (hstart : startSites d settings = .ok sites)
    (hsite : settings.sites[i]? = some site) (hhost : host ∈ site.hosts)
    (hheader : Text.eqIgnoringAsciiCase header host = true) :
    (pick sites (some header) = some i ↔ hostName host ∈ site.hosts ∨
      i = 0 ∧ ∀ other ∈ settings.sites, hostName host ∉ other.hosts) ∧
    (IsBare host → pick sites (some header) = some i) := by
  have hapart := Config.hostsApart_of_check hcheck
  have hknown : ∀ (name : String), ∀ other ∈ settings.sites, (isKnown name other = true ↔ name ∈ other.hosts) :=
    fun name other hother => isKnown_iff fun h hh => hapart.isHost h (List.mem_flatMap.2 ⟨other, hother, hh⟩)
  have hmem : site ∈ settings.sites := List.mem_of_getElem? hsite
  have hlower : Text.asciiLower header = host :=
    (Text.eqIgnoringAsciiCase_iff.1 hheader).trans
      (hapart.isHost host (List.mem_flatMap.2 ⟨site, hmem, hhost⟩)).lower
  have hpicks : pick sites (some header) = some i ↔ hostName host ∈ site.hosts ∨
      i = 0 ∧ ∀ other ∈ settings.sites, hostName host ∉ other.hosts := by
    rw [pick_eq_findIdx? hstart (List.ne_nil_of_mem hmem), hlower, Option.some_inj]
    cases hfound : settings.sites.findIdx? (isKnown (hostName host)) with
    | none =>
      have hnobody : ∀ other ∈ settings.sites, hostName host ∉ other.hosts := fun other hother hclaim =>
        Bool.false_ne_true ((List.findIdx?_eq_none_iff.1 hfound other hother).symm.trans
          ((hknown _ other hother).2 hclaim))
      constructor
      · exact fun heq => .inr ⟨heq.symm, hnobody⟩
      · rintro (hclaim | ⟨hzero, -⟩)
        · exact absurd hclaim (hnobody site hmem)
        · exact hzero.symm
    | some j =>
      obtain ⟨hj, hclaimed, -⟩ := List.findIdx?_eq_some_iff_getElem.1 hfound
      have hclaim := (hknown _ _ (List.getElem_mem hj)).1 hclaimed
      constructor
      · rintro rfl
        rw [Option.getD_some, List.getElem?_eq_getElem hj] at hsite
        obtain rfl := Option.some.inj hsite
        exact .inl hclaim
      · rintro (hown | ⟨-, hnobody⟩)
        · exact hapart.unique (List.getElem?_eq_getElem hj) hsite hclaim hown
        · exact absurd hclaim (hnobody _ (List.getElem_mem hj))
  refine ⟨hpicks, fun hbare => hpicks.2 (.inl ?_)⟩
  rwa [hostName_of_isBare hbare]

/-- The second site is reached under a bare name in any case, but not under an address in brackets. -/
theorem pick_host_in_brackets : ∃ (d : Disk) (settings : Settings) (sites : List Site),
    Config.Draft.check { sites := [{ name := "first", root := "/site" },
      { name := "second", root := "/site", hosts := some ["Docs", "[::1]"] }] } = .ok settings ∧
    startSites d settings = .ok sites ∧
    pick sites (some "DOCS") = some 1 ∧ pick sites (some "[::1]") ≠ some 1 := by
  obtain ⟨d, hd⟩ : ∃ d : Disk, d = ⟨[], NameMap.empty.insert "/site" .directory⟩ := ⟨_, rfl⟩
  obtain ⟨settings, hcheck, hsites⟩ : ∃ settings, Config.Draft.check { sites :=
      [{ name := "first", root := "/site" },
        { name := "second", root := "/site", hosts := some ["Docs", "[::1]"] }] } = .ok settings ∧
      settings.sites = [{ name := "first", root := "/site" },
        { name := "second", root := "/site", hosts := ["docs", "[::1]"] }] := ⟨_, rfl, rfl⟩
  obtain ⟨sites, hstart⟩ : ∃ sites, startSites d settings = .ok sites := by
    rw [startSites, hsites, hd]
    exact ⟨_, rfl⟩
  have hsecond : settings.sites[1]? = some { name := "second", root := "/site", hosts := ["docs", "[::1]"] } := by
    rw [hsites]
    rfl
  refine ⟨d, settings, sites, hcheck, hstart, ?_, fun hpick => ?_⟩
  · exact (pick_configured_host hcheck hstart hsecond (by decide : "docs" ∈ ["docs", "[::1]"])
      (by decide)).2 (by decide)
  · rcases (pick_configured_host hcheck hstart hsecond (by decide : "[::1]" ∈ ["docs", "[::1]"])
      (by decide)).1.1 hpick with hown | ⟨hzero, -⟩
    · exact absurd hown (by decide)
    · exact absurd hzero (by decide)

end Http

end SiteHost
