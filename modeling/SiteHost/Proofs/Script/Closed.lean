import SiteHost.Proofs.Script.Pooled

/-!
# Linked modules are closed

A module that was linked, against modules that were linked themselves, needs nothing else:

* `nodup_declarations_of_link`, `keys_of_link` — its classes are those that its units declare, each once;
* `Module.Linked.not_declared_below` — no module that it refers to, perhaps through others, declares one of
  them;
* `Module.Linked.named` — classes are found under their own names;
* `Module.Linked.exists_chain` — the bases of a class that is found end, and none comes twice.

`link_closed` puts this together.
-/

namespace SiteHost.Script

variable {units : List SourceUnit} {references : List Module} {m k r : Module} {name : String}
  {c : ClassDef}

/-! ## Classes and declarations -/

/-- No two classes of a batch that was linked have one name. -/
theorem nodup_declarations_of_link (h : link units references = .ok m) :
    ((declarations units).map fun d => d.decl.name).Nodup :=
  (declare_eq_nil_iff.1 (link_eq_ok_iff.1 h).1).1

/-- **The classes of a module are named as its declarations**, each of which gives one. -/
theorem keys_of_link (h : link units references = .ok m) :
    m.classes.keys.Perm ((declarations units).map fun d => d.decl.name) := by
  refine (List.perm_ext_iff_of_nodup (NameMap.nodup_keys _) (nodup_declarations_of_link h)).2 fun name => ?_
  rw [mem_keys_of_link h, List.mem_map]

/-- A declaration gives the class of its name, with the names in it in full. -/
theorem class_of_declared (h : link units references = .ok m) {d : Declared}
    (hd : d ∈ declarations units) : ∃ c, m.classes.get? d.decl.name = some c ∧
      c.bare = d.resolved (isKnown units references) :=
  ⟨_, (get?_of_link h).2 ⟨d, hd, rfl, rfl⟩, rfl⟩

/-! ## What lies below a module -/

namespace Module.Linked

/-- **No module below declares a class of a module.** -/
theorem not_declared_below (h : m.Linked) (hname : name ∈ m.classes.keys) (hr : r ∈ m.references)
    (hk : r.Within k) : name ∉ k.classes.keys := by
  intro hbelow
  obtain ⟨c, hc⟩ := NameMap.mem_keys.1 hname
  obtain ⟨d, hd⟩ := NameMap.mem_keys.1 hbelow
  have hfound : (k.findClass? name).isSome = true := by
    rw [findClass?_eq, hd, Option.some_or, Option.isSome_some]
  have hthere := Module.isSome_findIn? hr (Module.isSome_of_within hk hfound)
  rw [h.checked.new name c hc] at hthere
  cases hthere

/-- A class is found under its own name. -/
theorem named (h : m.Linked) (hc : m.findClass? name = some c) : c.name = name := by
  obtain ⟨k, hk, hget⟩ := Module.exists_within_of_findClass? m hc
  exact (h.within hk).checked.named name c hget

/-- **The bases of a class that is found end**, and none comes twice. -/
theorem exists_chain (h : m.Linked) (hc : m.findClass? name = some c) :
    ∃ chain, BaseChain m.findClass? c chain ∧ (chain.map ClassDef.name).Nodup := by
  obtain ⟨chain, hchain⟩ := h.rooted name c hc
  refine ⟨chain, hchain, hchain.nodup (fun name d hd => h.named hd) ?_⟩
  rw [h.named hc, hc]

end Module.Linked

/-- **A linked module is closed.** Its classes are those that its units declare, one for each declaration and no
other, and no module below it declares any of them. Every class that it finds, be it declared in the module or
below, has its base and the types it names found by the module as well; and from every such class the bases lead
to a class without a base, through finitely many classes of which none comes twice. -/
theorem link_closed (hrefs : ∀ r ∈ references, r.Linked) (hlink : link units references = .ok m) :
    m.classes.keys.Perm ((declarations units).map fun d => d.decl.name) ∧
    (∀ d ∈ declarations units, ∃ c, m.classes.get? d.decl.name = some c ∧ c.name = d.decl.name ∧
      c.bare = d.resolved (isKnown units references)) ∧
    (∀ name ∈ m.classes.keys, ∀ r ∈ references, ∀ k, r.Within k → name ∉ k.classes.keys) ∧
    ∀ name c, m.findClass? name = some c →
      (∀ base, c.base = some base → ∃ b, m.findClass? base = some b) ∧
      (∀ written full, c.typeRefs.get? written = some full → ∃ t, m.findClass? full = some t) ∧
      ∃ chain last, BaseChain m.findClass? c chain ∧ (chain.map ClassDef.name).Nodup ∧
        chain.getLast? = some last ∧ last.base = none := by
  have hlinked : m.Linked := .mk hrefs hlink
  have hreferences : m.references = references := by
    obtain ⟨-, rfl⟩ := faultless_of_link hlink
    rfl
  have hcarries := hlinked.carries_self
  refine ⟨keys_of_link hlink, fun d hd => ?_, fun name hname r hr k hk => ?_, fun name c hc => ?_⟩
  · obtain ⟨c, hc, hbare⟩ := class_of_declared hlink hd
    exact ⟨c, hc, hlinked.checked.named _ c hc, hbare⟩
  · exact hlinked.not_declared_below hname (hreferences ▸ hr) hk
  · obtain ⟨chain, hchain, hnodup⟩ := hlinked.exists_chain hc
    obtain ⟨last, hlast, hbase⟩ := hchain.getLast?_base
    exact ⟨fun base hb => hcarries.based c base ⟨name, hc⟩ hb,
      fun written full hfull => hcarries.typed c written full ⟨name, hc⟩ hfull,
      chain, last, hchain, hnodup, hlast, hbase⟩

/-- A page has its base in another module, and nothing behind that. -/
theorem link_closed_page : greeterModule.Linked ∧ link [pageUnit] [greeterModule] = .ok pageModule ∧
    pageModule.classes.keys = ["Page"] ∧ "Page" ∉ greeterModule.classes.keys ∧
    pageModule.findClass? "Page" = some pageClass ∧ pageClass.base = some "Greeter" ∧
    (∃ b, pageModule.findClass? "Greeter" = some b) ∧
    ∃ chain last, BaseChain pageModule.findClass? pageClass chain ∧ chain.length = 2 ∧
      chain.getLast? = some last ∧ last.base = none := by
  have hlink : link [pageUnit] [greeterModule] = .ok pageModule := rfl
  have hpage : pageModule.findClass? "Page" = some pageClass := rfl
  obtain ⟨hkeys, -, hnew, hclosed⟩ :=
    link_closed (fun r hr => List.mem_singleton.1 hr ▸ linked_greeterModule) hlink
  obtain ⟨hbased, -, chain, last, hchain, -, hlast, hbase⟩ := hclosed "Page" pageClass hpage
  have hbases : BaseChain pageModule.findClass? pageClass [pageClass, greeterClass] :=
    .derived rfl (.root rfl)
  refine ⟨linked_greeterModule, hlink, List.perm_singleton.1 hkeys,
    hnew "Page" (by decide) greeterModule (List.mem_singleton_self _) _ .self, hpage, rfl,
    hbased "Greeter" rfl, chain, last, hchain, ?_, hlast, hbase⟩
  rw [hchain.unique hbases]
  rfl

end SiteHost.Script
