import SiteHost.Proofs.Script.Pooled
import SiteHost.Proofs.Site.Assembled
import SiteHost.Proofs.Site.Sources
import SiteHost.Template.Window

/-!
# What becomes of requests

A request gives an object or a failure. Of an object its type and its answers count, of a failure its kind:

* `label`, `SameOutcome` — what two requests have to agree in;
* `Artifact.IsLinked`, `Artifact.LinkedAgainst` — whether an artifact has a module that was linked;
* `Artifact.requested` — the object that a request for the unit of an artifact gives.

Principal results:

* `Sources.selfContained` — whatever the units of a site amount to is linked against the layers below;
* `typeName_of_instantiate` — so that objects made of it are of the type that was asked for.
-/

namespace SiteHost

/-- The type of the object that a request gives, or the kind of the failure. -/
def label : Except Failure Handler → Except String String
  | .ok h => .ok h.typeName
  | .error e => .error e.kind

/-- Whether two requests have the same outcome: failures of one kind, or objects of one type that answer
every sequence of calls alike. -/
structure SameOutcome (x y : Except Failure Handler) : Prop where
  label : label x = label y
  answers : x.toOption.map Handler.answers = y.toOption.map Handler.answers

@[refl] theorem SameOutcome.refl (x : Except Failure Handler) : SameOutcome x x := ⟨rfl, rfl⟩

/-- Objects that answer alike, and are of one type, are the same outcome; and so are equal failures. -/
theorem sameOutcome_of_answers {x y : Except Failure Handler}
    (hanswers : ∀ calls, x.map (·.answers calls) = y.map (·.answers calls))
    (htype : ∀ h k, x = .ok h → y = .ok k → h.typeName = k.typeName) : SameOutcome x y := by
  cases x with
  | error e =>
    cases y with
    | error e' =>
      cases hanswers []
      exact .refl _
    | ok k => cases hanswers []
  | ok h =>
    cases y with
    | error e => cases hanswers []
    | ok k =>
      refine ⟨congrArg Except.ok (htype h k rfl rfl), congrArg some (funext fun calls => ?_)⟩
      exact Except.ok.inj (hanswers calls)

/-- Failures of one kind are the same outcome. -/
theorem sameOutcome_of_failures {x y : Except Failure Handler} {kind : String}
    (hx : label x = .error kind) (hy : label y = .error kind) : SameOutcome x y := by
  have hnone : ∀ z : Except Failure Handler, label z = .error kind → z.toOption = none := by
    intro z hz
    cases z with
    | error e => rfl
    | ok h => cases hz
  exact ⟨hx.trans hy.symm, by rw [hnone x hx, hnone y hy]⟩

/-! ## Linked artifacts -/

/-- Whether an artifact has a module that was linked. -/
def Artifact.IsLinked (a : Artifact) : Prop := ∃ m, a.module? = some m ∧ m.Linked

/-- Whether an artifact has a module that was linked against those of references. -/
def Artifact.LinkedAgainst (a : Artifact) (references : List Artifact) : Prop :=
  ∃ m, a.module? = some m ∧ Script.link m.units m.references = .ok m ∧
    m.references = references.filterMap Artifact.module?

/-- What is linked against linked artifacts is linked. -/
theorem Artifact.LinkedAgainst.isLinked {a : Artifact} {references : List Artifact}
    (h : a.LinkedAgainst references) (hrefs : ∀ r ∈ references, r.IsLinked) : a.IsLinked := by
  obtain ⟨m, hm, hlink, hreferences⟩ := h
  refine ⟨m, hm, .mk (fun k hk => ?_) hlink⟩
  rw [hreferences] at hk
  obtain ⟨r, hr, hmodule⟩ := List.mem_filterMap.1 hk
  obtain ⟨m', hm', hlinked⟩ := hrefs r hr
  rw [hmodule] at hm'
  cases hm'
  exact hlinked

namespace Sources

variable {src : Sources} {unit : Identity} {a f : Artifact} {g : Option Artifact}
  {references leaves : List Artifact}

/-- What source texts amount to. -/
theorem artifact_eq_ok {kind : UnitKind} {texts : List SourceText}
    (h : artifact unit kind texts references = .ok a) :
    a.identity = unit ∧ a.kind = kind ∧ a.LinkedAgainst references := by
  unfold artifact at h
  cases hcompile : compile texts references with
  | error diagnostics =>
    rw [hcompile] at h
    cases h
  | ok m =>
    rw [hcompile] at h
    cases h
    exact ⟨rfl, rfl, m, rfl, link_of_compile hcompile⟩

/-- What the files of a unit amount to. With markup it is a template. -/
theorem assemble_eq_ok {texts : UnitTexts} (h : src.assemble unit texts references = .ok a) :
    a.identity = unit ∧ a.kind = (if texts.markup.isSome then .template else .script) ∧
      a.LinkedAgainst references := by
  unfold assemble at h
  dsimp only at h
  cases hmarkup : texts.markup with
  | none =>
    rw [hmarkup] at h
    exact artifact_eq_ok h
  | some markup =>
    rw [hmarkup] at h
    dsimp only at h
    split at h
    · cases h
    · exact artifact_eq_ok h

theorem linkedAgainst_unit (h : src.unit unit references = .ok a) : a.LinkedAgainst references := by
  obtain ⟨found, -, h⟩ := bind_eq_ok.1 h
  exact (assemble_eq_ok h).2.2

theorem linkedAgainst_foundation (h : src.foundation = .ok f) : f.LinkedAgainst [] := by
  obtain ⟨texts, -, h⟩ := bind_eq_ok.1 h
  exact (artifact_eq_ok h).2.2

theorem linkedAgainst_globalUnit (h : src.globalUnit = .ok (some a)) :
    ∃ f, src.foundation = .ok f ∧ a.LinkedAgainst [f] := by
  unfold globalUnit at h
  split at h
  · split at h
    · rename_i hartifact
      cases h
      obtain ⟨f, hfoundation, hunit⟩ := bind_eq_ok.1 hartifact
      exact ⟨f, hfoundation, linkedAgainst_unit hunit⟩
    · cases h
    · cases h
  · cases h

/-- The layers below the leaves are linked. -/
theorem isLinked_below (hf : src.foundation = .ok f) (hg : src.globalUnit = .ok g) :
    ∀ a ∈ f :: g.toList, a.IsLinked := by
  have hfoundation := (linkedAgainst_foundation hf).isLinked nofun
  refine List.forall_mem_cons.2 ⟨hfoundation, fun a ha => ?_⟩
  rw [Option.mem_toList.1 ha] at hg
  obtain ⟨f', hf', hlinked⟩ := linkedAgainst_globalUnit hg
  rw [hf] at hf'
  cases hf'
  exact hlinked.isLinked (List.forall_mem_singleton.2 hfoundation)

/-- Leaves are linked against the layers below, and so is the global unit when it is asked for like one. -/
theorem linkedAgainst_leaf (h : src.leaf unit = .ok a) : ∃ f g, src.foundation = .ok f ∧
    src.globalUnit = .ok g ∧ ∃ references ⊆ f :: g.toList, a.LinkedAgainst references := by
  by_cases hunit : src.locator.isGlobal unit = true
  · have hglobal := (leaf_eq_ok_iff_globalUnit hunit).1 h
    obtain ⟨f, hf, hlinked⟩ := linkedAgainst_globalUnit hglobal
    exact ⟨f, some a, hf, hglobal, [f], by simp, hlinked⟩
  · rw [leaf, if_neg hunit] at h
    obtain ⟨f, hf, h⟩ := bind_eq_ok.1 h
    obtain ⟨g, hg, h⟩ := bind_eq_ok.1 h
    exact ⟨f, g, hf, hg, _, List.Subset.refl _, linkedAgainst_unit h⟩

/-- **Whatever a unit amounts to is linked.** -/
theorem isLinked_leaf (h : src.leaf unit = .ok a) : a.IsLinked := by
  obtain ⟨f, g, hf, hg, references, hsub, hlinked⟩ := linkedAgainst_leaf h
  exact hlinked.isLinked fun r hr => isLinked_below hf hg r (hsub hr)

/-- **A site is self-contained**: whatever its units amount to is linked against the layers below. -/
theorem selfContained (hf : src.foundation = .ok f) (hg : src.globalUnit = .ok g)
    (hleaves : ∀ a ∈ leaves, ∃ unit, src.leaf unit = .ok a) :
    Script.SelfContained ((f :: (g.toList ++ leaves)).filterMap Artifact.module?) := by
  intro m hm
  obtain ⟨a, ha, hmodule⟩ := List.mem_filterMap.1 hm
  obtain ⟨references, hsub, m', hm', hlink, hreferences⟩ :
      ∃ references ⊆ f :: g.toList, a.LinkedAgainst references := by
    rcases List.mem_cons.1 ha with rfl | ha
    · exact ⟨[], by simp, linkedAgainst_foundation hf⟩
    · rcases List.mem_append.1 ha with ha | ha
      · rw [Option.mem_toList.1 ha] at hg
        obtain ⟨f', hf', hlinked⟩ := linkedAgainst_globalUnit hg
        rw [hf] at hf'
        cases hf'
        exact ⟨[f], by simp, hlinked⟩
      · obtain ⟨unit, hunit⟩ := hleaves a ha
        obtain ⟨f', g', hf', hg', hlinked⟩ := linkedAgainst_leaf hunit
        rw [hf] at hf'
        rw [hg] at hg'
        cases hf'
        cases hg'
        exact hlinked
  rw [hmodule] at hm'
  cases hm'
  refine ⟨hlink, fun r hr => ?_⟩
  rw [hreferences] at hr
  obtain ⟨b, hb, hr⟩ := List.mem_filterMap.1 hr
  refine List.mem_filterMap.2 ⟨b, ?_, hr⟩
  rcases List.mem_cons.1 (hsub hb) with rfl | hb
  · exact List.mem_cons_self
  · exact List.mem_cons_of_mem _ (List.mem_append_left _ hb)

end Sources

/-! ## Objects -/

section Objects

variable {a : Artifact} {m : Script.Module} {name : String} {args : List Script.Value} {h : Handler}

/-- Objects of a linked artifact are of the type that was asked for. -/
theorem typeName_of_instantiate (ha : a.IsLinked) (hobject : a.instantiate name args = .ok h) :
    h.typeName = name := by
  obtain ⟨m, hm, hlinked⟩ := ha
  unfold Artifact.instantiate at hobject
  rw [hm] at hobject
  cases hc : a.classes.get? name with
  | none =>
    rw [hc] at hobject
    cases hobject
  | some c =>
    rw [hc] at hobject
    dsimp only at hobject
    have hget : m.classes.get? name = some c := by rwa [Artifact.classes, hm] at hc
    cases hconstruct : Script.construct m c args with
    | error e =>
      rw [hconstruct] at hobject
      cases hobject
    | ok object =>
      rw [hconstruct] at hobject
      cases hobject
      rw [Handler.typeName, hlinked.cls_of_construct hget hconstruct]
      exact hlinked.checked.named name c hget

/-- Objects are made of declared types. -/
theorem mem_typeNames_of_instantiate (hobject : a.instantiate name args = .ok h) : name ∈ a.typeNames := by
  unfold Artifact.instantiate at hobject
  split at hobject
  · rename_i c _ hc
    exact NameMap.mem_keys.2 ⟨c, hc⟩
  · cases hobject

/-- The type of the objects that requests for the unit of an artifact give. -/
def Artifact.ownType (a : Artifact) : String := a.instanceType windowName a.identity.typeName

/-- The object that a request for the unit of an artifact gives. -/
def Artifact.requested (a : Artifact) (args : List Script.Value) : Except Failure Handler :=
  a.instantiate a.ownType args

/-- A template gives objects of its window, anything else of the type that is named as its unit. -/
theorem Artifact.ownType_eq (a : Artifact) : a.ownType =
    if a.isTemplate then windowName a.identity.typeName else a.identity.typeName := by
  rw [ownType, instanceType]
  simp

end Objects

end SiteHost
