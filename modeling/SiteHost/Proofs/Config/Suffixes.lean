import SiteHost.Config.Check
import SiteHost.Proofs.Site.Naming

/-!
# File suffixes that are accepted

* `Config.IsFileSuffix` — a suffix as it comes out of the configuration;
* `Convention.Accepted` — the naming rules that some configuration gives to some site.

Principal results:

* `fileSuffix_eq_ok` — a suffix that is accepted is not empty and has no separator in it;
* `plain_of_check` — settings that are accepted, with suffixes in lower-case ASCII, give the naming
  rules of a site;
* `Convention.Accepted.apart` — all rules that are accepted tell scripts from markup.
-/

namespace SiteHost.Config

/-- A suffix that is accepted is not empty and has no separator in it. -/
theorem fileSuffix_eq_ok {key default suffix : String} {value : Option String}
    (h : fileSuffix key default value = .ok suffix) :
    suffix ≠ "" ∧ ∀ c ∈ suffix.toList, isSeparator c = false := by
  unfold fileSuffix at h
  extract_lets found at h
  clear_value found
  by_cases hne : found = ""
  · rw [if_pos hne] at h
    cases h
  · rw [if_neg hne] at h
    cases hclean : found.toList.any isSeparator with
    | true =>
      rw [if_pos hclean] at h
      cases h
    | false =>
      rw [hclean, if_neg Bool.false_ne_true] at h
      cases h
      exact ⟨hne, by simpa using hclean⟩

/-- A file suffix as it comes out of the configuration. Blanks in front of it may stay, where a dot stood
before them. -/
structure IsFileSuffix (s : String) : Prop where
  ne_empty : s ≠ ""
  clean : ∀ c ∈ s.toList, isSeparator c = false
  unblank : ∀ c, s.toList.getLast? = some c → Text.isBlank c = false

namespace IsFileSuffix

variable {s : String}

theorem noDot (h : IsFileSuffix s) : '.' ∉ s.toList := fun hmem => absurd (h.clean '.' hmem) (by decide)

theorem noSlash (h : IsFileSuffix s) : '/' ∉ s.toList := fun hmem => absurd (h.clean '/' hmem) (by decide)

theorem noBackslash (h : IsFileSuffix s) : '\\' ∉ s.toList :=
  fun hmem => absurd (h.clean '\\' hmem) (by decide)

end IsFileSuffix

/-- What is trimmed does not end in a blank, nor does what is left of it without its first characters. -/
theorem unblank_trim {p : Char → Bool} {s : String} {c : Char}
    (h : (Text.dropStart p (Text.trim s)).toList.getLast? = some c) : Text.isBlank c = false := by
  have hkept : (Text.dropStart p (Text.trim s)).toList <:+ (Text.trim s).toList := by
    rw [Text.dropStart, String.toList_ofList]
    exact List.dropWhile_suffix p
  obtain ⟨front, hfront⟩ := hkept
  obtain ⟨init, hinit⟩ := List.getLast?_eq_some_iff.1 h
  rw [hinit, Text.trim, Text.trimEnd, Text.dropEnd, String.toList_ofList, ← List.append_assoc] at hfront
  have hhead := congrArg (fun cs => cs.reverse.head?) hfront
  simp only [List.reverse_append, List.reverse_singleton, List.singleton_append, List.head?_cons,
    List.reverse_reverse] at hhead
  have hnot := List.head?_dropWhile_not Text.isBlank (Text.trimStart s).toList.reverse
  rw [← hhead] at hnot
  exact hnot

theorem isFileSuffix_of_fileSuffix {key default suffix : String} {value : Option String}
    (hdefault : ∀ c, default.toList.getLast? = some c → Text.isBlank c = false)
    (h : fileSuffix key default value = .ok suffix) : IsFileSuffix suffix := by
  obtain ⟨hne, hclean⟩ := fileSuffix_eq_ok h
  refine ⟨hne, hclean, fun c hc => ?_⟩
  unfold fileSuffix at h
  extract_lets found at h
  split at h
  · cases h
  · split at h
    · cases h
    · obtain rfl : found = suffix := Except.ok.inj h
      cases value with
      | none => exact hdefault c hc
      | some written => exact unblank_trim hc

theorem check_eq_ok {draft : CompilerDraft} {compiler : CompilerSettings}
    (h : draft.check = .ok compiler) :
    fileSuffix "compiler.leaf_extension" "ks" draft.leafExtension = .ok compiler.leafExtension ∧
      fileSuffix "compiler.markup_suffix" "html" draft.markupSuffix = .ok compiler.markupSuffix ∧
      Text.eqIgnoringAsciiCase compiler.leafExtension compiler.markupSuffix = false := by
  unfold CompilerDraft.check at h
  simp only [bind, Except.bind, pure, Except.pure, throw, throwThe, MonadExceptOf.throw] at h
  split at h
  · cases h
  split at h
  · cases h
  rename_i hleaf
  split at h
  · cases h
  rename_i hmarkup
  split at h
  · cases h
  rename_i hdiffer
  split at h
  · cases h
  cases h
  exact ⟨hleaf, hmarkup, by simpa using hdiffer⟩

theorem isSuffix_of_fileSuffix {key default suffix : String} {value : Option String}
    (h : fileSuffix key default value = .ok suffix) (hlower : Text.IsLowerAscii suffix) :
    IsSuffix suffix := by
  obtain ⟨hne, hclean⟩ := fileSuffix_eq_ok h
  refine ⟨hlower.1, hlower.2, hne, fun hdot => ?_, fun hslash => ?_⟩
  · exact absurd (hclean '.' hdot) (by decide)
  · exact absurd (hclean '/' hslash) (by decide)

/-- **Accepted settings with suffixes in lower-case ASCII give the naming rules of a site.** -/
theorem plain_of_check {draft : CompilerDraft} {compiler : CompilerSettings}
    (h : draft.check = .ok compiler) (site : SiteSettings)
    (hleaf : Text.IsLowerAscii compiler.leafExtension)
    (hmarkup : Text.IsLowerAscii compiler.markupSuffix) :
    (site.convention compiler).Plain := by
  obtain ⟨hleafOk, hmarkupOk, hdiffer⟩ := check_eq_ok h
  refine ⟨isSuffix_of_fileSuffix hleafOk hleaf, isSuffix_of_fileSuffix hmarkupOk hmarkup,
    fun heq => ?_⟩
  have hsame : Text.eqIgnoringAsciiCase compiler.leafExtension compiler.markupSuffix = true :=
    Text.eqIgnoringAsciiCase_iff.2 (congrArg Text.asciiLower heq)
  rw [hdiffer] at hsame
  cases hsame

end SiteHost.Config

namespace SiteHost.Convention

/-- Naming rules that the configuration accepts. -/
def Accepted (c : Convention) : Prop :=
  ∃ (draft : Config.CompilerDraft) (compiler : CompilerSettings) (site : SiteSettings),
    draft.check = .ok compiler ∧ c = site.convention compiler

namespace Accepted

variable {c : Convention}

theorem leaf (h : c.Accepted) : Config.IsFileSuffix c.leafExtension := by
  obtain ⟨draft, compiler, site, hcheck, rfl⟩ := h
  exact Config.isFileSuffix_of_fileSuffix (by rintro _ ⟨⟩; rfl) (Config.check_eq_ok hcheck).1

theorem markup (h : c.Accepted) : Config.IsFileSuffix c.markupSuffix := by
  obtain ⟨draft, compiler, site, hcheck, rfl⟩ := h
  exact Config.isFileSuffix_of_fileSuffix (by rintro _ ⟨⟩; rfl) (Config.check_eq_ok hcheck).2.1

/-- **Naming rules that are accepted tell scripts from markup.** -/
theorem apart (h : c.Accepted) : c.Apart := by
  refine ⟨h.leaf.noDot, h.markup.noDot, fun hsame => ?_⟩
  obtain ⟨draft, compiler, site, hcheck, rfl⟩ := h
  have hdiffer := (Config.check_eq_ok hcheck).2.2
  have hequal : Text.eqIgnoringAsciiCase compiler.leafExtension compiler.markupSuffix = true :=
    Text.eqIgnoringAsciiCase_iff.2 hsame
  rw [hdiffer] at hequal
  cases hequal

end Accepted

/-- The rules where nothing else is configured are accepted. -/
theorem accepted_default : Convention.default.Accepted := ⟨{}, {}, ⟨"", "", [], "Site", none, true⟩, rfl, rfl⟩

end SiteHost.Convention
