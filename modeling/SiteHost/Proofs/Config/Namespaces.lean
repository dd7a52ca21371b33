import SiteHost.Proofs.Config.Hosts
import SiteHost.Proofs.Script.Printable
import SiteHost.Proofs.Template.Windows

/-!
# Namespaces that can be written

The configuration cuts a namespace at its dots and looks at every piece; the script language takes a text
character by character, and passes over blanks and comments. Both know the same namespaces:

* `IsNames` — a text of which the tokens are names with dots between them, with nothing in between;
* `scope_begins` — the namespace of a template begins with the one that is configured.

Principal results:

* `isDottedName_iff_isNames` — what the configuration accepts is what can be written so;
* `qualifiedName_of_isNames` — and it is read as the whole text;
* `hasNamespace_of_check` — every namespace of settings that are accepted is empty or can be written;
* `namespaces_can_be_written` — and so no namespace stands in the way of a template.
-/

namespace SiteHost.Config

open Script Template Text

variable {v : String} {s : TokenStream} {names : List String}

/-! ## Texts of names and dots -/

/-- A text of which the tokens are names with dots between them. Nothing else stands in it: no blank and no
comment. -/
structure IsNames (v : String) (s : TokenStream) : Prop where
  scan : scan v = .ok s
  kinds : ∃ first rest, s.kinds = nameTokens (first :: rest)
  chars : s.kinds.flatMap TokenKind.chars = v.toList

/-- Names and dots are written one behind the other. -/
theorem flatMap_chars_nameTokens (hne : names ≠ []) :
    (nameTokens names).flatMap TokenKind.chars = (joined "." names).toList := by
  induction names with
  | nil => exact absurd rfl hne
  | cons first rest ih =>
    cases rest with
    | nil =>
      rw [joined, String.intercalate_singleton]
      exact List.append_nil first.toList
    | cons second more =>
      have hrest := List.cons_ne_nil second more
      have hdot : TokenKind.chars .dot = ".".toList := rfl
      rw [nameTokens_cons first hrest, joined, String.intercalate_cons_of_ne_nil hrest, ← joined,
        List.flatMap_cons, List.flatMap_cons, ih hrest, hdot, String.toList_append, String.toList_append,
        List.append_assoc]
      rfl

/-- The names of such a text are those that it is put together from. -/
theorem IsNames.joined_eq {first : String} {rest : List String} (h : IsNames v s)
    (hkinds : s.kinds = nameTokens (first :: rest)) : joined "." (first :: rest) = v := by
  have hchars := h.chars
  rw [hkinds, flatMap_chars_nameTokens (List.cons_ne_nil first rest)] at hchars
  exact String.toList_injective hchars

/-- **The configuration accepts what can be written as names with dots between them**, and nothing else. -/
theorem isDottedName_iff_isNames : isDottedName v = true ↔ ∃ s, IsNames v s := by
  constructor
  · intro h
    have hlexes : Lexes v.toList (nameTokens (pieces '.' v)) [] := lexes_dotted h nofun
    obtain ⟨s, hscan, hkinds⟩ := scan_of_lexes hlexes
    obtain ⟨first, rest, hpieces, hv⟩ := exists_pieces v
    rw [String.ofList_toList] at hscan
    rw [hpieces] at hkinds
    refine ⟨s, hscan, ⟨first, rest, hkinds⟩, ?_⟩
    rw [TokenStream.kinds, hkinds, flatMap_chars_nameTokens (List.cons_ne_nil first rest), hv]
  · rintro ⟨s, h⟩
    obtain ⟨first, rest, hkinds⟩ := h.kinds
    -- Every name among the tokens was taken from the text by the lexer.
    have hwritable : AllWritable (nameTokens (first :: rest)) := hkinds ▸ writable_of_scan h.scan
    have hdotted := isDottedName_joined (List.cons_ne_nil first rest) (allWritable_nameTokens.1 hwritable)
    rwa [h.joined_eq hkinds] at hdotted

/-- **A text of names is read as a whole**, with as much fuel as it has tokens. -/
theorem qualifiedName_of_isNames {fuel : Nat} (h : IsNames v s) (hfuel : s.tokens.length ≤ fuel) :
    ∃ s', (Parser.qualifiedName fuel).run s = .ok (v, s') ∧ s'.tokens = [] := by
  obtain ⟨first, rest, hkinds⟩ := h.kinds
  have hlength : s.tokens.length = 2 * rest.length + 1 := by
    rw [← length_nameTokens first rest, ← hkinds, TokenStream.kinds, List.length_map]
  have hend : EndsName [] := (Option.some_ne_none TokenKind.dot).symm
  have hstart : s.kinds = nameTokens (first :: rest) ++ [] := by rw [hkinds, List.append_nil]
  have henough : rest.length < fuel := by omega
  obtain ⟨a, s', hrun, hleft, rfl⟩ := qualifiedName_takes first rest hend henough s hstart
  rw [h.joined_eq hkinds] at hrun
  exact ⟨s', hrun, List.map_eq_nil_iff.1 hleft⟩

/-! ## Namespaces of settings -/

/-- **Every namespace of settings that are accepted is empty or a dotted name.** -/
theorem hasNamespace_of_check {draft : Draft} {settings : Settings} (h : draft.check = .ok settings) :
    ∀ site ∈ settings.sites, HasNamespace site := by
  refine checkSites_keeps (fun sites => ∀ site ∈ sites, HasNamespace site) (checkSites_of_check h) ?_
    (List.forall_mem_nil _)
  intro before d site hbefore hsite
  exact List.forall_mem_append.2 ⟨hbefore, List.forall_mem_singleton.2 hsite.hasNamespace⟩

/-! ## Templates in a namespace -/

/-- The type of a file lies in the namespace that is configured. -/
theorem typeName_eq_qualify {c : Convention} (hroot : c.rootNamespace ≠ "")
    (hne : c.typeSegments names ≠ []) :
    c.typeName names = qualify c.rootNamespace (joined "." (c.typeSegments names)) := by
  rw [Convention.typeName, if_neg hroot, qualify, if_neg hroot, List.singleton_append, joined,
    String.intercalate_cons_of_ne_nil hne]
  rfl

/-- **The namespace of a type begins with the one that the type was put in.** -/
theorem scope_begins {typeName scope inner : String} (htype : isDottedName typeName = true)
    (hscope : scope ≠ "") (heq : typeName = qualify scope inner) :
    pieces '.' scope <+: pieces '.' ((splitTypeName typeName).1.getD "") := by
  have hsplit := splitTypeName_spec htype
  have hpieces : pieces '.' typeName = pieces '.' scope ++ pieces '.' inner :=
    heq ▸ pieces_qualify hscope inner
  have hshort : pieces '.' (splitTypeName typeName).2 = [(splitTypeName typeName).2] :=
    pieces_of_notMem (dot_notMem_of_isName hsplit.short_isName)
  have hpos (text : String) : 0 < (pieces '.' text).length := by
    rw [pieces, List.length_map]
    exact List.length_pos_iff.2 (cut_ne_nil '.' text.toList)
  have hinner := hpos inner
  by_cases houter : (splitTypeName typeName).1.getD "" = ""
  · -- one word alone is not a type in a namespace
    have hone := hsplit.joined
    rw [houter, qualify, if_pos rfl] at hone
    rw [← hone, hpieces] at hshort
    have hlength := congrArg List.length hshort
    rw [List.length_append, List.length_singleton] at hlength
    have hscopePos := hpos scope
    omega
  · have hsame := pieces_qualify houter (splitTypeName typeName).2
    rw [← hsplit.joined, hpieces, hshort] at hsame
    refine List.prefix_of_prefix_length_le (hsame ▸ List.prefix_append _ _) (List.prefix_append _ _) ?_
    have hlength := congrArg List.length hsame
    rw [List.length_append, List.length_append, List.length_singleton] at hlength
    omega

/-- **Namespaces are what the language can write.** A text is accepted as a namespace if and only if its tokens
are names with dots between them and it has nothing else; such a text is then read as a whole. So every
namespace of settings that are accepted can be written, and no template fails for it: if the rest of its type
name can be written and its code runs, its script parses to its unit, with the class inside the namespace. -/
theorem namespaces_can_be_written :
    (∀ v, isDottedName v = true ↔ ∃ s, IsNames v s) ∧
    (∀ v s fuel, IsNames v s → s.tokens.length ≤ fuel →
      ∃ s', (Parser.qualifiedName fuel).run s = .ok (v, s') ∧ s'.tokens = []) ∧
    ∀ (draft : Draft) settings, draft.check = .ok settings →
      ∀ site ∈ settings.sites, site.namespaceName ≠ "" →
        (∃ s, IsNames site.namespaceName s) ∧
        ∀ (t : Template) names found,
          t.typeName = (site.convention settings.compiler).typeName names →
          isDottedName (joined "." ((site.convention settings.compiler).typeSegments names)) = true →
          segments t.file t.markup = .ok found → (∀ segment ∈ found, segment.Runs) →
          ∃ source, t.script = .ok source ∧ ∀ path, ∃ u, parse path source = .ok u ∧
            u.unplaced = t.windowUnit path found ∧
            ∀ c ∈ u.classes, pieces '.' site.namespaceName <+: pieces '.' c.scope := by
  refine ⟨fun v => isDottedName_iff_isNames, fun v s fuel h hfuel => qualifiedName_of_isNames h hfuel, ?_⟩
  intro draft settings hcheck site hsite hne
  have hdotted := (hasNamespace_of_check hcheck site hsite).resolve_left hne
  refine ⟨isDottedName_iff_isNames.1 hdotted, ?_⟩
  intro t names found htypeName hrest hfound hruns
  have hsegments : (site.convention settings.compiler).typeSegments names ≠ [] := by
    intro hnil
    rw [hnil] at hrest
    exact absurd hrest (by decide)
  have heq := htypeName.trans (typeName_eq_qualify hne hsegments)
  have htype : isDottedName t.typeName = true := heq ▸ isDottedName_qualify (.inr hdotted) hrest
  refine ⟨t.scriptOf found, by rw [script, hfound]; rfl, fun path => ?_⟩
  obtain ⟨u, hparse, hu⟩ := parse_scriptOf htype hruns path
  refine ⟨u, hparse, hu, fun c hc => ?_⟩
  have hunplaced : c.unplaced ∈ (t.windowUnit path found).classes := hu ▸ List.mem_map_of_mem hc
  have hscope : c.scope = (splitTypeName t.typeName).1.getD "" := by
    have hclass := List.mem_singleton.1 hunplaced
    exact congrArg ClassDecl.scope hclass
  rw [hscope]
  exact scope_begins htype hne heq

/-- A namespace of two names, one of them with a letter beyond ASCII, and a template in it. -/
theorem namespaces_can_be_written_shop :
    ∃ (settings : Settings) (s : TokenStream) (source : String) (u : SourceUnit),
      Draft.check { sites := [{ name := "shop", root := "/srv", namespaceName := "Läden.Nr_2" }] } =
        .ok settings ∧
      IsNames "Läden.Nr_2" s ∧
      (∃ s', (Parser.qualifiedName 3).run s = .ok ("Läden.Nr_2", s') ∧ s'.tokens = []) ∧
      (⟨"Läden.Nr_2.index", "index.ks.html", "<p>", false⟩ : Template).script = .ok source ∧
      parse "index.ks" source = .ok u ∧
      ∀ c ∈ u.classes, ["Läden", "Nr_2"] <+: pieces '.' c.scope := by
  obtain ⟨settings, hcheck, hcompiler, hsites⟩ : ∃ settings, Draft.check { sites :=
      [{ name := "shop", root := "/srv", namespaceName := "Läden.Nr_2" }] } = .ok settings ∧
      settings.compiler = {} ∧
      settings.sites = [{ name := "shop", root := "/srv", namespaceName := "Läden.Nr_2" }] :=
    ⟨_, rfl, rfl, rfl⟩
  obtain ⟨-, hread, hconfigured⟩ := namespaces_can_be_written
  obtain ⟨⟨s, hs⟩, htemplates⟩ :=
    hconfigured _ settings hcheck _ (hsites ▸ List.mem_singleton_self _) (by decide)
  rw [hcompiler] at htemplates
  obtain ⟨source, hscript, hparses⟩ := htemplates ⟨"Läden.Nr_2.index", "index.ks.html", "<p>", false⟩
    ["index.ks"] [.literal "<p>"] (by decide +kernel) (by decide +kernel) (by decide +kernel)
    (List.forall_mem_singleton.2 trivial)
  obtain ⟨u, hparse, -, hscope⟩ := hparses "index.ks"
  have hlength : s.tokens.length ≤ 3 := by
    have hscanned : (scan "Läden.Nr_2").map (·.tokens.length) = .ok 3 := by decide +kernel
    rw [hs.scan] at hscanned
    exact (Except.ok.inj hscanned).le
  have hpieces : pieces '.' "Läden.Nr_2" = ["Läden", "Nr_2"] := by decide +kernel
  exact ⟨settings, s, source, u, hcheck, hs, hread _ _ _ hs hlength, hscript, hparse, hpieces ▸ hscope⟩

end SiteHost.Config
