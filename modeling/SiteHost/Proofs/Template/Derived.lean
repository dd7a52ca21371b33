import SiteHost.Proofs.Script.Foundation
import SiteHost.Proofs.Script.Printable
import SiteHost.Proofs.Site.Assembled
import SiteHost.Proofs.Template.Windows

/-!
# What a template derives from

A template with a code-behind names its base by the short name of its type, and what that stands for is
found out by the linker. The code of a template can be anything, so that only the first lines of its script
are known for certain:

* `headLines` — the lines of the script up to the body of the class;
* `Opens` — whether a unit begins with these lines: it uses `Kiln` and declares the class;
* `nearer` — the full names that are looked for before the type itself.

Principal results:

* `kinds_of_lexes` — the tokens of a text begin with those of its beginning;
* `AreItems.use_inv`, `AreItems.within_inv`, `AreItems.declares_inv` — what items are whose tokens begin with
  a use, a namespace or the head of a class;
* `opens_of_parse` — whatever its code is, the script of a template opens like this;
* `derives_from_nearest` — a template derives from the first of the nearer classes that exists, and from its
  own type if there is none.
-/

namespace SiteHost

namespace Script

open SiteHost.Script.Parser

/-! ## Tokens that begin a text -/

/-- **The tokens of a text begin with those of its beginning.** -/
theorem kinds_of_lexes {cs next : List Char} {kinds : List TokenKind} (h : Lexes cs kinds next)
    {s : TokenStream} (hscan : scan (String.ofList (cs ++ next)) = .ok s) :
    ∃ more, s.kinds = kinds ++ more := by
  obtain ⟨tokens, p, rfl, hrest⟩ := h [] .start
  rw [scan_ofList rfl, hrest, List.append_nil] at hscan
  obtain ⟨more, hmore, -⟩ := lexes_of_scanFrom hscan
  refine ⟨more, ?_⟩
  show s.tokens.map Token.kind = tokens.map Token.kind ++ more
  rw [hmore, ← List.map_reverse, List.reverse_reverse]

variable {names names' : List String} {used used' : List TokenKind}

/-- A dotted name ends where no dot follows. -/
theorem nameTokens_append_inj (hne : names ≠ []) (hne' : names' ≠ [])
    (h : nameTokens names ++ used = nameTokens names' ++ used') (hused : used.head? ≠ some .dot)
    (hused' : used'.head? ≠ some .dot) : names = names' ∧ used = used' := by
  induction names generalizing names' with
  | nil => exact absurd rfl hne
  | cons first rest ih =>
    obtain ⟨first', rest', rfl⟩ := List.exists_cons_of_ne_nil hne'
    by_cases hrest : rest = [] <;> by_cases hrest' : rest' = []
    · subst hrest hrest'
      obtain ⟨hfirst, hmore⟩ := List.cons.inj h
      exact ⟨by rw [TokenKind.name.inj hfirst], hmore⟩
    · rw [nameTokens_cons first' hrest'] at h
      subst hrest
      obtain ⟨-, hmore⟩ := List.cons.inj h
      exact absurd (congrArg List.head? hmore) hused
    · rw [nameTokens_cons first hrest] at h
      subst hrest'
      obtain ⟨-, hmore⟩ := List.cons.inj h
      exact absurd (congrArg List.head? hmore.symm) hused'
    · rw [nameTokens_cons first hrest, nameTokens_cons first' hrest'] at h
      obtain ⟨hfirst, hmore⟩ := List.cons.inj h
      obtain ⟨-, hmore⟩ := List.cons.inj hmore
      obtain ⟨rfl, rfl⟩ := ih hrest hrest' hmore
      exact ⟨by rw [TokenKind.name.inj hfirst], rfl⟩

/-! ## Items with a known beginning -/

variable {scope first : String} {more : List String} {found : List Item}

/-- A class begins with no word that begins another item. -/
theorem IsClass.head_ne {decl : ClassDecl} (h : IsClass scope used decl) {word : String}
    (hword : word ∉ classModifiers ∧ word ≠ "class") {rest : List TokenKind} :
    used ++ used' ≠ .name word :: rest := by
  obtain ⟨head, tail, rfl, hhead⟩ := h.starts
  intro heq
  obtain rfl : head = word := TokenKind.name.inj (List.cons.inj heq).1
  exact hhead.elim hword.1 hword.2

/-- Items that begin with a use. -/
theorem AreItems.use_inv (h : AreItems scope
    (.name "using" :: (nameTokens (first :: more) ++ .semicolon :: used)) found) :
    ∃ rest, found = .use (Text.joined "." (first :: more)) :: rest ∧ AreItems scope used rest := by
  generalize hkinds : TokenKind.name "using" :: _ = kinds at h
  cases h with
  | none => cases hkinds
  | use first' more' hrest =>
    obtain ⟨hnames, hused⟩ := nameTokens_append_inj (List.cons_ne_nil first more)
      (List.cons_ne_nil first' more') (List.cons.inj hkinds).2 (by simp) (by simp)
    rw [← hnames]
    obtain ⟨-, rfl⟩ := List.cons.inj hused
    exact ⟨_, rfl, hrest⟩
  | within => exact absurd (TokenKind.name.inj (List.cons.inj hkinds).1) (by decide)
  | declares hdecl => exact absurd hkinds.symm (hdecl.head_ne (by decide))

/-- Items that begin with a namespace. -/
theorem AreItems.within_inv (h : AreItems scope
    (.name "namespace" :: (nameTokens (first :: more) ++ .openBrace :: used)) found) :
    ∃ inner rest nested others, used = inner ++ .closeBrace :: rest ∧ found = nested ++ others ∧
      AreItems (qualify scope (Text.joined "." (first :: more))) inner nested := by
  generalize hkinds : TokenKind.name "namespace" :: _ = kinds at h
  cases h with
  | none => cases hkinds
  | use => exact absurd (TokenKind.name.inj (List.cons.inj hkinds).1) (by decide)
  | within first' more' hnested hrest =>
    obtain ⟨hnames, hused⟩ := nameTokens_append_inj (List.cons_ne_nil first more)
      (List.cons_ne_nil first' more') (List.cons.inj hkinds).2 (by simp) (by simp)
    rw [← hnames] at hnested
    obtain ⟨-, rfl⟩ := List.cons.inj hused
    exact ⟨_, _, _, _, rfl, rfl, hnested⟩
  | declares hdecl => exact absurd hkinds.symm (hdecl.head_ne (by decide))

/-- The tokens of the head of a class, up to its body. -/
def headTokens (name base : String) : List TokenKind :=
  .name "public" :: .name "class" :: .name name :: .colon ::
    (nameTokens (Text.pieces '.' base) ++ [.openBrace])

/-- A class with a known head. -/
theorem IsClass.head_inv {decl : ClassDecl} {name base : String} {rest : List TokenKind}
    (h : IsClass scope used decl) (hused : headTokens name base ++ rest = used ++ used') :
    decl.name = qualify scope name ∧ decl.scope = scope ∧ decl.base = some base := by
  obtain ⟨first, more, hpieces, hjoined⟩ := exists_pieces base
  rw [headTokens, hpieces] at hused
  cases h with
  | @mk words head body base' ms name' position hwords hbase hms hone =>
    -- one modifier, since the word that comes next is none
    rcases words with _ | ⟨word, _ | ⟨other, rest'⟩⟩
    · exact absurd (TokenKind.name.inj (List.cons.inj hused).1) (by decide)
    · simp only [wordTokens, List.map_cons, List.map_nil, List.cons_append, List.nil_append,
        List.append_assoc, List.cons.injEq, TokenKind.name.injEq, true_and] at hused
      obtain ⟨-, rfl, hused⟩ := hused
      cases hbase with
      | none => cases hused
      | some first' more' =>
        obtain ⟨hnames, -⟩ := nameTokens_append_inj (List.cons_ne_nil first more)
          (List.cons_ne_nil first' more') (List.cons.inj hused).2 (by simp) (by simp)
        exact ⟨rfl, rfl, by rw [← hnames, hjoined]⟩
    · obtain ⟨-, hnext⟩ := List.cons.inj hused
      obtain rfl := TokenKind.name.inj (List.cons.inj hnext).1
      exact absurd (hwords "class" (by simp)) (by decide)

/-- Items that begin with the head of a class. -/
theorem AreItems.declares_inv {name base : String} (h : AreItems scope (headTokens name base ++ used) found) :
    ∃ decl rest, found = .declares decl :: rest ∧ decl.name = qualify scope name ∧ decl.scope = scope ∧
      decl.base = some base := by
  generalize hkinds : headTokens name base ++ used = kinds at h
  cases h with
  | none => cases hkinds
  | use => exact absurd (TokenKind.name.inj (List.cons.inj hkinds).1) (by decide)
  | within => exact absurd (TokenKind.name.inj (List.cons.inj hkinds).1) (by decide)
  | declares hdecl => exact ⟨_, _, rfl, hdecl.head_inv hkinds⟩

theorem closeBrace_notMem_headTokens (name base : String) : .closeBrace ∉ headTokens name base := by
  have hnames : TokenKind.closeBrace ∉ nameTokens (Text.pieces '.' base) := by
    cases Text.pieces '.' base <;> simp [nameTokens]
  simp [headTokens, hnames]

/-- The head of a class stands before the brace that closes its namespace. -/
theorem prefix_of_append_closeBrace {inner rest : List TokenKind} {name base : String}
    (h : headTokens name base ++ used = inner ++ .closeBrace :: rest) :
    ∃ body, inner = headTokens name base ++ body := by
  rcases List.append_eq_append_iff.1 h with ⟨body, hinner, -⟩ | ⟨between, hhead, hclose⟩
  · exact ⟨body, hinner⟩
  · cases between with
    | nil => exact ⟨[], by rw [hhead, List.append_nil, List.append_nil]⟩
    | cons kind between =>
      obtain rfl := (List.cons.inj hclose).1
      exact absurd (hhead ▸ List.mem_append_right inner List.mem_cons_self)
        (closeBrace_notMem_headTokens name base)

/-! ## Uses and namespaces -/

/-- The first of several names is the first one that is kept. -/
theorem head?_withoutRepeats (name : String) (rest : List String) :
    (withoutRepeats (name :: rest)).head? = some name := by
  have hfold (seen : List String) (hseen : seen.head? = some name) :
      (rest.foldl (fun seen name => if seen.contains name then seen else seen ++ [name]) seen).head? =
        some name := by
    induction rest generalizing seen with
    | nil => exact hseen
    | cons other rest ih =>
      rw [List.foldl_cons]
      refine ih _ ?_
      split
      · exact hseen
      · rw [List.head?_append, hseen, Option.some_or]
  exact hfold [name] rfl

theorem enclosing_empty : enclosing "" = [] := rfl

/-- A name is looked for in its own namespace first. -/
theorem head?_enclosing {scope : String} (h : scope ≠ "") : (enclosing scope).head? = some scope := by
  obtain ⟨first, rest, hpieces, hjoined⟩ := exists_pieces scope
  unfold enclosing
  simp only [hpieces, List.length_cons, List.range_succ, List.reverse_append, List.reverse_cons,
    List.reverse_nil, List.nil_append, List.singleton_append, List.map_cons]
  rw [List.take_of_length_le (by simp), hjoined, List.filter_cons_of_pos (by simpa using h)]
  rfl

end Script

namespace Template

open Script

variable {t : Template}

/-! ## How the script opens -/

/-- The lines of the script up to the body of the class. -/
def headLines (t : Template) : List (String × List TokenKind) :=
  ("using Kiln;", [.name "using", .name "Kiln", .semicolon]) :: ("", []) ::
  openingLines (splitTypeName t.typeName).1 ++
  [(indentOf (splitTypeName t.typeName).1 ++
      ("public class " ++ windowName (splitTypeName t.typeName).2 ++ " : " ++ t.baseOf),
    .name "public" :: .name "class" :: .name (windowName (splitTypeName t.typeName).2) :: .colon ::
      nameTokens (Text.pieces '.' t.baseOf)),
    (indentOf (splitTypeName t.typeName).1 ++ "\x7b", [.openBrace])]

/-- Whether a unit begins with a use of `Kiln` and with the class of a template. -/
structure Opens (t : Template) (u : SourceUnit) : Prop where
  uses : u.uses.head? = some "Kiln"
  declares : ∃ decl ∈ u.classes, decl.name = windowName t.typeName ∧
    decl.scope = (splitTypeName t.typeName).1.getD "" ∧ decl.base = some t.baseOf

theorem exists_scriptLines (t : Template) (found : List Segment) :
    ∃ rest, t.scriptLines found = t.headLines ++ rest := by
  unfold scriptLines headLines classLines
  simp only [List.map_cons, List.append_assoc, List.cons_append, List.nil_append]
  exact ⟨_, rfl⟩

theorem isLine_headLines (h : Config.isDottedName t.typeName = true) :
    ∀ line ∈ t.headLines, IsLine line.1 line.2 := by
  have hindent := all_isBlank_indentOf (splitTypeName t.typeName).1
  have hname := isName_windowName (splitTypeName_spec h).short_isName
  have hbrace : IsLine "\x7b" [.openBrace] := isLine_known rfl (by decide +kernel)
  unfold headLines
  refine List.forall_mem_append.2 ⟨?_, ?_⟩
  · refine List.forall_mem_cons.2 ⟨isLine_known rfl (by decide +kernel), ?_⟩
    refine List.forall_mem_cons.2 ⟨isLine_known rfl (by decide +kernel), ?_⟩
    exact isLine_opening (splitTypeName_spec h).scope_isDotted
  · refine List.forall_mem_cons.2 ⟨(isLine_head hname (isDottedName_baseOf h)).indented hindent, ?_⟩
    exact List.forall_mem_singleton.2 (hbrace.indented hindent)

/-- The tokens of the first lines are a use, what opens the namespace, and the head of the class. -/
theorem flatMap_headLines (t : Template) : t.headLines.flatMap Prod.snd =
    .name "using" :: (nameTokens ["Kiln"] ++ .semicolon ::
      ((openingLines (splitTypeName t.typeName).1).flatMap Prod.snd ++
        headTokens (windowName (splitTypeName t.typeName).2) t.baseOf)) := by
  simp [headLines, headTokens, nameTokens]

/-- What opens a namespace, if there is one, and the head of a class are a class in it. -/
theorem declares_of_opening {scope : Option String} {name base : String} {used : List TokenKind}
    {found : List Parser.Item}
    (h : AreItems "" ((openingLines scope).flatMap Prod.snd ++ (headTokens name base ++ used)) found) :
    ∃ decl, .declares decl ∈ found ∧ decl.name = qualify (scope.getD "") name ∧
      decl.scope = scope.getD "" ∧ decl.base = some base := by
  cases scope with
  | none =>
    obtain ⟨decl, others, rfl, hdecl⟩ := AreItems.declares_inv h
    exact ⟨decl, List.mem_cons_self, hdecl⟩
  | some scope =>
    obtain ⟨first, rest, hpieces, hjoined⟩ := exists_pieces scope
    have hkinds : (openingLines (some scope)).flatMap Prod.snd =
        .name "namespace" :: (nameTokens (first :: rest) ++ [.openBrace]) := by
      simp [openingLines, hpieces]
    rw [hkinds, List.cons_append, List.append_assoc, List.singleton_append] at h
    obtain ⟨inner, after, nested, outer, hinner, rfl, hnested⟩ := h.within_inv
    obtain ⟨body, rfl⟩ := prefix_of_append_closeBrace hinner
    obtain ⟨decl, others, rfl, hdecl⟩ := AreItems.declares_inv hnested
    have houter : qualify "" scope = scope := by rw [qualify, if_pos rfl]
    rw [hjoined, houter] at hdecl
    exact ⟨decl, List.mem_append_left _ List.mem_cons_self, hdecl⟩

theorem script_eq_ok {generated : String} (h : t.script = .ok generated) :
    ∃ found, segments t.file t.markup = .ok found ∧ generated = t.scriptOf found := by
  unfold script at h
  cases hfound : segments t.file t.markup with
  | error e =>
    rw [hfound] at h
    exact nomatch h
  | ok found =>
    rw [hfound] at h
    exact ⟨found, rfl, (Except.ok.inj h).symm⟩

/-- **Whatever its code is, the script of a template opens with the class of the template.** -/
theorem opens_of_parse {generated path : String} {u : SourceUnit}
    (htype : Config.isDottedName t.typeName = true) (hscript : t.script = .ok generated)
    (hparse : parse path generated = .ok u) : t.Opens u := by
  obtain ⟨found, -, hgenerated⟩ := script_eq_ok hscript
  obtain ⟨rest, hlines⟩ := t.exists_scriptLines found
  obtain ⟨s, items, hscan, hitems, rfl⟩ := areItems_of_parse hparse
  have hsource : generated = String.ofList ((textOf t.headLines).toList ++ (textOf rest).toList) := by
    rw [hgenerated, scriptOf_eq, hlines, textOf_append, ← String.toList_append, String.ofList_toList]
  rw [hsource] at hscan
  obtain ⟨more, hkinds⟩ := kinds_of_lexes (lexes_textOf (isLine_headLines htype) _) hscan
  rw [hkinds, flatMap_headLines, List.cons_append, List.append_assoc, List.cons_append] at hitems
  obtain ⟨others, rfl, hothers⟩ := hitems.use_inv
  rw [List.append_assoc] at hothers
  obtain ⟨decl, hmem, hdecl⟩ := declares_of_opening hothers
  rw [qualify_windowName htype] at hdecl
  have hkiln : Text.joined "." ["Kiln"] = "Kiln" := rfl
  refine ⟨?_, decl, List.mem_filterMap.2 ⟨_, List.mem_cons_of_mem _ hmem, rfl⟩, hdecl⟩
  exact (head?_withoutRepeats _ _).trans (congrArg some hkiln)

/-- The script of a template uses nothing but `Kiln` if its code is a body of its own, piece by piece. -/
theorem uses_of_runs {generated path : String} {u : SourceUnit} {found : List Segment}
    (htype : Config.isDottedName t.typeName = true) (hscript : t.script = .ok generated)
    (hparse : parse path generated = .ok u) (hfound : segments t.file t.markup = .ok found)
    (hruns : ∀ s ∈ found, s.Runs) : u.uses = ["Kiln"] := by
  obtain ⟨found', hfound', rfl⟩ := script_eq_ok hscript
  obtain rfl : found = found' := Except.ok.inj (hfound.symm.trans hfound')
  obtain ⟨v, hv, hunit⟩ := parse_scriptOf htype hruns path
  obtain rfl : u = v := Except.ok.inj (hparse.symm.trans hv)
  exact congrArg SourceUnit.uses hunit

/-! ## The base -/

/-- The classes that a template with a code-behind takes for that of its type before the type itself: those
of the namespaces that its script uses, unless the type has a namespace of its own. -/
def nearer (typeName : String) (uses : List String) : List String :=
  if (splitTypeName typeName).1.isSome then [] else uses.map fun used => used ++ "." ++ typeName

/-- A class that is taken for the type before the type itself is another one. -/
theorem ne_of_mem_nearer {typeName name : String} {uses : List String} (h : name ∈ nearer typeName uses) :
    name ≠ typeName := by
  unfold nearer at h
  split at h
  · cases h
  · obtain ⟨used, -, rfl⟩ := List.mem_map.1 h
    intro heq
    have hlength := congrArg String.length heq
    have hdot : ".".length = 1 := rfl
    rw [String.length_append, String.length_append, hdot] at hlength
    omega

/-- What the short name of a type stands for in its own namespace, if the type exists. -/
theorem find?_candidates_short {typeName : String} {uses : List String} {exists? : String → Bool}
    (htype : Config.isDottedName typeName = true) (hexists : exists? typeName = true) :
    (candidates (splitTypeName typeName).2 ((splitTypeName typeName).1.getD "") uses).find? exists? =
      some (((nearer typeName uses).find? exists?).getD typeName) := by
  have hsplit := splitTypeName_spec htype
  have hjoined := hsplit.joined
  unfold candidates nearer
  cases hscope : (splitTypeName typeName).1 with
  | none =>
    rw [hscope, Option.getD_none, qualify, if_pos rfl] at hjoined
    rw [Option.getD_none, enclosing_empty, List.map_nil, List.nil_append, ← hjoined, List.find?_append,
      List.find?_singleton, if_pos hexists]
    show _ = some (((uses.map fun used => used ++ "." ++ typeName).find? exists?).getD typeName)
    cases (uses.map fun used => used ++ "." ++ typeName).find? exists? <;> rfl
  | some scope =>
    -- the innermost namespace is that of the type, so that the type is the first to be found
    have hne : scope ≠ "" := fun hempty => hsplit.scope_ne (hempty ▸ hscope)
    obtain ⟨rest, hrest⟩ := List.head?_eq_some_iff.1 (head?_enclosing hne)
    rw [hscope, Option.getD_some, qualify, if_neg hne] at hjoined
    rw [Option.getD_some, hrest, List.map_cons, List.cons_append, List.cons_append, ← hjoined,
      List.find?_cons_of_pos hexists]
    rfl

/-- **A template derives from the first of the nearer classes that exists**, and from its own type if there is
none. A type with a namespace has no nearer classes. One without has those that are named like it in `Kiln`,
and in whatever else the code of the template uses. -/
theorem derives_from_nearest {t : Template} {generated path : String} {own : SourceText} {u : SourceUnit}
    {c : ClassDecl} {sources : List SourceText} {references : List Artifact} {m : Module}
    (hbehind : t.hasCodeBehind = true) (hscript : t.script = .ok generated)
    (hparse : parse own.path own.text = .ok u) (hc : c ∈ u.classes) (hname : c.name = t.typeName)
    (hown : own ∈ sources) (hgenerated : ⟨path, generated⟩ ∈ sources)
    (hcompile : compile sources references = .ok m) :
    ∃ v w base, parse path generated = .ok v ∧ v.uses.head? = some "Kiln" ∧
      (∀ found, segments t.file t.markup = .ok found → (∀ s ∈ found, s.Runs) → v.uses = ["Kiln"]) ∧
      m.classes.get? (windowName t.typeName) = some w ∧ w.base = some base ∧
      base = ((nearer t.typeName v.uses).find? fun name => (m.findClass? name).isSome).getD t.typeName ∧
      (base = t.typeName ↔ ∀ name ∈ nearer t.typeName v.uses, m.findClass? name = none) := by
  obtain ⟨hlink, -⟩ := link_of_compile hcompile
  obtain ⟨u', hu', hparse'⟩ := exists_unit_of_compile hcompile hown
  obtain rfl : u = u' := Except.ok.inj (hparse.symm.trans hparse')
  obtain ⟨v, hv, hwindow⟩ := exists_unit_of_compile hcompile hgenerated
  -- the code-behind makes the name of the type a name, and the type known
  have hprintable := (printable_of_parse hparse).classes c hc
  have htype : Config.isDottedName t.typeName = true := by
    rw [← hname, hprintable.name]
    exact isDottedName_qualify hprintable.scope (isDottedName_of_isName hprintable.short)
  have hexists : (m.findClass? t.typeName).isSome = true := by
    rw [← isKnown_iff_of_link hlink, isKnown, Bool.or_eq_true, List.contains_iff_mem]
    refine .inl (List.mem_map.2 ⟨⟨u.file, u.uses, c⟩, ?_, hname⟩)
    exact List.mem_flatMap.2 ⟨u, hu', List.mem_map_of_mem hc⟩
  obtain ⟨huses, decl, hdecl, hdeclName, hdeclScope, hdeclBase⟩ := opens_of_parse htype hscript hwindow
  have hmem : (⟨v.file, v.uses, decl⟩ : Declared) ∈ declarations m.units :=
    List.mem_flatMap.2 ⟨v, hv, List.mem_map_of_mem hdecl⟩
  have hshort : t.baseOf = (splitTypeName t.typeName).2 := by rw [baseOf, if_pos hbehind]
  obtain ⟨w, base, hw, hbase, hfind⟩ := base_of_link hlink hmem (hdeclBase.trans (congrArg some hshort))
  rw [hdeclName] at hw
  rw [hdeclScope, find?_candidates_short htype hexists] at hfind
  obtain hfirst := (Option.some.inj hfind).symm
  have honly : ∀ found, segments t.file t.markup = .ok found → (∀ s ∈ found, s.Runs) → v.uses = ["Kiln"] :=
    fun _ => uses_of_runs htype hscript hwindow
  refine ⟨v, w, base, hwindow, huses, honly, hw, hbase, hfirst, ?_⟩
  rw [hfirst]
  cases hnearer : (nearer t.typeName v.uses).find? fun name => (m.findClass? name).isSome with
  | none =>
    have hnone := List.find?_eq_none.1 hnearer
    exact ⟨fun _ name hname => by simpa using hnone name hname, fun _ => rfl⟩
  | some name =>
    have hname := List.mem_of_find?_eq_some hnearer
    have hfound := List.find?_some hnearer
    constructor
    · intro hsame
      exact absurd hsame (ne_of_mem_nearer hname)
    · intro hnone
      rw [hnone name hname] at hfound
      cases hfound

/-! ## A page beside the page of the base library -/

/-- A page without a namespace that derives from the page of the base library. -/
def plainPage : SourceText := ⟨"Page.ks", "public class Page : Kiln.Page \x7b \x7d"⟩

/-- Its template. -/
def plainTemplate : Template := ⟨"Page", "Page.ks.html", "<b>", true⟩

/-- The script of the template. -/
def plainScript : String :=
  "using Kiln;\n\npublic class PageWindow : Page\n\x7b\n    public override void Render()\n    \x7b\n" ++
    "        Response.WriteLiteral(@\"<b>\");\n    \x7d\n\x7d\n"

/-- The unit of the page. -/
def plainUnit : SourceUnit := ⟨"Page.ks", [], [⟨"Page", "", some "Kiln.Page", none, [], ⟨1, 14⟩⟩]⟩

/-- The unit of the template. -/
def plainWindow : SourceUnit :=
  ⟨"Page.ks.html (generated)", ["Kiln"], [⟨"PageWindow", "", some "Page", none,
    [⟨"Render", .exposed, [], [.expr (.call ["Response", "WriteLiteral"] [.text "<b>"] ⟨7, 9⟩)], ⟨5, 26⟩⟩],
    ⟨3, 14⟩⟩]⟩

/-- The tokens of the page. -/
def pageTokens : TokenStream :=
  ⟨[⟨.name "public", ⟨1, 1⟩⟩, ⟨.name "class", ⟨1, 8⟩⟩, ⟨.name "Page", ⟨1, 14⟩⟩, ⟨.colon, ⟨1, 19⟩⟩,
    ⟨.name "Kiln", ⟨1, 21⟩⟩, ⟨.dot, ⟨1, 25⟩⟩, ⟨.name "Page", ⟨1, 26⟩⟩, ⟨.openBrace, ⟨1, 31⟩⟩,
    ⟨.closeBrace, ⟨1, 33⟩⟩], ⟨1, 34⟩⟩

/-- The tokens of the script. -/
def plainTokens : TokenStream :=
  ⟨[⟨.name "using", ⟨1, 1⟩⟩, ⟨.name "Kiln", ⟨1, 7⟩⟩, ⟨.semicolon, ⟨1, 11⟩⟩, ⟨.name "public", ⟨3, 1⟩⟩,
    ⟨.name "class", ⟨3, 8⟩⟩, ⟨.name "PageWindow", ⟨3, 14⟩⟩, ⟨.colon, ⟨3, 25⟩⟩, ⟨.name "Page", ⟨3, 27⟩⟩,
    ⟨.openBrace, ⟨4, 1⟩⟩, ⟨.name "public", ⟨5, 5⟩⟩, ⟨.name "override", ⟨5, 12⟩⟩, ⟨.name "void", ⟨5, 21⟩⟩,
    ⟨.name "Render", ⟨5, 26⟩⟩, ⟨.openParen, ⟨5, 32⟩⟩, ⟨.closeParen, ⟨5, 33⟩⟩, ⟨.openBrace, ⟨6, 5⟩⟩,
    ⟨.name "Response", ⟨7, 9⟩⟩, ⟨.dot, ⟨7, 17⟩⟩, ⟨.name "WriteLiteral", ⟨7, 18⟩⟩, ⟨.openParen, ⟨7, 30⟩⟩,
    ⟨.text "<b>", ⟨7, 31⟩⟩, ⟨.closeParen, ⟨7, 37⟩⟩, ⟨.semicolon, ⟨7, 38⟩⟩, ⟨.closeBrace, ⟨8, 5⟩⟩,
    ⟨.closeBrace, ⟨9, 1⟩⟩], ⟨10, 1⟩⟩

theorem parse_plainPage : parse plainPage.path plainPage.text = .ok plainUnit := by
  have hscan : scan plainPage.text = .ok pageTokens := by
    unfold plainPage
    rw [scan_ofList rfl]
    decide +kernel
  have hitems : itemsOf pageTokens = .ok (plainUnit.classes.map .declares) := rfl
  exact parse_eq_ok hscan hitems

theorem parse_plainScript : parse "Page.ks.html (generated)" plainScript = .ok plainWindow := by
  have hscan : scan plainScript = .ok plainTokens := by
    unfold plainScript
    rw [scan_ofList String.ofList_append.symm]
    decide +kernel
  have hitems : itemsOf plainTokens = .ok (.use "Kiln" :: plainWindow.classes.map .declares) := rfl
  exact parse_eq_ok hscan hitems

theorem script_plainTemplate : plainTemplate.script = .ok plainScript := by
  have hfound : segments plainTemplate.file plainTemplate.markup = .ok [.literal "<b>"] := rfl
  have hlines : plainTemplate.scriptOf [.literal "<b>"] = plainScript := rfl
  rw [script, hfound]
  exact congrArg Except.ok hlines

/-- The module of the page and its template. -/
def plainModule : Module :=
  finishedModule [plainUnit, plainWindow] (resolvedClasses [plainUnit, plainWindow] [libraryModule])
    [libraryModule]

theorem link_plainModule : link [plainUnit, plainWindow] [libraryModule] = .ok plainModule := by
  refine link_eq_ok_iff.2 ⟨?_, ?_, ?_, ?_, rfl⟩ <;> decide +kernel

/-- Without a namespace a page that is named like that of the base library is passed over. -/
theorem derives_from_nearest_plain : ∃ m w,
    compile [plainPage, ⟨"Page.ks.html (generated)", plainScript⟩]
      [.mk 0 ⟨"<foundation>", "Kiln"⟩ .foundation .script (some libraryModule) [] [foundationSource]] =
      .ok m ∧
    m.classes.get? "PageWindow" = some w ∧ w.base = some "Kiln.Page" := by
  have hcompile : compile [plainPage, ⟨"Page.ks.html (generated)", plainScript⟩]
      [.mk 0 ⟨"<foundation>", "Kiln"⟩ .foundation .script (some libraryModule) [] [foundationSource]] =
      .ok plainModule := by
    refine (compile_eq_link (unitsOf_cons ?_ (unitsOf_cons ?_ rfl)) rfl).trans link_plainModule
    · exact parse_plainPage
    · exact parse_plainScript
  obtain ⟨v, w, base, hv, -, -, hw, hbase, hfirst, -⟩ := derives_from_nearest (t := plainTemplate) rfl
    script_plainTemplate parse_plainPage List.mem_cons_self rfl List.mem_cons_self
    (List.mem_cons_of_mem _ List.mem_cons_self) hcompile
  rw [parse_plainScript] at hv
  obtain rfl := Except.ok.inj hv
  have hwindow : windowName plainTemplate.typeName = "PageWindow" := by decide +kernel
  rw [hwindow] at hw
  have hnearer : nearer plainTemplate.typeName plainWindow.uses = ["Kiln.Page"] := by decide +kernel
  have hkiln : (plainModule.findClass? "Kiln.Page").isSome = true :=
    (isKnown_iff_of_link link_plainModule).1 (by decide +kernel)
  rw [hnearer, List.find?_singleton, if_pos hkiln, Option.getD_some] at hfirst
  exact ⟨plainModule, w, hcompile, hw, hbase.trans (congrArg some hfirst)⟩

end Template

end SiteHost
