import SiteHost.Template.Window
import SiteHost.Proofs.Script.Declarations
import SiteHost.Proofs.Script.Names

/-!
# The class of a template

The script of a template is text. What it means is said by the unit that it parses to:

* `segmentBody` — the statements of a segment: a call that writes a literal, or the code itself;
* `windowUnit` — a unit with the one class of a template and its one method;
* `Runs` — whether a code segment is a body of its own.

Principal results:

* `splitTypeName_spec` — a dotted type name is a namespace, itself dotted, and a last word;
* `isLine_segment`, `isLine_script` — the tokens of the script, literals and code alike;
* `parse_scriptOf` — the script parses to the unit of the template, up to places.
-/

namespace SiteHost

namespace Template

open Script

/-- Whether a segment is a literal, or code that is a body of its own. -/
def Segment.Runs : Segment → Prop
  | .literal _ => True
  | .code text => (bodyOf? text).isSome = true

/-- The call that writes a literal. -/
def writeCall (text : String) (position : Position) : Stmt :=
  .expr (.call ["Response", "WriteLiteral"] [.text text] position)

/-- The statements of a segment, without places. -/
def segmentBody : Segment → List Stmt
  | .literal text => [writeCall text .start]
  | .code text => ((bodyOf? text).getD []).map Stmt.unplaced

/-- The method of a template that answers requests, without places. -/
def renderMethod (found : List Segment) : Method :=
  ⟨"Render", .exposed, [], found.flatMap segmentBody, .start⟩

/-- The base of the class of a template as written. -/
def baseOf (t : Template) : String :=
  if t.hasCodeBehind then (splitTypeName t.typeName).2 else defaultBase

/-- The unit of a template with the given segments, without places. -/
def windowUnit (t : Template) (file : String) (found : List Segment) : SourceUnit :=
  ⟨file, ["Kiln"], [⟨windowName t.typeName, (splitTypeName t.typeName).1.getD "", some t.baseOf, none,
    [renderMethod found], .start⟩]⟩

/-! ## The names of a type -/

/-- The parts of a type name: a namespace, if there is one, and a word. -/
structure IsSplit (typeName : String) (scope : Option String) (short : String) : Prop where
  short_isName : Config.isName short.toList = true
  scope_isDotted : ∀ s, scope = some s → Config.isDottedName s = true
  joined : typeName = qualify (scope.getD "") short
  scope_ne : scope ≠ some ""

/-- **A dotted type name is a namespace, itself dotted, and a last word.** -/
theorem splitTypeName_spec {typeName : String} (h : Config.isDottedName typeName = true) :
    IsSplit typeName (splitTypeName typeName).1 (splitTypeName typeName).2 := by
  unfold Config.isDottedName at h
  unfold splitTypeName
  split
  · rename_i scope short hcut
    obtain ⟨hchars, hnot⟩ := Text.cutLast?_eq_some hcut
    rw [hchars, Text.cut_append, Text.cut_of_notMem hnot, List.all_append, Bool.and_eq_true] at h
    have hne : String.ofList scope ≠ "" := by
      intro hempty
      obtain rfl : scope = [] := by simpa using congrArg String.toList hempty
      simp [Text.cut, Config.isName] at h
    refine ⟨?_, ?_, ?_, fun heq => hne (Option.some.inj heq)⟩
    · simpa using h.2
    · rintro _ heq
      cases heq
      rw [Config.isDottedName, String.toList_ofList]
      exact h.1
    · refine String.toList_injective ?_
      rw [Option.getD_some, qualify, if_neg hne, hchars]
      show _ = (String.ofList scope ++ "." ++ String.ofList short).toList
      simp
  · rename_i hcut
    rw [Text.cut_of_notMem (Text.cutLast?_eq_none hcut)] at h
    refine ⟨by simpa using h, fun _ heq => (by cases heq), ?_, fun heq => (by cases heq)⟩
    rw [Option.getD_none, qualify, if_pos rfl]

/-! ## Lines -/

variable {line : String} {kinds : List TokenKind}

/-- Whether a line is read as tokens of certain kinds, whatever comes after it. -/
def IsLine (line : String) (kinds : List TokenKind) : Prop :=
  ∀ next, Lexes (line.toList ++ ['\n']) kinds next

theorem isLine_of_scan {s : TokenStream} (h : scan line = .ok s) : IsLine line s.kinds :=
  fun _ => lexes_of_scan h

/-- A line that is known is read once and for all. -/
theorem isLine_known {cs : List Char} (hline : line = String.ofList cs)
    (h : (scanFrom [] ⟨cs, .start⟩).toOption.map TokenStream.kinds = some kinds) : IsLine line kinds := by
  rw [← scan_ofList hline] at h
  obtain ⟨s, hs, rfl⟩ := Option.map_eq_some_iff.1 h
  cases hscan : scan line with
  | error e =>
    rw [hscan] at hs
    cases hs
  | ok s' =>
    rw [hscan] at hs
    cases hs
    exact isLine_of_scan hscan

/-- Indentation counts for nothing. -/
theorem IsLine.indented {indent : String} (hindent : indent.toList.all Text.isBlank = true)
    (h : IsLine line kinds) : IsLine (indent ++ line) kinds := by
  intro next
  rw [String.toList_append, List.append_assoc]
  exact (lexes_blanks (List.all_eq_true.1 hindent)).append (h next)

/-- The text of lines that are given with their tokens. -/
def textOf (lines : List (String × List TokenKind)) : String :=
  String.join (lines.map fun line => line.1 ++ "\n")

theorem textOf_nil : textOf [] = "" := rfl

theorem textOf_append (lines lines' : List (String × List TokenKind)) :
    textOf (lines ++ lines') = textOf lines ++ textOf lines' := by
  rw [textOf, List.map_append, String.join_append, textOf, textOf]

theorem textOf_cons (line : String × List TokenKind) (rest : List (String × List TokenKind)) :
    textOf (line :: rest) = line.1 ++ "\n" ++ textOf rest := by
  rw [textOf, List.map_cons, String.join_cons, textOf]

/-- **Lines are read one after the other.** -/
theorem lexes_textOf {lines : List (String × List TokenKind)} (h : ∀ line ∈ lines, IsLine line.1 line.2)
    (next : List Char) : Lexes (textOf lines).toList (lines.flatMap Prod.snd) next := by
  induction lines with
  | nil => exact .nil
  | cons line rest ih =>
    rw [textOf_cons, String.toList_append, String.toList_append, List.flatMap_cons]
    exact (h line List.mem_cons_self _).append (ih fun other hmem => h other (List.mem_cons_of_mem line hmem))

/-- A word and a blank. -/
theorem lexes_spaced {w : String} (h : Config.isName w.toList = true) (next : List Char) :
    Lexes (w.toList ++ [' ']) [.name w] next := by
  refine (lexes_name h fun c hc => ?_).append (lexes_blank Text.isBlank_space)
  cases hc
  decide

/-! ## The lines of a segment -/

/-- The tokens of a segment. -/
def segmentTokens : Segment → List TokenKind
  | .literal text => nameTokens ["Response", "WriteLiteral"] ++
      .openParen :: ([.text text] ++ [.closeParen]) ++ [.semicolon]
  | .code text =>
    match scan text with
    | .ok s => s.kinds
    | .error _ => []

/-- A verbatim literal is read as its text. -/
theorem lexes_text (text : String) {next : List Char} (hnext : next.head? ≠ some '"') :
    Lexes (verbatim text).toList [.text text] next := by
  have hread := lexes_verbatim text.toList hnext
  rw [String.ofList_toList] at hread
  have hchars : (verbatim text).toList = '@' :: '"' :: (doubled text.toList ++ ['"']) := by
    rw [verbatim, String.toList_append, String.toList_append, Text.substitute, String.toList_ofList, doubled]
    simp
  rw [hchars]
  exact hread

/-- A call with a text. -/
theorem isLine_call {v : String} (h : Config.isDottedName v = true) (text : String) :
    IsLine (v ++ "(" ++ verbatim text ++ ");")
      (nameTokens (Text.pieces '.' v) ++ .openParen :: ([.text text] ++ [.closeParen]) ++ [.semicolon]) := by
  intro next
  have hname : Lexes v.toList (nameTokens (Text.pieces '.' v))
      ('(' :: ((verbatim text).toList ++ ')' :: ';' :: '\n' :: next)) :=
    lexes_dotted h fun c hc => by
      cases hc
      decide
  have hopen : Lexes ['('] [.openParen] ((verbatim text).toList ++ ')' :: ';' :: '\n' :: next) :=
    lexes_mark rfl
  have htext : Lexes (verbatim text).toList [.text text] (')' :: ';' :: '\n' :: next) :=
    lexes_text text fun hquote => by cases hquote
  have hclose : Lexes [')'] [.closeParen] (';' :: '\n' :: next) := lexes_mark rfl
  have hsemicolon : Lexes [';'] [.semicolon] ('\n' :: next) := lexes_mark rfl
  have hend : Lexes ['\n'] [] next := lexes_blank (by decide)
  have hline := ((((hname.append hopen).append htext).append hclose).append hsemicolon).append hend
  simpa using hline

/-- The line of a literal is a call. -/
theorem segmentLine_literal (text : String) :
    segmentLine (.literal text) = "Response.WriteLiteral" ++ "(" ++ verbatim text ++ ");" := by
  have hopen : "Response.WriteLiteral(" = "Response.WriteLiteral" ++ "(" := rfl
  have hline := congrArg (fun opening => opening ++ verbatim text ++ ");") hopen
  exact hline

/-- **A segment has the tokens of its line**, whatever its text. -/
theorem isLine_segment {s : Segment} (h : s.Runs) : IsLine (segmentLine s) (segmentTokens s) := by
  cases s with
  | literal text =>
    have hpieces : Text.pieces '.' "Response.WriteLiteral" = ["Response", "WriteLiteral"] := rfl
    have hname : Config.isDottedName "Response.WriteLiteral" = true := rfl
    have hcall := isLine_call hname text
    rwa [hpieces, ← segmentLine_literal] at hcall
  | code text =>
    obtain ⟨body, hbody⟩ := Option.isSome_iff_exists.1 h
    obtain ⟨s, hs, -⟩ := bodyOf?_eq_some hbody
    have htokens : segmentTokens (.code text) = s.kinds := by
      rw [segmentTokens, hs]
    show IsLine text (segmentTokens (.code text))
    exact htokens ▸ isLine_of_scan hs

/-! ## The lines of the script -/

/-- What stands before a line of the class. -/
def indentOf (scope : Option String) : String := if scope.isSome then "    " else ""

/-- The lines that open a namespace. -/
def openingLines : Option String → List (String × List TokenKind)
  | some scope => [("namespace " ++ scope, .name "namespace" :: nameTokens (Text.pieces '.' scope)),
      ("\x7b", [.openBrace])]
  | none => []

/-- The lines that close it. -/
def closingLines : Option String → List (String × List TokenKind)
  | some _ => [("\x7d", [.closeBrace])]
  | none => []

/-- The lines of the class. -/
def classLines (t : Template) (found : List Segment) : List (String × List TokenKind) :=
  ("public class " ++ windowName (splitTypeName t.typeName).2 ++ " : " ++ t.baseOf,
    .name "public" :: .name "class" :: .name (windowName (splitTypeName t.typeName).2) :: .colon ::
      nameTokens (Text.pieces '.' t.baseOf)) ::
  ("\x7b", [.openBrace]) ::
  ("    public override void Render()", [.name "public", .name "override", .name "void", .name "Render",
    .openParen, .closeParen]) ::
  ("    \x7b", [.openBrace]) ::
  (found.map fun s => ("        " ++ segmentLine s, segmentTokens s)) ++
  [("    \x7d", [.closeBrace]), ("\x7d", [.closeBrace])]

/-- The lines of the script with their tokens. -/
def scriptLines (t : Template) (found : List Segment) : List (String × List TokenKind) :=
  ("using Kiln;", [.name "using", .name "Kiln", .semicolon]) :: ("", []) ::
  openingLines (splitTypeName t.typeName).1 ++
  ((t.classLines found).map fun line => (indentOf (splitTypeName t.typeName).1 ++ line.1, line.2)) ++
  closingLines (splitTypeName t.typeName).1

/-- The script is the text of its lines. -/
theorem scriptOf_eq (t : Template) (found : List Segment) :
    t.scriptOf found = textOf (t.scriptLines found) := by
  have husing : "using Kiln;\n\n" = "using Kiln;" ++ "\n" ++ "\n" := rfl
  have hopen : "\n\x7b\n" = "\n" ++ "\x7b" ++ "\n" := rfl
  have hclass : "\x7b\n" = "\x7b" ++ "\n" := rfl
  have hmethod : "    public override void Render()\n" = "    public override void Render()" ++ "\n" := rfl
  have hbody : "    \x7b\n" = "    \x7b" ++ "\n" := rfl
  have hleave : "    \x7d\n" = "    \x7d" ++ "\n" := rfl
  have hend : "\x7d\n" = "\x7d" ++ "\n" := rfl
  have hsegments (indent : String) : textOf ((found.map fun s =>
      ("        " ++ segmentLine s, segmentTokens s)).map fun line => (indent ++ line.1, line.2)) =
      String.join (found.map fun s => indent ++ ("        " ++ (segmentLine s ++ "\n"))) := by
    rw [textOf, List.map_map, List.map_map]
    simp only [Function.comp_def, String.append_assoc]
  unfold scriptOf scriptLines classLines baseOf
  obtain ⟨scope, short⟩ := splitTypeName t.typeName
  cases scope <;>
    simp only [husing, hopen, hclass, hmethod, hbody, hleave, hend, openingLines, closingLines, indentOf,
      List.map_append, List.map_cons, List.map_nil, textOf_append, textOf_cons, textOf_nil, hsegments,
      String.append_assoc, List.cons_append, List.nil_append] <;>
    simp only [Option.isSome_none, Option.isSome_some, Bool.false_eq_true, if_false, if_true,
      String.empty_append, String.append_empty]

theorem isLine_opening {scope : Option String} (h : ∀ s, scope = some s → Config.isDottedName s = true) :
    ∀ line ∈ openingLines scope, IsLine line.1 line.2 := by
  cases scope with
  | none => exact List.forall_mem_nil _
  | some scope =>
    refine List.forall_mem_cons.2
      ⟨fun next => ?_, List.forall_mem_singleton.2 (isLine_known rfl (by decide +kernel))⟩
    have hword := lexes_spaced (w := "namespace") rfl (scope.toList ++ '\n' :: next)
    have hscope : Lexes scope.toList _ ('\n' :: next) := lexes_dotted (h scope rfl) fun c hc => by
      cases hc
      decide
    have hline := (hword.append hscope).append (lexes_blank (by decide))
    simpa using hline

theorem isName_windowName {w : String} (h : Config.isName w.toList = true) :
    Config.isName (windowName w).toList = true := by
  rw [windowName, String.toList_append]
  cases hw : w.toList with
  | nil =>
    rw [hw] at h
    cases h
  | cons c rest =>
    rw [hw, Config.isName, Bool.and_eq_true] at h
    rw [List.cons_append, Config.isName, List.all_append, h.1, h.2]
    rfl

theorem isDottedName_baseOf {t : Template} (h : Config.isDottedName t.typeName = true) :
    Config.isDottedName t.baseOf = true := by
  unfold baseOf
  split
  · exact isDottedName_of_isName (splitTypeName_spec h).short_isName
  · rfl

/-- The line that heads a class. -/
theorem isLine_head {name base : String} (hname : Config.isName name.toList = true)
    (hbase : Config.isDottedName base = true) : IsLine ("public class " ++ name ++ " : " ++ base)
      (.name "public" :: .name "class" :: .name name :: .colon :: nameTokens (Text.pieces '.' base)) := by
  intro next
  have hcolon (next : List Char) : Lexes [':', ' '] [.colon] next :=
    (lexes_mark (c := ':') rfl).append (lexes_blank Text.isBlank_space)
  have hend : Lexes ['\n'] [] next := lexes_blank (by decide)
  have hbase' : Lexes base.toList _ ('\n' :: next) := lexes_dotted hbase fun c hc => by
    cases hc
    decide
  have hline := (lexes_spaced (w := "public") rfl _).append
    ((lexes_spaced (w := "class") rfl _).append
      ((lexes_spaced hname _).append ((hcolon _).append (hbase'.append hend))))
  have hwords : "public class ".toList = "public".toList ++ [' '] ++ ("class".toList ++ [' ']) := rfl
  have hmark : " : ".toList = [' '] ++ [':', ' '] := rfl
  rw [String.toList_append, String.toList_append, String.toList_append, hwords, hmark]
  simpa using hline

theorem isLine_class {t : Template} {found : List Segment} (htype : Config.isDottedName t.typeName = true)
    (hruns : ∀ s ∈ found, s.Runs) : ∀ line ∈ t.classLines found, IsLine line.1 line.2 := by
  have hname := isName_windowName (splitTypeName_spec htype).short_isName
  have hsegments : ∀ line ∈ found.map fun s => ("        " ++ segmentLine s, segmentTokens s),
      IsLine line.1 line.2 := by
    refine List.forall_mem_map.2 fun s hs => ?_
    exact (isLine_segment (hruns s hs)).indented rfl
  unfold classLines
  refine List.forall_mem_append.2 ⟨?_, ?_⟩
  · refine List.forall_mem_cons.2 ⟨isLine_head hname (isDottedName_baseOf htype), ?_⟩
    refine List.forall_mem_cons.2 ⟨isLine_known rfl (by decide +kernel), ?_⟩
    refine List.forall_mem_cons.2 ⟨isLine_known rfl (by decide +kernel), ?_⟩
    exact List.forall_mem_cons.2 ⟨isLine_known rfl (by decide +kernel), hsegments⟩
  · refine List.forall_mem_cons.2 ⟨isLine_known rfl (by decide +kernel), ?_⟩
    exact List.forall_mem_singleton.2 (isLine_known rfl (by decide +kernel))

theorem all_isBlank_indentOf (scope : Option String) :
    (indentOf scope).toList.all Text.isBlank = true := by
  unfold indentOf
  split <;> rfl

/-- **Every line of the script has its tokens.** -/
theorem isLine_script {t : Template} {found : List Segment} (htype : Config.isDottedName t.typeName = true)
    (hruns : ∀ s ∈ found, s.Runs) : ∀ line ∈ t.scriptLines found, IsLine line.1 line.2 := by
  have hindent := all_isBlank_indentOf (splitTypeName t.typeName).1
  have hclosing : ∀ line ∈ closingLines (splitTypeName t.typeName).1, IsLine line.1 line.2 := by
    unfold closingLines
    split
    · exact List.forall_mem_singleton.2 (isLine_known rfl (by decide +kernel))
    · exact List.forall_mem_nil _
  unfold scriptLines
  refine List.forall_mem_append.2 ⟨List.forall_mem_append.2 ⟨?_, ?_⟩, hclosing⟩
  · refine List.forall_mem_cons.2 ⟨isLine_known rfl (by decide +kernel), ?_⟩
    refine List.forall_mem_cons.2 ⟨isLine_known rfl (by decide +kernel), ?_⟩
    exact isLine_opening (splitTypeName_spec htype).scope_isDotted
  · exact List.forall_mem_map.2 fun line hline => (isLine_class htype hruns line hline).indented hindent

/-! ## The unit of the script -/

/-- The statements of a segment as they are found in its own text. -/
def segmentStmts : Segment → List Stmt
  | .literal text => [writeCall text .start]
  | .code text => (bodyOf? text).getD []

theorem unplaced_segmentStmts (s : Segment) : (segmentStmts s).map Stmt.unplaced = segmentBody s := by
  cases s with
  | literal text => rfl
  | code text => rfl

/-- **The tokens of a segment are its statements.** -/
theorem areStmts_segment {s : Segment} (h : s.Runs) : AreStmts (segmentTokens s) (segmentStmts s) := by
  cases s with
  | literal text =>
    have htext : IsExpr ([.text text] ++ []) (.text text) := .sum (.text text) .done
    have hcall : IsExpr _ (.call ["Response", "WriteLiteral"] [.text text] .start) :=
      .sum (.callWith "Response" ["WriteLiteral"] .start (.one htext)) .done
    rw [List.append_nil, List.append_nil] at hcall
    exact .expr hcall (fun hhead => absurd hhead (by simp [nameTokens])) .none
  | code text =>
    obtain ⟨body, hbody⟩ := Option.isSome_iff_exists.1 h
    obtain ⟨s, hs, hstmts⟩ := bodyOf?_eq_some hbody
    rw [segmentTokens, segmentStmts, hs, hbody]
    exact hstmts

theorem areStmts_segments {found : List Segment} (h : ∀ s ∈ found, s.Runs) :
    AreStmts (found.flatMap segmentTokens) (found.flatMap segmentStmts) := by
  induction found with
  | nil => exact .none
  | cons s rest ih =>
    exact (areStmts_segment (h s List.mem_cons_self)).append
      (ih fun s' hs' => h s' (List.mem_cons_of_mem s hs'))

/-- The class of a template with its statements as they are found. -/
def windowClass (t : Template) (found : List Segment) : ClassDecl :=
  ⟨qualify ((splitTypeName t.typeName).1.getD "") (windowName (splitTypeName t.typeName).2),
    (splitTypeName t.typeName).1.getD "", some t.baseOf, none,
    [⟨"Render", .exposed, [], found.flatMap segmentStmts, .start⟩], .start⟩

/-- The tokens of the method of a template. -/
def renderTokens (found : List Segment) : List TokenKind :=
  wordTokens ["public", "override"] ++ .name "void" :: .name "Render" :: .openParen :: .closeParen ::
    .openBrace :: (found.flatMap segmentTokens ++ [.closeBrace])

theorem isMember_render {found : List Segment} (h : ∀ s ∈ found, s.Runs) (className : String) :
    IsMember className (renderTokens found)
      (⟨"Render", .exposed, [], found.flatMap segmentStmts, .start⟩, false) :=
  .method "Render" .start (by decide) (.plain (areStmts_segments h))

/-- **The lines of the class are the class.** -/
theorem isClass_window (t : Template) {found : List Segment} (h : ∀ s ∈ found, s.Runs) :
    IsClass ((splitTypeName t.typeName).1.getD "") ((t.classLines found).flatMap Prod.snd)
      (t.windowClass found) := by
  obtain ⟨first, rest, hpieces, hjoined⟩ := exists_pieces t.baseOf
  have hbase : IsBase (.colon :: nameTokens (Text.pieces '.' t.baseOf)) (some t.baseOf) := by
    rw [hpieces, ← hjoined]
    exact .some first rest
  have hkinds : (t.classLines found).flatMap Prod.snd = wordTokens ["public"] ++ .name "class" ::
      .name (windowName (splitTypeName t.typeName).2) :: (.colon :: nameTokens (Text.pieces '.' t.baseOf) ++
        .openBrace :: ((renderTokens found ++ []) ++ [.closeBrace])) := by
    simp [classLines, renderTokens, wordTokens, List.flatMap_map]
  rw [hkinds]
  exact .mk _ .start (by decide) hbase (.more (isMember_render h _) .none) (Nat.zero_le 1)

/-- **The lines of the script are a use and the class**, in its namespace. -/
theorem areItems_script (t : Template) {found : List Segment} (h : ∀ s ∈ found, s.Runs) :
    AreItems "" ((t.scriptLines found).flatMap Prod.snd) [.use "Kiln", .declares (t.windowClass found)] := by
  have huse {used : List TokenKind} {rest : List Parser.Item} (h : AreItems "" used rest) :
      AreItems "" (.name "using" :: .name "Kiln" :: .semicolon :: used) (.use "Kiln" :: rest) := by
    have hjoined : Text.joined "." ["Kiln"] = "Kiln" := rfl
    have hitems := h.use "Kiln" []
    rwa [hjoined] at hitems
  have hclass := isClass_window t h
  have hlines (indent : String) : ((t.classLines found).map fun line => (indent ++ line.1, line.2)).flatMap
      Prod.snd = (t.classLines found).flatMap Prod.snd := by
    rw [List.flatMap_map]
  unfold scriptLines
  rw [List.flatMap_append, List.flatMap_append, hlines]
  generalize (t.classLines found).flatMap Prod.snd = used at hclass ⊢
  cases hscope : (splitTypeName t.typeName).1 with
  | none =>
    rw [hscope] at hclass
    have hitems := huse (.declares hclass .none)
    simpa only [openingLines, closingLines, List.flatMap_cons, List.flatMap_nil, List.append_nil,
      List.nil_append, List.cons_append] using hitems
  | some scope =>
    rw [hscope, Option.getD_some] at hclass
    obtain ⟨first, rest, hpieces, hjoined⟩ := exists_pieces scope
    have hnested : AreItems (qualify "" (Text.joined "." (first :: rest))) (used ++ [])
        [.declares (t.windowClass found)] := by
      rw [hjoined, qualify, if_pos rfl]
      exact .declares hclass .none
    have hitems := huse (.within first rest hnested .none)
    simpa only [openingLines, closingLines, hpieces, List.flatMap_cons, List.flatMap_nil, List.append_nil,
      List.nil_append, List.cons_append, List.append_assoc] using hitems

/-- The window of a type is a word of the namespace of the type. -/
theorem qualify_windowName {typeName : String} (h : Config.isDottedName typeName = true) :
    qualify ((splitTypeName typeName).1.getD "") (windowName (splitTypeName typeName).2) =
      windowName typeName := by
  have hjoined := congrArg windowName (splitTypeName_spec h).joined
  rw [hjoined]
  unfold qualify
  split
  · rfl
  · exact (String.append_assoc ..).symm

theorem unplaced_windowClass {t : Template} (htype : Config.isDottedName t.typeName = true) (file : String)
    (found : List Segment) :
    (SourceUnit.ofItems file [.use "Kiln", .declares (t.windowClass found)]).unplaced =
      t.windowUnit file found := by
  have hname := qualify_windowName htype
  have hbody : (found.flatMap segmentStmts).map Stmt.unplaced = found.flatMap segmentBody := by
    rw [List.map_flatMap]
    exact congrArg (fun f => found.flatMap f) (funext unplaced_segmentStmts)
  have hclass : (t.windowClass found).unplaced = ⟨windowName t.typeName, (splitTypeName t.typeName).1.getD "",
      some t.baseOf, none, [renderMethod found], .start⟩ := by
    simp only [windowClass, ClassDecl.unplaced, hname, Option.map_none, List.map_cons, List.map_nil,
      Method.unplaced, hbody, renderMethod]
  show (⟨file, ["Kiln"], [(t.windowClass found).unplaced]⟩ : SourceUnit) = _
  rw [hclass]
  rfl

/-- **The script of a template parses to its unit**, up to places. -/
theorem parse_scriptOf {t : Template} {found : List Segment} (htype : Config.isDottedName t.typeName = true)
    (hruns : ∀ s ∈ found, s.Runs) (file : String) :
    ∃ u, parse file (t.scriptOf found) = .ok u ∧ u.unplaced = t.windowUnit file found := by
  have hlexes := lexes_textOf (isLine_script htype hruns) []
  obtain ⟨s, hscan, hkinds⟩ := scan_of_lexes hlexes
  rw [String.ofList_toList, ← scriptOf_eq] at hscan
  have hitems := areItems_script t hruns
  rw [← hkinds] at hitems
  obtain ⟨found', hfound', hsame⟩ := itemsOf_eq_ok hitems
  refine ⟨.ofItems file found', parse_eq_ok hscan hfound', ?_⟩
  rw [← SourceUnit.ofItems_unplaced, hsame, SourceUnit.ofItems_unplaced, unplaced_windowClass htype]

end Template

end SiteHost
