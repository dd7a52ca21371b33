import SiteHost.Proofs.Script.Foundation
import SiteHost.Proofs.Script.Running
import SiteHost.Proofs.Template.Windows

/-!
# What a template shows

A template without a code-behind derives from the page of the base library. If its markup has no code,
what it shows is the markup:

* `markupUnit`, `markupClass` — its unit and its class, whatever places they were found at;
* `Writes` — a body that writes certain texts one after the other.

Principal results:

* `link_markup` — the unit is linked against the base library, however its type is named;
* `process_markup` — the answer is the texts, one after the other;
* `template_means_markup` — a template is a class that means its markup.
-/

namespace SiteHost.Template

open Script

/-- Whether a body writes certain texts one after the other, and does nothing else. -/
def Writes (body : List Stmt) (texts : List String) : Prop :=
  body.map Stmt.unplaced = texts.map (writeCall · .start)

section Markup

variable (typeName scope path : String) (body : List Stmt) (p q : Position)

/-- The method that renders a template. -/
def markupMethod : Method := ⟨"Render", .exposed, [], body, p⟩

/-- The unit of a template that derives from the page of the base library. -/
def markupUnit : SourceUnit :=
  ⟨path, ["Kiln"],
    [⟨windowName typeName, scope, some defaultBase, none, [markupMethod body p], q⟩]⟩

/-- Its class with its names resolved. -/
def markupClass : ClassDef where
  name := windowName typeName
  base := some defaultBase
  constructor? := none
  methods := NameMap.empty.insert "Render" (markupMethod body p)
  typeRefs := .empty
  actions := .empty
  file := path
  position := q

end Markup

variable {typeName scope path : String} {body : List Stmt} {p q : Position} {texts : List String}

/-! ## Bodies that write -/

theorem eq_writeCall {s : Stmt} {text : String} (h : s.unplaced = writeCall text .start) :
    ∃ position, s = writeCall text position := by
  obtain ⟨e, rfl⟩ : ∃ e, s = .expr e := by
    cases s with
    | expr e => exact ⟨e, rfl⟩
    | leave => cases h
  have he : e.unplaced = .call ["Response", "WriteLiteral"] [.text text] .start := Stmt.expr.inj h
  cases e with
  | call target args position =>
    rw [Expr.unplaced, Expr.call.injEq] at he
    obtain ⟨rfl, hargs, -⟩ := he
    rcases args with _ | ⟨arg, _ | ⟨other, rest⟩⟩
    · cases hargs
    · rw [Expr.listUnplaced, Expr.listUnplaced, List.cons.injEq] at hargs
      have harg := hargs.1
      clear hargs
      cases arg with
      | text value =>
        cases harg
        exact ⟨position, rfl⟩
      | _ => cases harg
    · rw [Expr.listUnplaced, Expr.listUnplaced, List.cons.injEq] at hargs
      cases hargs.2
  | _ => cases he

theorem Writes.cons {text : String} (h : Writes body (text :: texts)) :
    ∃ position rest, body = writeCall text position :: rest ∧ Writes rest texts := by
  obtain ⟨s, rest, rfl, hs, hrest⟩ := List.map_eq_cons_iff.1 h
  obtain ⟨position, rfl⟩ := eq_writeCall hs
  exact ⟨position, rest, rfl, hrest⟩

/-- What holds of every call that writes a text holds of every statement of such a body. -/
theorem Writes.forall_mem (h : Writes body texts) {P : Stmt → Prop}
    (hP : ∀ text position, P (writeCall text position)) : ∀ s ∈ body, P s := by
  induction texts generalizing body with
  | nil =>
    rw [List.map_eq_nil_iff.1 h]
    exact List.forall_mem_nil _
  | cons text texts ih =>
    obtain ⟨position, rest, rfl, hrest⟩ := h.cons
    exact List.forall_mem_cons.2 ⟨hP text position, ih hrest⟩

/-! ## The base of a template -/

theorem getLast?_windowName (w : String) : (windowName w).toList.getLast? = some 'w' := by
  have hwindow : "Window".toList = ['W', 'i', 'n', 'd', 'o'] ++ ['w'] := rfl
  rw [windowName, String.toList_append, hwindow, ← List.append_assoc, List.getLast?_concat]

theorem isKnown_markup {name : String} :
    isKnown [markupUnit typeName scope path body p q] [libraryModule] name = true ↔
      name = windowName typeName ∨ name = "Kiln.Handler" ∨ name = "Kiln.Page" := by
  have hfind : (Module.findIn? name [libraryModule]).isSome = true ↔
      name = "Kiln.Handler" ∨ name = "Kiln.Page" := by
    rw [findIn?_cons, show Module.findIn? name [] = none from rfl, Option.or_none,
      Option.isSome_iff_exists]
    simp only [findClass?_library, exists_or, exists_eq_right]
  rw [isKnown, Bool.or_eq_true, hfind, List.contains_iff_mem]
  exact or_congr_left List.mem_singleton

/-- No namespace has a page that stands before the one of the base library. -/
theorem find?_candidates (scope : String) :
    (candidates defaultBase scope ["Kiln"]).find?
      (isKnown [markupUnit typeName scope path body p q] [libraryModule]) = some defaultBase := by
  have hpage : defaultBase.toList = "Kiln.Pag".toList ++ ['e'] := rfl
  have hother (s : String) : ¬ isKnown [markupUnit typeName scope path body p q] [libraryModule]
      (s ++ "." ++ defaultBase) = true := by
    have hlast : (s ++ "." ++ defaultBase).toList.getLast? = some 'e' := by
      rw [String.toList_append, hpage, ← List.append_assoc, List.getLast?_concat]
    rw [isKnown_markup]
    rintro (h | h | h)
    · rw [h, getLast?_windowName] at hlast
      cases hlast
    · rw [h] at hlast
      exact absurd hlast (by decide +kernel)
    · have hlength := congrArg String.length h
      have hdefault : defaultBase.length = 9 := rfl
      have hdot : ".".length = 1 := rfl
      have hwanted : "Kiln.Page".length = 9 := rfl
      rw [String.length_append, String.length_append, hdefault, hdot, hwanted] at hlength
      omega
  have hnone : ((enclosing scope).map (fun s => s!"{s}.{defaultBase}") ++
      ["Kiln"].map fun u => s!"{u}.{defaultBase}").find?
        (isKnown [markupUnit typeName scope path body p q] [libraryModule]) = none := by
    refine List.find?_eq_none.2 fun name hname => ?_
    rcases List.mem_append.1 hname with hmem | hmem <;> obtain ⟨s, -, rfl⟩ := List.mem_map.1 hmem <;>
      exact hother s
  have hbase : isKnown [markupUnit typeName scope path body p q] [libraryModule] defaultBase = true :=
    isKnown_markup.2 (.inr (.inr rfl))
  rw [candidates, List.find?_append, hnone, Option.none_or, List.find?_singleton, if_pos hbase]

/-! ## Linking -/

/-- A call that writes names no type. -/
theorem staticTypes_markup (h : Writes body texts) : (markupMethod body p).staticTypes = [] :=
  List.flatMap_eq_nil_iff.2 (h.forall_mem fun _ _ => rfl)

theorem resolve_markup (h : Writes body texts) :
    resolve (isKnown [markupUnit typeName scope path body p q] [libraryModule])
      ⟨path, ["Kiln"],
        ⟨windowName typeName, scope, some defaultBase, none, [markupMethod body p], q⟩⟩ =
      ([], some (markupClass typeName path body p q)) := by
  unfold resolve
  dsimp only
  rw [find?_candidates]
  dsimp only [Option.toList_none, List.nil_append]
  rw [List.flatMap_singleton, staticTypes_markup h]
  rfl

theorem resolvedClasses_markup (h : Writes body texts) :
    resolvedClasses [markupUnit typeName scope path body p q] [libraryModule] =
      [markupClass typeName path body p q] := by
  exact congrArg (fun result => [result].filterMap Prod.snd) (resolve_markup h)

theorem windowName_ne {w name : String} (h : name.toList.getLast? ≠ some 'w') : windowName w ≠ name :=
  fun heq => h (heq ▸ getLast?_windowName w)

/-- The name of a template's class is no name of the base library. -/
theorem findIn?_windowName (w : String) : Module.findIn? (windowName w) [libraryModule] = none := by
  refine Option.eq_none_iff_forall_ne_some.2 fun c hc => ?_
  rw [findIn?_cons, show Module.findIn? (windowName w) [] = none from rfl, Option.or_none,
    findClass?_library] at hc
  rcases hc with ⟨hname, -⟩ | ⟨hname, -⟩
  · exact windowName_ne (by decide +kernel) hname
  · exact windowName_ne (by decide +kernel) hname

theorem cycles_markup : cycles [markupClass typeName path body p q] = [] := by
  have hne : windowName typeName ≠ defaultBase := windowName_ne (by decide +kernel)
  have hnone : classNamed? [markupClass typeName path body p q] defaultBase = none :=
    List.find?_eq_none.2 (List.forall_mem_singleton.2 (by simpa [markupClass] using hne))
  have hends : returnsTo [markupClass typeName path body p q] 2 [windowName typeName]
      (some defaultBase) = false := by
    rw [returnsTo, hnone, if_neg (by simpa using hne.symm)]
    rfl
  refine List.filterMap_eq_nil_iff.2 (List.forall_mem_singleton.2 ?_)
  exact if_neg fun hreturns => Bool.false_ne_true (hends.symm.trans hreturns)

/-- A body that writes has no errors. -/
theorem bodyErrors_markup (h : Writes body texts) (find : String → Option ClassDef) :
    bodyErrors find (markupClass typeName path body p q) = [] := by
  refine bodyErrors_eq_nil_iff.2 fun m hm e he => ?_
  have hmethod : m = markupMethod body p := List.mem_singleton.1 hm
  subst hmethod
  have hcall : ∀ s ∈ body, ∀ e, s = .expr e →
      exprErrors find (markupClass typeName path body p q) [] e = [] := by
    refine h.forall_mem fun text position e he => ?_
    cases he
    rfl
  exact hcall _ he e rfl

/-- **A template that derives from the page of the base library is linked against it**, however its type
is named. -/
theorem link_markup (h : Writes body texts) :
    link [markupUnit typeName scope path body p q] [libraryModule] =
      .ok (finishedModule [markupUnit typeName scope path body p q] [markupClass typeName path body p q]
        [libraryModule]) := by
  rw [link_eq_ok_iff, resolvedClasses_markup h]
  refine ⟨declare_eq_nil_iff.2 ⟨List.nodup_singleton _, ?_⟩, ?_, cycles_markup, ?_, rfl⟩
  · refine List.forall_mem_singleton.2 ⟨List.not_mem_nil, ?_⟩
    show (Module.findIn? (windowName typeName) [libraryModule]).isSome = false
    rw [findIn?_windowName]
    rfl
  · exact List.forall_mem_singleton.2 (congrArg Prod.fst (resolve_markup h))
  · exact List.forall_mem_singleton.2 (bodyErrors_markup h _)

/-! ## Running -/

/-- The module of a template that derives from the page of the base library. -/
def markupModule (typeName scope path : String) (body : List Stmt) (p q : Position) : Module :=
  finishedModule [markupUnit typeName scope path body p q] [markupClass typeName path body p q]
    [libraryModule]

/-- Its class. -/
def linkedMarkup (typeName path : String) (body : List Stmt) (p q : Position) : ClassDef :=
  (markupClass typeName path body p q).finish
    (visible? [markupClass typeName path body p q] [libraryModule])

theorem faultless_markup (h : Writes body texts) :
    Faultless [markupClass typeName path body p q] [libraryModule] := by
  have hlinked : link [markupUnit typeName "" path body p q] [libraryModule] = .ok _ := link_markup h
  exact resolvedClasses_markup h ▸ (faultless_of_link hlinked).1

theorem get?_markup (h : Writes body texts) :
    (markupModule typeName scope path body p q).classes.get? (windowName typeName) =
      some (linkedMarkup typeName path body p q) :=
  (faultless_markup h).get?_eq_some_iff.2 ⟨_, List.mem_singleton_self _, rfl, rfl⟩

/-- A template derives from pages, and they from handlers. -/
theorem ancestry_markup (h : Writes body texts) :
    ancestry (markupModule typeName scope path body p q).findClass? maxInheritanceDepth
      (linkedMarkup typeName path body p q) =
      [linkedMarkup typeName path body p q, basePage, baseHandler] := by
  have hbelow {name : String} {c : ClassDef} (hc : libraryModule.findClass? name = some c) :
      (markupModule typeName scope path body p q).findClass? name = some c := by
    refine (faultless_markup h).findClass?_of_findIn? ?_
    rw [findIn?_cons, hc, Option.some_or]
  have hpage := hbelow (findClass?_library.2 (.inr ⟨rfl, rfl⟩))
  have hhandler := hbelow (findClass?_library.2 (.inl ⟨rfl, rfl⟩))
  have hchain : BaseChain (markupModule typeName scope path body p q).findClass?
      (linkedMarkup typeName path body p q) [linkedMarkup typeName path body p q, basePage, baseHandler] :=
    .derived (base?_eq_some_iff.2 ⟨_, rfl, hpage⟩)
      (.derived (base?_eq_some_iff.2 ⟨_, rfl, hhandler⟩) (.root rfl))
  exact hchain.ancestry_eq_take maxInheritanceDepth

/-- A body that writes appends its texts to what has been written. -/
theorem run_writes (h : Writes body texts) (scene : Scene) (runner : BodyRunner) (owner : ClassDef)
    (locals : NameMap Value) (s : RunState) :
    (runStmts (evalExpr scene runner owner locals) body).run s =
      (.ok (), { s with response := { s.response with body := s.response.body ++ String.join texts } }) := by
  induction texts generalizing body s with
  | nil =>
    rw [List.map_eq_nil_iff.1 h, String.join_nil, String.append_empty]
    rfl
  | cons text texts ih =>
    obtain ⟨position, rest, rfl, hrest⟩ := h.cons
    rw [String.join_cons, ← String.append_assoc]
    exact ih hrest { s with response := { s.response with body := s.response.body ++ text } }

/-- No class of a template has a constructor, so that objects are as they are given. -/
theorem construct_markup (h : Writes body texts) (args : List Value) :
    construct (markupModule typeName scope path body p q) (linkedMarkup typeName path body p q) args =
      .ok ⟨linkedMarkup typeName path body p q, args, .empty⟩ := by
  have hlineage : (markupModule typeName scope path body p q).lineage (linkedMarkup typeName path body p q) =
      [baseHandler, basePage, linkedMarkup typeName path body p q] := by
    rw [Module.lineage, ancestry_markup h]
    rfl
  unfold construct
  rw [hlineage]
  rfl

theorem run_pure {β : Type} (b : β) (s : RunState) : (pure b : Run β).run s = (.ok b, s) := rfl

theorem dispatch_eq {scene : Scene} {runner : BodyRunner} {start owner : ClassDef} {name : String}
    {m : Method} (howner : scene.module.owner? start name = some owner)
    (hm : owner.methods.get? name = some m) (args : List Value) :
    dispatch scene runner start name args = runner owner m args := by
  rw [dispatch, howner, Option.bind_some, hm, Option.map_some]

/-- The answer is what has been written when the method has run. -/
theorem run_eq_ok {m : Module} {i : Instance} {method : String} {request : Request} {s : RunState}
    (h : (dispatch ⟨m, request⟩ (runBody ⟨m, request⟩ maxCallDepth) i.cls method []).run ⟨i, .initial⟩ =
      (.ok (), s)) : i.run m method request = (.ok s.response, s.self) := by
  unfold Instance.run
  simp only [h]

/-- **The answer of a template is its texts**, one after the other. -/
theorem process_markup (h : Writes body texts) {i : Instance}
    (hi : i.cls = linkedMarkup typeName path body p q) (request : Request) :
    i.process (markupModule typeName scope path body p q) request =
      (.ok ⟨200, "text/html; charset=utf-8", String.join texts⟩, i) := by
  have howner (method : String) : (markupModule typeName scope path body p q).owner? i.cls method =
      [linkedMarkup typeName path body p q, basePage, baseHandler].find? (·.methods.contains method) := by
    rw [Module.owner?, owner?, hi, ancestry_markup h]
  have hentry : (markupModule typeName scope path body p q).owner? i.cls "ProcessRequest" = some basePage := by
    rw [howner]
    rfl
  have hrender : (markupModule typeName scope path body p q).owner? i.cls "Render" =
      some (linkedMarkup typeName path body p q) := by
    rw [howner]
    rfl
  let scene : Scene := ⟨markupModule typeName scope path body p q, request⟩
  -- The page sets the type of the answer and then lets the template render itself.
  have hwritten : (dispatch scene (runBody scene 63) i.cls "Render" []).run
      ⟨i, ⟨200, "text/html; charset=utf-8", ""⟩⟩ =
      (.ok (), ⟨i, ⟨200, "text/html; charset=utf-8", String.join texts⟩⟩) := by
    rw [dispatch_eq hrender rfl]
    refine (run_writes h scene _ _ _ _).trans ?_
    rw [String.empty_append]
  have htype : (runCall scene (runBody scene 63) basePage ["Response", "ContentType"]
      [.text "text/html; charset=utf-8"]).run ⟨i, .initial⟩ =
      (.ok .nil, ⟨i, ⟨200, "text/html; charset=utf-8", ""⟩⟩) := rfl
  have hcall : (runCall scene (runBody scene 63) basePage ["Render"] []).run
      ⟨i, ⟨200, "text/html; charset=utf-8", ""⟩⟩ =
      (.ok .nil, ⟨i, ⟨200, "text/html; charset=utf-8", String.join texts⟩⟩) := by
    show (dispatch scene (runBody scene 63) i.cls "Render" [] >>= fun _ => pure Value.nil).run _ = _
    rw [run_bind, hwritten]
    rfl
  have hpage : (dispatch scene (runBody scene maxCallDepth) i.cls "ProcessRequest" []).run ⟨i, .initial⟩ =
      (.ok (), ⟨i, ⟨200, "text/html; charset=utf-8", String.join texts⟩⟩) := by
    rw [dispatch_eq hentry rfl, maxCallDepth, runBody]
    simp only [runStmts, pageEntry, run_bind, run_pure, evalExpr, evalArgs, htype, hcall]
  exact run_eq_ok hpage

/-! ## The whole way -/

/-- A unit that is the one of a template without code, up to places. -/
theorem eq_markupUnit {t : Template} {u : SourceUnit} (hbase : t.hasCodeBehind = false)
    (h : u.unplaced = t.windowUnit path (texts.map .literal)) : ∃ body p q,
      u = markupUnit t.typeName ((splitTypeName t.typeName).1.getD "") path body p q ∧ Writes body texts := by
  have hdefault : t.baseOf = defaultBase := by
    rw [baseOf, hbase]
    rfl
  have hbody : (texts.map .literal).flatMap segmentBody = texts.map (writeCall · .start) := by
    rw [List.flatMap_map]
    exact List.flatMap_pure_eq_map ..
  rw [windowUnit, hdefault, renderMethod, hbody] at h
  obtain ⟨file, uses, classes⟩ := u
  obtain ⟨rfl, rfl, hclasses⟩ := SourceUnit.mk.inj h
  obtain ⟨⟨name, scope, base, constructor?, methods, q⟩, rfl, hclass⟩ := List.map_eq_singleton_iff.1 hclasses
  obtain ⟨rfl, rfl, rfl, hconstructor, hmethods, -⟩ := ClassDecl.mk.inj hclass
  obtain rfl := Option.map_eq_none_iff.1 hconstructor
  obtain ⟨⟨name, visibility, params, body, p⟩, rfl, hmethod⟩ := List.map_eq_singleton_iff.1 hmethods
  obtain ⟨rfl, rfl, rfl, hwrites, -⟩ := Method.mk.inj hmethod
  exact ⟨body, p, q, rfl, hwrites⟩

/-- One source that is compiled against one artifact. -/
theorem compile_one {source : String} {u : SourceUnit} {a : Artifact} {k : Module}
    (hparse : parse path source = .ok u) (hmodule : a.module? = some k) :
    compile [⟨path, source⟩] [a] = link [u] [k] := by
  have hmodules : modulesOf [a] = ([], [k]) := by
    rw [modulesOf, hmodule]
    rfl
  exact compile_eq_link (unitsOf_cons hparse rfl) hmodules

/-- **A template means its markup.** Its script parses to a unit with one class, which writes the literals
and runs the code in order. If there is neither code nor a code-behind, what the class answers to every
request is its literals, one after the other. -/
theorem template_means_markup {t : Template} {found : List Segment}
    (htype : Config.isDottedName t.typeName = true) (hfound : segments t.file t.markup = .ok found)
    (hruns : ∀ s ∈ found, s.Runs) : ∃ source, t.script = .ok source ∧
      (∀ path, ∃ u, parse path source = .ok u ∧ u.unplaced = t.windowUnit path found) ∧
      ∀ texts path (foundation : Artifact) k, t.hasCodeBehind = false → found = texts.map .literal →
        compile [foundationSource] [] = .ok k → foundation.module? = some k →
        ∃ m c, compile [⟨path, source⟩] [foundation] = .ok m ∧
          m.classes.get? (windowName t.typeName) = some c ∧
          ∀ args, ∃ i, construct m c args = .ok i ∧
            ∀ request, i.process m request =
              (.ok ⟨200, "text/html; charset=utf-8", String.join texts⟩, i) := by
  refine ⟨t.scriptOf found, by rw [script, hfound]; rfl, parse_scriptOf htype hruns, ?_⟩
  rintro texts path foundation k hbase rfl hk hmodule
  obtain ⟨u, hparse, hu⟩ := parse_scriptOf htype hruns path
  obtain ⟨body, p, q, rfl, hwrites⟩ := eq_markupUnit hbase hu
  rw [compile_library] at hk
  cases hk
  have hcompile : compile [⟨path, t.scriptOf (texts.map .literal)⟩] [foundation] =
      .ok (markupModule t.typeName ((splitTypeName t.typeName).1.getD "") path body p q) :=
    (compile_one hparse hmodule).trans (link_markup hwrites)
  refine ⟨_, linkedMarkup t.typeName path body p q, hcompile, get?_markup hwrites, fun args => ?_⟩
  exact ⟨_, construct_markup hwrites args, process_markup hwrites rfl⟩

/-- A template of a namespace whose markup has quotes, an opening of code between them and comments that
are none. -/
def quotedTemplate : Template := ⟨"shop.Index", "Index.kt", "<a t=\"<%\">\n// \"a\" /*", false⟩

/-- A template with a code-behind, whose markup has code between two literals, and a quote in the code. -/
def greetingTemplate : Template :=
  ⟨"shop.Index", "Index.kt", "<p>\n<% Greet(\"you\", Fields.Get(\"name\")); return; %>\n</p>", true⟩

/-- The unit of its script, without places. -/
def greetingUnit : SourceUnit :=
  ⟨"Index.ks", ["Kiln"], [⟨"shop.IndexWindow", "shop", some "Index", none,
    [⟨"Render", .exposed, [],
      [.expr (.call ["Response", "WriteLiteral"] [.text "<p>\n"] .start),
        .expr (.call ["Greet"] [.text "you", .call ["Fields", "Get"] [.text "name"] .start] .start), .leave,
        .expr (.call ["Response", "WriteLiteral"] [.text "\n</p>"] .start)], .start⟩], .start⟩]⟩

theorem bodyOf?_greeting : bodyOf? "Greet(\"you\", Fields.Get(\"name\")); return;" =
    some [.expr (.call ["Greet"] [.text "you", .call ["Fields", "Get"] [.text "name"] ⟨1, 14⟩] ⟨1, 1⟩),
      .leave] := by
  unfold bodyOf?
  rw [scan_ofList rfl]
  decide +kernel

/-- Quotes, openings of code between quotes and comments are shown as they are, and code runs between the
literals that stand around it. -/
theorem template_means_markup_quoted :
    (∃ source m c, quotedTemplate.script = .ok source ∧
      compile [⟨"Index.ks", source⟩]
        [.mk 0 ⟨"<foundation>", "Kiln"⟩ .foundation .script (some libraryModule) [] [foundationSource]] = .ok m ∧
      m.classes.get? "shop.IndexWindow" = some c ∧
      ∃ i, construct m c [] = .ok i ∧ ∀ request, i.process m request =
        (.ok ⟨200, "text/html; charset=utf-8", "<a t=\"<%\">\n// \"a\" /*"⟩, i)) ∧
    ∃ source u, greetingTemplate.script = .ok source ∧ parse "Index.ks" source = .ok u ∧
      u.unplaced = greetingUnit := by
  constructor
  · have hfound : segments quotedTemplate.file quotedTemplate.markup =
        .ok (["<a t=\"<%\">\n// \"a\" /*"].map .literal) := by decide +kernel
    obtain ⟨source, hscript, -, hshows⟩ := template_means_markup (t := quotedTemplate) (by decide +kernel) hfound
      (List.forall_mem_singleton.2 trivial)
    obtain ⟨m, c, hcompile, hc, hobjects⟩ := hshows _ "Index.ks"
      (.mk 0 ⟨"<foundation>", "Kiln"⟩ .foundation .script (some libraryModule) [] [foundationSource])
      libraryModule rfl rfl compile_library rfl
    obtain ⟨i, hi, hprocess⟩ := hobjects []
    exact ⟨source, m, c, hscript, hcompile, hc, i, hi, hprocess⟩
  · have hfound : segments greetingTemplate.file greetingTemplate.markup =
        .ok [.literal "<p>\n", .code "Greet(\"you\", Fields.Get(\"name\")); return;", .literal "\n</p>"] := by
      decide +kernel
    obtain ⟨source, hscript, hparses, -⟩ := template_means_markup (t := greetingTemplate) (by decide +kernel)
      hfound (by simp [Segment.Runs, bodyOf?_greeting])
    obtain ⟨u, hparse, hu⟩ := hparses "Index.ks"
    refine ⟨source, u, hscript, hparse, hu.trans ?_⟩
    simp only [windowUnit, renderMethod, List.flatMap_cons, segmentBody, bodyOf?_greeting]
    decide +kernel

end SiteHost.Template
