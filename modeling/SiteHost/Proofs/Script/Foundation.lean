import SiteHost.Artifact
import SiteHost.Proofs.Script.Declarations
import SiteHost.Proofs.Script.Linked
import SiteHost.Proofs.Script.Scanning

/-!
# The base library linked

What the source of the base library means, written out:

* `libraryTokens`, `libraryUnit` — its tokens and its unit;
* `libraryModule` — its module, with the classes `baseHandler` and `basePage`.

Principal results:

* `compile_library` — the source compiles to the module;
* `findClass?_library` — there are no other classes in it.
-/

namespace SiteHost.Script

/-- What a handler does with a request: it renders itself. -/
def handlerEntry : Method :=
  ⟨"ProcessRequest", .exposed, [], [.expr (.call ["Render"] [] ⟨7, 13⟩)], ⟨5, 29⟩⟩

/-- What a handler renders: nothing. -/
def handlerRender : Method := ⟨"Render", .exposed, [], [], ⟨10, 29⟩⟩

/-- What a page does with a request: it renders itself as markup. -/
def pageEntry : Method :=
  ⟨"ProcessRequest", .exposed, [],
    [.expr (.call ["Response", "ContentType"] [.text "text/html; charset=utf-8"] ⟨19, 13⟩),
      .expr (.call ["Render"] [] ⟨20, 13⟩)], ⟨17, 30⟩⟩

/-- The unit of the base library. -/
def libraryUnit : SourceUnit :=
  ⟨"<foundation>/kiln.ks", [],
    [⟨"Kiln.Handler", "Kiln", none, none, [handlerEntry, handlerRender], ⟨3, 18⟩⟩,
      ⟨"Kiln.Page", "Kiln", some "Handler", none, [pageEntry], ⟨15, 18⟩⟩]⟩

/-- The module of the base library. -/
def libraryModule : Module :=
  finishedModule [libraryUnit] (resolvedClasses [libraryUnit] []) []

/-- The class of handlers. -/
def baseHandler : ClassDef where
  name := "Kiln.Handler"
  base := none
  constructor? := none
  methods := .ofList [("ProcessRequest", handlerEntry), ("Render", handlerRender)]
  typeRefs := .empty
  actions := .ofList [("ProcessRequest", "Kiln.Handler"), ("Render", "Kiln.Handler")]
  file := "<foundation>/kiln.ks"
  position := ⟨3, 18⟩

/-- The class of pages. -/
def basePage : ClassDef where
  name := "Kiln.Page"
  base := some "Kiln.Handler"
  constructor? := none
  methods := .ofList [("ProcessRequest", pageEntry)]
  typeRefs := .empty
  actions := .ofList [("ProcessRequest", "Kiln.Page"), ("Render", "Kiln.Handler")]
  file := "<foundation>/kiln.ks"
  position := ⟨15, 18⟩

/-- The tokens of the base library. -/
def libraryTokens : TokenStream :=
  ⟨[⟨.name "namespace", ⟨1, 1⟩⟩, ⟨.name "Kiln", ⟨1, 11⟩⟩, ⟨.openBrace, ⟨2, 1⟩⟩, ⟨.name "public", ⟨3, 5⟩⟩,
    ⟨.name "class", ⟨3, 12⟩⟩, ⟨.name "Handler", ⟨3, 18⟩⟩, ⟨.openBrace, ⟨4, 5⟩⟩, ⟨.name "public", ⟨5, 9⟩⟩,
    ⟨.name "virtual", ⟨5, 16⟩⟩, ⟨.name "void", ⟨5, 24⟩⟩, ⟨.name "ProcessRequest", ⟨5, 29⟩⟩,
    ⟨.openParen, ⟨5, 43⟩⟩, ⟨.closeParen, ⟨5, 44⟩⟩, ⟨.openBrace, ⟨6, 9⟩⟩, ⟨.name "Render", ⟨7, 13⟩⟩,
    ⟨.openParen, ⟨7, 19⟩⟩, ⟨.closeParen, ⟨7, 20⟩⟩, ⟨.semicolon, ⟨7, 21⟩⟩, ⟨.closeBrace, ⟨8, 9⟩⟩,
    ⟨.name "public", ⟨10, 9⟩⟩, ⟨.name "virtual", ⟨10, 16⟩⟩, ⟨.name "void", ⟨10, 24⟩⟩,
    ⟨.name "Render", ⟨10, 29⟩⟩, ⟨.openParen, ⟨10, 35⟩⟩, ⟨.closeParen, ⟨10, 36⟩⟩, ⟨.openBrace, ⟨11, 9⟩⟩,
    ⟨.closeBrace, ⟨12, 9⟩⟩, ⟨.closeBrace, ⟨13, 5⟩⟩, ⟨.name "public", ⟨15, 5⟩⟩, ⟨.name "class", ⟨15, 12⟩⟩,
    ⟨.name "Page", ⟨15, 18⟩⟩, ⟨.colon, ⟨15, 23⟩⟩, ⟨.name "Handler", ⟨15, 25⟩⟩, ⟨.openBrace, ⟨16, 5⟩⟩,
    ⟨.name "public", ⟨17, 9⟩⟩, ⟨.name "override", ⟨17, 16⟩⟩, ⟨.name "void", ⟨17, 25⟩⟩,
    ⟨.name "ProcessRequest", ⟨17, 30⟩⟩, ⟨.openParen, ⟨17, 44⟩⟩, ⟨.closeParen, ⟨17, 45⟩⟩,
    ⟨.openBrace, ⟨18, 9⟩⟩, ⟨.name "Response", ⟨19, 13⟩⟩, ⟨.dot, ⟨19, 21⟩⟩, ⟨.name "ContentType", ⟨19, 22⟩⟩,
    ⟨.openParen, ⟨19, 33⟩⟩, ⟨.text "text/html; charset=utf-8", ⟨19, 34⟩⟩, ⟨.closeParen, ⟨19, 60⟩⟩,
    ⟨.semicolon, ⟨19, 61⟩⟩, ⟨.name "Render", ⟨20, 13⟩⟩, ⟨.openParen, ⟨20, 19⟩⟩, ⟨.closeParen, ⟨20, 20⟩⟩,
    ⟨.semicolon, ⟨20, 21⟩⟩, ⟨.closeBrace, ⟨21, 9⟩⟩, ⟨.closeBrace, ⟨22, 5⟩⟩,
    ⟨.closeBrace, ⟨23, 1⟩⟩], ⟨24, 1⟩⟩

set_option maxRecDepth 4000 in
theorem scan_library : scan foundationSource.text = .ok libraryTokens := by
  unfold foundationSource
  dsimp only
  rw [scan_ofList rfl]
  decide +kernel

theorem parse_library : parse foundationSource.path foundationSource.text = .ok libraryUnit := by
  have hitems : itemsOf libraryTokens = .ok (libraryUnit.classes.map .declares) := rfl
  exact parse_eq_ok scan_library hitems

/-- A source that parses is one more unit. -/
theorem unitsOf_cons {s : SourceText} {rest : List SourceText} {u : SourceUnit} {units : List SourceUnit}
    (hparse : parse s.path s.text = .ok u) (hrest : unitsOf rest = ([], units)) :
    unitsOf (s :: rest) = ([], u :: units) := by
  rw [unitsOf, hrest, hparse]

/-- Without diagnostics of the sources and the references, compiling is linking. -/
theorem compile_eq_link {sources : List SourceText} {references : List Artifact} {units : List SourceUnit}
    {modules : List Module} (hunits : unitsOf sources = ([], units))
    (hmodules : modulesOf references = ([], modules)) : compile sources references = link units modules := by
  rw [compile, hunits, hmodules]
  rfl

theorem link_library : link [libraryUnit] [] = .ok libraryModule := by
  refine link_eq_ok_iff.2 ⟨?_, ?_, ?_, ?_, rfl⟩ <;> decide +kernel

/-- **The source of the base library compiles.** -/
theorem compile_library : compile [foundationSource] [] = .ok libraryModule :=
  (compile_eq_link (unitsOf_cons parse_library rfl) rfl).trans link_library

theorem toList_library : libraryModule.classes.toList =
    [("Kiln.Handler", baseHandler), ("Kiln.Page", basePage)] := by
  decide +kernel

/-- **The classes of the base library.** -/
theorem findClass?_library {name : String} {c : ClassDef} :
    libraryModule.findClass? name = some c ↔
      name = "Kiln.Handler" ∧ c = baseHandler ∨ name = "Kiln.Page" ∧ c = basePage := by
  have hfind : libraryModule.findClass? name =
      [("Kiln.Handler", baseHandler), ("Kiln.Page", basePage)].lookup name := by
    rw [findClass?_eq, NameMap.get?, toList_library]
    exact Option.or_none
  rw [hfind, List.lookup_cons, List.lookup_cons, List.lookup_nil]
  by_cases hhandler : name = "Kiln.Handler"
  · subst hhandler
    simp [eq_comm]
  · by_cases hpage : name = "Kiln.Page"
    · subst hpage
      simp [eq_comm]
    · rw [beq_false_of_ne hhandler, beq_false_of_ne hpage]
      simp [hhandler, hpage]

end SiteHost.Script
