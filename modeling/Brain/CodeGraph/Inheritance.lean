import Brain.CodeGraph.Resolver
import Mathlib.Data.List.TakeWhile

namespace Brain

theorem view_foldl {σ α β : Type} (view : σ → List β) {f : σ → α → σ} {g : α → List β}
    (appends : ∀ s a, view (f s a) = view s ++ g a) (l : List α) (s : σ) :
    view (l.foldl f s) = view s ++ l.flatMap g := by
  induction l generalizing s with
  | nil => simp
  | cons a l ih => rw [List.foldl_cons, ih, appends, List.append_assoc, List.flatMap_cons]

theorem view_foldl_same {σ α β : Type} (view : σ → β) {f : σ → α → σ} (same : ∀ s a, view (f s a) = view s) (l : List α)
    (s : σ) : view (l.foldl f s) = view s :=
  List.foldlRecOn (motive := fun t => view t = view s) l f rfl fun t before a _ => (same t a).trans before

/-- `from module import name as asname`, with a dot before `module` for each level. -/
structure FromImport where
  module : Option DottedName
  level : Nat
  name : Identifier
  asname : Option Identifier
  span : Ast.Span

/-- The name that the import binds in its file. -/
def FromImport.bound (entry : FromImport) : Identifier := entry.asname.getD entry.name

def Ast.Stmt.fromImports : Ast.Stmt → List FromImport
  | .importFrom module names level span => names.filterMap fun
    | .star => none
    | .name name asname => some ⟨module, level, name, asname, span⟩
  | _ => []

/-- The class that a statement defines, if it does. -/
def Ast.Stmt.classes : Ast.Stmt → List Ast.ClassDef
  | .classDef node => [node]
  | _ => []

theorem Ast.Module.mem_classes {tree : Ast.Module} {node : Ast.ClassDef} :
    node ∈ tree.body.flatMap Ast.Stmt.classes ↔ .classDef node ∈ tree.body := by
  rw [List.mem_flatMap]
  constructor
  · rintro ⟨stmt, inBody, isNode⟩
    cases stmt with
    | classDef other =>
      obtain rfl := List.mem_singleton.mp isNode
      exact inBody
    | _ => cases isNode
  · intro inBody
    exact ⟨_, inBody, List.mem_singleton_self _⟩

def Ast.Stmt.bases : Ast.Stmt → List String
  | .classDef node => node.bases
  | _ => []

def FileBuilder.named (b : FileBuilder) : List ImportStatement := b.imports.filter (·.name.isSome)

def ParsedSymbol.bases (symbol : ParsedSymbol) : List String :=
  if symbol.kind = .class then symbol.metadata.bases.getD [] else []

def FileBuilder.bases (b : FileBuilder) : List String := b.symbols.flatMap ParsedSymbol.bases

namespace FileContext
variable {file : FileContext} {b : FileBuilder}

def statement (file : FileContext) (entry : FromImport) : ImportStatement :=
  { module := (entry.module.map (·.text)).getD "", name := some entry.name.text
    asName := entry.asname.map (·.text), isRelative := entry.level > 0, level := entry.level
    location := file.location entry.span }

theorem recordImport_imports (module : String) (name asName : Option String) (isRelative : Bool) (level : Nat)
    (span : Ast.Span) :
    (file.recordImport module name asName isRelative level span b).imports =
      b.imports ++ [{ module, name, asName, isRelative, level, location := file.location span }] := by
  unfold recordImport
  dsimp only
  split <;> rfl

section Classes
variable {β : Type}

structure ClassView (file : FileContext) (read : ParsedSymbol → List β) (tell : Ast.ClassDef → List β) : Prop where
  plain : ∀ symbol, symbol.kind ≠ .class → read symbol = []
  ofClass : ∀ b node, read (file.newSymbol b node.name.text (file.qualified node.name.text) .class node.span
    { docstring := node.docstring
      metadata := { bases := some node.bases, instanceAttrs := some (instanceAttrs node.functions) } }) = tell node

variable {read : ParsedSymbol → List β} {tell : Ast.ClassDef → List β}

theorem ClassView.recordImport (view : file.ClassView read tell) (module : String) (name asName : Option String)
    (isRelative : Bool) (level : Nat) (span : Ast.Span) :
    (file.recordImport module name asName isRelative level span b).symbols.flatMap read = b.symbols.flatMap read := by
  have added : (file.recordImport module name asName isRelative level span b).symbols =
      b.symbols ++ [file.newSymbol b (importedAs module name asName) (file.qualified (importedAs module name asName))
        .import span { metadata := { importModule := some module, importName := some (name.getD "") } }] := by
    unfold FileContext.recordImport
    dsimp only
    split <;> rfl
  rw [added, List.flatMap_append, List.flatMap_singleton, view.plain _ (by simp [newSymbol]), List.append_nil]

theorem ClassView.handleFunction (view : file.ClassView read tell) {parent : ParsedSymbol} {kind : SymbolKind}
    (callable : kind ≠ .class) (node : Ast.FunctionDef) :
    (file.handleFunction parent kind b node).symbols.flatMap read = b.symbols.flatMap read := by
  unfold FileContext.handleFunction
  simp [FileBuilder.addPending, FileBuilder.addSymbol, view.plain, newSymbol, callable]

theorem ClassView.handleClass (view : file.ClassView read tell) (node : Ast.ClassDef) :
    (file.handleClass b node).symbols.flatMap read = b.symbols.flatMap read ++ tell node := by
  unfold FileContext.handleClass
  dsimp only
  rw [view_foldl_same (fun b : FileBuilder => b.symbols.flatMap read) fun before function =>
    view.handleFunction (by decide) function]
  simp [FileBuilder.addRelations, FileBuilder.addSymbol, view.ofClass]

theorem ClassView.handleStatement (view : file.ClassView read tell) {moduleSymbol : ParsedSymbol} (stmt : Ast.Stmt) :
    (file.handleStatement moduleSymbol b stmt).symbols.flatMap read =
      b.symbols.flatMap read ++ stmt.classes.flatMap tell := by
  cases stmt with
  | «import» names span =>
    unfold FileContext.handleStatement handleImport
    dsimp only
    rw [view_foldl_same (fun b : FileBuilder => b.symbols.flatMap read) fun before entry => view.recordImport ..]
    simp [Ast.Stmt.classes]
  | importFrom module names level span =>
    unfold FileContext.handleStatement handleImportFrom
    dsimp only
    rw [view_foldl_same (fun b : FileBuilder => b.symbols.flatMap read)]
    · simp [Ast.Stmt.classes]
    · intro before entry
      cases entry with
      | star => rfl
      | name name asname => exact view.recordImport ..
  | classDef node =>
    rw [show (Ast.Stmt.classDef node).classes.flatMap tell = tell node from List.append_nil _]
    exact view.handleClass node
  | functionDef node =>
    rw [FileContext.handleStatement, view.handleFunction (by decide)]
    simp [Ast.Stmt.classes]
  | other => simp [FileContext.handleStatement, Ast.Stmt.classes]

theorem ClassView.build (view : file.ClassView read tell) (tree : Ast.Module) :
    (file.build tree).symbols.flatMap read = tree.body.flatMap fun stmt => stmt.classes.flatMap tell := by
  have gathered := view_foldl (fun b : FileBuilder => b.symbols.flatMap read)
    (fun b stmt => @ClassView.handleStatement file b _ _ _ view (file.moduleSymbol tree) stmt) tree.body
    (FileBuilder.addSymbol (file.moduleSymbol tree) {})
  have start : (FileBuilder.addSymbol (file.moduleSymbol tree) {}).symbols.flatMap read = [] := by
    show [file.moduleSymbol tree].flatMap read = []
    rw [List.flatMap_singleton]
    exact view.plain _ fun same => SymbolKind.noConfusion same
  rw [start, List.nil_append] at gathered
  exact gathered

end Classes

theorem handleClass_named (node : Ast.ClassDef) : (file.handleClass b node).named = b.named := by
  unfold handleClass
  dsimp only
  rw [view_foldl_same FileBuilder.named]
  · rfl
  · exact fun _ _ => rfl

theorem handleStatement_named {moduleSymbol : ParsedSymbol} (stmt : Ast.Stmt) :
    (file.handleStatement moduleSymbol b stmt).named = b.named ++ stmt.fromImports.map file.statement := by
  cases stmt with
  | «import» names span =>
    unfold handleStatement handleImport
    dsimp only
    rw [view_foldl_same FileBuilder.named]
    · simp [Ast.Stmt.fromImports]
    · intro before entry
      simp [FileBuilder.named, recordImport_imports]
  | importFrom module names level span =>
    unfold handleStatement handleImportFrom
    dsimp only
    rw [view_foldl FileBuilder.named (g := fun entry =>
      ((Ast.Stmt.importFrom module [entry] level span).fromImports).map file.statement)]
    · rw [← List.map_flatMap]
      congr 2
      induction names with
      | nil => rfl
      | cons entry names ih => cases entry <;> simp_all [Ast.Stmt.fromImports]
    · intro before entry
      cases entry with
      | star => simp [Ast.Stmt.fromImports]
      | name name asname =>
        simp [FileBuilder.named, recordImport_imports, Ast.Stmt.fromImports, statement]
  | classDef node => simp [handleStatement, handleClass_named, Ast.Stmt.fromImports]
  | functionDef node =>
    simp [handleStatement, handleFunction, FileBuilder.named, FileBuilder.addPending, FileBuilder.addSymbol,
      Ast.Stmt.fromImports]
  | other => simp [handleStatement, Ast.Stmt.fromImports]

theorem build_bases (tree : Ast.Module) : (file.build tree).bases = tree.body.flatMap Ast.Stmt.bases := by
  have view : file.ClassView ParsedSymbol.bases Ast.ClassDef.bases :=
    ⟨fun symbol plain => if_neg plain, fun b node => by simp [ParsedSymbol.bases, newSymbol]⟩
  rw [FileBuilder.bases, view.build]
  refine List.flatMap_congr fun stmt _ => ?_
  cases stmt <;> simp [Ast.Stmt.classes, Ast.Stmt.bases]

theorem build_named (tree : Ast.Module) :
    (file.build tree).named = tree.body.flatMap fun stmt => stmt.fromImports.map file.statement := by
  have step : ∀ b stmt, (file.handleStatement (file.moduleSymbol tree) b stmt).named =
      b.named ++ stmt.fromImports.map file.statement := fun _ stmt => handleStatement_named stmt
  have gathered := view_foldl FileBuilder.named step tree.body (FileBuilder.addSymbol (file.moduleSymbol tree) {})
  have start : (FileBuilder.addSymbol (file.moduleSymbol tree) {}).named = [] := rfl
  rw [start, List.nil_append] at gathered
  exact gathered

end FileContext

theorem mem_declaredBases {parsed : ParsedFile} {tree : Ast.Module} {file : FileContext}
    (symbols : parsed.symbols = (file.build tree).symbols) {base : String} :
    (∃ declared ∈ GraphResolver.declaredBases parsed, declared.2 = base) ↔ ∃ stmt ∈ tree.body, base ∈ stmt.bases := by
  rw [← List.mem_flatMap, ← @FileContext.build_bases file, FileBuilder.bases, ← symbols, List.mem_flatMap]
  constructor
  · rintro ⟨declared, listed, rfl⟩
    obtain ⟨symbol, isClass, inSymbol⟩ := List.mem_flatMap.mp listed
    obtain ⟨member, kind⟩ := List.mem_filter.mp isClass
    obtain ⟨base, isBase, rfl⟩ := List.mem_map.mp inSymbol
    exact ⟨symbol, member, by simpa [ParsedSymbol.bases, of_decide_eq_true kind] using isBase⟩
  · rintro ⟨symbol, member, isBase⟩
    unfold ParsedSymbol.bases at isBase
    split at isBase
    · rename_i kind
      refine ⟨(symbol, base), ?_, rfl⟩
      exact List.mem_flatMap.mpr ⟨symbol, List.mem_filter.mpr ⟨member, by simpa using kind⟩,
        List.mem_map_of_mem isBase⟩
    · cases isBase

namespace CodeIntelligenceService
variable {self : CodeIntelligenceService} {repositoryId : RepositoryId} {revision : String}
  {files : Keyed SourceFile.path}

def Holds (self : CodeIntelligenceService) (files : Keyed SourceFile.path) (path : String) (tree : Ast.Module) : Prop :=
  ∃ source ∈ files.items, source.path = path ∧ ".py".toList.isSuffixOf path.toList = true ∧
    self.parser.astParse source.content = some tree

/-- A class of the module at `path` has a base whose first part is a name that
an entry of the module imports from the module `target` of the map. -/
structure ImportedBase (service : CodeIntelligenceService) (repositoryId : RepositoryId) (revision : String)
    (files : Keyed SourceFile.path) (path : String) (tree : Ast.Module) (node : Ast.ClassDef) (base : String)
    (entry : FromImport) (target : String) : Prop where
  holds : service.Holds files path tree
  declared : Ast.Stmt.classDef node ∈ tree.body
  isBase : base ∈ node.bases
  imported : ∃ stmt ∈ tree.body, entry ∈ stmt.fromImports
  bound : firstPart base = entry.bound.text
  resolved : (service.resolver repositoryId revision files).resolveModule (moduleFromPath path)
    (FileContext.statement ⟨repositoryId, revision, path, moduleFromPath path⟩ entry) = some target

def classIdentity (repositoryId : RepositoryId) (revision module : String) (node : Ast.ClassDef) : SymbolIdentity :=
  FileContext.identity ⟨repositoryId, revision, "", module⟩ (module ++ "." ++ node.name.text) .class

/-- A class inherits from each class that it has as a base under an imported name. -/
def ResolvesBases (self : CodeIntelligenceService) (repositoryId : RepositoryId) (revision : String)
    (files : Keyed SourceFile.path) (relations : List StoredRelation) : Prop :=
  ∀ path tree node entry target path' tree' node',
    self.ImportedBase repositoryId revision files path tree node entry.bound.text entry target →
    self.Holds files path' tree' → moduleFromPath path' = target → Ast.Stmt.classDef node' ∈ tree'.body →
    node'.name = entry.name →
    ∃ relation ∈ relations, relation.relationType = .inherits ∧
      relation.sourceIdentity = classIdentity repositoryId revision (moduleFromPath path) node ∧
      relation.targetIdentity = classIdentity repositoryId revision target node'

theorem mem_parseFiles {parsed : ParsedFile} :
    parsed ∈ self.parseFiles repositoryId revision files ↔ ∃ source ∈ files.items,
      ".py".toList.isSuffixOf source.path.toList = true ∧ ∃ tree, self.parser.astParse source.content = some tree ∧
      parsed = self.parser.parsedFile repositoryId revision source.path source.content tree := by
  unfold parseFiles
  rw [List.mem_filterMap]
  constructor
  · rintro ⟨source, member, made⟩
    split at made
    · rename_i isPython
      obtain ⟨tree, parses, rfl⟩ := Option.map_eq_some_iff.mp made
      exact ⟨source, member, isPython, tree, parses, rfl⟩
    · cases made
  · rintro ⟨source, member, isPython, tree, parses, rfl⟩
    refine ⟨source, member, ?_⟩
    rw [if_pos isPython, PythonAstParser.parse, parses, Option.map_some]

theorem resolver_reads : (self.resolver repositoryId revision files).Reads := by
  intro parsed member
  obtain ⟨source, _, _, tree, _, rfl⟩ := mem_parseFiles.mp member
  exact self.parser.parsedFile_read ..

theorem bound_statement (file : FileContext) (entry : FromImport) :
    (given (file.statement entry).asName).getD entry.name.text = entry.bound.text := by
  unfold FromImport.bound FileContext.statement
  cases entry.asname with
  | none => rfl
  | some asname => rw [Option.map_some, asname.given_text, Option.getD_some, Option.getD_some]

theorem binds_iff {parsed : ParsedFile} {tree : Ast.Module} {path content : String}
    (isParsed : parsed = self.parser.parsedFile repositoryId revision path content tree) {name : String} :
    (∃ imp ∈ parsed.imports, ∃ bound, (self.resolver repositoryId revision files).Binds parsed imp bound ∧
        bound.bound = name) ↔
      ∃ stmt ∈ tree.body, ∃ entry ∈ stmt.fromImports, entry.bound.text = name ∧ ∃ target,
        (self.resolver repositoryId revision files).resolveModule (moduleFromPath path)
          (FileContext.statement ⟨repositoryId, revision, path, moduleFromPath path⟩ entry) = some target := by
  subst isParsed
  have named := @FileContext.build_named ⟨repositoryId, revision, path, moduleFromPath path⟩ tree
  constructor
  · rintro ⟨imp, listed, bound, ⟨symbol, imported, hasName, bindsAs⟩, rfl⟩
    have inNamed : imp ∈ (FileContext.build ⟨repositoryId, revision, path, moduleFromPath path⟩ tree).named :=
      List.mem_filter.mpr ⟨listed, by rw [(given_eq_some.mp hasName).1]; rfl⟩
    rw [named] at inNamed
    obtain ⟨stmt, inBody, inStmt⟩ := List.mem_flatMap.mp inNamed
    obtain ⟨entry, inEntries, rfl⟩ := List.mem_map.mp inStmt
    have isName : bound.name = entry.name.text := by
      have same := hasName.symm.trans entry.name.given_text
      exact Option.some.inj same
    rw [isName, bound_statement] at bindsAs
    exact ⟨stmt, inBody, entry, inEntries, bindsAs.symm, bound.module, (GraphResolver.importedModule_fst imported).1⟩
  · rintro ⟨stmt, inBody, entry, inEntries, rfl, target, resolved⟩
    have inNamed : FileContext.statement ⟨repositoryId, revision, path, moduleFromPath path⟩ entry ∈
        (FileContext.build ⟨repositoryId, revision, path, moduleFromPath path⟩ tree).named := by
      rw [named]
      exact List.mem_flatMap.mpr ⟨stmt, inBody, List.mem_map_of_mem inEntries⟩
    obtain ⟨symbol, imported⟩ := @GraphResolver.importedModule_of_resolved _
      (self.parser.parsedFile repositoryId revision path content tree) resolver_reads _ _ resolved
    refine ⟨_, (List.mem_filter.mp inNamed).1, ⟨entry.bound.text, target, entry.name.text⟩, ⟨symbol, imported, ?_, ?_⟩, rfl⟩
    · exact entry.name.given_text
    · exact (bound_statement _ entry).symm

theorem inherits_iff :
    (∃ parsed ∈ (self.resolver repositoryId revision files).files,
        (self.resolver repositoryId revision files).Inherits parsed) ↔
      ∃ path tree node base entry target,
        self.ImportedBase repositoryId revision files path tree node base entry target := by
  constructor
  · rintro ⟨parsed, member, declared, isDeclared, bound, found⟩
    obtain ⟨source, inMap, isPython, tree, parses, isParsed⟩ := mem_parseFiles.mp member
    obtain ⟨stmt, inBody, isBase⟩ := (mem_declaredBases (congrArg ParsedFile.symbols isParsed)).mp
      ⟨declared, isDeclared, rfl⟩
    obtain ⟨importing, isImport, entry, inEntries, isName, target, resolved⟩ := (binds_iff isParsed).mp
      (GraphResolver.names_get_iff.mp ⟨bound, found⟩)
    cases stmt with
    | classDef node =>
      exact ⟨source.path, tree, node, declared.2, entry, target, ⟨source, inMap, rfl, isPython, parses⟩, inBody, isBase,
        ⟨importing, isImport, inEntries⟩, isName.symm, resolved⟩
    | _ => simp [Ast.Stmt.bases] at isBase
  · rintro ⟨path, tree, node, base, entry, target, ⟨source, inMap, rfl, isPython, parses⟩, inBody, isBase,
      ⟨importing, isImport, inEntries⟩, isName, resolved⟩
    have member : self.parser.parsedFile repositoryId revision source.path source.content tree ∈
        self.parseFiles repositoryId revision files :=
      mem_parseFiles.mpr ⟨source, inMap, isPython, tree, parses, rfl⟩
    let parsed := self.parser.parsedFile repositoryId revision source.path source.content tree
    obtain ⟨declared, isDeclared, rfl⟩ : ∃ declared ∈ GraphResolver.declaredBases parsed, declared.2 = base :=
      (mem_declaredBases rfl).mpr ⟨.classDef node, inBody, isBase⟩
    have isParsed : parsed = self.parser.parsedFile repositoryId revision source.path source.content tree := rfl
    have bound := GraphResolver.names_get_iff.mpr ((binds_iff isParsed).mpr
      ⟨importing, isImport, entry, inEntries, isName.symm, target, resolved⟩)
    exact ⟨_, member, declared, isDeclared, bound⟩

theorem buildRevision_ok_iff {replace : Bool} {graph : InMemoryCodeGraph} :
    (∃ result, (self.buildRevision repositoryId revision files replace graph).1 = .ok result) ↔
      ∀ parsed ∈ (self.resolver repositoryId revision files).files,
        ¬ (self.resolver repositoryId revision files).Inherits parsed := by
  rw [← GraphResolver.resolve_ok_iff]
  unfold buildRevision
  cases (self.resolver repositoryId revision files).resolve with
  | error e => simp
  | ok parsedFiles => simp

/-- A build completes and relates classes to their imported bases exactly when
no class has a base that starts with a name imported from a module of the map. -/
theorem build_resolves_iff (self : CodeIntelligenceService) (repositoryId : RepositoryId) (revision : String)
    (files : Keyed SourceFile.path) (replace : Bool) (graph : InMemoryCodeGraph) :
    (∃ result, (self.buildRevision repositoryId revision files replace graph).1 = .ok result ∧
        self.ResolvesBases repositoryId revision files result.relations) ↔
      ∀ path tree node base entry target,
        ¬ self.ImportedBase repositoryId revision files path tree node base entry target := by
  have alone : (∃ result, (self.buildRevision repositoryId revision files replace graph).1 = .ok result) ↔
      ∀ path tree node base entry target,
        ¬ self.ImportedBase repositoryId revision files path tree node base entry target := by
    rw [buildRevision_ok_iff, ← not_iff_not]
    push Not
    exact inherits_iff
  constructor
  · rintro ⟨result, returns, _⟩
    exact alone.mp ⟨result, returns⟩
  · intro absent
    obtain ⟨result, returns⟩ := alone.mpr absent
    refine ⟨result, returns, ?_⟩
    intro path tree node entry target path' tree' node' imported
    exact absurd imported (absent path tree node _ entry target)

def baseName : Identifier := ⟨"Base", by decide, Identifier.plain_of_all rfl⟩

def userName : Identifier := ⟨"User", by decide, Identifier.plain_of_all rfl⟩

def modelsModule : DottedName where
  first := ⟨"app", by decide, Identifier.plain_of_all rfl⟩
  rest := [⟨"models", by decide, Identifier.plain_of_all rfl⟩]

/-- A parser of two modules: one defines a class, the other a class that imports
it as its base. -/
def twoModules : CodeIntelligenceService where
  parser :=
    { contentHash := id
      astParse := fun content =>
        if content = "class Base: ..." then some { body := [.classDef { name := baseName }] }
        else if content = "from app.models import Base; class User(Base): ..." then
          some { body := [.importFrom (some modelsModule) [.name baseName none] 0 {},
            .classDef { name := userName, bases := ["Base"] }] }
        else none }

def twoFiles : Keyed SourceFile.path :=
  (Keyed.empty.upsert ⟨"app/models.py", "class Base: ..."⟩).upsert
    ⟨"app/user.py", "from app.models import Base; class User(Base): ..."⟩

/-- The build of two parseable files, one of which imports its base, raises. -/
theorem build_raises_imported_base :
    ¬ ∃ result, (twoModules.buildRevision (.v5 "repository") "r1" twoFiles true {}).1 = .ok result ∧
      twoModules.ResolvesBases (.v5 "repository") "r1" twoFiles result.relations := by
  have refused : (twoModules.buildRevision (.v5 "repository") "r1" twoFiles true {}).1.isOk = false := by decide
  rintro ⟨result, returns, _⟩
  rw [returns] at refused
  cases refused

end CodeIntelligenceService

end Brain
