import Brain.CodeGraph.Definitions
import Brain.CodeGraph.Integrity

namespace Brain
open LastWriter

/-- The name that a call site is resolved by, where it is the one before the brackets or the dot. -/
def Ast.Expr.calledName : Ast.Expr → Option String
  | .name id => some id.text
  | .attribute (.name id) _ => some id.text
  | _ => none

def CallSite.calledName : CallSite → Option String
  | .name callee => some callee
  | .attrMethod owner _ => some owner
  | _ => none

theorem calledName_callSite (func : Ast.Expr) : (callSite func).bind CallSite.calledName = func.calledName := by
  cases func with
  | name id => rfl
  | «attribute» value method =>
    cases value with
    | «attribute» inner attr =>
      show (if selfName inner then some (CallSite.selfMethod attr.text method.text) else none).bind _ = _
      split <;> rfl
    | call inner => cases inner <;> rfl
    | name id => rfl
    | other => rfl
  | call func => rfl
  | other => rfl

theorem exists_callSite {calls : List Ast.Expr} {name : String} :
    (∃ site ∈ callSites calls, site.calledName = some name) ↔ ∃ func ∈ calls, func.calledName = some name := by
  unfold callSites
  constructor
  · rintro ⟨site, listed, isName⟩
    obtain ⟨func, member, isSite⟩ := List.mem_filterMap.mp listed
    exact ⟨func, member, by rw [← calledName_callSite, isSite, Option.bind_some, isName]⟩
  · rintro ⟨func, member, isName⟩
    rw [← calledName_callSite] at isName
    obtain ⟨site, isSite, isName⟩ := Option.bind_eq_some_iff.mp isName
    exact ⟨site, List.mem_filterMap.mpr ⟨func, member, isSite⟩, isName⟩

/-- `from p import m` as an import from the module `p.m`. -/
def FromImport.submodule (entry : FromImport) : FromImport :=
  { entry with
    module := some (match entry.module with
      | some package => ⟨package.first, package.rest ++ [entry.name]⟩
      | none => ⟨entry.name, []⟩) }

/-! ### What the resolver makes of a call site -/

namespace GraphResolver
variable {self : GraphResolver} {parsed : ParsedFile}

theorem addRelation_type {relationType : CodeRelationType} {parsedSymbol sourceSymbol targetSymbol : Option ParsedSymbol}
    {confidence : String} {metadata : List (String × String)} {relation : ParsedRelation}
    (made : self.addRelation parsed relationType parsedSymbol sourceSymbol targetSymbol confidence metadata = some relation) :
    relation.relationType = relationType := by
  unfold addRelation at made
  split at made
  · split at made
    · cases made
    · cases made
      rfl
  · cases made

variable {symbol : ParsedSymbol}

theorem findMethod_kind {classSymbol : ParsedSymbol} {method : String}
    (found : self.findMethod classSymbol method = some symbol) : symbol.kind = .method := by
  unfold findMethod at found
  split at found
  · have passes := List.find?_some found
    simp only [Bool.and_eq_true, decide_eq_true_eq] at passes
    exact passes.2
  · cases found

theorem moduleSymbolFromModule_kind {module : String} (found : self.moduleSymbolFromModule module = some symbol)
    : symbol.kind = .module := by
  obtain ⟨file, _, isModule⟩ := Option.bind_eq_some_iff.mp found
  simpa using List.find?_some isModule

/-- A call site leads to a function only by the name it is resolved by, where
that name was imported from a module that has the function. -/
theorem resolveCallSite_function {localNames : Keyed LocalName.bound} {caller callee : ParsedSymbol} {site : CallSite}
    (isFunction : callee.kind = .function) :
    self.resolveCallSite parsed localNames caller site = some callee ↔
      ∃ name, site.calledName = some name ∧ ∃ entry, localNames.get name = some entry ∧ entry.name ≠ "" ∧
        self.byModuleSymbol entry.module entry.name = some callee := by
  have imported : ∀ name, self.resolveImportedName name localNames = some callee ↔
      ∃ entry, localNames.get name = some entry ∧ entry.name ≠ "" ∧
        self.byModuleSymbol entry.module entry.name = some callee := by
    intro name
    unfold resolveImportedName
    rw [Option.bind_eq_some_iff]
    refine exists_congr fun entry => and_congr_right fun _ => ?_
    rw [Option.or_eq_some_iff]
    constructor
    · rintro (named | ⟨_, isModule⟩)
      · split at named
        · cases named
        · exact ⟨‹_›, named⟩
      · rw [moduleSymbolFromModule_kind isModule] at isFunction
        cases isFunction
    · rintro ⟨named, found⟩
      exact Or.inl (by rw [if_neg named, found])
  have method : ∀ classSymbol name, self.findMethod classSymbol name ≠ some callee := by
    intro classSymbol name found
    rw [findMethod_kind found] at isFunction
    cases isFunction
  cases site with
  | name name => simp [resolveCallSite, CallSite.calledName, imported]
  | attrMethod name _ => simp [resolveCallSite, CallSite.calledName, imported]
  | ctorMethod name method' =>
    refine iff_of_false (fun found => ?_) (by simp [CallSite.calledName])
    obtain ⟨classSymbol, _, found⟩ := Option.bind_eq_some_iff.mp found
    exact method _ _ found
  | selfMethod attr method' =>
    refine iff_of_false (fun found => ?_) (by simp [CallSite.calledName])
    obtain ⟨enclosing, _, found⟩ := Option.bind_eq_some_iff.mp found
    obtain ⟨className, _, found⟩ := Option.bind_eq_some_iff.mp found
    obtain ⟨classSymbol, _, found⟩ := Option.bind_eq_some_iff.mp found
    exact method _ _ found

theorem callType_calls {site : CallSite} {callee : ParsedSymbol} (notClass : callee.kind ≠ .class) :
    callType site callee = .calls := by
  unfold callType
  split
  · exact absurd ‹_› notClass
  · rfl

theorem symbol_kind (reads : self.Reads) {file : ParsedFile} (inMap : file ∈ self.files)
    (inFile : symbol ∈ file.symbols) : symbol.identity.kind = symbol.kind := by
  rw [((reads file inMap).declares symbol inFile).identity]
  rfl

theorem call_added_iff (reads : self.Reads) {source target : SymbolIdentity} (notClass : target.kind ≠ .class) :
    (∃ relation ∈ self.added parsed, relation.relationType = .calls ∧ relation.sourceIdentity = source ∧
        relation.targetIdentity = target) ↔
      ∃ call ∈ sites parsed, call.1.identity = source ∧ ∃ callee, callee.identity = target ∧
        self.resolveCallSite parsed (self.names parsed) call.1 call.2 = some callee ∧ call.1.id ≠ callee.id := by
  constructor
  · rintro ⟨relation, member, isCall, isSource, isTarget⟩
    rcases List.mem_append.mp member with resolved | tests
    · rcases List.mem_append.mp resolved with imports | calls
      · obtain ⟨imp, _, made⟩ := List.mem_filterMap.mp imports
        obtain ⟨_, _, made⟩ := Option.bind_eq_some_iff.mp made
        rw [addRelation_type made] at isCall
        cases isCall
      · obtain ⟨call, isSite, made⟩ := List.mem_filterMap.mp calls
        obtain ⟨callee, resolved, made⟩ := Option.bind_eq_some_iff.mp made
        obtain ⟨caller, callee', isCaller, isCallee, different, joins⟩ := addRelation_eq_some made
        cases isCaller
        cases isCallee
        exact ⟨call, isSite, joins.sourceIdentity.symm.trans isSource, callee, joins.targetIdentity.symm.trans isTarget,
          resolved, different⟩
    · split at tests
      · obtain ⟨module, _, made⟩ := List.mem_filterMap.mp tests
        obtain ⟨_, _, made⟩ := Option.bind_eq_some_iff.mp made
        rw [addRelation_type made] at isCall
        cases isCall
      · cases tests
  · rintro ⟨call, isSite, rfl, callee, rfl, resolved, different⟩
    obtain ⟨file, inMap, inFile⟩ := resolveCallSite_some resolved
    have kind : callee.kind ≠ .class := by
      rw [← symbol_kind reads inMap inFile]
      exact notClass
    obtain ⟨relation, made⟩ := @exists_addRelation self parsed (callType call.2 callee) none (some call.1) (some callee)
      "0.8" [("call_site", call.2.text)] call.1 callee rfl rfl different
    obtain ⟨caller, callee', isCaller, isCallee, _, joins⟩ := addRelation_eq_some made
    cases isCaller
    cases isCallee
    refine ⟨relation, ?_, (addRelation_type made).trans (callType_calls kind), joins.sourceIdentity, joins.targetIdentity⟩
    refine List.mem_append_left _ (List.mem_append_right _ (List.mem_filterMap.mpr ⟨call, isSite, ?_⟩))
    rw [callRelation, resolved, Option.bind_some]
    exact made

end GraphResolver

/-! ### What the files hold -/

namespace CodeIntelligenceService
variable {self : CodeIntelligenceService} {repositoryId : RepositoryId} {revision : String} {files : Keyed SourceFile.path}

/-- The Python files of the map that parse. -/
def sources (service : CodeIntelligenceService) (files : Keyed SourceFile.path) : List (SourceFile × Ast.Module) :=
  files.items.filterMap fun file =>
    if ".py".toList.isSuffixOf file.path.toList then (service.parser.astParse file.content).map (file, ·) else none

def moduleSource (service : CodeIntelligenceService) (files : Keyed SourceFile.path) (module : String) :
    Option (SourceFile × Ast.Module) :=
  last (fun source : SourceFile × Ast.Module => moduleFromPath source.1.path) (service.sources files) module

def localImports (service : CodeIntelligenceService) (repositoryId : RepositoryId) (revision : String)
    (files : Keyed SourceFile.path) (path : String) (tree : Ast.Module) : List LocalName :=
  (tree.body.flatMap Ast.Stmt.fromImports).filterMap fun entry =>
    ((service.resolver repositoryId revision files).resolveModule (moduleFromPath path)
      (FileContext.statement ⟨repositoryId, revision, path, moduleFromPath path⟩ entry)).map fun target =>
        ⟨entry.bound.text, target, entry.name.text⟩

def parsedSource (service : CodeIntelligenceService) (repositoryId : RepositoryId) (revision : String)
    (source : SourceFile × Ast.Module) : ParsedFile :=
  service.parser.parsedFile repositoryId revision source.1.path source.1.content source.2

theorem parseFiles_eq : self.parseFiles repositoryId revision files =
    (self.sources files).map (self.parsedSource repositoryId revision) := by
  unfold parseFiles sources
  rw [List.map_filterMap]
  refine List.filterMap_congr fun file _ => ?_
  split
  · rw [Option.map_map]
    rfl
  · rfl

theorem mem_sources {source : SourceFile × Ast.Module} :
    source ∈ self.sources files ↔ source.1 ∈ files.items ∧ self.Holds files source.1.path source.2 := by
  unfold sources
  rw [List.mem_filterMap]
  constructor
  · rintro ⟨file, member, isSource⟩
    split at isSource
    · rename_i isPython
      obtain ⟨tree, parses, rfl⟩ := Option.map_eq_some_iff.mp isSource
      exact ⟨member, file, member, rfl, isPython, parses⟩
    · cases isSource
  · rintro ⟨member, file, member', samePath, isPython, parses⟩
    obtain rfl := files.key_injective member' member samePath
    exact ⟨source.1, member, by rw [if_pos isPython, parses]; rfl⟩

theorem holds_iff {path : String} {tree : Ast.Module} :
    self.Holds files path tree ↔ ∃ source ∈ self.sources files, source.1.path = path ∧ source.2 = tree := by
  constructor
  · rintro ⟨file, member, rfl, isPython, parses⟩
    exact ⟨(file, tree), mem_sources.mpr ⟨member, file, member, rfl, isPython, parses⟩, rfl, rfl⟩
  · rintro ⟨source, member, rfl, rfl⟩
    exact (mem_sources.mp member).2

theorem moduleToFile_eq (module : String) : (self.resolver repositoryId revision files).moduleToFile module =
    (self.moduleSource files module).map (self.parsedSource repositoryId revision) := by
  show ((self.parseFiles repositoryId revision files).filter fun parsed => parsed.module = module).getLast? = _
  rw [parseFiles_eq, List.filter_map, List.getLast?_map]
  rfl

end CodeIntelligenceService

namespace GraphResolver
variable {self : GraphResolver} {parsed : ParsedFile}

def binding (self : GraphResolver) (parsed : ParsedFile) (imp : ImportStatement) : Option LocalName :=
  (self.importedModule parsed imp).bind fun target =>
    (given imp.name).map fun name => ⟨(given imp.asName).getD name, target.1, name⟩

theorem names_get (name : String) :
    (self.names parsed).get name = last LocalName.bound (parsed.imports.filterMap (self.binding parsed)) name := by
  have folded : self.names parsed = (parsed.imports.filterMap (self.binding parsed)).foldl Keyed.upsert Keyed.empty := by
    rw [List.foldl_filterMap]
    refine List.foldl_ext _ _ _ fun names imp _ => ?_
    unfold bindName binding
    cases self.importedModule parsed imp with
    | none => rfl
    | some target => cases given imp.name <;> rfl
  rw [folded, Keyed.laws.get_foldl]
  exact Option.or_none

end GraphResolver

namespace CodeIntelligenceService
variable {self : CodeIntelligenceService} {repositoryId : RepositoryId} {revision : String} {files : Keyed SourceFile.path}

theorem localNames_get (source : SourceFile × Ast.Module) (name : String) :
    ((self.resolver repositoryId revision files).names (self.parsedSource repositoryId revision source)).get name =
      last LocalName.bound (self.localImports repositoryId revision files source.1.path source.2) name := by
  let resolver := self.resolver repositoryId revision files
  let parsed := self.parsedSource repositoryId revision source
  let file : FileContext := ⟨repositoryId, revision, source.1.path, moduleFromPath source.1.path⟩
  -- imports without a name bind none
  have unnamed : ∀ imp : ImportStatement, resolver.binding parsed imp =
      if imp.name.isSome then resolver.binding parsed imp else none := by
    intro imp
    split
    · rfl
    · rename_i absent
      rw [Option.not_isSome_iff_eq_none] at absent
      unfold GraphResolver.binding
      rw [absent]
      cases resolver.importedModule parsed imp <;> rfl
  have named : parsed.imports.filterMap (resolver.binding parsed) =
      ((source.2.body.flatMap Ast.Stmt.fromImports).map file.statement).filterMap (resolver.binding parsed) := by
    have listed := @FileContext.build_named file source.2
    rw [← List.map_flatMap] at listed
    rw [← listed, FileBuilder.named, List.filterMap_filter]
    exact List.filterMap_congr fun imp _ => unnamed imp
  have bound : ∀ entry : FromImport, resolver.binding parsed (file.statement entry) =
      (resolver.resolveModule file.module (file.statement entry)).map fun target =>
        (⟨entry.bound.text, target, entry.name.text⟩ : LocalName) := by
    intro entry
    unfold GraphResolver.binding
    cases resolved : resolver.resolveModule file.module (file.statement entry) with
    | none =>
      have unknown : resolver.importedModule parsed (file.statement entry) = none := by
        show (resolver.resolveModule file.module (file.statement entry)).bind _ = none
        rw [resolved]
        rfl
      rw [unknown]
      rfl
    | some target =>
      obtain ⟨symbol, imported⟩ := @GraphResolver.importedModule_of_resolved resolver parsed resolver_reads _ _ resolved
      have isName : given (file.statement entry).name = some entry.name.text := entry.name.given_text
      rw [imported, Option.bind_some, isName, Option.map_some, bound_statement]
      rfl
  rw [GraphResolver.names_get]
  show last LocalName.bound (parsed.imports.filterMap (resolver.binding parsed)) name = _
  rw [named, List.filterMap_map]
  refine congrArg (last LocalName.bound · name) (List.filterMap_congr fun entry _ => ?_)
  exact bound entry

/-! ### Symbols and definitions -/

def definitionIdentity (repositoryId : RepositoryId) (revision module : String) (d : Ast.Definition) : SymbolIdentity :=
  FileContext.identity ⟨repositoryId, revision, "", module⟩ d.qualifiedName d.kind

section Source
variable {source : SourceFile × Ast.Module}

theorem definition_of_symbol {i : Nat} {symbol : ParsedSymbol}
    (isSymbol : (self.parsedSource repositoryId revision source).symbols[i + 1]? = some symbol) :
    symbol.id = ⟨source.1.path, i + 1⟩ ∧ ∃ d, (source.2.definitions (moduleFromPath source.1.path))[i]? = some d ∧
      symbol.outline = d.outline ∧
        symbol.identity = definitionIdentity repositoryId revision (moduleFromPath source.1.path) d := by
  let file : FileContext := ⟨repositoryId, revision, source.1.path, moduleFromPath source.1.path⟩
  obtain ⟨isId, d, isDefinition, same⟩ := (@FileContext.gather_tells file source.2).definition_at isSymbol
  refine ⟨isId, d, isDefinition, same, ?_⟩
  have declares := (self.parser.parsedFile_read repositoryId revision source.1.path source.1.content source.2).declares
    symbol (List.mem_of_getElem? isSymbol)
  rw [declares.identity, show symbol.qualifiedName = d.qualifiedName from congrArg (fun outline => outline.2.1) same,
    show symbol.kind = d.kind from congrArg (fun outline => outline.2.2.1) same]
  rfl

theorem symbol_of_definition {i : Nat} {d : Ast.Definition}
    (isDefinition : (source.2.definitions (moduleFromPath source.1.path))[i]? = some d) :
    ∃ symbol, (self.parsedSource repositoryId revision source).symbols[i + 1]? = some symbol ∧ symbol.outline = d.outline :=
  (@FileContext.gather_tells ⟨repositoryId, revision, source.1.path, moduleFromPath source.1.path⟩ source.2).symbol_at
    (i := i + 1) isDefinition

theorem index_of_kind {i : Nat} {symbol : ParsedSymbol}
    (isSymbol : (self.parsedSource repositoryId revision source).symbols[i]? = some symbol)
    (other : symbol.kind ≠ .module) : ∃ j, i = j + 1 := by
  cases i with
  | zero =>
    let file : FileContext := ⟨repositoryId, revision, source.1.path, moduleFromPath source.1.path⟩
    obtain ⟨_, d, isDefinition, same⟩ := (@FileContext.gather_tells file source.2).definition_at isSymbol
    obtain rfl : file.moduleDefinition = d := Option.some.inj isDefinition
    exact absurd (congrArg (fun outline => outline.2.2.1) same) other
  | succ j => exact ⟨j, rfl⟩

theorem mem_sites {call : ParsedSymbol × CallSite} :
    call ∈ GraphResolver.sites (self.parsedSource repositoryId revision source) ↔
      ∃ i d, (source.2.definitions (moduleFromPath source.1.path))[i]? = some d ∧ isFunctionOrMethod d.kind = true ∧
        (self.parsedSource repositoryId revision source).symbols[i + 1]? = some call.1 ∧ call.2 ∈ callSites d.calls := by
  obtain ⟨symbol, site⟩ := call
  unfold GraphResolver.sites
  rw [List.mem_flatMap]
  have read : ∀ d : Ast.Definition, isFunctionOrMethod d.kind = true → symbol.outline = d.outline →
      symbol.metadata.callSites = some (callSites d.calls) := by
    intro d callable same
    have sites : symbol.metadata.callSites = if isFunctionOrMethod d.kind then some (callSites d.calls) else none :=
      congrArg (fun outline => outline.2.2.2) same
    rwa [if_pos callable] at sites
  constructor
  · rintro ⟨other, member, listed⟩
    obtain ⟨inFile, callable⟩ := List.mem_filter.mp member
    obtain ⟨_, isSite, same⟩ := List.mem_map.mp listed
    obtain ⟨rfl, rfl⟩ := Prod.mk.inj same
    obtain ⟨k, isSymbol⟩ := List.mem_iff_getElem?.mp inFile
    have notModule : other.kind ≠ .module := by
      intro isModule
      rw [isModule] at callable
      cases callable
    obtain ⟨i, rfl⟩ := index_of_kind isSymbol notModule
    obtain ⟨_, d, isDefinition, outline, _⟩ := definition_of_symbol isSymbol
    have kind : other.kind = d.kind := congrArg (fun outline => outline.2.2.1) outline
    rw [kind] at callable
    rw [read d callable outline, Option.getD_some] at isSite
    exact ⟨i, d, isDefinition, callable, isSymbol, isSite⟩
  · rintro ⟨i, d, isDefinition, callable, isSymbol, isSite⟩
    obtain ⟨_, d', isDefinition', outline, _⟩ := definition_of_symbol isSymbol
    obtain rfl : d = d' := Option.some.inj (isDefinition.symm.trans isDefinition')
    have kind : symbol.kind = d.kind := congrArg (fun outline => outline.2.2.1) outline
    refine ⟨symbol, List.mem_filter.mpr ⟨List.mem_of_getElem? isSymbol, by rw [kind]; exact callable⟩, ?_⟩
    rw [read d callable outline, Option.getD_some]
    exact List.mem_map_of_mem isSite

end Source

theorem symbols_find? {source : SourceFile × Ast.Module}
    {passes : String × String × SymbolKind × Option (List CallSite) → Bool}
    (skips : ∀ name qualifiedName sites, passes (name, qualifiedName, .module, sites) = false) :
    (self.parsedSource repositoryId revision source).symbols.find? (passes ∘ ParsedSymbol.outline) =
      ((source.2.definitions (moduleFromPath source.1.path)).findIdx? (passes ∘ Ast.Definition.outline)).bind fun j =>
        (self.parsedSource repositoryId revision source).symbols[j + 1]? := by
  let file : FileContext := ⟨repositoryId, revision, source.1.path, moduleFromPath source.1.path⟩
  have indices : (self.parsedSource repositoryId revision source).symbols.findIdx? (passes ∘ ParsedSymbol.outline) =
      (file.moduleDefinition :: source.2.definitions file.module).findIdx? (passes ∘ Ast.Definition.outline) := by
    have outlines : (self.parsedSource repositoryId revision source).symbols.map ParsedSymbol.outline = _ :=
      (@FileContext.gather_tells file source.2).symbols
    rw [← List.findIdx?_map, outlines, List.findIdx?_map]
  have skipped : (passes ∘ Ast.Definition.outline) file.moduleDefinition = false := skips ..
  rw [List.findIdx?_cons, skipped] at indices
  rw [List.find?_eq_bind_findIdx?_getElem?, indices]
  cases (source.2.definitions file.module).findIdx? (passes ∘ Ast.Definition.outline) <;> rfl

def isNamed (name : String) (d : Ast.Definition) : Bool := d.name = name && isClassOrFunction d.kind

theorem byModuleSymbol_iff {module name : String} {callee : ParsedSymbol} :
    (self.resolver repositoryId revision files).byModuleSymbol module name = some callee ↔
      ∃ source j, self.moduleSource files module = some source ∧
        (source.2.definitions (moduleFromPath source.1.path)).findIdx? (isNamed name) = some j ∧
        (self.parsedSource repositoryId revision source).symbols[j + 1]? = some callee := by
  unfold GraphResolver.byModuleSymbol
  rw [moduleToFile_eq, Option.bind_map, Option.bind_eq_some_iff]
  refine exists_congr fun source => ?_
  let passes : String × String × SymbolKind × Option (List CallSite) → Bool := fun outline =>
    outline.1 = name && isClassOrFunction outline.2.2.1
  have found : (self.parsedSource repositoryId revision source).symbols.find? (passes ∘ ParsedSymbol.outline) =
      ((source.2.definitions (moduleFromPath source.1.path)).findIdx? (isNamed name)).bind fun j =>
        (self.parsedSource repositoryId revision source).symbols[j + 1]? :=
    symbols_find? fun name qualifiedName sites => by simp [passes, isClassOrFunction]
  have searched : (self.parsedSource repositoryId revision source).symbols.find? (passes ∘ ParsedSymbol.outline) =
      some callee ↔ ∃ j, (source.2.definitions (moduleFromPath source.1.path)).findIdx? (isNamed name) = some j ∧
        (self.parsedSource repositoryId revision source).symbols[j + 1]? = some callee := by
    rw [found, Option.bind_eq_some_iff]
  constructor
  · rintro ⟨isSource, isFound⟩
    obtain ⟨j, isFirst, isCallee⟩ := searched.mp isFound
    exact ⟨j, isSource, isFirst, isCallee⟩
  · rintro ⟨j, isSource, isFirst, isCallee⟩
    exact ⟨isSource, searched.mpr ⟨j, isFirst, isCallee⟩⟩

/-! ### Where a call of a function comes from -/

/-- A function or method with the identity `caller` stands among the definitions
of the module at `path`. -/
structure Caller (service : CodeIntelligenceService) (repositoryId : RepositoryId) (revision : String)
    (files : Keyed SourceFile.path) (caller : SymbolIdentity) (path : String) (tree : Ast.Module) (index : Nat)
    (d : Ast.Definition) : Prop where
  holds : service.Holds files path tree
  defined : (tree.definitions (moduleFromPath path))[index]? = some d
  callable : isFunctionOrMethod d.kind = true
  identity : definitionIdentity repositoryId revision (moduleFromPath path) d = caller

/-- In the last file of the module the first class or function of this name is
a function. -/
structure Callee (service : CodeIntelligenceService) (files : Keyed SourceFile.path) (module : String) (g : Identifier)
    (source : SourceFile × Ast.Module) (index : Nat) : Prop where
  last : service.moduleSource files module = some source
  first : (source.2.definitions module).findIdx? (isNamed g.text) = some index
  function : ∃ d, (source.2.definitions module)[index]? = some d ∧ d.kind = .function

/-- The caller, in some file, calls `name(...)` or `name.method(...)` where the
last import of the name in the file takes `g` from the module. -/
def ImportedCall (service : CodeIntelligenceService) (repositoryId : RepositoryId) (revision : String)
    (files : Keyed SourceFile.path) (caller : SymbolIdentity) (module : String) (g : Identifier) : Prop :=
  ∃ path tree i d source j, service.Caller repositoryId revision files caller path tree i d ∧
    service.Callee files module g source j ∧ (path, i) ≠ (source.1.path, j) ∧
    ∃ func ∈ d.calls, ∃ name, func.calledName = some name ∧
      last LocalName.bound (service.localImports repositoryId revision files path tree) name =
        some ⟨name, module, g.text⟩

/-- The caller calls `g` by its plain name in a file of the module itself, where
the name last stands for a function. -/
def OwnCall (service : CodeIntelligenceService) (repositoryId : RepositoryId) (revision : String)
    (files : Keyed SourceFile.path) (caller : SymbolIdentity) (module : String) (g : Identifier) : Prop :=
  ∃ path tree i d, service.Caller repositoryId revision files caller path tree i d ∧ moduleFromPath path = module ∧
    (∃ func ∈ d.calls, calleeName func = some g.text) ∧
    ∃ d', last Ast.Definition.qualifiedName (tree.definitions module) (module ++ "." ++ g.text) = some d' ∧
      d'.kind = .function

def functionIdentity (repositoryId : RepositoryId) (revision module : String) (g : Identifier) : SymbolIdentity :=
  FileContext.identity ⟨repositoryId, revision, "", module⟩ (module ++ "." ++ g.text) .function

section Calls
variable {caller : SymbolIdentity} {module : String} {g : Identifier}

theorem qualified_inj {module name other : String} (same : module ++ "." ++ name = module ++ "." ++ other) : name = other := by
  have texts := congrArg String.toList same
  simpa [String.toList_inj] using texts

theorem moduleSource_some {source : SourceFile × Ast.Module} (isLast : self.moduleSource files module = some source) :
    source ∈ self.sources files ∧ moduleFromPath source.1.path = module :=
  last_eq_some isLast

theorem callee_iff {callee : ParsedSymbol} {entry : LocalName} :
    (callee.identity = functionIdentity repositoryId revision module g ∧
        (self.resolver repositoryId revision files).byModuleSymbol entry.module entry.name = some callee) ↔
      entry.module = module ∧ entry.name = g.text ∧ ∃ source j, self.Callee files module g source j ∧
        (self.parsedSource repositoryId revision source).symbols[j + 1]? = some callee := by
  rw [byModuleSymbol_iff]
  constructor
  · rintro ⟨isTarget, source, j, isLast, isFirst, isSymbol⟩
    obtain ⟨_, sameModule⟩ := moduleSource_some isLast
    obtain ⟨_, d, isDefinition, outline, isIdentity⟩ := definition_of_symbol isSymbol
    have identity := isIdentity.symm.trans isTarget
    have inModule : moduleFromPath source.1.path = module := congrArg SymbolIdentity.module identity
    have kind : d.kind = .function := congrArg SymbolIdentity.kind identity
    have named : d.qualifiedName = module ++ "." ++ g.text := congrArg SymbolIdentity.qualifiedName identity
    rw [inModule] at isDefinition isFirst
    have isName : entry.name = d.name := by
      have passes := List.findIdx?_eq_some_iff_getElem.mp isFirst
      obtain ⟨bound, passes, _⟩ := passes
      rw [List.getElem?_eq_getElem bound] at isDefinition
      rw [Option.some.inj isDefinition] at passes
      simp only [isNamed, Bool.and_eq_true, decide_eq_true_eq] at passes
      exact passes.1.symm
    have qualified := Ast.Module.qualifiedName_named (List.mem_of_getElem? isDefinition) (by rw [kind]; exact nofun)
    have same : entry.name = g.text := isName.trans (qualified_inj (qualified.symm.trans named))
    have isModule : entry.module = module := sameModule.symm.trans inModule
    refine ⟨isModule, same, source, j, ⟨isModule ▸ isLast, same ▸ isFirst, d, isDefinition, kind⟩, isSymbol⟩
  · rintro ⟨rfl, isName, source, j, ⟨isLast, isFirst, d, isDefinition, kind⟩, isSymbol⟩
    obtain ⟨_, sameModule⟩ := moduleSource_some isLast
    rw [← sameModule] at isFirst isDefinition
    obtain ⟨_, d', isDefinition', outline, isIdentity⟩ := definition_of_symbol isSymbol
    obtain rfl : d = d' := Option.some.inj (isDefinition.symm.trans isDefinition')
    refine ⟨?_, source, j, isLast, isName ▸ isFirst, isSymbol⟩
    obtain ⟨bound, passes, _⟩ := List.findIdx?_eq_some_iff_getElem.mp isFirst
    rw [List.getElem?_eq_getElem bound] at isDefinition
    rw [Option.some.inj isDefinition] at passes
    simp only [isNamed, Bool.and_eq_true, decide_eq_true_eq] at passes
    rw [isIdentity, definitionIdentity, kind,
      Ast.Module.qualifiedName_named (List.mem_of_getElem? isDefinition') (by rw [kind]; exact nofun), passes.1, sameModule]
    rfl

theorem added_iff_imported :
    (∃ parsed ∈ (self.resolver repositoryId revision files).files,
        ∃ relation ∈ (self.resolver repositoryId revision files).added parsed, relation.relationType = .calls ∧
          relation.sourceIdentity = caller ∧ relation.targetIdentity = functionIdentity repositoryId revision module g) ↔
      self.ImportedCall repositoryId revision files caller module g := by
  have reads : (self.resolver repositoryId revision files).Reads := resolver_reads
  have notClass : (functionIdentity repositoryId revision module g).kind ≠ .class := fun same => SymbolKind.noConfusion same
  have kindOf : ∀ {callee : ParsedSymbol}, callee.identity = functionIdentity repositoryId revision module g →
      (∃ file ∈ (self.resolver repositoryId revision files).files, callee ∈ file.symbols) → callee.kind = .function := by
    rintro callee isTarget ⟨file, inMap, inFile⟩
    rw [← GraphResolver.symbol_kind reads inMap inFile, isTarget]
    rfl
  constructor
  · rintro ⟨parsed, member, isAdded⟩
    rw [show (self.resolver repositoryId revision files).files = _ from parseFiles_eq] at member
    obtain ⟨source, isSource, rfl⟩ := List.mem_map.mp member
    obtain ⟨call, isSite, isCaller, callee, isTarget, resolved, different⟩ := (GraphResolver.call_added_iff reads notClass).mp isAdded
    obtain ⟨i, d, isDefinition, callable, isSymbol, inCalls⟩ := mem_sites.mp isSite
    have kind := kindOf isTarget (GraphResolver.resolveCallSite_some resolved)
    obtain ⟨name, isName, entry, bound, _, found⟩ := (GraphResolver.resolveCallSite_function kind).mp resolved
    rw [localNames_get] at bound
    obtain ⟨isModule, isFunction, target, j, isCallee, atTarget⟩ := callee_iff.mp ⟨isTarget, found⟩
    obtain ⟨func, isCall, isCalled⟩ := exists_callSite.mp ⟨call.2, inCalls, isName⟩
    obtain ⟨isId, d', isDefinition', _, isIdentity⟩ := definition_of_symbol isSymbol
    obtain rfl : d = d' := Option.some.inj (isDefinition.symm.trans isDefinition')
    obtain ⟨isId', _⟩ := definition_of_symbol atTarget
    refine ⟨source.1.path, source.2, i, d, target, j, ⟨(mem_sources.mp isSource).2, isDefinition, callable,
      isIdentity.symm.trans isCaller⟩, isCallee, fun same => different ?_, func, isCall, name, isCalled, ?_⟩
    · obtain ⟨samePath, sameIndex⟩ := Prod.mk.inj same
      rw [isId, isId', samePath, sameIndex]
    · have isEntry : entry = ⟨name, module, g.text⟩ := by
        rw [← (last_eq_some bound).2, ← isModule, ← isFunction]
      rw [bound, isEntry]
  · rintro ⟨path, tree, i, d, target, j, ⟨isHeld, isDefinition, callable, isCaller⟩, isCallee, different, func, isCall, name,
      isCalled, bound⟩
    obtain ⟨source, isSource, rfl, rfl⟩ := holds_iff.mp isHeld
    obtain ⟨symbol, isSymbol, _⟩ := @symbol_of_definition self repositoryId revision source i d isDefinition
    obtain ⟨isId, d', isDefinition', _, isIdentity⟩ := definition_of_symbol isSymbol
    obtain rfl : d = d' := Option.some.inj (isDefinition.symm.trans isDefinition')
    obtain ⟨site, inCalls, isName⟩ := exists_callSite.mpr ⟨func, isCall, isCalled⟩
    -- the symbol of the function
    obtain ⟨d', atIndex, _⟩ := isCallee.function
    rw [← (moduleSource_some isCallee.last).2] at atIndex
    obtain ⟨callee, atTarget, _⟩ := @symbol_of_definition self repositoryId revision target j d' atIndex
    obtain ⟨isId', _⟩ := definition_of_symbol atTarget
    obtain ⟨isTarget, found⟩ := (@callee_iff self repositoryId revision files module g callee ⟨name, module, g.text⟩).mpr
      ⟨rfl, rfl, target, j, isCallee, atTarget⟩
    have kind := kindOf isTarget (GraphResolver.byModuleSymbol_some found)
    refine ⟨self.parsedSource repositoryId revision source, ?_, (GraphResolver.call_added_iff reads notClass).mpr
      ⟨(symbol, site), mem_sites.mpr ⟨i, d, isDefinition, callable, isSymbol, inCalls⟩, isIdentity.trans isCaller, callee,
        isTarget, ?_, fun same => different ?_⟩⟩
    · rw [show (self.resolver repositoryId revision files).files = _ from parseFiles_eq]
      exact List.mem_map_of_mem isSource
    · refine (GraphResolver.resolveCallSite_function kind).mpr ⟨name, isName, ⟨name, module, g.text⟩, ?_, g.nonempty, found⟩
      rw [localNames_get]
      exact bound
    · rw [isId, isId'] at same
      obtain ⟨samePath, sameDraw⟩ := SymbolId.mk.inj same
      rw [samePath, Nat.succ_injective sameDraw]

theorem read_iff {target : SymbolIdentity} :
    (∃ parsed ∈ (self.resolver repositoryId revision files).files, ∃ relation ∈ parsed.relations,
        relation.relationType = .calls ∧ relation.sourceIdentity = caller ∧ relation.targetIdentity = target) ↔
      ∃ path tree i d, self.Caller repositoryId revision files caller path tree i d ∧ ∃ func ∈ d.calls, ∃ name d',
        calleeName func = some name ∧
        last Ast.Definition.qualifiedName (tree.definitions (moduleFromPath path)) (moduleFromPath path ++ "." ++ name) =
          some d' ∧ definitionIdentity repositoryId revision (moduleFromPath path) d' = target := by
  -- a file lists a call for each callee that it knows
  have ends : ∀ source : SourceFile × Ast.Module,
      (∃ relation ∈ (self.parsedSource repositoryId revision source).relations, relation.relationType = .calls ∧
          relation.sourceIdentity = caller ∧ relation.targetIdentity = target) ↔
        (caller, target) ∈ ((source.2.definitions (moduleFromPath source.1.path)).filter fun d =>
          isFunctionOrMethod d.kind).flatMap fun d =>
            d.calls.filterMap (FileContext.callEnds ⟨repositoryId, revision, source.1.path, moduleFromPath source.1.path⟩ source.2 d) := by
    intro source
    rw [← FileContext.build_calls, List.mem_map]
    refine exists_congr fun relation => ?_
    rw [List.mem_filter, decide_eq_true_eq, Prod.mk.injEq, and_assoc]
    rfl
  rw [show (self.resolver repositoryId revision files).files = _ from parseFiles_eq]
  constructor
  · rintro ⟨parsed, member, listed⟩
    obtain ⟨source, isSource, rfl⟩ := List.mem_map.mp member
    obtain ⟨d, inFilter, given⟩ := List.mem_flatMap.mp ((ends source).mp listed)
    obtain ⟨isDefinition, callable⟩ := List.mem_filter.mp inFilter
    obtain ⟨i, atIndex⟩ := List.mem_iff_getElem?.mp isDefinition
    obtain ⟨func, isCall, made⟩ := List.mem_filterMap.mp given
    obtain ⟨name, isName, made⟩ := Option.bind_eq_some_iff.mp made
    obtain ⟨d', isLast, same⟩ := Option.map_eq_some_iff.mp made
    obtain ⟨isCaller, isTarget⟩ := Prod.mk.inj same
    exact ⟨source.1.path, source.2, i, d, ⟨(mem_sources.mp isSource).2, atIndex, callable, isCaller⟩, func, isCall, name, d',
      isName, isLast, isTarget⟩
  · rintro ⟨path, tree, i, d, ⟨isHeld, atIndex, callable, isCaller⟩, func, isCall, name, d', isName, isLast, isTarget⟩
    obtain ⟨source, isSource, rfl, rfl⟩ := holds_iff.mp isHeld
    refine ⟨_, List.mem_map_of_mem isSource, (ends source).mpr (List.mem_flatMap.mpr ⟨d,
      List.mem_filter.mpr ⟨List.mem_of_getElem? atIndex, callable⟩, List.mem_filterMap.mpr ⟨func, isCall, ?_⟩⟩)⟩
    rw [FileContext.callEnds, isName, Option.bind_some]
    exact Option.map_eq_some_iff.mpr ⟨d', isLast, Prod.ext isCaller isTarget⟩

theorem read_iff_own :
    (∃ parsed ∈ (self.resolver repositoryId revision files).files, ∃ relation ∈ parsed.relations,
        relation.relationType = .calls ∧ relation.sourceIdentity = caller ∧
          relation.targetIdentity = functionIdentity repositoryId revision module g) ↔
      self.OwnCall repositoryId revision files caller module g := by
  rw [read_iff]
  constructor
  · rintro ⟨path, tree, i, d, isCaller, func, isCall, name, d', isName, isLast, isTarget⟩
    have inModule : moduleFromPath path = module := congrArg SymbolIdentity.module isTarget
    have kind : d'.kind = .function := congrArg SymbolIdentity.kind isTarget
    have plain : name = g.text := by
      have qualified := (last_eq_some isLast).2.symm.trans (congrArg SymbolIdentity.qualifiedName isTarget)
      rw [inModule] at qualified
      exact qualified_inj qualified
    subst inModule plain
    exact ⟨path, tree, i, d, isCaller, rfl, ⟨func, isCall, isName⟩, d', isLast, kind⟩
  · rintro ⟨path, tree, i, d, isCaller, rfl, ⟨func, isCall, isName⟩, d', isLast, kind⟩
    refine ⟨path, tree, i, d, isCaller, func, isCall, g.text, d', isName, isLast, ?_⟩
    rw [definitionIdentity, (last_eq_some isLast).2, kind]
    rfl

end Calls

/-! ### Calls of the functions of an imported module -/

theorem listed_call_iff {graph : InMemoryCodeGraph} {source target : SymbolIdentity} :
    (∃ relation ∈ (self.buildRevision repositoryId revision files true graph).2.listRelations repositoryId revision,
        relation.relationType = .calls ∧ relation.sourceIdentity = source ∧ relation.targetIdentity = target) ↔
      ¬ self.Fails ⟨repositoryId, revision, files, true⟩ ∧
        ((∃ parsed ∈ (self.resolver repositoryId revision files).files,
            ∃ relation ∈ (self.resolver repositoryId revision files).added parsed,
            relation.relationType = .calls ∧ relation.sourceIdentity = source ∧ relation.targetIdentity = target) ∨
          ∃ parsed ∈ (self.resolver repositoryId revision files).files, ∃ relation ∈ parsed.relations,
            relation.relationType = .calls ∧ relation.sourceIdentity = source ∧ relation.targetIdentity = target) := by
  let call : BuildCall := ⟨repositoryId, revision, files, true⟩
  have nothing : (startOf call graph).facts call.key = {} := by
    rw [startOf_replace rfl, InMemoryCodeGraph.expireRevision_facts]
    exact if_pos rfl
  by_cases fails : self.Fails call
  · refine iff_of_false ?_ fun resolved => resolved.1 fails
    obtain ⟨exception, raises⟩ := build_of_fails fails graph
    have empty : (self.buildRevision repositoryId revision files true graph).2.listRelations repositoryId revision = [] := by
      rw [show self.buildRevision repositoryId revision files true graph = _ from raises]
      exact congrArg RevisionFacts.relations nothing
    rw [empty]
    rintro ⟨relation, member, _⟩
    cases member
  · have relations : (self.buildRevision repositoryId revision files true graph).2.listRelations repositoryId revision =
        ((self.resolverOf call).files.map (self.resolverOf call).resolved).flatMap
          (·.drawIds (startOf call graph).builds) := by
      rw [show (self.buildRevision repositoryId revision files true graph).2 = _ from (build_of_not_fails fails graph).2]
      exact persist_facts_relations all_within resolved_paths nothing
    rw [relations, and_iff_right fails]
    constructor
    · rintro ⟨relation, member, isCall, isSource, isTarget⟩
      obtain ⟨parsed, inMap, read | added⟩ := GraphResolver.mem_drawn member
      · exact Or.inr ⟨parsed, inMap, relation.toParsedRelation, read, isCall, isSource, isTarget⟩
      · exact Or.inl ⟨parsed, inMap, relation.toParsedRelation, added, isCall, isSource, isTarget⟩
    · rintro (⟨parsed, inMap, made, added, holds⟩ | ⟨parsed, inMap, read, isRead, holds⟩)
      · obtain ⟨relation, member, rfl, _⟩ := GraphResolver.drawn_of_added (startOf call graph).builds inMap added
        exact ⟨relation, member, holds⟩
      · obtain ⟨relation, member, rfl⟩ := GraphResolver.drawn_of_read (startOf call graph).builds inMap isRead
        exact ⟨relation, member, holds⟩

/-- A module binds `x` to a module of the files: `import m`, `import m as x` or
`from p import m as x`, where `p` may be relative. -/
inductive BindsModule (service : CodeIntelligenceService) (repositoryId : RepositoryId) (revision : String)
    (files : Keyed SourceFile.path) (path : String) (tree : Ast.Module) (x : Identifier) : String → Prop
  | plain {names span} (listed : .import names span ∈ tree.body) (named : ⟨⟨x, []⟩, none⟩ ∈ names) :
      BindsModule service repositoryId revision files path tree x x.text
  | renamed {names span name} (listed : .import names span ∈ tree.body) (named : ⟨name, some x⟩ ∈ names) :
      BindsModule service repositoryId revision files path tree x name.text
  | member {stmt entry module} (listed : stmt ∈ tree.body) (named : entry ∈ Ast.Stmt.fromImports stmt)
      (bound : entry.bound = x)
      (resolved : (service.resolver repositoryId revision files).resolveModule (moduleFromPath path)
        (FileContext.statement ⟨repositoryId, revision, path, moduleFromPath path⟩ entry.submodule) = some module) :
      BindsModule service repositoryId revision files path tree x module

/-- A function or method of the module at `path` calls `x.g(...)`, where the
module binds `x` to a module of the files that defines a function `g`. -/
structure ModuleCall (service : CodeIntelligenceService) (repositoryId : RepositoryId) (revision : String)
    (files : Keyed SourceFile.path) (path : String) (tree : Ast.Module) (d : Ast.Definition) (x g : Identifier)
    (module : String) : Prop where
  holds : service.Holds files path tree
  defines : d ∈ tree.definitions (moduleFromPath path)
  callable : isFunctionOrMethod d.kind = true
  calls : .attribute (.name x) g ∈ d.calls
  binds : service.BindsModule repositoryId revision files path tree x module
  function : ∃ path' tree', service.Holds files path' tree' ∧ moduleFromPath path' = module ∧
    ∃ node, .functionDef node ∈ tree'.body ∧ node.name = g

def LinksModuleCalls (service : CodeIntelligenceService) (repositoryId : RepositoryId) (revision : String)
    (files : Keyed SourceFile.path) (graph : InMemoryCodeGraph) : Prop :=
  ∀ path tree d x g module, service.ModuleCall repositoryId revision files path tree d x g module →
    ∃ relation ∈ (service.buildRevision repositoryId revision files true graph).2.listRelations repositoryId revision,
      relation.relationType = .calls ∧
        relation.sourceIdentity = definitionIdentity repositoryId revision (moduleFromPath path) d ∧
        relation.targetIdentity = functionIdentity repositoryId revision module g

/-- The calls of functions of imported modules are linked exactly when the build
returns and the caller calls each of these functions in another way too: by a
name that is imported from its module, or plainly within that module. -/
theorem module_calls_iff (self : CodeIntelligenceService) (repositoryId : RepositoryId) (revision : String)
    (files : Keyed SourceFile.path) (graph : InMemoryCodeGraph) :
    self.LinksModuleCalls repositoryId revision files graph ↔
      ∀ path tree d x g module, self.ModuleCall repositoryId revision files path tree d x g module →
        ¬ self.Fails ⟨repositoryId, revision, files, true⟩ ∧
          let caller := definitionIdentity repositoryId revision (moduleFromPath path) d
          (self.ImportedCall repositoryId revision files caller module g ∨
            self.OwnCall repositoryId revision files caller module g) := by
  unfold LinksModuleCalls
  simp only [listed_call_iff, added_iff_imported, read_iff_own]

/-! A module that imports another one and calls its function -/

def utilName : Identifier := ⟨"util", by decide, Identifier.plain_of_all rfl⟩

def runName : Identifier := ⟨"run", by decide, Identifier.plain_of_all rfl⟩

def mainName : Identifier := ⟨"main", by decide, Identifier.plain_of_all rfl⟩

def utilModule : Ast.Module := { body := [.functionDef { name := runName }] }

def mainModule : Ast.Module where
  body := [.import [⟨⟨utilName, []⟩, none⟩] {},
    .functionDef { name := mainName, calls := [.attribute (.name utilName) runName] }]

def utilService : CodeIntelligenceService where
  parser :=
    { contentHash := id
      astParse := fun content =>
        if content = "def run(): ..." then some utilModule
        else if content = "import util; def main(): util.run()" then some mainModule
        else none }

def utilFiles : Keyed SourceFile.path :=
  (Keyed.empty.upsert ⟨"util.py", "def run(): ..."⟩).upsert ⟨"main.py", "import util; def main(): util.run()"⟩

/-- The build returns, and nothing calls the function. -/
theorem imported_module_unlinked :
    (utilService.buildRevision (.v5 "repository") "r1" utilFiles true {}).1.isOk = true ∧
      ¬ utilService.LinksModuleCalls (.v5 "repository") "r1" utilFiles {} := by
  refine ⟨by decide, fun links => ?_⟩
  have items : utilFiles.items =
      [⟨"util.py", "def run(): ..."⟩, ⟨"main.py", "import util; def main(): util.run()"⟩] := rfl
  have call : utilService.ModuleCall (.v5 "repository") "r1" utilFiles "main.py" mainModule
      ⟨"main", "main.main", .function, [.attribute (.name utilName) runName]⟩ utilName runName "util" := by
    refine ⟨⟨⟨"main.py", "import util; def main(): util.run()"⟩, by simp [items], rfl, by decide, rfl⟩, by decide, rfl,
      by simp,
      ?_, ?_⟩
    · exact .plain (List.mem_cons_self ..) (List.mem_singleton_self _)
    · refine ⟨"util.py", utilModule, ⟨⟨"util.py", "def run(): ..."⟩, by simp [items], rfl, by decide, rfl⟩, by decide, ?_⟩
      exact ⟨_, List.mem_singleton_self _, rfl⟩
  obtain ⟨relation, member, isCall, _⟩ := links _ _ _ _ _ _ call
  have uncalled : ∀ relation ∈ (utilService.buildRevision (.v5 "repository") "r1" utilFiles true {}).2.listRelations
      (.v5 "repository") "r1", relation.relationType ≠ .calls := by
    decide
  exact uncalled relation member isCall

end CodeIntelligenceService

end Brain
