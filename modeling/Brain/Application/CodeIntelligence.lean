import Brain.Adapters.Ports
import Brain.Application.PythonAstParser

namespace Brain

def isClassOrFunction (kind : SymbolKind) : Bool := kind = .class || kind = .function

def isFunctionOrMethod (kind : SymbolKind) : Bool := kind = .function || kind = .method

/-- `text.split(".")`. -/
def dotParts (text : String) : List String := (text.toList.splitOn '.').map String.ofList

/-- `base.split(".")[0]`. -/
def firstPart (base : String) : String := String.ofList (base.toList.takeWhile (· ≠ '.'))

/-- What `_module_symbol` is called with. -/
inductive ModuleArgument
  | parsed (file : ParsedFile)
  | text (module : String)

structure GraphResolver where
  repositoryId : RepositoryId
  revision : String
  files : List ParsedFile

def ParsedFile.moduleSymbol (parsed : ParsedFile) : Option ParsedSymbol :=
  parsed.symbols.find? (·.kind = .module)

namespace GraphResolver
variable (self : GraphResolver)

/-- `self._module_to_file.get(module)`: the last file of a module is kept. -/
def moduleToFile (module : String) : Option ParsedFile := (self.files.filter (·.module = module)).getLast?

/-- `module in self._module_to_path`. -/
def hasModule (module : String) : Bool := self.files.any (·.module = module)

/-- `_module_symbol`: what it is given has to have `symbols`. -/
def moduleSymbol : ModuleArgument → Except PyException (Option ParsedSymbol)
  | .parsed file => .ok file.moduleSymbol
  | .text _ => .error ⟨"AttributeError", "'str' object has no attribute 'symbols'"⟩

def moduleSymbolFromModule (module : String) : Option ParsedSymbol :=
  (self.moduleToFile module).bind ParsedFile.moduleSymbol

/-- A relative import climbs `level` packages from the current module. -/
def resolveModule (currentModule : String) (imp : ImportStatement) : Option String :=
  let known := fun candidate => if self.hasModule candidate then some candidate else none
  if imp.isRelative then
    let isPackage := (self.moduleToFile currentModule).any fun file =>
      lastSegment '/' file.path.toList = "__init__.py".toList
    let parts := dotParts currentModule
    let container := List.dropLast^[imp.level - 1] (if isPackage then parts else parts.dropLast)
    known (".".intercalate (container ++ if imp.module = "" then [] else dotParts imp.module))
  else known imp.module

/-- `_add_relation`: a missing end or two ends with one id make no relation. -/
def addRelation (parsed : ParsedFile) (relationType : CodeRelationType)
    (parsedSymbol sourceSymbol targetSymbol : Option ParsedSymbol) (confidence : String)
    (metadata : List (String × String)) : Option ParsedRelation :=
  match (sourceSymbol.or parsed.moduleSymbol).or parsedSymbol, targetSymbol.or parsedSymbol with
  | some source, some target =>
    if source.id = target.id then none
    else some
      { relationType, sourceIdentity := source.identity, targetIdentity := target.identity
        repositoryId := self.repositoryId, revision := self.revision, sourcePath := source.path
        targetPath := some target.path, confidence, metadata }
  | _, _ => none

/-- The module of the repository that an import names, with its symbol. -/
def importedModule (parsed : ParsedFile) (imp : ImportStatement) : Option (String × ParsedSymbol) :=
  (self.resolveModule parsed.module imp).bind fun targetModule =>
    (self.moduleSymbolFromModule targetModule).map (targetModule, ·)

/-- What an import binds for the calls and bases of its file. -/
def bindName (parsed : ParsedFile) (names : Keyed LocalName.bound) (imp : ImportStatement) : Keyed LocalName.bound :=
  match self.importedModule parsed imp, given imp.name with
  | some (targetModule, _), some name => names.upsert ⟨(given imp.asName).getD name, targetModule, name⟩
  | _, _ => names

def importRelation (parsed : ParsedFile) (imp : ImportStatement) : Option ParsedRelation :=
  (self.importedModule parsed imp).bind fun target =>
    self.addRelation parsed .imports (some target.2) none none "1.0" [("module", target.1)]

def resolveFileImports (parsed : ParsedFile) : ParsedFile :=
  { parsed with
    relations := parsed.relations ++ parsed.imports.filterMap (self.importRelation parsed)
    localNames := some (parsed.imports.foldl (self.bindName parsed) Keyed.empty) }

def byModuleSymbol (module name : String) : Option ParsedSymbol :=
  (self.moduleToFile module).bind fun file =>
    file.symbols.find? fun symbol => symbol.name = name && isClassOrFunction symbol.kind

/-- The named symbol is preferred over the symbol of its module. -/
def resolveImportedName (name : String) (localNames : Keyed LocalName.bound) : Option ParsedSymbol :=
  (localNames.get name).bind fun resolved =>
    (if resolved.name = "" then none else self.byModuleSymbol resolved.module resolved.name).or
      (self.moduleSymbolFromModule resolved.module)

def findMethod (classSymbol : ParsedSymbol) (method : String) : Option ParsedSymbol :=
  if classSymbol.kind = .class then
    (self.files.flatMap (·.symbols)).find? fun symbol =>
      symbol.qualifiedName = classSymbol.qualifiedName ++ "." ++ method && symbol.kind = .method
  else none

def enclosingClass (symbol : ParsedSymbol) : Option ParsedSymbol :=
  let parts := dotParts symbol.qualifiedName
  if parts.length < 3 then none
  else (self.moduleToFile symbol.identity.module).bind fun file =>
    file.symbols.find? fun s => s.kind = .class && s.name = (parts[parts.length - 2]?).getD ""

/-- For each class of a file what its instance attributes are assigned. -/
def classAttrs (parsed : ParsedFile) : List (String × List (String × String)) :=
  parsed.symbols.foldl (fun attrs symbol =>
    match symbol.kind, symbol.metadata.instanceAttrs with
    | .class, some assigned => putKeyed Prod.fst (symbol.qualifiedName, assigned) attrs
    | _, _ => attrs) []

def resolveCallSite (parsed : ParsedFile) (localNames : Keyed LocalName.bound) (caller : ParsedSymbol) :
    CallSite → Option ParsedSymbol
  | .name name => self.resolveImportedName name localNames
  | .attrMethod name _ => self.resolveImportedName name localNames
  | .ctorMethod name method =>
    (self.resolveImportedName name localNames).bind fun classSymbol => self.findMethod classSymbol method
  | .selfMethod attr method =>
    (self.enclosingClass caller).bind fun enclosing =>
      ((((classAttrs parsed).lookup enclosing.qualifiedName).getD []).lookup attr).bind fun className =>
        ((self.resolveImportedName className localNames).or (self.byModuleSymbol parsed.module className)).bind
          fun classSymbol => self.findMethod classSymbol method

/-- A call of a class by its name alone constructs an instance. -/
def callType (site : CallSite) (target : ParsedSymbol) : CodeRelationType :=
  match site, target.kind with
  | .name _, .class => .instantiates
  | _, _ => .calls

/-- The call sites of the functions and methods of a file. -/
def sites (parsed : ParsedFile) : List (ParsedSymbol × CallSite) :=
  (parsed.symbols.filter fun symbol => isFunctionOrMethod symbol.kind).flatMap fun symbol =>
    (symbol.metadata.callSites.getD []).map (symbol, ·)

def callRelation (parsed : ParsedFile) (localNames : Keyed LocalName.bound) (call : ParsedSymbol × CallSite) :
    Option ParsedRelation :=
  (self.resolveCallSite parsed localNames call.1 call.2).bind fun target =>
    self.addRelation parsed (callType call.2 target) none (some call.1) (some target) "0.8"
      [("call_site", call.2.text)]

def resolveCrossModuleCalls (parsed : ParsedFile) : ParsedFile :=
  match parsed.localNames with
  | some localNames =>
    { parsed with relations := parsed.relations ++ (sites parsed).filterMap (self.callRelation parsed localNames) }
  | none => parsed

def declaredBases (parsed : ParsedFile) : List (ParsedSymbol × String) :=
  (parsed.symbols.filter (·.kind = .class)).flatMap fun symbol => (symbol.metadata.bases.getD []).map (symbol, ·)

def inheritsRelation (parsed : ParsedFile) (localNames : Keyed LocalName.bound) (declared : ParsedSymbol × String) :
    Except PyException (Option ParsedRelation) :=
  match localNames.get (firstPart declared.2) with
  | none => .ok none
  | some resolved => do
    let target ← moduleSymbol (.text resolved.module)
    match target with
    | none => .ok none
    | some target => .ok (self.addRelation parsed .inherits none (some declared.1) (some target) "0.8" [])

def resolveInheritance (parsed : ParsedFile) : Except PyException ParsedFile :=
  match parsed.localNames with
  | some localNames => do
    let relations ← (declaredBases parsed).mapM (self.inheritsRelation parsed localNames)
    pure { parsed with relations := parsed.relations ++ relations.reduceOption }
  | none => .ok parsed

def testRelation (parsed : ParsedFile) (testModuleSymbol : ParsedSymbol) (targetModule : String) :
    Option ParsedRelation :=
  (self.moduleSymbolFromModule targetModule).bind fun target =>
    self.addRelation parsed .tests (some testModuleSymbol) none (some target) "0.9" []

/-- A test module tests the modules it imports names of, each once. -/
def resolveTestRelations (parsed : ParsedFile) : ParsedFile :=
  match isTestPath parsed.path, parsed.localNames, parsed.moduleSymbol with
  | true, some localNames, some testModuleSymbol =>
    { parsed with relations := parsed.relations ++
        (localNames.items.map (·.module)).eraseDups.filterMap (self.testRelation parsed testModuleSymbol) }
  | _, _, _ => parsed

def resolveFile (parsed : ParsedFile) : Except PyException ParsedFile :=
  (self.resolveInheritance (self.resolveCrossModuleCalls (self.resolveFileImports parsed))).map
    self.resolveTestRelations

def resolve : Except PyException (List ParsedFile) := self.files.mapM self.resolveFile

end GraphResolver

/-- A file of the repository by its path. -/
structure SourceFile where
  path : String
  content : String

structure CodeIndexResult where
  repositoryId : RepositoryId
  revision : String
  filesParsed : Nat
  symbols : List ParsedSymbol
  relations : List StoredRelation
  testFiles : List String

/-- The service over the Python parser and the in-memory code graph. -/
structure CodeIntelligenceService where
  parser : PythonAstParser

namespace CodeIntelligenceService
variable (self : CodeIntelligenceService)

/-- The Python files that parse, in the order of the map. -/
def parseFiles (repositoryId : RepositoryId) (revision : String) (files : Keyed SourceFile.path) : List ParsedFile :=
  files.items.filterMap fun file =>
    if ".py".toList.isSuffixOf file.path.toList then self.parser.parse repositoryId revision file.path file.content
    else none

def resolver (repositoryId : RepositoryId) (revision : String) (files : Keyed SourceFile.path) : GraphResolver :=
  { repositoryId, revision, files := self.parseFiles repositoryId revision files }

/-- What a build stores once every file is parsed and resolved. -/
def persist (parsedFiles : List ParsedFile) (graph : InMemoryCodeGraph) : InMemoryCodeGraph :=
  let build := graph.builds
  let graph := { graph with builds := build + 1 }
  let graph := graph.saveSymbols (parsedFiles.flatMap (·.symbols))
  let graph := graph.saveRelations (parsedFiles.flatMap (·.drawIds build))
  parsedFiles.foldl (fun graph parsed => graph.saveParsedFile build parsed) graph

def buildRevision (repositoryId : RepositoryId) (revision : String) (files : Keyed SourceFile.path) (replace : Bool)
    (graph : InMemoryCodeGraph) : Except PyException CodeIndexResult × InMemoryCodeGraph :=
  let graph := if replace then graph.expireRevision repositoryId revision else graph
  match (self.resolver repositoryId revision files).resolve with
  | .error exception => (.error exception, { graph with builds := graph.builds + 1 })
  | .ok parsedFiles =>
    (.ok
      { repositoryId, revision, filesParsed := parsedFiles.length
        symbols := parsedFiles.flatMap (·.symbols)
        relations := parsedFiles.flatMap (·.drawIds graph.builds)
        testFiles := (parsedFiles.map (·.path)).filter isTestPath },
      persist parsedFiles graph)

def whatCalls (graph : InMemoryCodeGraph) (repositoryId : RepositoryId) (revision qualifiedName : String) :
    List StoredRelation :=
  let targetKeys := (graph.findSymbol repositoryId revision qualifiedName).map (·.identityKey)
  (graph.listRelations repositoryId revision).filter fun relation =>
    targetKeys.contains relation.targetIdentity.key && relation.relationType = .calls

def whatIsCalledBy (graph : InMemoryCodeGraph) (repositoryId : RepositoryId) (revision qualifiedName : String) :
    List StoredRelation :=
  let sourceKeys := (graph.findSymbol repositoryId revision qualifiedName).map (·.identityKey)
  (graph.listRelations repositoryId revision).filter fun relation =>
    sourceKeys.contains relation.sourceIdentity.key && relation.relationType = .calls

end CodeIntelligenceService

end Brain
