import Brain.Domain.CodeIntelligence

namespace Brain

/-- Which file is parsed. -/
structure FileContext where
  repositoryId : RepositoryId
  revision : String
  path : String
  module : String

/-- What the builder of a file has gathered. -/
structure FileBuilder where
  symbols : List ParsedSymbol := []
  imports : List ImportStatement := []
  relations : List ParsedRelation := []
  byQualified : Keyed (fun symbol : ParsedSymbol => symbol.qualifiedName) := Keyed.empty
  pending : List (ParsedSymbol × List Ast.Expr) := []

def FileBuilder.addSymbol (symbol : ParsedSymbol) (b : FileBuilder) : FileBuilder :=
  { b with symbols := b.symbols ++ [symbol], byQualified := b.byQualified.upsert symbol }

def FileBuilder.addRelations (relations : List ParsedRelation) (b : FileBuilder) : FileBuilder :=
  { b with relations := b.relations ++ relations }

def FileBuilder.addImport (statement : ImportStatement) (b : FileBuilder) : FileBuilder :=
  { b with imports := b.imports ++ [statement] }

def FileBuilder.addPending (caller : ParsedSymbol × List Ast.Expr) (b : FileBuilder) : FileBuilder :=
  { b with pending := b.pending ++ [caller] }

def referencedNames (calls : List Ast.Expr) : List String :=
  calls.filterMap fun
    | .name id => some id.text
    | _ => none

def selfName (value : Ast.Expr) : Bool :=
  match value with
  | .name id => id.text = "self"
  | _ => false

/-- What `self.attr = value` assigns, for a name or a call of a name. -/
def assignedName : Ast.Expr → Option String
  | .name id => some id.text
  | .call (.name id) => some id.text
  | _ => none

def instanceAttrs (functions : List Ast.FunctionDef) : List (String × String) :=
  let assigned := (functions.flatMap (·.assigns)).flatMap fun assign =>
    assign.targets.filterMap fun
      | .attribute value attr => if selfName value then (assignedName assign.value).map (attr.text, ·) else none
      | _ => none
  assigned.foldl (fun attrs entry => putKeyed Prod.fst entry attrs) []

def callSite : Ast.Expr → Option CallSite
  | .name id => some (.name id.text)
  | .attribute (.attribute value attr) method => if selfName value then some (.selfMethod attr.text method.text) else none
  | .attribute (.call (.name id)) method => some (.ctorMethod id.text method.text)
  | .attribute (.name id) method => some (.attrMethod id.text method.text)
  | _ => none

def callSites (calls : List Ast.Expr) : List CallSite := calls.filterMap callSite

/-- The parts of a chain of attributes, without what it starts from unless that
is a name. -/
def attrParts : Ast.Expr → List String
  | .attribute value attr => attrParts value ++ [attr.text]
  | .name id => [id.text]
  | _ => []

def attrName (node : Ast.Expr) : String := ".".intercalate (attrParts node)

/-- Under which name of the module a callee is looked up. -/
def calleeName : Ast.Expr → Option String
  | .name id => some id.text
  | .attribute value attr => some (attrName (.attribute value attr))
  | _ => none

namespace FileContext
variable (file : FileContext)

def location (span : Ast.Span) : SymbolLocation :=
  { path := file.path, startLine := span.lineno, startColumn := span.colOffset
    endLine := span.endLineno, endColumn := span.endColOffset }

def identity (qualifiedName : String) (kind : SymbolKind) : SymbolIdentity :=
  { repositoryId := file.repositoryId, revision := file.revision, module := file.module, qualifiedName, kind }

/-- `f"{self._module}.{name}"`. -/
def qualified (name : String) : String := file.module ++ "." ++ name

def newSymbol (b : FileBuilder) (name qualifiedName : String) (kind : SymbolKind) (span : Ast.Span)
    (details : SymbolDetails) : ParsedSymbol :=
  { details with
    id := ⟨file.path, b.symbols.length⟩
    identity := file.identity qualifiedName kind
    name, path := file.path, kind, location := file.location span, qualifiedName }

def newRelation (relationType : CodeRelationType) (source target : ParsedSymbol)
    (metadata : List (String × String)) : ParsedRelation :=
  { relationType, sourceIdentity := source.identity, targetIdentity := target.identity
    repositoryId := file.repositoryId, revision := file.revision, sourcePath := file.path
    targetPath := some file.path, metadata }

/-- `alias or name or module.split(".")[-1]`. -/
def importedAs (module : String) (name asName : Option String) : String :=
  ((given asName).or (given name)).getD (String.ofList (lastSegment '.' module.toList))

def recordImport (module : String) (name asName : Option String) (isRelative : Bool) (level : Nat) (span : Ast.Span)
    (b : FileBuilder) : FileBuilder :=
  let statement : ImportStatement := { module, name, asName, isRelative, level, location := file.location span }
  let targetName := importedAs module name asName
  let symbol := file.newSymbol b targetName (file.qualified targetName) .import span
    { metadata := { importModule := some module, importName := some (name.getD "") } }
  let b := (b.addImport statement).addSymbol symbol
  match b.byQualified.get file.module with
  | some moduleSymbol => b.addRelations [file.newRelation .imports moduleSymbol symbol [("import_module", module)]]
  | none => b

def handleImport (names : List Ast.Alias) (span : Ast.Span) (b : FileBuilder) : FileBuilder :=
  names.foldl (fun b entry => file.recordImport entry.name.text none (entry.asname.map (·.text)) false 0 span b) b

def handleImportFrom (module : Option DottedName) (names : List Ast.FromAlias) (level : Nat) (span : Ast.Span)
    (b : FileBuilder) : FileBuilder :=
  names.foldl (fun b entry =>
    match entry with
    | .star => b
    | .name name asname =>
      file.recordImport ((module.map (·.text)).getD "") (some name.text) (asname.map (·.text)) (level > 0) level span b) b

def handleFunction (parent : ParsedSymbol) (kind : SymbolKind) (b : FileBuilder) (node : Ast.FunctionDef) :
    FileBuilder :=
  let qualifiedName :=
    if parent.kind = .class ∨ parent.kind = .method then parent.qualifiedName ++ "." ++ node.name.text
    else file.qualified node.name.text
  let symbol := file.newSymbol b node.name.text qualifiedName kind node.span
    { parameters := node.args, returnAnnotation := node.returns, decorators := node.decoratorList
      docstring := node.docstring
      metadata := { referenced := some (referencedNames node.calls), callSites := some (callSites node.calls) } }
  (b.addSymbol symbol).addPending (symbol, node.calls)

/-- A base is linked when a symbol of its name was added before. -/
def inherits (b : FileBuilder) (classSymbol : ParsedSymbol) (base : String) : Option ParsedRelation :=
  (b.byQualified.get (file.qualified base)).bind fun baseSymbol =>
    if baseSymbol.id ≠ classSymbol.id then some (file.newRelation .inherits classSymbol baseSymbol [("base", base)])
    else none

def handleClass (b : FileBuilder) (node : Ast.ClassDef) : FileBuilder :=
  let symbol := file.newSymbol b node.name.text (file.qualified node.name.text) .class node.span
    { docstring := node.docstring
      metadata := { bases := some node.bases, instanceAttrs := some (instanceAttrs node.functions) } }
  let b := b.addSymbol symbol
  let b := b.addRelations (node.bases.filterMap (file.inherits b symbol))
  node.functions.foldl (file.handleFunction symbol .method) b

def extractCalls (b : FileBuilder) (caller : ParsedSymbol) (calls : List Ast.Expr) : List ParsedRelation :=
  calls.filterMap fun func =>
    ((calleeName func).bind fun name => b.byQualified.get (file.qualified name)).map fun target =>
      file.newRelation .calls caller target []

def extractInstantiations (b : FileBuilder) (caller : ParsedSymbol) (calls : List Ast.Expr) : List ParsedRelation :=
  calls.filterMap fun
    | .name id =>
      (b.byQualified.get (file.qualified id.text)).bind fun target =>
        if target.kind = .class then some (file.newRelation .instantiates caller target []) else none
    | _ => none

def handleStatement (moduleSymbol : ParsedSymbol) (b : FileBuilder) : Ast.Stmt → FileBuilder
  | .import names span => file.handleImport names span b
  | .importFrom module names level span => file.handleImportFrom module names level span b
  | .classDef node => file.handleClass b node
  | .functionDef node => file.handleFunction moduleSymbol .function b node
  | .other => b

/-- The symbol of the module itself, the first of every file. -/
def moduleSymbol (tree : Ast.Module) : ParsedSymbol :=
  file.newSymbol {} (strOr (String.ofList (lastSegment '.' file.module.toList)) file.path) file.module .module {}
    { docstring := tree.docstring }

/-- The builder after the statements of a module. -/
def gather (tree : Ast.Module) : FileBuilder :=
  tree.body.foldl (file.handleStatement (file.moduleSymbol tree)) (FileBuilder.addSymbol (file.moduleSymbol tree) {})

/-- The calls are read when every symbol of the module is known. -/
def build (tree : Ast.Module) : FileBuilder :=
  let b := file.gather tree
  { b.addRelations (b.pending.flatMap fun caller =>
      file.extractCalls b caller.1 caller.2 ++ file.extractInstantiations b caller.1 caller.2) with pending := [] }

end FileContext

/-- The parser with what it takes from the standard library: `ast.parse`, `none`
where that raises `SyntaxError`, and the hash of a content. -/
structure PythonAstParser where
  astParse : String → Option Ast.Module
  contentHash : String → String

/-- The canonical form of a module. -/
def PythonAstParser.parsedFile (self : PythonAstParser) (repositoryId : RepositoryId) (revision path content : String)
    (tree : Ast.Module) : ParsedFile :=
  let file : FileContext := { repositoryId, revision, path, module := moduleFromPath path }
  let built := file.build tree
  { path, module := file.module, language := "python", repositoryId, revision
    contentHash := self.contentHash content, symbols := built.symbols, imports := built.imports
    relations := built.relations }

def PythonAstParser.parse (self : PythonAstParser) (repositoryId : RepositoryId) (revision path content : String) :
    Option ParsedFile :=
  (self.astParse content).map (self.parsedFile repositoryId revision path content)

end Brain
