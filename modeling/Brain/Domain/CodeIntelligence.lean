import Brain.Domain.Entities
import Brain.Lib.Keyed
import Mathlib.Data.List.Dedup
import Mathlib.Data.List.Sort
import Mathlib.Data.String.Basic

namespace Brain

/-- `sorted(set(texts))`. -/
def sortedSet (texts : List String) : List String := texts.dedup.insertionSort (· ≤ ·)

@[simp] theorem mem_sortedSet {text : String} {texts : List String} : text ∈ sortedSet texts ↔ text ∈ texts := by
  simp [sortedSet]

inductive SymbolKind
  | module | «class» | function | method | import | variable | parameter
  deriving DecidableEq

def SymbolKind.value : SymbolKind → String
  | .module => "module"
  | .class => "class"
  | .function => "function"
  | .method => "method"
  | .import => "import"
  | .variable => "variable"
  | .parameter => "parameter"

structure SymbolIdentity where
  repositoryId : RepositoryId
  revision : String
  module : String
  qualifiedName : String
  kind : SymbolKind
  deriving DecidableEq

def SymbolIdentity.key (identity : SymbolIdentity) : String :=
  ":".intercalate [identity.repositoryId.text, identity.revision, identity.module, identity.qualifiedName,
    identity.kind.value]

theorem SymbolKind.value_no_colon (kind : SymbolKind) : kind.value.toList.count ':' = 0 := by
  cases kind <;> decide

theorem SymbolIdentity.toList_key (identity : SymbolIdentity) :
    identity.key.toList = identity.repositoryId.text.toList ++ ':' :: (identity.revision.toList ++ ':' ::
      (identity.module.toList ++ ':' :: (identity.qualifiedName.toList ++ ':' :: identity.kind.value.toList))) := by
  simp [key, String.intercalate_cons_cons]

structure Symbol where
  identity : SymbolIdentity
  path : String
  qualifiedName : String
  deriving DecidableEq

def Symbol.identityKey (symbol : Symbol) : String := symbol.identity.key

inductive CodeRelationType
  | imports | calls | instantiates | inherits | implements | overrides | reads | writes | tests
  deriving DecidableEq

structure CodeRelation where
  relationType : CodeRelationType
  sourceIdentity : SymbolIdentity
  targetIdentity : SymbolIdentity
  repositoryId : RepositoryId
  revision : String
  sourcePath : String
  targetPath : Option String := none
  deriving DecidableEq

/-- What a code graph repository stores, for all repositories and revisions. -/
structure CodeGraph where
  symbols : List Symbol := []
  relations : List CodeRelation := []

namespace CodeGraph

def listSymbols (graph : CodeGraph) (repositoryId : RepositoryId) (revision : String) : List Symbol :=
  graph.symbols.filter fun symbol =>
    symbol.identity.repositoryId = repositoryId ∧ symbol.identity.revision = revision

def listRelations (graph : CodeGraph) (repositoryId : RepositoryId) (revision : String) : List CodeRelation :=
  graph.relations.filter fun relation => relation.repositoryId = repositoryId ∧ relation.revision = revision

end CodeGraph

/-- `path.replace("\\", "/")`. -/
def forwardSlashes (path : String) : List Char := path.toList.map fun c => if c = '\\' then '/' else c

def isTestPath (path : String) : Bool :=
  let normalized := forwardSlashes path
  let parts := (normalized.splitOn '/').map fun part => lower (String.ofList part)
  let name := lastSegment '/' normalized
  parts.any (["test", "tests", "spec", "specs", "__tests__"].contains ·) ||
    "test_".toList.isPrefixOf name || "_test.py".toList.isSuffixOf name

example : isTestPath "app\\Tests\\login.py" = true := by decide

/-- A name as Python accepts it: it is not empty, and neither a dot nor a colon
is in it. -/
structure Identifier where
  text : String
  nonempty : text ≠ ""
  plain : ∀ c ∈ text.toList, c ≠ '.' ∧ c ≠ ':'
  deriving DecidableEq

theorem Identifier.plain_of_all {text : String} (all : (text.toList.all fun c => c ≠ '.' && c ≠ ':') = true) :
    ∀ c ∈ text.toList, c ≠ '.' ∧ c ≠ ':' := by
  simpa using all

/-- Identifiers joined by dots. -/
structure DottedName where
  first : Identifier
  rest : List Identifier := []
  deriving DecidableEq

def DottedName.text (name : DottedName) : String :=
  ".".intercalate (name.first.text :: name.rest.map Identifier.text)

theorem mem_intercalate {separator : String} {texts : List String} {c : Char}
    (member : c ∈ (separator.intercalate texts).toList) :
    c ∈ separator.toList ∨ ∃ text ∈ texts, c ∈ text.toList := by
  induction texts with
  | nil => simp at member
  | cons text texts ih =>
    cases texts with
    | nil => exact Or.inr ⟨text, List.mem_cons_self .., by simpa using member⟩
    | cons next texts =>
      rw [String.intercalate_cons_cons, String.toList_append, String.toList_append, List.mem_append,
        List.mem_append] at member
      rcases member with (here | between) | later
      · exact Or.inr ⟨text, List.mem_cons_self .., here⟩
      · exact Or.inl between
      · rcases ih later with between | ⟨other, listed, inside⟩
        · exact Or.inl between
        · exact Or.inr ⟨other, List.mem_cons_of_mem _ listed, inside⟩

theorem DottedName.no_colon (name : DottedName) : ':' ∉ name.text.toList := by
  intro colon
  rcases mem_intercalate colon with separator | ⟨text, listed, inside⟩
  · simp at separator
  · rcases List.mem_cons.mp listed with rfl | later
    · exact (name.first.plain ':' inside).2 rfl
    · obtain ⟨identifier, _, rfl⟩ := List.mem_map.mp later
      exact (identifier.plain ':' inside).2 rfl

/-! What `ast.parse` gives, as far as the parser of the repository looks into it.
Bases, parameters, decorators and annotations are texts, as `ast.unparse` writes
them. -/

namespace Ast

structure Span where
  lineno : Nat := 0
  colOffset : Nat := 0
  endLineno : Nat := 0
  endColOffset : Nat := 0
  deriving DecidableEq

inductive Expr
  | name (id : Identifier)
  | attribute (value : Expr) (attr : Identifier)
  | call (func : Expr)
  | other
  deriving DecidableEq

structure Assign where
  targets : List Expr
  value : Expr
  deriving DecidableEq

/-- An entry of `import a.b as c`. -/
structure Alias where
  name : DottedName
  asname : Option Identifier := none
  deriving DecidableEq

/-- An entry of `from m import b as c`. -/
inductive FromAlias
  | star
  | name (name : Identifier) (asname : Option Identifier)
  deriving DecidableEq

/-- A function, with what `ast.walk` yields: the callees of the calls in its body,
and the assignments in it. -/
structure FunctionDef where
  name : Identifier
  args : List String := []
  returns : Option String := none
  decoratorList : List String := []
  docstring : Option String := none
  calls : List Expr := []
  assigns : List Assign := []
  span : Span := {}
  deriving DecidableEq

/-- A class with the functions among the statements of its body. -/
structure ClassDef where
  name : Identifier
  bases : List String := []
  docstring : Option String := none
  functions : List FunctionDef := []
  span : Span := {}
  deriving DecidableEq

inductive Stmt
  | import (names : List Alias) (span : Span)
  | importFrom (module : Option DottedName) (names : List FromAlias) (level : Nat) (span : Span)
  | classDef (node : ClassDef)
  | functionDef (node : FunctionDef)
  | other
  deriving DecidableEq

structure Module where
  docstring : Option String := none
  body : List Stmt := []
  deriving DecidableEq

end Ast

structure SymbolLocation where
  path : String
  startLine : Nat := 0
  startColumn : Nat := 0
  endLine : Nat := 0
  endColumn : Nat := 0
  deriving DecidableEq

/-- A call as far as it is resolved across files, by the shape of its callee:
`name(...)`, `self.attr.method(...)`, `name(...).method(...)`, `name.method(...)`. -/
inductive CallSite
  | name (name : String)
  | selfMethod (attr method : String)
  | ctorMethod (name method : String)
  | attrMethod (name method : String)
  deriving DecidableEq

/-- `site.get("method") or site.get("name") or ""`. -/
def CallSite.text : CallSite → String
  | .name callee => callee
  | .selfMethod _ method => method
  | .ctorMethod owner method | .attrMethod owner method => strOr method owner

/-- The entries of the `metadata` of a symbol: which are there depends on its kind. -/
structure SymbolMetadata where
  importModule : Option String := none
  importName : Option String := none
  bases : Option (List String) := none
  instanceAttrs : Option (List (String × String)) := none
  referenced : Option (List String) := none
  callSites : Option (List CallSite) := none
  deriving DecidableEq

structure SymbolDetails where
  parameters : List String := []
  returnAnnotation : Option String := none
  decorators : List String := []
  docstring : Option String := none
  metadata : SymbolMetadata := {}
  deriving DecidableEq

/-- The id of a symbol tells it from the other symbols of the same build: it is
the `draw`-th that the file at `path` gives. -/
structure SymbolId where
  path : String
  draw : Nat
  deriving DecidableEq

/-- A symbol with all that the parser reads. -/
structure ParsedSymbol extends Symbol, SymbolDetails where
  id : SymbolId
  name : String
  kind : SymbolKind
  location : SymbolLocation
  deriving DecidableEq

/-- A relation before its id is drawn. The confidence is kept by its text. -/
structure ParsedRelation extends CodeRelation where
  confidence : String := "1.0"
  metadata : List (String × String) := []
  deriving DecidableEq

structure ImportStatement where
  module : String
  name : Option String := none
  asName : Option String := none
  isRelative : Bool := false
  level : Nat := 0
  location : SymbolLocation
  deriving DecidableEq

/-- What a name of a file was imported as: a name of a module of the repository. -/
structure LocalName where
  bound : String
  module : String
  name : String
  deriving DecidableEq

structure ParsedFile where
  path : String
  module : String
  language : String
  repositoryId : RepositoryId
  revision : String
  contentHash : String
  symbols : List ParsedSymbol := []
  imports : List ImportStatement := []
  relations : List ParsedRelation := []
  localNames : Option (Keyed LocalName.bound) := none

def moduleFromPath (path : String) : String :=
  let normalized := forwardSlashes path
  let stem :=
    if ".py".toList.isSuffixOf normalized then normalized.take (normalized.length - 3)
    else if (lastSegment '/' normalized).contains '.' then
      normalized.take (normalized.length - (lastSegment '.' normalized).length - 1)
    else normalized
  let parts := ((stem.splitOn '/').map String.ofList).filter fun part => part ≠ "" ∧ part ≠ "__init__"
  ".".intercalate parts

example : moduleFromPath "app/services/__init__.py" = "app.services" := by decide

end Brain

namespace Brain

/-- The id of a relation: the `draw`-th of the file at `path` in its build. -/
structure RelationId where
  build : Nat
  path : String
  draw : Nat
  deriving DecidableEq

structure StoredRelation extends ParsedRelation where
  id : RelationId
  deriving DecidableEq

def ParsedFile.drawIds (build : Nat) (parsed : ParsedFile) : List StoredRelation :=
  parsed.relations.mapIdx fun draw relation => { relation with id := ⟨build, parsed.path, draw⟩ }

abbrev RevisionKey := String × String

def revisionKey (repositoryId : RepositoryId) (revision : String) : RevisionKey := (repositoryId.text, revision)

def ParsedSymbol.graphKey (symbol : ParsedSymbol) : RevisionKey × String :=
  (revisionKey symbol.identity.repositoryId symbol.identity.revision, symbol.identityKey)

def StoredRelation.graphKey (relation : StoredRelation) : RevisionKey × RelationId :=
  (revisionKey relation.repositoryId relation.revision, relation.id)

def ParsedFile.graphKey (parsed : ParsedFile) : RevisionKey × String :=
  (revisionKey parsed.repositoryId parsed.revision, parsed.path)

/-- The in-memory code graph, with the number of builds made over it. -/
structure InMemoryCodeGraph where
  symbols : Keyed ParsedSymbol.graphKey := Keyed.empty
  relations : Keyed StoredRelation.graphKey := Keyed.empty
  files : Keyed ParsedFile.graphKey := Keyed.empty
  builds : Nat := 0

namespace InMemoryCodeGraph
variable (graph : InMemoryCodeGraph)

def saveSymbols (symbols : List ParsedSymbol) : InMemoryCodeGraph :=
  { graph with symbols := symbols.foldl Keyed.upsert graph.symbols }

def saveRelations (relations : List StoredRelation) : InMemoryCodeGraph :=
  { graph with relations := relations.foldl Keyed.upsert graph.relations }

def saveParsedFile (build : Nat) (parsed : ParsedFile) : InMemoryCodeGraph :=
  let graph := (graph.saveSymbols parsed.symbols).saveRelations (parsed.drawIds build)
  { graph with files := graph.files.upsert parsed }

def listSymbols (repositoryId : RepositoryId) (revision : String) : List ParsedSymbol :=
  graph.symbols.items.filter fun symbol => symbol.graphKey.1 = revisionKey repositoryId revision

def listRelations (repositoryId : RepositoryId) (revision : String) : List StoredRelation :=
  graph.relations.items.filter fun relation => relation.graphKey.1 = revisionKey repositoryId revision

def findSymbol (repositoryId : RepositoryId) (revision qualifiedName : String) : List ParsedSymbol :=
  (graph.listSymbols repositoryId revision).filter (·.qualifiedName = qualifiedName)

def expireRevision (repositoryId : RepositoryId) (revision : String) : InMemoryCodeGraph :=
  { graph with
    symbols := graph.symbols.filter fun symbol => symbol.graphKey.1 ≠ revisionKey repositoryId revision
    relations := graph.relations.filter fun relation => relation.graphKey.1 ≠ revisionKey repositoryId revision
    files := graph.files.filter fun parsed => parsed.graphKey.1 ≠ revisionKey repositoryId revision }

end InMemoryCodeGraph

end Brain
