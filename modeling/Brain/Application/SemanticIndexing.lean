import Brain.Domain.CodeIntelligence
import Brain.Adapters.InMemory
import Mathlib.Data.List.MinMax

namespace Brain

/-- What a record is about: its `entity_type` and its `entity_id`. -/
inductive SemanticEntity
  | documentNode (id : Uuid)
  | requirement (id : RequirementId)
  | decision (id : Uuid)
  | symbol (id : SymbolId)
  deriving DecidableEq

def SemanticEntity.type : SemanticEntity → String
  | .documentNode _ => "DocumentNode"
  | .requirement _ => "Requirement"
  | .decision _ => "Decision"
  | .symbol _ => "Symbol"

/-- A record before its id is drawn. -/
structure SemanticFacts where
  entity : SemanticEntity
  text : String
  projectId : Option ProjectId := none
  repositoryId : Option RepositoryId := none
  revision : Option String := none
  source : Option String := none
  metadata : RawDict := []

structure SemanticRecord extends SemanticFacts where
  recordId : Uuid

/-- The filters of a search; one that is not given lets every record pass. -/
structure SemanticFilters where
  projectId : Option ProjectId := none
  repositoryId : Option RepositoryId := none
  revision : Option String := none
  entityType : Option String := none

def SemanticRecord.matchesFilters (record : SemanticRecord) (filters : SemanticFilters) : Bool :=
  (filters.projectId = none || record.projectId = filters.projectId) &&
    (filters.repositoryId = none || record.repositoryId = filters.repositoryId) &&
    (filters.revision = none || record.revision = filters.revision) &&
    (filters.entityType = none || some record.entity.type = filters.entityType)

structure InMemorySemanticIndex where
  records : Keyed SemanticRecord.recordId := Keyed.empty

namespace InMemorySemanticIndex

def index (records : List SemanticRecord) (self : InMemorySemanticIndex) : InMemorySemanticIndex :=
  { self with records := records.foldl Keyed.upsert self.records }

/-- The records that a search scores. -/
def corpus (self : InMemorySemanticIndex) (filters : SemanticFilters) : List SemanticRecord :=
  self.records.items.filter (·.matchesFilters filters)

end InMemorySemanticIndex

/-- `" ".join(part for part in parts if part)`. -/
def joinParts (parts : List String) : String := " ".intercalate (parts.filter (· ≠ ""))

def requirementText (requirement : Requirement) : String :=
  joinParts ((given requirement.key).toList ++ [requirement.title, requirement.description])

def decisionText (decision : Decision) : String :=
  joinParts ([decision.title, decision.context, decision.decision] ++
    (if decision.alternatives = [] then [] else ["Alternatives: " ++ "; ".intercalate decision.alternatives]) ++
    (if decision.consequences = [] then [] else ["Consequences: " ++ "; ".intercalate decision.consequences]))

def symbolSummary (symbol : ParsedSymbol) : String :=
  let signature := symbol.qualifiedName ++
    (if symbol.parameters = [] then "" else "(" ++ ", ".intercalate symbol.parameters ++ ")") ++
    ((given symbol.returnAnnotation).map (" -> " ++ ·)).getD ""
  joinParts ([signature] ++ (given symbol.docstring).toList ++
    (if symbol.decorators = [] then [] else ["Decorators: " ++ ", ".intercalate symbol.decorators]))

/-- The repositories that the service reads and the index that it writes. -/
structure SemanticStores where
  world : World := {}
  requirements : Keyed Requirement.id := Keyed.empty
  codeGraph : InMemoryCodeGraph := {}
  semanticIndex : InMemorySemanticIndex := {}

/-- The arguments of `index_project`. -/
structure IndexRequest where
  projectId : ProjectId
  repositoryId : Option RepositoryId := none
  revision : Option String := none

structure IndexingResult where
  projectId : ProjectId
  records : List SemanticRecord := []
  deleted : Nat := 0

namespace World

def listDocumentsByProject (w : World) (projectId : ProjectId) : List Document :=
  w.documents.items.filter (·.projectId = projectId)

def listVersions (w : World) (documentId : DocumentId) : List DocumentVersion :=
  w.documentVersions.items.filter (·.documentId = documentId)

def listDecisionsByProject (w : World) (projectId : ProjectId) : List Decision :=
  w.decisions.items.filter (·.projectId = projectId)

/-- `max(versions, key=lambda v: v.ingested_at)`: of several the first. -/
def latestVersion (w : World) (document : Document) : Option DocumentVersion :=
  (w.listVersions document.id).argmax DocumentVersion.ingestedAt

def contentNodes (w : World) (version : DocumentVersion) : List DocumentNode :=
  (w.listNodes version.id).filter (·.content ≠ "")

end World

/-- The records of one version of a document. -/
def versionFacts (request : IndexRequest) (w : World) (document : Document) (version : DocumentVersion) :
    List SemanticFacts :=
  (w.contentNodes version).map fun node =>
    { entity := .documentNode node.id, text := node.content, projectId := some request.projectId
      repositoryId := request.repositoryId.or version.repositoryId
      revision := (given request.revision).or version.commitSha
      source := some (node.headingPath.getLast?.getD document.title)
      metadata := [("document_id", .str document.id.text), ("heading_path", .list (node.headingPath.map .str)),
        ("node_type", .str node.nodeType.value)] }

namespace SemanticIndexingService

def indexDocuments (request : IndexRequest) (w : World) : List SemanticFacts :=
  (w.listDocumentsByProject request.projectId).flatMap fun document =>
    match w.latestVersion document with
    | none => []
    | some current => versionFacts request w document current

def indexRequirements (request : IndexRequest) (requirements : Keyed Requirement.id) : List SemanticFacts :=
  (requirements.items.filter (·.projectId = request.projectId)).map fun requirement =>
    { entity := .requirement requirement.id, text := requirementText requirement, projectId := some request.projectId
      revision := request.revision, source := requirement.key
      metadata := [("title", .str requirement.title), ("status", .str requirement.status.value)] }

def indexDecisions (request : IndexRequest) (w : World) : List SemanticFacts :=
  (w.listDecisionsByProject request.projectId).map fun decision =>
    { entity := .decision decision.id, text := decisionText decision, projectId := some request.projectId
      revision := request.revision, source := some decision.title
      metadata := [("status", .str decision.status.value)] }

/-- `_index_code_summaries`, which is called with a repository and a revision only. -/
def indexCodeSummaries (request : IndexRequest) (graph : InMemoryCodeGraph) : List SemanticFacts :=
  match request.repositoryId, request.revision with
  | some repositoryId, some revision =>
    ((graph.listSymbols repositoryId revision).filter fun symbol =>
      ["function", "method", "class"].contains symbol.kind.value && symbolSummary symbol ≠ "").map fun symbol =>
        { entity := .symbol symbol.id, text := symbolSummary symbol, projectId := some request.projectId, repositoryId
          revision, source := some symbol.qualifiedName
          metadata := [("path", .str symbol.path), ("kind", .str symbol.kind.value),
            ("qualified_name", .str symbol.qualifiedName)] }
  | _, _ => []

/-- What the service makes records of, in their order. -/
def projectFacts (request : IndexRequest) (s : SemanticStores) : List SemanticFacts :=
  indexDocuments request s.world ++ indexRequirements request s.requirements ++ indexDecisions request s.world ++
    indexCodeSummaries request s.codeGraph

def drawRecords (next : Nat) (facts : List SemanticFacts) : List SemanticRecord :=
  facts.mapIdx fun i fact => { fact with recordId := .v4 (next + i) }

def indexProject (request : IndexRequest) (s : SemanticStores) : IndexingResult × SemanticStores :=
  let records := drawRecords s.world.nextUuid (projectFacts request s)
  ({ projectId := request.projectId, records },
    { s with
      world := { s.world with nextUuid := s.world.nextUuid + records.length }
      semanticIndex := s.semanticIndex.index records })

end SemanticIndexingService

end Brain
