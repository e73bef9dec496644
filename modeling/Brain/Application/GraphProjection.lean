import Brain.Adapters.KnowledgeGraph
import Brain.Domain.CodeIntelligence
import Brain.Domain.Events

namespace Brain

inductive ImplementationStatus
  | notStarted | inProgress | codeModified | implemented | implementedUnverified
  deriving DecidableEq

def ImplementationStatus.value : ImplementationStatus → String
  | .notStarted => "not_started"
  | .inProgress => "in_progress"
  | .codeModified => "code_modified"
  | .implemented => "implemented"
  | .implementedUnverified => "implemented_unverified"

/-- A work item with the fields that are projected. -/
structure TracedWorkItem extends WorkItem where
  requirementRefs : List RequirementId := []
  implementationStatus : ImplementationStatus := .notStarted

/-- A symbol with the id that its parse drew. -/
structure IndexedSymbol extends Symbol where
  id : Uuid
  name : String
  kind : SymbolKind
  isTest : Bool := false

structure IndexedRelation extends CodeRelation where
  confidence : String := "1.0"

/-- What the ports list of a project. -/
structure CanonicalProject where
  project : Project
  repositories : List Repository := []
  requirements : List Requirement := []
  workItems : List TracedWorkItem := []
  components : List SoftwareComponent := []
  decisions : List Decision := []
  listSymbols : RepositoryId → String → List IndexedSymbol := fun _ _ => []
  listRelations : RepositoryId → String → List IndexedRelation := fun _ _ => []

/-- The id of a file's node hashes the name of the file at the revision. -/
def fileEntityId (repositoryId : RepositoryId) (revision path : String) : Uuid :=
  .v5 (repositoryId.text ++ ":" ++ revision ++ ":" ++ path)

def mapCodeRelation : CodeRelationType → RelationType
  | .imports => .imports
  | .calls => .calls
  | .instantiates => .references
  | .inherits => .derivedFrom
  | .overrides => .references
  | .reads => .reads
  | .writes => .writes
  | .tests => .tests
  | .implements => .references

namespace CanonicalProject
variable (state : CanonicalProject)

section Core
variable (revision : Option String)

def entity (label : GraphLabel) (id : Uuid) (properties : RawDict) (repositoryId : Option RepositoryId := none) :
    GraphNode :=
  { id, label, projectId := some state.project.id, repositoryId, properties, revision }

def relation (subjectId : Uuid) (relationType : RelationType) (objectId : Uuid) : GraphEdge :=
  { subjectId, relationType, objectId, revision }

/-! ### The entities of the project -/

def projectNode : GraphNode := state.entity revision .project state.project.id [("name", .str state.project.name)]

def repositoryNode (repository : Repository) : GraphNode :=
  state.entity revision .repository repository.id
    [("name", .str repository.name), ("clone_url", .str repository.cloneUrl)] (some repository.id)

def requirementNode (requirement : Requirement) : GraphNode :=
  state.entity revision .requirement requirement.id
    [("key", .str (requirement.key.getD "")), ("title", .str requirement.title), ("status", .str requirement.status.value)]

def workItemNode (workItem : TracedWorkItem) : GraphNode :=
  state.entity revision .workItem workItem.id
    [("title", .str workItem.title), ("type", .str workItem.type.value),
      ("implementation_status", .str workItem.implementationStatus.value)]

def componentNode (component : SoftwareComponent) : GraphNode :=
  state.entity revision .component component.id
    [("name", .str component.name), ("component_type", .str component.componentType.value)]

def decisionNode (decision : Decision) : GraphNode :=
  state.entity revision .decision decision.id [("title", .str decision.title), ("status", .str decision.status.value)]

def repositoryRelations (repository : Repository) : List GraphEdge :=
  [relation revision state.project.id .partOf repository.id]

def requirementRelations (requirement : Requirement) : List GraphEdge :=
  relation revision requirement.id .partOf state.project.id ::
    (requirement.parentId.map fun parent => relation revision requirement.id .derivedFrom parent).toList

def workItemRelations (workItem : TracedWorkItem) : List GraphEdge :=
  relation revision workItem.id .partOf state.project.id ::
    workItem.requirementRefs.map fun requirementRef => relation revision workItem.id .implements requirementRef

def componentRelations (component : SoftwareComponent) : List GraphEdge :=
  relation revision component.id .partOf state.project.id ::
    component.repositoryIds.map fun repositoryId => relation revision component.id .dependsOn repositoryId

/-- `component_by_name`: of equal names the last component, where the first was. -/
def componentByName : Keyed (fun component : SoftwareComponent => component.name) :=
  state.components.foldl Keyed.upsert Keyed.empty

/-- The components whose name a lower-case text contains. -/
def mentioned (text : String) : List SoftwareComponent :=
  state.componentByName.items.filter fun component =>
    component.name ≠ "" && textContains text (lower component.name)

def requirementReferences (requirement : Requirement) : List GraphEdge :=
  (state.mentioned (lower (requirement.key.getD "" ++ " " ++ requirement.title))).map fun component =>
    relation revision requirement.id .references component.id

def decisionRelations (decision : Decision) : List GraphEdge :=
  relation revision decision.id .partOf state.project.id ::
    (state.mentioned (lower decision.title)).map fun component =>
      relation revision decision.id .references component.id

def coreEntities : List GraphNode :=
  state.projectNode revision :: (state.repositories.map (state.repositoryNode revision) ++
    state.requirements.map (state.requirementNode revision) ++ state.workItems.map (state.workItemNode revision) ++
    state.components.map (state.componentNode revision) ++ state.decisions.map (state.decisionNode revision))

def coreRelations : List GraphEdge :=
  state.repositories.flatMap (state.repositoryRelations revision) ++
    state.requirements.flatMap (state.requirementRelations revision) ++
    state.workItems.flatMap (state.workItemRelations revision) ++
    state.components.flatMap (state.componentRelations revision) ++
    state.requirements.flatMap (state.requirementReferences revision) ++
    state.decisions.flatMap (state.decisionRelations revision)

end Core

/-! ### The code graph of a repository -/

section CodeGraph
variable (repositoryId : RepositoryId) (revision : String)

def fileNode (symbol : IndexedSymbol) : GraphNode :=
  state.entity (some revision) (if symbol.isTest || isTestPath symbol.path then .test else .file)
    (fileEntityId repositoryId revision symbol.path)
    [("path", .str symbol.path), ("module", .str symbol.identity.module)] (some repositoryId)

def symbolNode (symbol : IndexedSymbol) : GraphNode :=
  state.entity (some revision) .symbol symbol.id
    [("name", .str symbol.name), ("qualified_name", .str symbol.qualifiedName), ("kind", .str symbol.kind.value)]
    (some repositoryId)

/-- The nodes of the symbols, that of a file before its first symbol. -/
def symbolEntities : List String → List IndexedSymbol → List GraphNode
  | _, [] => []
  | files, symbol :: symbols =>
    (if files.contains symbol.path then [] else [state.fileNode repositoryId revision symbol]) ++
      state.symbolNode repositoryId revision symbol :: symbolEntities (symbol.path :: files) symbols

def symbolRelations : List String → List IndexedSymbol → List GraphEdge
  | _, [] => []
  | files, symbol :: symbols =>
    let file := fileEntityId repositoryId revision symbol.path
    (if files.contains symbol.path then [] else [relation (some revision) file .partOf repositoryId]) ++
      relation (some revision) symbol.id .partOf file ::
      (if symbol.kind.value = "class" then [relation (some revision) symbol.id .partOf file] else []) ++
      symbolRelations (symbol.path :: files) symbols

/-- The node of an identity in `symbol_nodes`. -/
def symbolOf (symbols : List IndexedSymbol) (identity : SymbolIdentity) : Option IndexedSymbol :=
  LastWriter.last (fun symbol : IndexedSymbol => symbol.identityKey) symbols identity.key

def codeRelation (symbols : List IndexedSymbol) (code : IndexedRelation) : Option GraphEdge := do
  let source ← symbolOf symbols code.sourceIdentity
  let target ← symbolOf symbols code.targetIdentity
  some { subjectId := source.id, relationType := mapCodeRelation code.relationType, objectId := target.id,
         revision := some revision, properties := [("confidence", .float code.confidence)],
         repositoryId := some repositoryId }

def codeEntities : List GraphNode := state.symbolEntities repositoryId revision [] (state.listSymbols repositoryId revision)

def codeRelations : List GraphEdge :=
  symbolRelations repositoryId revision [] (state.listSymbols repositoryId revision) ++
    (state.listRelations repositoryId revision).filterMap
      (codeRelation repositoryId revision (state.listSymbols repositoryId revision))

end CodeGraph

def entities (revision : Option String) : List GraphNode :=
  state.coreEntities revision ++ revision.toList.flatMap fun revision =>
    state.repositories.flatMap fun repository => state.codeEntities repository.id revision

def relations (revision : Option String) : List GraphEdge :=
  state.coreRelations revision ++ revision.toList.flatMap fun revision =>
    state.repositories.flatMap fun repository => state.codeRelations repository.id revision

end CanonicalProject

namespace GraphProjectionService

def project (graph : InMemoryKnowledgeGraph) (state : CanonicalProject) (revision : Option String) :
    InMemoryKnowledgeGraph :=
  (graph.upsertEntities (state.entities revision)).upsertRelations (state.relations revision)

end GraphProjectionService

/-! ### The integrity check -/

structure IntegrityIssue where
  category : String
  detail : String
  deriving DecidableEq

structure GraphIntegrityReport where
  projectId : Option ProjectId := none
  issues : List IntegrityIssue := []

def GraphIntegrityReport.ok (report : GraphIntegrityReport) : Bool := report.issues.isEmpty

namespace GraphIntegrityChecker

/-- `_entity_identity`, which a property names for some labels. -/
def entityIdentity (entity : GraphNode) : String :=
  let named (property : String) : String := ((pyGet entity.properties property).or (.str entity.id.text)).text
  match entity.label with
  | .symbol => named "qualified_name"
  | .file => named "path"
  | .component | .repository => named "name"
  | _ => entity.id.text

def nodeKey (entity : GraphNode) : String × String := (entity.label.value, entityIdentity entity)

def duplicateIssues (entities : List GraphNode) : List IntegrityIssue :=
  ((Tally.tally nodeKey entities).items.filter fun entry => decide (entry.2 > 1)).map fun ((label, name), count) =>
    ⟨"duplicate_node", label ++ " '" ++ name ++ "' appears " ++ toString count ++ " times"⟩

def orphanIssues (entityIds : List Uuid) (relations : List GraphEdge) : List IntegrityIssue :=
  relations.flatMap fun relation =>
    (if entityIds.contains relation.subjectId then []
      else [⟨"orphan_subject", "relation " ++ relation.relationType.value ++ " subject missing"⟩]) ++
    if entityIds.contains relation.objectId then []
      else [⟨"orphan_object", "relation " ++ relation.relationType.value ++ " object missing"⟩]

def revisionIssues (entities : List GraphNode) (relations : List GraphEdge) : List IntegrityIssue :=
  let revisioned := (entities.filter fun entity => entity.revision.isSome).map fun entity => entity.id
  (relations.filter fun relation => revisioned.contains relation.subjectId && relation.revision.isNone).map
    fun relation => ⟨"invalid_revision_scope", "relation " ++ relation.relationType.value ++ " revision missing"⟩

def typeIssues (relations : List GraphEdge) : List IntegrityIssue :=
  (relations.filter fun relation => !(RelationType.all.map RelationType.value).contains relation.relationType.value).map
    fun relation => ⟨"unknown_relation_type", "type '" ++ relation.relationType.value ++ "' not controlled"⟩

def check (graph : InMemoryKnowledgeGraph) (projectId : Option ProjectId := none) : GraphIntegrityReport :=
  let entities := graph.findEntities { projectId }
  let relations := graph.findRelations {}
  { projectId
    issues := duplicateIssues entities ++ orphanIssues (entities.map fun entity => entity.id) relations ++
      revisionIssues entities relations ++ typeIssues relations }

end GraphIntegrityChecker

end Brain
