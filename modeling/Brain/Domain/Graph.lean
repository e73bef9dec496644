import Brain.Domain.Entities
import Brain.Lib.Keyed

namespace Brain

inductive GraphLabel
  | project | requirement | workItem | decision | system | component | interface | resource
  | repository | file | symbol | test | document | documentNode | execution | artifact | evidence
  | actor | comment | attachment
  deriving DecidableEq

inductive RelationType
  | partOf | dependsOn | implements | modifies | constrains | calls | imports | reads | writes
  | provides | consumes | tests | validates | verifiedBy | references | derivedFrom | supersedes
  | assignedTo | producedBy | serviceCalls | queryAccesses | publishesTo | consumesFrom | parentOf
  | blocks | relatesTo | precedes | follows | hasComment | commentOn | authored | hasAttachment
  deriving DecidableEq

structure GraphEntity where
  id : Uuid
  label : GraphLabel
  projectId : Option ProjectId := none
  properties : RawDict := []
  revision : Option String := none

structure GraphRelation where
  subjectId : Uuid
  relationType : RelationType
  objectId : Uuid
  revision : Option String := none
  deriving DecidableEq

/-- The in-memory graph: entities by id, and the relations listed once under
their subject and once under their object. -/
structure KnowledgeGraph where
  entities : Keyed GraphEntity.id := Keyed.empty
  relationsOut : Keyed (Prod.fst : Uuid × List GraphRelation → Uuid) := Keyed.empty
  relationsIn : Keyed (Prod.fst : Uuid × List GraphRelation → Uuid) := Keyed.empty

namespace KnowledgeGraph

def upsertEntities (graph : KnowledgeGraph) (entities : List GraphEntity) : KnowledgeGraph :=
  { graph with entities := entities.foldl Keyed.upsert graph.entities }

/-- `table.setdefault(id, []).append(relation)`. -/
def appendUnder (table : Keyed (Prod.fst : Uuid × List GraphRelation → Uuid)) (id : Uuid)
    (relation : GraphRelation) : Keyed (Prod.fst : Uuid × List GraphRelation → Uuid) :=
  table.upsert (id, ((table.get id).map Prod.snd).getD [] ++ [relation])

def upsertRelation (graph : KnowledgeGraph) (relation : GraphRelation) : KnowledgeGraph :=
  { graph with
    relationsOut := appendUnder graph.relationsOut relation.subjectId relation
    relationsIn := appendUnder graph.relationsIn relation.objectId relation }

def upsertRelations (graph : KnowledgeGraph) (relations : List GraphRelation) : KnowledgeGraph :=
  relations.foldl upsertRelation graph

end KnowledgeGraph

def GraphLabel.value : GraphLabel → String
  | .project => "Project"
  | .requirement => "Requirement"
  | .workItem => "WorkItem"
  | .decision => "Decision"
  | .system => "System"
  | .component => "Component"
  | .interface => "Interface"
  | .resource => "Resource"
  | .repository => "Repository"
  | .file => "File"
  | .symbol => "Symbol"
  | .test => "Test"
  | .document => "Document"
  | .documentNode => "DocumentNode"
  | .execution => "Execution"
  | .artifact => "Artifact"
  | .evidence => "Evidence"
  | .actor => "Actor"
  | .comment => "Comment"
  | .attachment => "Attachment"

def RelationType.value : RelationType → String
  | .partOf => "PART_OF"
  | .dependsOn => "DEPENDS_ON"
  | .implements => "IMPLEMENTS"
  | .modifies => "MODIFIES"
  | .constrains => "CONSTRAINS"
  | .calls => "CALLS"
  | .imports => "IMPORTS"
  | .reads => "READS"
  | .writes => "WRITES"
  | .provides => "PROVIDES"
  | .consumes => "CONSUMES"
  | .tests => "TESTS"
  | .validates => "VALIDATES"
  | .verifiedBy => "VERIFIED_BY"
  | .references => "REFERENCES"
  | .derivedFrom => "DERIVED_FROM"
  | .supersedes => "SUPERSEDES"
  | .assignedTo => "ASSIGNED_TO"
  | .producedBy => "PRODUCED_BY"
  | .serviceCalls => "SERVICE_CALLS"
  | .queryAccesses => "QUERY_ACCESSES"
  | .publishesTo => "PUBLISHES_TO"
  | .consumesFrom => "CONSUMES_FROM"
  | .parentOf => "PARENT_OF"
  | .blocks => "BLOCKS"
  | .relatesTo => "RELATES_TO"
  | .precedes => "PRECEDES"
  | .follows => "FOLLOWS"
  | .hasComment => "HAS_COMMENT"
  | .commentOn => "COMMENT_ON"
  | .authored => "AUTHORED"
  | .hasAttachment => "HAS_ATTACHMENT"

/-- The controlled vocabulary. -/
def RelationType.all : List RelationType :=
  [.partOf, .dependsOn, .implements, .modifies, .constrains, .calls, .imports, .reads, .writes, .provides, .consumes,
    .tests, .validates, .verifiedBy, .references, .derivedFrom, .supersedes, .assignedTo, .producedBy, .serviceCalls,
    .queryAccesses, .publishesTo, .consumesFrom, .parentOf, .blocks, .relatesTo, .precedes, .follows, .hasComment,
    .commentOn, .authored, .hasAttachment]

theorem RelationType.mem_all (type : RelationType) : type ∈ RelationType.all := by cases type <;> decide

end Brain
