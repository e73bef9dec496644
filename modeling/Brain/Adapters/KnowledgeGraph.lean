import Brain.Domain.Graph
import Brain.Domain.Knowledge
import Brain.Lib.Writers
import Brain.Lib.Groups

namespace Brain

/-- A `GraphEntity` with all its fields. -/
structure GraphNode extends GraphEntity where
  repositoryId : Option RepositoryId := none
  provenance : List KnowledgeEvidence := []

/-- A `GraphRelation` with all its fields. -/
structure GraphEdge extends GraphRelation where
  properties : RawDict := []
  repositoryId : Option RepositoryId := none
  provenance : List KnowledgeEvidence := []

/-- The filters of `find_entities`. -/
structure EntityQuery where
  label : Option GraphLabel := none
  projectId : Option ProjectId := none
  revision : Option String := none

def EntityQuery.passes (query : EntityQuery) (entity : GraphNode) : Bool :=
  query.label.all (entity.label = ·) && query.projectId.all (entity.projectId = some ·) &&
    query.revision.all (entity.revision = some ·)

/-- The filters of `find_relations`. -/
structure RelationQuery where
  relationType : Option RelationType := none
  subjectId : Option Uuid := none
  objectId : Option Uuid := none
  revision : Option String := none

def RelationQuery.passes (query : RelationQuery) (relation : GraphRelation) : Bool :=
  query.relationType.all (relation.relationType = ·) && query.subjectId.all (relation.subjectId = ·) &&
    query.objectId.all (relation.objectId = ·) && query.revision.all (relation.revision = some ·)

/-- The key that `find_relations` has seen. -/
def GraphRelation.ends (relation : GraphRelation) : Uuid × RelationType × Uuid :=
  (relation.subjectId, relation.relationType, relation.objectId)

inductive Direction
  | forward | reverse | both
  deriving DecidableEq

structure InMemoryKnowledgeGraph where
  entities : Keyed (fun entity : GraphNode => entity.id) := Keyed.empty
  relationsOut : Groups Uuid GraphEdge := Keyed.empty
  relationsIn : Groups Uuid GraphEdge := Keyed.empty

namespace InMemoryKnowledgeGraph

def upsertEntities (graph : InMemoryKnowledgeGraph) (entities : List GraphNode) : InMemoryKnowledgeGraph :=
  { graph with entities := entities.foldl Keyed.upsert graph.entities }

def upsertRelation (graph : InMemoryKnowledgeGraph) (relation : GraphEdge) : InMemoryKnowledgeGraph :=
  { graph with
    relationsOut := Groups.append graph.relationsOut relation.subjectId relation
    relationsIn := Groups.append graph.relationsIn relation.objectId relation }

def upsertRelations (graph : InMemoryKnowledgeGraph) (relations : List GraphEdge) : InMemoryKnowledgeGraph :=
  relations.foldl upsertRelation graph

variable (graph : InMemoryKnowledgeGraph)

def findEntities (query : EntityQuery) : List GraphNode := graph.entities.items.filter query.passes

/-- The loop of `find_relations` skips what it has seen: the first relation of
each key stays. -/
def findRelations (query : RelationQuery) : List GraphEdge :=
  FirstWriter.firsts (fun relation : GraphEdge => relation.ends)
    ((Groups.all graph.relationsOut).filter fun relation => query.passes relation.toGraphRelation)

/-- The test of `_bfs` on an edge. -/
def follows (relationTypes : Option (List RelationType)) (revision : Option String) (relation : GraphRelation) : Bool :=
  relationTypes.all (·.contains relation.relationType) && revision.all (relation.revision = some ·)

def outNeighbors (relationTypes : Option (List RelationType)) (revision : Option String) (id : Uuid) : List Uuid :=
  ((Groups.under graph.relationsOut id).filter fun r => follows relationTypes revision r.toGraphRelation).map fun r => r.objectId

def inNeighbors (relationTypes : Option (List RelationType)) (revision : Option String) (id : Uuid) : List Uuid :=
  ((Groups.under graph.relationsIn id).filter fun r => follows relationTypes revision r.toGraphRelation).map fun r => r.subjectId

def neighbors (direction : Direction) (relationTypes : Option (List RelationType)) (revision : Option String)
    (id : Uuid) : List Uuid :=
  match direction with
  | .forward => graph.outNeighbors relationTypes revision id
  | .reverse => graph.inNeighbors relationTypes revision id
  | .both => graph.outNeighbors relationTypes revision id ++ graph.inNeighbors relationTypes revision id

/-- The loop of `_bfs`, which ends with what it has reached. -/
def bfs (direction : Direction) (relationTypes : Option (List RelationType)) (revision : Option String) :
    Nat → List Uuid → List Uuid → List Uuid
  | 0, reached, frontier => reached ++ frontier
  | depth + 1, reached, frontier =>
    if frontier.isEmpty then reached
    else
      let reached := reached ++ frontier
      bfs direction relationTypes revision depth reached
        ((frontier.flatMap (graph.neighbors direction relationTypes revision)).filter fun id => !reached.contains id)

/-- `_bfs` returns a set, listed here in the order of the entities. -/
def traverseFrom (startIds : List Uuid) (relationTypes : Option (List RelationType)) (depth : Nat) (direction : Direction)
    (revision : Option String) : List GraphNode :=
  let reached := graph.bfs direction relationTypes revision depth [] startIds
  graph.entities.items.filter fun entity => reached.contains entity.id

def traverse (startIds : List Uuid) (relationTypes : List RelationType) (depth : Nat) (revision : Option String := none) :
    List GraphNode :=
  graph.traverseFrom startIds (some relationTypes) depth .forward revision

def traverseReverse (startIds : List Uuid) (relationTypes : List RelationType) (depth : Nat)
    (revision : Option String := none) : List GraphNode :=
  graph.traverseFrom startIds (some relationTypes) depth .reverse revision

def neighborhood (startIds : List Uuid) (relationTypes : Option (List RelationType)) (direction : Direction := .both)
    (revision : Option String := none) : List GraphNode :=
  graph.traverseFrom startIds relationTypes 1 direction revision

end InMemoryKnowledgeGraph

/-- A call that writes to the graph. -/
inductive GraphCall
  | upsertEntities (entities : List GraphNode)
  | upsertRelations (relations : List GraphEdge)

def GraphCall.relations : GraphCall → List GraphEdge
  | .upsertEntities _ => []
  | .upsertRelations relations => relations

namespace InMemoryKnowledgeGraph

def apply (graph : InMemoryKnowledgeGraph) : GraphCall → InMemoryKnowledgeGraph
  | .upsertEntities entities => graph.upsertEntities entities
  | .upsertRelations relations => graph.upsertRelations relations

def applyAll (graph : InMemoryKnowledgeGraph) (calls : List GraphCall) : InMemoryKnowledgeGraph := calls.foldl apply graph

end InMemoryKnowledgeGraph

end Brain
