import Brain.Adapters.KnowledgeGraph
import Brain.Adapters.Ports
import Brain.Lib.PropertyGraph
import Mathlib.Data.List.Dedup

namespace Brain

/-! ### Property values -/

inductive CypherScalar
  | bool (b : Bool)
  | int (n : Int)
  | float (text : String)
  | text (s : String)
  deriving DecidableEq

inductive CypherValue
  | scalar (value : CypherScalar)
  | list (items : List CypherScalar)
  deriving DecidableEq

abbrev CypherValue.text (s : String) : CypherValue := .scalar (.text s)

/-- An integer has 64 bits. -/
def CypherScalar.store : PyValue → Option CypherScalar
  | .bool b => some (.bool b)
  | .int n => if -0x8000000000000000 ≤ n ∧ n ≤ 0x7fffffffffffffff then some (.int n) else none
  | .float digits => some (.float digits)
  | .str s => some (.text s)
  | _ => none

def CypherScalar.sameKind : CypherScalar → CypherScalar → Bool
  | .bool _, .bool _ => true
  | .int _, .int _ => true
  | .float _, .float _ => true
  | .text _, .text _ => true
  | _, _ => false

/-- The property that a value becomes: null is no property, and maps, nested
lists and lists of several kinds are not stored. -/
def CypherValue.store : PyValue → Option (Option CypherValue)
  | .none => some none
  | .list items => do
    let scalars ← items.mapM CypherScalar.store
    if scalars.all fun first => scalars.all first.sameKind then some (some (.list scalars)) else none
  | value => (CypherScalar.store value).map fun scalar => some (.scalar scalar)

def CypherScalar.load : CypherScalar → PyValue
  | .bool b => .bool b
  | .int n => .int n
  | .float digits => .float digits
  | .text s => .str s

def CypherValue.load : CypherValue → PyValue
  | .scalar value => value.load
  | .list items => .list (items.map CypherScalar.load)

abbrev Neo4jDatabase := Cypher.Graph CypherValue

/-- What the server does where Cypher leaves it open. -/
structure Neo4jServer where
  /-- The exception for a value that is no property. -/
  refusal : PyValue → PyException
  /-- The nodes of a traversal whose revision does not stay between its quotes. -/
  unquoted : Neo4jDatabase → List Uuid → Option (List RelationType) → Nat → Direction → String → Except PyException (List RawDict)

/-- A property needs a name. -/
def Neo4jServer.store (server : Neo4jServer) (entry : String × PyValue) : Except PyException (String × Option CypherValue) :=
  match if entry.1 = "" then none else CypherValue.store entry.2 with
  | some value => .ok (entry.1, value)
  | none => .error (server.refusal entry.2)

/-! ### Records -/

/-- The dict that `data()` makes of a node or relationship. -/
def recordOf (properties : Cypher.Properties CypherValue) : RawDict := properties.items.map fun entry => (entry.1, entry.2.load)

def GraphLabel.all : List GraphLabel :=
  [.project, .requirement, .workItem, .decision, .system, .component, .interface, .resource, .repository, .file, .symbol,
    .test, .document, .documentNode, .execution, .artifact, .evidence, .actor, .comment, .attachment]

/-- `GraphLabel(value)`. -/
def GraphLabel.ofValue (value : String) : Except PyException GraphLabel :=
  match GraphLabel.all.find? (·.value = value) with
  | some label => .ok label
  | none => .error ⟨"ValueError", PyValue.reprString value ++ " is not a valid GraphLabel"⟩

/-- `RelationType(value)`. -/
def RelationType.ofValue (value : String) : Except PyException RelationType :=
  match RelationType.all.find? (·.value = value) with
  | some type => .ok type
  | none => .error ⟨"ValueError", PyValue.reprString value ++ " is not a valid RelationType"⟩

/-- `uuid.UUID(text)`. -/
def Uuid.parse (text : String) : Except PyException Uuid :=
  match Uuid.read text with
  | some id => .ok id
  | none => .error ⟨"ValueError", "badly formed hexadecimal UUID string"⟩

def strOrNone (value : PyValue) : Option String := if value.isNone then none else some value.text

def maybeUuid (value : PyValue) : Option Uuid := (strOrNone value).bind Uuid.read

def reservedKeys : List String := ["id", "revision", "repository_id", "project_id", "origin", "confidence", "_label"]

/-- A node comes as a dict, which has no `labels`. -/
def labelFromRecord (props : RawDict) : String :=
  let stored := pyGet props "_label"
  if stored.truthy then stored.text
  else ((props.map Prod.fst).find? fun key => key.toList.head? ≠ some '_').getD ""

def entityFromRecord (props : RawDict) : Except PyException GraphNode := do
  let id ← Uuid.parse (pyGet props "id").text
  let label ← GraphLabel.ofValue (labelFromRecord props)
  pure
    { id := id, label := label, projectId := maybeUuid (pyGet props "project_id")
      properties := props.filter fun entry => !reservedKeys.contains entry.1
      repositoryId := maybeUuid (pyGet props "repository_id"), revision := strOrNone (pyGet props "revision") }

def relationFromRecord (a b props : RawDict) (rtype : String) : Except PyException GraphEdge := do
  let subjectId ← Uuid.parse ((pyGet props "subject_id").or (pyGet a "id")).text
  let relationType ← RelationType.ofValue
    ((PyValue.str rtype).or ((pyGet props "_label").or ((pyGet props "type").or (.str "")))).text
  let objectId ← Uuid.parse ((pyGet props "object_id").or (pyGet b "id")).text
  pure
    { subjectId := subjectId, relationType := relationType, objectId := objectId
      properties := props.filter fun entry => !reservedKeys.contains entry.1
      repositoryId := maybeUuid (pyGet props "repository_id"), revision := strOrNone (pyGet props "revision") }

/-! ### The adapter -/

namespace Neo4jKnowledgeGraph

/-- `_properties`: `props.setdefault("_label", label)`. -/
def propertiesOf (properties : RawDict) (label : String) : RawDict :=
  if (properties.map Prod.fst).contains "_label" then properties else properties ++ [("_label", .str label)]

def primaryOrigin (provenance : List KnowledgeEvidence) : Option CypherValue :=
  provenance.head?.map fun evidence => .text evidence.origin.value

/-- A float with the digits of so many hundredths. -/
def hundredths (n : Nat) : String := "0." ++ if n % 10 = 0 then toString (n / 10) else toString n

def primaryConfidence (provenance : List KnowledgeEvidence) : Option CypherValue :=
  provenance.head?.map fun evidence => .scalar (.float (hundredths evidence.confidence.score))

def idText (id : Option Uuid) : Option CypherValue := id.map fun id => .text id.text

section Writes
variable (server : Neo4jServer) (graph : Neo4jDatabase)

/-- The properties that `upsert_entities` sets after `n += $props`. -/
def entityValues (entity : GraphNode) : List (String × Option CypherValue) :=
  [("revision", entity.revision.map .text), ("repository_id", idText entity.repositoryId),
    ("project_id", idText entity.projectId), ("origin", primaryOrigin entity.provenance),
    ("confidence", primaryConfidence entity.provenance)]

def upsertEntity (entity : GraphNode) : Except PyException Neo4jDatabase := do
  let props ← (propertiesOf entity.properties entity.label.value).mapM server.store
  pure (graph.mergeNode entity.label.value [("id", .text entity.id.text)] (props ++ entityValues entity))

/-- The properties that `upsert_relations` merges on. -/
def relationPattern (relation : GraphRelation) : List (String × CypherValue) :=
  [("revision", .text (relation.revision.getD "")), ("subject_id", .text relation.subjectId.text),
    ("object_id", .text relation.objectId.text)]

/-- The properties that `upsert_relations` sets before `r += $props`. -/
def relationValues (relation : GraphEdge) : List (String × Option CypherValue) :=
  [("repository_id", idText relation.repositoryId), ("origin", primaryOrigin relation.provenance),
    ("confidence", primaryConfidence relation.provenance)]

def upsertRelation (relation : GraphEdge) : Except PyException Neo4jDatabase := do
  let props ← (propertiesOf relation.properties relation.relationType.value).mapM server.store
  pure (graph.mergeBetween [("id", .text relation.subjectId.text)] [("id", .text relation.objectId.text)]
    relation.relationType.value (relationPattern relation.toGraphRelation) (relationValues relation ++ props))

/-- A statement for each item. What ran before one that raises stays written. -/
def forEach {β : Type} (statement : Neo4jDatabase → β → Except PyException Neo4jDatabase) :
    Neo4jDatabase → List β → Except PyException Unit × Neo4jDatabase
  | graph, [] => (.ok (), graph)
  | graph, item :: items =>
    match statement graph item with
    | .ok graph => forEach statement graph items
    | .error exception => (.error exception, graph)

def upsertEntities (entities : List GraphNode) : Except PyException Unit × Neo4jDatabase :=
  forEach (upsertEntity server) graph entities

def upsertRelations (relations : List GraphEdge) : Except PyException Unit × Neo4jDatabase :=
  forEach (upsertRelation server) graph relations

def apply : GraphCall → Except PyException Unit × Neo4jDatabase
  | .upsertEntities entities => upsertEntities server graph entities
  | .upsertRelations relations => upsertRelations server graph relations

/-- The database after some calls, whether or not they raise. -/
def applyAll (calls : List GraphCall) : Neo4jDatabase := calls.foldl (fun graph call => (apply server graph call).2) graph

end Writes

section Reads
variable (server : Neo4jServer) (graph : Neo4jDatabase)

/-- The clauses of `find_entities`. -/
def passesEntity (query : EntityQuery) (properties : Cypher.Properties CypherValue) : Bool :=
  query.label.all (fun label => properties.value "_label" = some (.text label.value)) &&
    query.projectId.all (fun id => properties.value "project_id" = some (.text id.text)) &&
    query.revision.all fun revision => properties.value "revision" = some (.text revision)

def findEntities (query : EntityQuery) : Except PyException (List GraphNode) :=
  (graph.nodes.filter fun n => passesEntity query n.properties).mapM fun n => entityFromRecord (recordOf n.properties)

/-- The clauses of `find_relations`. -/
def passesRelation (query : RelationQuery) (r : Cypher.Relationship CypherValue) : Bool :=
  query.relationType.all (fun type => r.type = type.value) &&
    query.subjectId.all (fun id => r.properties.value "subject_id" = some (.text id.text)) &&
    query.objectId.all (fun id => r.properties.value "object_id" = some (.text id.text)) &&
    query.revision.all fun revision => r.properties.value "revision" = some (.text revision)

def nodeRecord (place : Nat) : RawDict := (graph.nodes[place]?.map fun n => recordOf n.properties).getD []

def findRelations (query : RelationQuery) : Except PyException (List GraphEdge) :=
  (graph.relationships.filter (passesRelation query)).mapM fun r =>
    relationFromRecord (nodeRecord graph r.source) (nodeRecord graph r.target) (recordOf r.properties) r.type

/-- Neither an absent nor an empty list of types restricts the edges. -/
def typesPredicate (relationTypes : Option (List RelationType)) (r : Cypher.Relationship CypherValue) : Bool :=
  match relationTypes with
  | none | some [] => true
  | some types => types.any fun type => r.type = type.value

def revPredicate (revision : Option String) (r : Cypher.Relationship CypherValue) : Bool :=
  revision.all fun text => r.properties.value "revision" = some (.text text)

/-- A text that reads as itself between single quotes. -/
def staysQuoted (text : String) : Bool := text.toList.all fun c => c != '\'' && c != '\\'

def orientation : Direction → Cypher.Orientation
  | .reverse => .incoming
  | .forward => .outgoing
  | .both => .either

/-- `MATCH (start) WHERE start.id IN $starts`. -/
def startsAt (startIds : List Uuid) : List Nat :=
  graph.matching fun properties => startIds.any fun id => properties.value "id" = some (.text id.text)

/-- The union of the starts and of the ends of the paths from them. -/
def reachedFrom (startIds : List Uuid) (relationTypes : Option (List RelationType)) (depth : Nat) (direction : Direction)
    (revision : Option String) : List Nat :=
  let starts := startsAt graph startIds
  let ends := starts.flatMap
    (graph.varLength (orientation direction) depth fun r => typesPredicate relationTypes r && revPredicate revision r)
  (starts ++ ends).dedup

/-- `_traverse`. -/
def traverseFrom (startIds : List Uuid) (relationTypes : Option (List RelationType)) (depth : Nat) (direction : Direction)
    (revision : Option String) : Except PyException (List GraphNode) :=
  if startIds.isEmpty then .ok []
  else
    match revision.filter fun text => !staysQuoted text with
    | some text => do
      let records ← server.unquoted graph startIds relationTypes depth direction text
      records.mapM entityFromRecord
    | none =>
      ((reachedFrom graph startIds relationTypes depth direction revision).filterMap (graph.nodes[·]?)).mapM
        fun n : Cypher.Node CypherValue => entityFromRecord (recordOf n.properties)

end Reads

end Neo4jKnowledgeGraph

end Brain
