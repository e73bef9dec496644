import Brain.Adapters.Neo4jGraph
import Brain.Graph.Upserts
import Brain.Lib.Checked

namespace Brain
open Cypher.Properties

/-! ### What both graphs store alike -/

def GraphCall.entities : GraphCall → List GraphNode
  | .upsertEntities entities => entities
  | .upsertRelations _ => []

def writtenEntities (calls : List GraphCall) : List GraphNode := calls.flatMap GraphCall.entities

def Storable (properties : RawDict) : Prop := ∀ entry ∈ properties, entry.1 ≠ "" ∧ (CypherValue.store entry.2).isSome

def Keeps (properties : RawDict) (name text : String) : Prop := ∀ value, (name, value) ∈ properties → value = .str text

/-- An entity whose properties can be stored and leave its id and label alone. -/
structure PlainEntity (entity : GraphNode) : Prop where
  storable : Storable entity.properties
  id : Keeps entity.properties "id" entity.id.text
  label : Keeps entity.properties "_label" entity.label.value

/-- A relation of some revision whose properties can be stored and leave its
ends and revision alone. -/
structure PlainRelation (relation : GraphEdge) : Prop where
  storable : Storable relation.properties
  revised : relation.revision ≠ none
  revision : Keeps relation.properties "revision" (relation.revision.getD "")
  subject : Keeps relation.properties "subject_id" relation.subjectId.text
  object : Keeps relation.properties "object_id" relation.objectId.text

/-- Calls that write each entity under one label, each relation after the
entities at its ends, and between two ends one revision. -/
structure PlainCalls (calls : List GraphCall) : Prop where
  entities : ∀ entity ∈ writtenEntities calls, PlainEntity entity
  labels : ∀ entity ∈ writtenEntities calls, ∀ other ∈ writtenEntities calls, entity.id = other.id → entity.label = other.label
  relations : ∀ relation ∈ written calls, PlainRelation relation
  revisions : ∀ relation ∈ written calls, ∀ other ∈ written calls, relation.ends = other.ends → relation.revision = other.revision
  present : ∀ before call, before ++ [call] <+: calls → ∀ relation ∈ call.relations,
    relation.subjectId ∈ (writtenEntities before).map (·.id) ∧ relation.objectId ∈ (writtenEntities before).map (·.id)

theorem PlainCalls.of_append {calls rest : List GraphCall} (plain : PlainCalls (calls ++ rest)) : PlainCalls calls := by
  have older : ∀ entity ∈ writtenEntities calls, entity ∈ writtenEntities (calls ++ rest) := by
    intro entity member
    rw [writtenEntities, List.flatMap_append]
    exact List.mem_append_left _ member
  have earlier : ∀ relation ∈ written calls, relation ∈ written (calls ++ rest) := by
    intro relation member
    rw [written, List.flatMap_append]
    exact List.mem_append_left _ member
  exact {
    entities := fun entity member => plain.entities entity (older entity member)
    labels := fun entity member other member' => plain.labels entity (older entity member) other (older other member')
    relations := fun relation member => plain.relations relation (earlier relation member)
    revisions := fun relation member other member' => plain.revisions relation (earlier relation member) other (earlier other member')
    present := fun before call isPrefix => plain.present before call (isPrefix.trans (List.prefix_append ..)) }

/-! ### Stored properties -/

def storedProperties (properties : RawDict) : List (String × Option CypherValue) :=
  properties.map fun entry => (entry.1, (CypherValue.store entry.2).getD none)

theorem mapM_store (server : Neo4jServer) {properties : RawDict} (storable : Storable properties) :
    properties.mapM server.store = .ok (storedProperties properties) := by
  apply Checked.mapM_of_ok
  intro entry member
  obtain ⟨named, isStored⟩ := storable entry member
  obtain ⟨value, stores⟩ := Option.isSome_iff_exists.mp isStored
  rw [Neo4jServer.store, if_neg named, stores]
  rfl

theorem stored_keeps {properties : RawDict} {name text : String} (keeps : Keeps properties name text) :
    ∀ v, (name, v) ∈ storedProperties properties → v = some (.text text) := by
  intro v member
  obtain ⟨⟨other, value⟩, listed, same⟩ := List.mem_map.mp member
  obtain ⟨rfl, rfl⟩ := Prod.mk.inj same
  rw [keeps value listed]
  rfl

namespace Neo4jKnowledgeGraph
variable {properties : RawDict} {label name text : String}

theorem mem_propertiesOf {entry : String × PyValue} (member : entry ∈ propertiesOf properties label) :
    entry ∈ properties ∨ entry = ("_label", .str label) := by
  unfold propertiesOf at member
  split at member
  · exact Or.inl member
  · simpa using member

theorem storable_propertiesOf (storable : Storable properties) : Storable (propertiesOf properties label) := by
  intro entry member
  rcases mem_propertiesOf member with own | rfl
  · exact storable entry own
  · exact ⟨show "_label" ≠ "" by decide, rfl⟩

theorem keeps_propertiesOf (keeps : Keeps properties name text) (other : name = "_label" → text = label) :
    Keeps (propertiesOf properties label) name text := by
  intro value member
  rcases mem_propertiesOf member with own | same
  · exact keeps value own
  · obtain ⟨isLabel, rfl⟩ := Prod.mk.inj same
    rw [other isLabel]

theorem label_mem_propertiesOf (keeps : Keeps properties "_label" label) : ("_label", .str label) ∈ propertiesOf properties label := by
  unfold propertiesOf
  split
  · rename_i listed
    obtain ⟨⟨name, value⟩, member, same⟩ := List.mem_map.mp (List.contains_iff_mem.mp listed)
    obtain rfl : name = "_label" := same
    rw [← keeps value member]
    exact member
  · exact List.mem_append_right _ (List.mem_singleton_self _)

end Neo4jKnowledgeGraph

/-! ### A database that represents a graph in memory -/

/-- A node holds what the queries read of an entity. -/
structure Shows (n : Cypher.Node CypherValue) (entity : GraphNode) : Prop where
  label : n.label = entity.label.value
  id : n.properties.value "id" = some (.text entity.id.text)
  shown : n.properties.value "_label" = some (.text entity.label.value)
  project : n.properties.value "project_id" = entity.projectId.map fun id => .text id.text
  revision : n.properties.value "revision" = entity.revision.map .text

/-- A relationship holds what the queries read of a relation, between the nodes
at the places of its ends. -/
structure Draws (ids : List Uuid) (r : Cypher.Relationship CypherValue) (relation : GraphRelation) : Prop where
  source : ids[r.source]? = some relation.subjectId
  target : ids[r.target]? = some relation.objectId
  type : r.type = relation.relationType.value
  revision : r.properties.value "revision" = relation.revision.map .text
  subject : r.properties.value "subject_id" = some (.text relation.subjectId.text)
  object : r.properties.value "object_id" = some (.text relation.objectId.text)

def InMemoryKnowledgeGraph.ids (memory : InMemoryKnowledgeGraph) : List Uuid := memory.entities.items.map (·.id)

structure Represents (memory : InMemoryKnowledgeGraph) (edges : List GraphEdge) (graph : Neo4jDatabase) : Prop where
  nodes : List.Forall₂ Shows graph.nodes memory.entities.items
  drawn : ∀ r ∈ graph.relationships, ∃ e ∈ edges, Draws memory.ids r e.toGraphRelation
  present : ∀ e ∈ edges, ∃ r ∈ graph.relationships, Draws memory.ids r e.toGraphRelation

theorem CypherValue.text_inj {s t : String} : CypherValue.text s = CypherValue.text t ↔ s = t := by simp [CypherValue.text]

theorem uuidText_inj {a b : Uuid} : CypherValue.text a.text = CypherValue.text b.text ↔ a = b := by
  rw [CypherValue.text_inj, Uuid.text_inj]

section Places
variable {memory : InMemoryKnowledgeGraph} {edges : List GraphEdge} {graph : Neo4jDatabase}

theorem Represents.entity_at (represents : Represents memory edges graph) {i : Nat} {n : Cypher.Node CypherValue}
    (atPlace : graph.nodes[i]? = some n) : ∃ e, memory.entities.items[i]? = some e ∧ Shows n e := by
  obtain ⟨bound, rfl⟩ := List.getElem?_eq_some_iff.mp atPlace
  have bound' : i < memory.entities.items.length := represents.nodes.length_eq ▸ bound
  exact ⟨_, List.getElem?_eq_getElem bound', represents.nodes.get bound bound'⟩

theorem Represents.node_at (represents : Represents memory edges graph) {i : Nat} {e : GraphNode}
    (atPlace : memory.entities.items[i]? = some e) : ∃ n, graph.nodes[i]? = some n ∧ Shows n e := by
  obtain ⟨bound, rfl⟩ := List.getElem?_eq_some_iff.mp atPlace
  have bound' : i < graph.nodes.length := represents.nodes.length_eq ▸ bound
  exact ⟨_, List.getElem?_eq_getElem bound', represents.nodes.get bound' bound⟩

theorem ids_at {i : Nat} {id : Uuid} : memory.ids[i]? = some id ↔ ∃ e, memory.entities.items[i]? = some e ∧ e.id = id := by
  rw [InMemoryKnowledgeGraph.ids, List.getElem?_map, Option.map_eq_some_iff]

theorem ids_injective {i j : Nat} {id : Uuid} (here : memory.ids[i]? = some id) (there : memory.ids[j]? = some id) : i = j := by
  have bound := (List.getElem?_eq_some_iff.mp here).1
  exact (List.getElem?_inj bound memory.entities.nodup).mp (here.trans there.symm)

theorem Represents.id_at (represents : Represents memory edges graph) {i : Nat} {id : Uuid} :
    memory.ids[i]? = some id ↔ ∃ n, graph.nodes[i]? = some n ∧ n.properties.value "id" = some (.text id.text) := by
  rw [ids_at]
  constructor
  · rintro ⟨e, atPlace, rfl⟩
    obtain ⟨n, atPlace', shows⟩ := represents.node_at atPlace
    exact ⟨n, atPlace', shows.id⟩
  · rintro ⟨n, atPlace, hasId⟩
    obtain ⟨e, atPlace', shows⟩ := represents.entity_at atPlace
    rw [shows.id] at hasId
    exact ⟨e, atPlace', uuidText_inj.mp (Option.some.inj hasId)⟩

theorem Represents.matching_id (represents : Represents memory edges graph) {i : Nat} {id : Uuid}
    (atPlace : memory.ids[i]? = some id) :
    graph.matching (fun properties => properties.fits [("id", CypherValue.text id.text)]) = [i] := by
  obtain ⟨n, atNode, hasId⟩ := represents.id_at.mp atPlace
  apply Cypher.Graph.matching_eq_singleton atNode
  · simpa [fits] using hasId
  · intro j other atOther passes
    have otherId : other.properties.value "id" = some (.text id.text) := by simpa [fits] using passes
    exact ids_injective (represents.id_at.mpr ⟨other, atOther, otherId⟩) atPlace

end Places

/-! ### Upserting keeps the representation -/

namespace Neo4jKnowledgeGraph
variable {server : Neo4jServer} {memory : InMemoryKnowledgeGraph} {edges : List GraphEdge} {graph : Neo4jDatabase}

theorem shows_set {entity : GraphNode} (plain : PlainEntity entity) {n : Cypher.Node CypherValue}
    (label : n.label = entity.label.value) (hasId : n.properties.value "id" = some (.text entity.id.text)) :
    Shows (n.setAll (storedProperties (propertiesOf entity.properties entity.label.value) ++ entityValues entity)) entity where
  label := label
  id := by
    apply value_setAll _ hasId
    intro v member
    rcases List.mem_append.mp member with own | later
    · exact stored_keeps (keeps_propertiesOf plain.id fun same => absurd same (by decide)) v own
    · simp [entityValues] at later
  shown := by
    have keeps := keeps_propertiesOf plain.label fun _ => rfl
    have isSet : ("_label", some (CypherValue.text entity.label.value)) ∈
        storedProperties (propertiesOf entity.properties entity.label.value) :=
      List.mem_map.mpr ⟨_, label_mem_propertiesOf plain.label, rfl⟩
    rw [← List.nil_append (_ ++ _)]
    apply value_setAll_append
    · intro v member
      rcases List.mem_append.mp member with own | later
      · exact stored_keeps keeps v own
      · simp [entityValues] at later
    · exact List.mem_append_left _ isSet
  project := by
    apply value_setAll_append
    · intro v member
      simpa [entityValues, idText] using member
    · simp [entityValues, idText]
  revision := by
    apply value_setAll_append
    · intro v member
      simpa [entityValues] using member
    · simp [entityValues]

theorem ids_upsertEntity (memory : InMemoryKnowledgeGraph) (entity : GraphNode) :
    memory.ids <+: InMemoryKnowledgeGraph.ids { memory with entities := memory.entities.upsert entity } := by
  show memory.entities.items.map (fun e => e.id) <+: (putKeyed (fun e => e.id) entity memory.entities.items).map fun e => e.id
  by_cases stored : entity.id ∈ memory.entities.items.map fun e => e.id
  · have same := map_key_putKeyed_of_mem stored
    exact ⟨[], by rw [List.append_nil, same]⟩
  · rw [putKeyed_of_not_mem stored, List.map_append]
    exact List.prefix_append ..

theorem draws_mono {ids ids' : List Uuid} {r : Cypher.Relationship CypherValue} {relation : GraphRelation}
    (draws : Draws ids r relation) (isPrefix : ids <+: ids') : Draws ids' r relation := by
  obtain ⟨rest, rfl⟩ := isPrefix
  have stays : ∀ {i : Nat} {id : Uuid}, ids[i]? = some id → (ids ++ rest)[i]? = some id := by
    intro i id atPlace
    rw [List.getElem?_append_left (List.getElem?_eq_some_iff.mp atPlace).1]
    exact atPlace
  exact { draws with source := stays draws.source, target := stays draws.target }

theorem represents_entity (represents : Represents memory edges graph) {entity : GraphNode} (plain : PlainEntity entity)
    (labels : ∀ e ∈ memory.entities.items, e.id = entity.id → e.label = entity.label) :
    ∃ graph', upsertEntity server graph entity = .ok graph' ∧
      Represents { memory with entities := memory.entities.upsert entity } edges graph' := by
  have storable : Storable (propertiesOf entity.properties entity.label.value) := storable_propertiesOf plain.storable
  have stores := mapM_store server storable
  refine ⟨_, by rw [upsertEntity, stores]; rfl, ?_, ?_, ?_⟩
  · rw [Cypher.Graph.nodes_mergeNode]
    apply Cypher.forall₂_mergeOn memory.entities.nodup represents.nodes
    · intro n e member shows
      rw [Cypher.Node.fits_iff, fits_iff]
      constructor
      · rintro ⟨_, hasId⟩
        have same := hasId ("id", .text entity.id.text) (List.mem_singleton_self _)
        exact uuidText_inj.mp (Option.some.inj (shows.id.symm.trans same))
      · intro same
        refine ⟨by rw [shows.label, labels e member same], fun entry listed => ?_⟩
        rw [List.mem_singleton.mp listed, shows.id, same]
    · intro n e member shows same
      have label : n.label = entity.label.value := by rw [shows.label, labels e member same]
      exact shows_set plain label (by rw [shows.id, same])
    · exact shows_set plain rfl (value_ofPattern (by simp) (List.mem_singleton_self _))
  · intro r member
    obtain ⟨e, isEdge, draws⟩ := represents.drawn r member
    exact ⟨e, isEdge, draws_mono draws (ids_upsertEntity memory entity)⟩
  · intro e isEdge
    obtain ⟨r, member, draws⟩ := represents.present e isEdge
    exact ⟨r, member, draws_mono draws (ids_upsertEntity memory entity)⟩

theorem draws_set {ids : List Uuid} {relation : GraphEdge} (plain : PlainRelation relation) {r : Cypher.Relationship CypherValue}
    (fits : r.properties.fits (relationPattern relation.toGraphRelation) = true) {drawn : GraphRelation} (draws : Draws ids r drawn) :
    Draws ids (r.setAll
      (relationValues relation ++ storedProperties (propertiesOf relation.properties relation.relationType.value))) drawn := by
  have kept : ∀ {name text : String}, (name, CypherValue.text text) ∈ relationPattern relation.toGraphRelation →
      Keeps relation.properties name text → name ∉ ["repository_id", "origin", "confidence", "_label"] →
      (r.properties.setAll (relationValues relation ++
        storedProperties (propertiesOf relation.properties relation.relationType.value))).value name = r.properties.value name := by
    intro name text inPattern keeps other
    simp only [List.mem_cons, List.not_mem_nil, or_false, not_or] at other
    have before := fits_iff.mp fits _ inPattern
    rw [before]
    apply value_setAll _ before
    intro v member
    rcases List.mem_append.mp member with first | own
    · simp [relationValues, other] at first
    · exact stored_keeps (keeps_propertiesOf keeps fun same => absurd same other.2.2.2) v own
  exact {
    source := draws.source
    target := draws.target
    type := draws.type
    revision := (kept (by simp [relationPattern]) plain.revision (by decide)).trans draws.revision
    subject := (kept (by simp [relationPattern]) plain.subject (by decide)).trans draws.subject
    object := (kept (by simp [relationPattern]) plain.object (by decide)).trans draws.object }

theorem draws_pattern {ids : List Uuid} {relation : GraphEdge} (plain : PlainRelation relation) {r : Cypher.Relationship CypherValue}
    (source : ids[r.source]? = some relation.subjectId) (target : ids[r.target]? = some relation.objectId)
    (type : r.type = relation.relationType.value) (fits : r.properties.fits (relationPattern relation.toGraphRelation) = true) :
    Draws ids r relation.toGraphRelation := by
  have values := fits_iff.mp fits
  obtain ⟨revision, isRevision⟩ := Option.ne_none_iff_exists'.mp plain.revised
  have subject := values ("subject_id", .text relation.subjectId.text) (by simp [relationPattern])
  have object := values ("object_id", .text relation.objectId.text) (by simp [relationPattern])
  have value := values ("revision", .text (relation.revision.getD "")) (by simp [relationPattern])
  refine ⟨source, target, type, ?_, subject, object⟩
  rw [value, isRevision]
  rfl

theorem fits_ofPattern (relation : GraphRelation) :
    (ofPattern (relationPattern relation)).fits (relationPattern relation) = true := by
  apply fits_iff.mpr
  intro entry member
  exact value_ofPattern (by simp [relationPattern]) member

theorem represents_relation (represents : Represents memory edges graph) {relation : GraphEdge} (plain : PlainRelation relation)
    (hasSubject : relation.subjectId ∈ memory.ids) (hasObject : relation.objectId ∈ memory.ids) :
    ∃ graph', upsertRelation server graph relation = .ok graph' ∧
      Represents (memory.upsertRelation relation) (edges ++ [relation]) graph' := by
  have storable : Storable (propertiesOf relation.properties relation.relationType.value) := storable_propertiesOf plain.storable
  have stores := mapM_store server storable
  obtain ⟨a, isSource⟩ := List.getElem?_of_mem hasSubject
  obtain ⟨b, isTarget⟩ := List.getElem?_of_mem hasObject
  have merged := Cypher.Graph.mergeBetween_of_matching (represents.matching_id isSource) (represents.matching_id isTarget)
  refine ⟨_, by rw [upsertRelation, stores]; rfl, ?_⟩
  rw [merged]
  -- the entry that the MERGE adds, or updates where there is one
  have isNew : Draws memory.ids ⟨a, b, relation.relationType.value, ofPattern (relationPattern relation.toGraphRelation)⟩
      relation.toGraphRelation := draws_pattern plain isSource isTarget rfl (fits_ofPattern _)
  have fitting : ∀ r : Cypher.Relationship CypherValue,
      r.fits (a, b) relation.relationType.value (relationPattern relation.toGraphRelation) = true →
      r.properties.fits (relationPattern relation.toGraphRelation) = true ∧ Draws memory.ids r relation.toGraphRelation := by
    intro r own
    obtain ⟨rfl, rfl, type, fits⟩ := Cypher.Relationship.fits_iff.mp own
    exact ⟨fits, draws_pattern plain isSource isTarget type fits⟩
  refine ⟨represents.nodes, ?_, ?_⟩
  · intro r member
    rw [Cypher.Graph.relationships_mergeRelationship] at member
    rcases Cypher.mem_mergeOn member with ⟨old, _⟩ | ⟨old, isOld, own, rfl⟩ | rfl
    · obtain ⟨e, isEdge, draws⟩ := represents.drawn r old
      exact ⟨e, List.mem_append_left _ isEdge, draws⟩
    · obtain ⟨fits, draws⟩ := fitting old own
      exact ⟨relation, List.mem_append_right _ (List.mem_singleton_self _), draws_set plain fits draws⟩
    · exact ⟨relation, List.mem_append_right _ (List.mem_singleton_self _), draws_set plain (fits_ofPattern _) isNew⟩
  · intro e isEdge
    rw [Cypher.Graph.relationships_mergeRelationship]
    rcases List.mem_append.mp isEdge with before | isLast
    · obtain ⟨r, member, draws⟩ := represents.present e before
      refine ⟨_, Cypher.kept_mergeOn member, ?_⟩
      split
      · rename_i own
        exact draws_set plain (fitting r own).1 draws
      · exact draws
    · obtain rfl := List.mem_singleton.mp isLast
      rcases Cypher.merged_mergeOn _ _ _ graph.relationships with ⟨r, _, own, listed⟩ | listed
      · obtain ⟨fits, draws⟩ := fitting r own
        exact ⟨_, listed, draws_set plain fits draws⟩
      · exact ⟨_, listed, draws_set plain (fits_ofPattern _) isNew⟩

/-- What holds of the graphs after calls that are plain. -/
structure Built (server : Neo4jServer) (calls : List GraphCall) : Prop where
  represents : Represents (InMemoryKnowledgeGraph.applyAll {} calls) (written calls) (applyAll server {} calls)
  entities : ∀ e ∈ (InMemoryKnowledgeGraph.applyAll {} calls).entities.items, e ∈ writtenEntities calls
  present : ∀ id ∈ (writtenEntities calls).map (·.id), id ∈ (InMemoryKnowledgeGraph.applyAll {} calls).ids

theorem represents_entities (represents : Represents memory edges graph) {entities : List GraphNode}
    (plain : ∀ entity ∈ entities, PlainEntity entity)
    (labels : ∀ e ∈ memory.entities.items ++ entities, ∀ other ∈ memory.entities.items ++ entities,
      e.id = other.id → e.label = other.label) :
    (upsertEntities server graph entities).1 = .ok () ∧
      Represents (memory.upsertEntities entities) edges (upsertEntities server graph entities).2 := by
  induction entities generalizing memory graph with
  | nil => exact ⟨rfl, represents⟩
  | cons entity entities ih =>
    obtain ⟨graph', runs, represents'⟩ := @represents_entity server _ _ _ represents entity (plain entity (List.mem_cons_self ..))
      fun e member same => labels e (List.mem_append_left _ member) entity (by simp) same
    have unfolded : upsertEntities server graph (entity :: entities) = upsertEntities server graph' entities := by
      simp only [upsertEntities, forEach, runs]
    rw [unfolded]
    apply ih represents' fun e later => plain e (List.mem_cons_of_mem _ later)
    have among : ∀ e ∈ (memory.entities.upsert entity).items ++ entities, e ∈ memory.entities.items ++ entity :: entities := by
      intro e member
      rcases List.mem_append.mp member with stored | later
      · rcases Keyed.mem_upsert.mp stored with rfl | ⟨old, _⟩
        · simp
        · exact List.mem_append_left _ old
      · simp [later]
    exact fun e member other member' => labels e (among e member) other (among other member')

theorem represents_relations (represents : Represents memory edges graph) {relations : List GraphEdge}
    (plain : ∀ relation ∈ relations, PlainRelation relation)
    (present : ∀ relation ∈ relations, relation.subjectId ∈ memory.ids ∧ relation.objectId ∈ memory.ids) :
    (upsertRelations server graph relations).1 = .ok () ∧
      Represents (memory.upsertRelations relations) (edges ++ relations) (upsertRelations server graph relations).2 := by
  induction relations generalizing memory edges graph with
  | nil =>
    rw [List.append_nil]
    exact ⟨rfl, represents⟩
  | cons relation relations ih =>
    have ends := present relation (List.mem_cons_self ..)
    obtain ⟨graph', runs, represents'⟩ := @represents_relation server _ _ _ represents relation
      (plain relation (List.mem_cons_self ..)) ends.1 ends.2
    have unfolded : upsertRelations server graph (relation :: relations) = upsertRelations server graph' relations := by
      simp only [upsertRelations, forEach, runs]
    rw [unfolded, List.append_cons]
    exact ih represents' (fun r later => plain r (List.mem_cons_of_mem _ later)) fun r later =>
      present r (List.mem_cons_of_mem _ later)

theorem ids_upsertEntities (memory : InMemoryKnowledgeGraph) (entities : List GraphNode) :
    memory.ids <+: (memory.upsertEntities entities).ids ∧ ∀ e ∈ entities, e.id ∈ (memory.upsertEntities entities).ids := by
  induction entities generalizing memory with
  | nil => exact ⟨List.prefix_rfl, fun e member => absurd member List.not_mem_nil⟩
  | cons entity entities ih =>
    obtain ⟨isPrefix, listed⟩ := ih { memory with entities := memory.entities.upsert entity }
    refine ⟨(ids_upsertEntity memory entity).trans isPrefix, fun e member => ?_⟩
    rcases List.mem_cons.mp member with rfl | later
    · exact isPrefix.subset (List.mem_map_of_mem (Keyed.mem_upsert_self memory.entities e))
    · exact listed e later

theorem built_append {calls : List GraphCall} {call : GraphCall} (built : Built server calls) (plain : PlainCalls (calls ++ [call])) :
    (apply server (applyAll server {} calls) call).1 = .ok () ∧ Built server (calls ++ [call]) := by
  have memoryAfter : InMemoryKnowledgeGraph.applyAll {} (calls ++ [call]) = (InMemoryKnowledgeGraph.applyAll {} calls).apply call := by
    simp [InMemoryKnowledgeGraph.applyAll]
  have after : applyAll server {} (calls ++ [call]) = (apply server (applyAll server {} calls) call).2 := by simp [applyAll]
  have edges : written (calls ++ [call]) = written calls ++ call.relations := by simp [written]
  have entities : writtenEntities (calls ++ [call]) = writtenEntities calls ++ call.entities := by simp [writtenEntities]
  cases call with
  | upsertEntities list =>
    simp only [GraphCall.relations, GraphCall.entities, List.append_nil] at edges entities
    have plainList : ∀ e ∈ list, PlainEntity e := fun e member => plain.entities e (entities ▸ List.mem_append_right _ member)
    have listed : ∀ e ∈ (InMemoryKnowledgeGraph.applyAll {} calls).entities.items ++ list,
        e ∈ writtenEntities (calls ++ [.upsertEntities list]) := by
      intro e member
      rw [entities]
      exact List.mem_append.mpr ((List.mem_append.mp member).imp (built.entities e) id)
    obtain ⟨returns, represents⟩ := @represents_entities server _ _ _ built.represents list plainList
      fun e member other member' => plain.labels e (listed e member) other (listed other member')
    obtain ⟨isPrefix, isThere⟩ := ids_upsertEntities (InMemoryKnowledgeGraph.applyAll {} calls) list
    refine ⟨returns, ?_, ?_, ?_⟩
    · rw [memoryAfter, after, edges]
      exact represents
    · intro e member
      rw [memoryAfter] at member
      exact listed e (List.mem_append.mpr (Keyed.mem_foldl_upsert member))
    · intro id member
      rw [memoryAfter]
      rw [entities, List.map_append] at member
      rcases List.mem_append.mp member with before | isNew
      · exact isPrefix.subset (built.present id before)
      · obtain ⟨e, inList, rfl⟩ := List.mem_map.mp isNew
        exact isThere e inList
  | upsertRelations list =>
    simp only [GraphCall.relations, GraphCall.entities, List.append_nil] at edges entities
    have plainList : ∀ e ∈ list, PlainRelation e := fun e member => plain.relations e (edges ▸ List.mem_append_right _ member)
    have ends := plain.present calls (.upsertRelations list) List.prefix_rfl
    obtain ⟨returns, represents⟩ := @represents_relations server _ _ _ built.represents list plainList fun e member =>
      ⟨built.present _ (ends e member).1, built.present _ (ends e member).2⟩
    have same := ((InMemoryKnowledgeGraph.applyAll {} calls).upsertRelations_tables list).1
    refine ⟨returns, ?_, ?_, ?_⟩
    · rw [memoryAfter, after, edges]
      exact represents
    · intro e member
      rw [memoryAfter] at member
      rw [entities]
      exact built.entities e (same ▸ member)
    · intro id member
      rw [entities] at member
      rw [memoryAfter, InMemoryKnowledgeGraph.ids]
      exact (congrArg (fun table => id ∈ table.items.map (·.id)) same).mpr (built.present id member)

theorem built_of_plain (server : Neo4jServer) {calls : List GraphCall} (plain : PlainCalls calls) : Built server calls := by
  induction calls using List.reverseRecOn with
  | nil => exact ⟨⟨.nil, by simp [applyAll], by simp [written]⟩, by simp [InMemoryKnowledgeGraph.applyAll, Keyed.empty], by simp [writtenEntities]⟩
  | append_singleton calls call ih => exact (built_append (ih plain.of_append) plain).2

end Neo4jKnowledgeGraph
end Brain
