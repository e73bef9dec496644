import Brain.Graph.Representation

namespace Brain
open FirstWriter

/-! ### Queries -/

inductive GraphQuery
  | traverse (startIds : List Uuid) (relationTypes : List RelationType) (depth : Nat) (revision : Option String)
  | traverseReverse (startIds : List Uuid) (relationTypes : List RelationType) (depth : Nat) (revision : Option String)
  | neighborhood (startIds : List Uuid) (relationTypes : Option (List RelationType)) (direction : Direction)
    (revision : Option String)
  | findEntities (query : EntityQuery)
  | findRelations (query : RelationQuery)

structure GraphAnswer where
  entities : List GraphNode := []
  relations : List GraphEdge := []

def InMemoryKnowledgeGraph.answer (graph : InMemoryKnowledgeGraph) : GraphQuery → GraphAnswer
  | .traverse startIds relationTypes depth revision => { entities := graph.traverse startIds relationTypes depth revision }
  | .traverseReverse startIds relationTypes depth revision =>
    { entities := graph.traverseReverse startIds relationTypes depth revision }
  | .neighborhood startIds relationTypes direction revision =>
    { entities := graph.neighborhood startIds relationTypes direction revision }
  | .findEntities query => { entities := graph.findEntities query }
  | .findRelations query => { relations := graph.findRelations query }

def Neo4jKnowledgeGraph.answer (server : Neo4jServer) (graph : Neo4jDatabase) : GraphQuery → Except PyException GraphAnswer
  | .traverse startIds relationTypes depth revision => do
    pure { entities := ← traverseFrom server graph startIds (some relationTypes) depth .forward revision }
  | .traverseReverse startIds relationTypes depth revision => do
    pure { entities := ← traverseFrom server graph startIds (some relationTypes) depth .reverse revision }
  | .neighborhood startIds relationTypes direction revision => do
    pure { entities := ← traverseFrom server graph startIds relationTypes 1 direction revision }
  | .findEntities query => do pure { entities := ← findEntities graph query }
  | .findRelations query => do pure { relations := ← findRelations graph query }

structure SameAnswer (a b : GraphAnswer) : Prop where
  ids : ∀ id, id ∈ a.entities.map (fun e => e.id) ↔ id ∈ b.entities.map fun e => e.id
  edges : ∀ edge, edge ∈ a.relations.map (fun e => e.toGraphRelation) ↔ edge ∈ b.relations.map fun e => e.toGraphRelation

def AnswersAlike (server : Neo4jServer) (calls : List GraphCall) (query : GraphQuery) : Prop :=
  ∃ answer, Neo4jKnowledgeGraph.answer server (Neo4jKnowledgeGraph.applyAll server {} calls) query = .ok answer ∧
    SameAnswer ((InMemoryKnowledgeGraph.applyAll {} calls).answer query) answer

/-- A traversal names the types it follows or none, and a revision that stays
between its quotes. -/
def PlainQuery : GraphQuery → Prop
  | .traverse _ relationTypes _ revision => relationTypes ≠ [] ∧ revision.all Neo4jKnowledgeGraph.staysQuoted
  | .traverseReverse _ relationTypes _ revision => relationTypes ≠ [] ∧ revision.all Neo4jKnowledgeGraph.staysQuoted
  | .neighborhood _ relationTypes _ revision => relationTypes ≠ some [] ∧ revision.all Neo4jKnowledgeGraph.staysQuoted
  | _ => True

/-! ### Values read back -/

theorem lookup_map_snd {α β γ : Type} [DecidableEq α] (f : β → γ) (entries : List (α × β)) (name : α) :
    (entries.map fun entry => (entry.1, f entry.2)).lookup name = (entries.lookup name).map f := by
  induction entries with
  | nil => rfl
  | cons entry entries ih =>
    rw [List.map_cons, List.lookup_cons, List.lookup_cons, ih]
    split <;> rfl

theorem pyGet_recordOf (properties : Cypher.Properties CypherValue) (name : String) :
    pyGet (recordOf properties) name = ((properties.value name).map CypherValue.load).getD .none := by
  have found : properties.items.lookup name = properties.value name := by
    rw [Cypher.Properties.value, Keyed.get]
    induction properties.items with
    | nil => rfl
    | cons entry entries ih =>
      rw [List.lookup_cons, List.find?_cons]
      by_cases same : entry.1 = name
      · simp [same]
      · have other : (name == entry.1) = false := beq_eq_false_iff_ne.mpr (Ne.symm same)
        simp [same, other, ih]
  rw [pyGet, recordOf, lookup_map_snd, found]

@[simp] theorem load_text (s : String) : (CypherValue.text s).load = .str s := rfl

theorem parse_text (id : Uuid) : Uuid.parse id.text = .ok id := by rw [Uuid.parse, Uuid.read_text]

theorem GraphLabel.ofValue_value (label : GraphLabel) : GraphLabel.ofValue label.value = .ok label := by cases label <;> rfl

theorem RelationType.ofValue_value (type : RelationType) : RelationType.ofValue type.value = .ok type := by cases type <;> rfl

theorem GraphLabel.value_injective {a b : GraphLabel} (same : a.value = b.value) : a = b := by
  have read := GraphLabel.ofValue_value a
  rw [same, GraphLabel.ofValue_value] at read
  exact (Except.ok.inj read).symm

theorem RelationType.value_injective {a b : RelationType} (same : a.value = b.value) : a = b := by
  have read := RelationType.ofValue_value a
  rw [same, RelationType.ofValue_value] at read
  exact (Except.ok.inj read).symm

theorem truthy_text {s : String} (named : s ≠ "") : (PyValue.str s).truthy = true := by simpa [PyValue.truthy] using named

theorem or_text {s : String} (named : s ≠ "") (other : PyValue) : (PyValue.str s).or other = .str s :=
  if_pos (truthy_text named)

theorem uuidText_ne (id : Uuid) : id.text ≠ "" := by
  cases id <;> simp [Uuid.text]

theorem strOrNone_value (value : Option String) :
    strOrNone (((value.map CypherValue.text).map CypherValue.load).getD .none) = value := by
  cases value <;> rfl

theorem entityFromRecord_of_shows {n : Cypher.Node CypherValue} {e : GraphNode} (shows : Shows n e) :
    ∃ g, entityFromRecord (recordOf n.properties) = .ok g ∧ g.id = e.id := by
  have label : labelFromRecord (recordOf n.properties) = e.label.value := by
    have named : e.label.value ≠ "" := by cases e.label <;> decide
    simp only [labelFromRecord, pyGet_recordOf, shows.shown, Option.map_some, Option.getD_some, load_text]
    rw [if_pos (truthy_text named)]
    rfl
  have id : (pyGet (recordOf n.properties) "id").text = e.id.text := by
    rw [pyGet_recordOf, shows.id]
    rfl
  unfold entityFromRecord
  rw [label, id, parse_text, GraphLabel.ofValue_value]
  exact ⟨_, rfl, rfl⟩

theorem relationFromRecord_of_draws {ids : List Uuid} {r : Cypher.Relationship CypherValue} {e : GraphRelation}
    (draws : Draws ids r e) (a b : RawDict) :
    ∃ g, relationFromRecord a b (recordOf r.properties) r.type = .ok g ∧ g.toGraphRelation = e := by
  have subject : ((pyGet (recordOf r.properties) "subject_id").or (pyGet a "id")).text = e.subjectId.text := by
    rw [pyGet_recordOf, draws.subject]
    exact congrArg PyValue.text (or_text (uuidText_ne _) _)
  have object : ((pyGet (recordOf r.properties) "object_id").or (pyGet b "id")).text = e.objectId.text := by
    rw [pyGet_recordOf, draws.object]
    exact congrArg PyValue.text (or_text (uuidText_ne _) _)
  have type : ∀ other, ((PyValue.str r.type).or other).text = e.relationType.value := by
    intro other
    have named : e.relationType.value ≠ "" := by cases e.relationType <;> decide
    rw [draws.type, or_text named]
    rfl
  have revision : strOrNone (pyGet (recordOf r.properties) "revision") = e.revision := by
    rw [pyGet_recordOf, draws.revision]
    exact strOrNone_value e.revision
  unfold relationFromRecord
  rw [subject, object, type, parse_text, parse_text, RelationType.ofValue_value, revision]
  exact ⟨_, rfl, rfl⟩

theorem mapM_reads {α β κ : Type} {f : α → Except PyException β} {key : β → κ} {Of : α → κ → Prop} {l : List α}
    (reads : ∀ a ∈ l, ∃ b, f a = .ok b ∧ ∀ k, Of a k ↔ key b = k) :
    ∃ bs, l.mapM f = .ok bs ∧ ∀ k, k ∈ bs.map key ↔ ∃ a ∈ l, Of a k := by
  induction l with
  | nil => exact ⟨[], rfl, by simp⟩
  | cons a l ih =>
    obtain ⟨b, first, isOf⟩ := reads a (List.mem_cons_self ..)
    obtain ⟨bs, rest, among⟩ := ih fun c later => reads c (List.mem_cons_of_mem _ later)
    refine ⟨b :: bs, by rw [List.mapM_cons, first, rest]; rfl, fun k => ?_⟩
    rw [List.map_cons, List.mem_cons, among, List.exists_mem_cons_iff, isOf, eq_comm]

/-! ### The answers agree -/

namespace Neo4jKnowledgeGraph
variable {memory : InMemoryKnowledgeGraph} {edges : List GraphEdge} {graph : Neo4jDatabase}

def HasId (n : Cypher.Node CypherValue) (id : Uuid) : Prop := n.properties.value "id" = some (.text id.text)

theorem hasId_iff {n : Cypher.Node CypherValue} {e : GraphNode} (shows : Shows n e) {id : Uuid} : HasId n id ↔ e.id = id := by
  rw [HasId, shows.id, Option.some.injEq, uuidText_inj]

theorem read_nodes (represents : Represents memory edges graph) {nodes : List (Cypher.Node CypherValue)}
    (among : ∀ n ∈ nodes, n ∈ graph.nodes) :
    ∃ gs, nodes.mapM (fun n => entityFromRecord (recordOf n.properties)) = .ok gs ∧
      ∀ id, id ∈ gs.map (fun g => g.id) ↔ ∃ n ∈ nodes, HasId n id := by
  apply mapM_reads
  intro n member
  obtain ⟨i, atPlace⟩ := List.getElem?_of_mem (among n member)
  obtain ⟨e, _, shows⟩ := represents.entity_at atPlace
  obtain ⟨g, reads, same⟩ := entityFromRecord_of_shows shows
  exact ⟨g, reads, fun id => by rw [hasId_iff shows, same]⟩

theorem passesEntity_iff {n : Cypher.Node CypherValue} {e : GraphNode} (shows : Shows n e) (query : EntityQuery) :
    passesEntity query n.properties = query.passes e := by
  obtain ⟨label, projectId, revision⟩ := query
  have labels : ∀ l : GraphLabel, CypherValue.text e.label.value = .text l.value ↔ e.label = l := by
    intro l
    rw [CypherValue.text_inj]
    exact ⟨GraphLabel.value_injective, congrArg GraphLabel.value⟩
  simp only [passesEntity, EntityQuery.passes, shows.shown, shows.project, shows.revision, Option.some.injEq, labels]
  congr 1
  · congr 1
    cases e.projectId <;> simp [Uuid.text_inj]
  · cases e.revision <;> simp

theorem findEntities_alike (represents : Represents memory edges graph) (query : EntityQuery) :
    ∃ gs, findEntities graph query = .ok gs ∧
      ∀ id, id ∈ (memory.findEntities query).map (fun e => e.id) ↔ id ∈ gs.map fun g => g.id := by
  obtain ⟨gs, reads, ids⟩ := @read_nodes _ _ _ represents (graph.nodes.filter fun n => passesEntity query n.properties)
    fun n member => (List.mem_filter.mp member).1
  refine ⟨gs, reads, fun id => ?_⟩
  rw [ids, List.mem_map]
  constructor
  · rintro ⟨e, member, rfl⟩
    obtain ⟨stored, passes⟩ := List.mem_filter.mp member
    obtain ⟨i, atPlace⟩ := List.getElem?_of_mem stored
    obtain ⟨n, atNode, shows⟩ := represents.node_at atPlace
    refine ⟨n, List.mem_filter.mpr ⟨List.mem_of_getElem? atNode, ?_⟩, (hasId_iff shows).mpr rfl⟩
    rw [passesEntity_iff shows, passes]
  · rintro ⟨n, member, hasId⟩
    obtain ⟨stored, passes⟩ := List.mem_filter.mp member
    obtain ⟨i, atPlace⟩ := List.getElem?_of_mem stored
    obtain ⟨e, atEntity, shows⟩ := represents.entity_at atPlace
    rw [passesEntity_iff shows] at passes
    exact ⟨e, List.mem_filter.mpr ⟨List.mem_of_getElem? atEntity, passes⟩, (hasId_iff shows).mp hasId⟩

/-! ### Relations -/

theorem typeValue_inj {a b : RelationType} : a.value = b.value ↔ a = b :=
  ⟨RelationType.value_injective, congrArg RelationType.value⟩

theorem passesRelation_iff {ids : List Uuid} {r : Cypher.Relationship CypherValue} {e : GraphRelation} (draws : Draws ids r e)
    (query : RelationQuery) : passesRelation query r = query.passes e := by
  simp only [passesRelation, RelationQuery.passes, draws.type, draws.subject, draws.object, draws.revision, Option.some.injEq,
    uuidText_inj, typeValue_inj]
  congr 1
  cases e.revision <;> simp

theorem findRelations_edges (wrote : memory.Wrote edges)
    (one : ∀ e ∈ edges, ∀ other ∈ edges, e.ends = other.ends → e.revision = other.revision) (query : RelationQuery)
    (edge : GraphRelation) :
    edge ∈ (memory.findRelations query).map (fun e => e.toGraphRelation) ↔
      ∃ e ∈ edges, query.passes e.toGraphRelation = true ∧ e.toGraphRelation = edge := by
  rw [List.mem_map]
  constructor
  · rintro ⟨e, found, rfl⟩
    obtain ⟨member, _⟩ := first_eq_some ((InMemoryKnowledgeGraph.mem_findRelations wrote query e).mp found)
    obtain ⟨isEdge, passes⟩ := List.mem_filter.mp member
    exact ⟨e, isEdge, passes, rfl⟩
  · rintro ⟨e, isEdge, passes, rfl⟩
    have listed : e.ends ∈ (edges.filter fun e => query.passes e.toGraphRelation).map InMemoryKnowledgeGraph.endsOf :=
      List.mem_map.mpr ⟨e, List.mem_filter.mpr ⟨isEdge, passes⟩, rfl⟩
    obtain ⟨f, isFirst⟩ := exists_first listed
    obtain ⟨member, ends⟩ := first_eq_some isFirst
    have same : f.toGraphRelation = e.toGraphRelation :=
      InMemoryKnowledgeGraph.identity_of_ends ends (one f (List.mem_filter.mp member).1 e isEdge ends)
    refine ⟨f, (InMemoryKnowledgeGraph.mem_findRelations wrote query f).mpr ?_, same⟩
    rw [show f.ends = e.ends from ends, isFirst]

theorem findRelations_alike (represents : Represents memory edges graph) (wrote : memory.Wrote edges)
    (one : ∀ e ∈ edges, ∀ other ∈ edges, e.ends = other.ends → e.revision = other.revision) (query : RelationQuery) :
    ∃ gs, findRelations graph query = .ok gs ∧ ∀ edge,
      edge ∈ (memory.findRelations query).map (fun e => e.toGraphRelation) ↔ edge ∈ gs.map fun g => g.toGraphRelation := by
  have reads : ∀ r ∈ graph.relationships.filter (passesRelation query), ∃ g,
      relationFromRecord (nodeRecord graph r.source) (nodeRecord graph r.target) (recordOf r.properties) r.type = .ok g ∧
        ∀ edge, (∃ e ∈ edges, Draws memory.ids r e.toGraphRelation ∧ e.toGraphRelation = edge) ↔ g.toGraphRelation = edge := by
    intro r member
    obtain ⟨e, isEdge, draws⟩ := represents.drawn r (List.mem_filter.mp member).1
    obtain ⟨g, reads, same⟩ := relationFromRecord_of_draws draws (nodeRecord graph r.source) (nodeRecord graph r.target)
    refine ⟨g, reads, fun edge => ⟨?_, fun equal => ⟨e, isEdge, draws, same.symm.trans equal⟩⟩⟩
    rintro ⟨other, _, draws', rfl⟩
    obtain ⟨g', reads', same'⟩ := relationFromRecord_of_draws draws' (nodeRecord graph r.source) (nodeRecord graph r.target)
    obtain rfl : g = g' := Except.ok.inj (reads.symm.trans reads')
    exact same'
  obtain ⟨gs, found, among⟩ := mapM_reads reads
  refine ⟨gs, found, fun edge => ?_⟩
  rw [findRelations_edges wrote one, among]
  constructor
  · rintro ⟨e, isEdge, passes, rfl⟩
    obtain ⟨r, member, draws⟩ := represents.present e isEdge
    exact ⟨r, List.mem_filter.mpr ⟨member, (passesRelation_iff draws query).trans passes⟩, e, isEdge, draws, rfl⟩
  · rintro ⟨r, member, e, isEdge, draws, rfl⟩
    exact ⟨e, isEdge, (passesRelation_iff draws query).symm.trans (List.mem_filter.mp member).2, rfl⟩

/-! ### Traversals -/

theorem bfs_eq_search (memory : InMemoryKnowledgeGraph) (direction : Direction) (relationTypes : Option (List RelationType))
    (revision : Option String) (depth : Nat) (reached frontier : List Uuid) :
    memory.bfs direction relationTypes revision depth reached frontier =
      Trails.search (memory.neighbors direction relationTypes revision) depth reached frontier := by
  induction depth generalizing reached frontier with
  | zero => rfl
  | succ depth ih =>
    rw [InMemoryKnowledgeGraph.bfs, Trails.search]
    split
    · rfl
    · rw [ih]
      congr 1
      refine List.filter_congr fun id _ => ?_
      rw [Bool.eq_iff_iff]
      simp

theorem mem_neighbors (wrote : memory.Wrote edges) {direction : Direction} {relationTypes : Option (List RelationType)}
    {revision : Option String} {x y : Uuid} :
    y ∈ memory.neighbors direction relationTypes revision x ↔ ∃ e ∈ edges,
      (orientation direction).Leads e.subjectId e.objectId x y ∧
        InMemoryKnowledgeGraph.follows relationTypes revision e.toGraphRelation = true := by
  have out : y ∈ memory.outNeighbors relationTypes revision x ↔ ∃ e ∈ edges,
      (e.subjectId = x ∧ e.objectId = y) ∧ InMemoryKnowledgeGraph.follows relationTypes revision e.toGraphRelation = true := by
    simp only [InMemoryKnowledgeGraph.outNeighbors, InMemoryKnowledgeGraph.under_out wrote, List.mem_map, List.mem_filter,
      decide_eq_true_eq]
    grind
  have into : y ∈ memory.inNeighbors relationTypes revision x ↔ ∃ e ∈ edges,
      (e.objectId = x ∧ e.subjectId = y) ∧ InMemoryKnowledgeGraph.follows relationTypes revision e.toGraphRelation = true := by
    simp only [InMemoryKnowledgeGraph.inNeighbors, InMemoryKnowledgeGraph.under_in wrote, List.mem_map, List.mem_filter,
      decide_eq_true_eq]
    grind
  cases direction with
  | forward => exact out
  | reverse => exact into
  | both =>
    rw [InMemoryKnowledgeGraph.neighbors, List.mem_append, out, into]
    simp only [orientation, Cypher.Orientation.Leads]
    grind

theorem follows_iff {ids : List Uuid} {r : Cypher.Relationship CypherValue} {e : GraphRelation} (draws : Draws ids r e)
    {relationTypes : Option (List RelationType)} (named : relationTypes ≠ some []) (revision : Option String) :
    (typesPredicate relationTypes r && revPredicate revision r) = InMemoryKnowledgeGraph.follows relationTypes revision e := by
  have types : typesPredicate relationTypes r = relationTypes.all (·.contains e.relationType) := by
    cases relationTypes with
    | none => rfl
    | some types =>
      cases types with
      | nil => exact absurd rfl named
      | cons first rest =>
        rw [typesPredicate, Option.all_some, Bool.eq_iff_iff, List.any_eq_true, List.contains_iff_mem]
        simp only [decide_eq_true_eq, draws.type, typeValue_inj]
        exact ⟨fun ⟨_, listed, same⟩ => same ▸ listed, fun listed => ⟨_, listed, rfl⟩⟩
        all_goals simp
  have revisions : revPredicate revision r = revision.all (e.revision = some ·) := by
    simp only [revPredicate, draws.revision]
    cases e.revision <;> simp
  rw [types, revisions, InMemoryKnowledgeGraph.follows]

/-- The step of a path pattern, between places. -/
def Takes (graph : Neo4jDatabase) (direction : Direction) (relationTypes : Option (List RelationType)) (revision : Option String)
    (i j : Nat) : Prop :=
  ∃ r ∈ graph.relationships, (orientation direction).Leads r.source r.target i j ∧
    (typesPredicate relationTypes r && revPredicate revision r) = true

section Walks
variable {direction : Direction} {relationTypes : Option (List RelationType)} {revision : Option String}

theorem takes_neighbor (represents : Represents memory edges graph) (wrote : memory.Wrote edges) (named : relationTypes ≠ some [])
    (i j : Nat) (x : Uuid) (here : memory.ids[i]? = some x) (takes : Takes graph direction relationTypes revision i j) :
    ∃ y, memory.ids[j]? = some y ∧ y ∈ memory.neighbors direction relationTypes revision x := by
  obtain ⟨r, member, leads, passes⟩ := takes
  obtain ⟨e, isEdge, draws⟩ := represents.drawn r member
  rw [follows_iff draws named] at passes
  have source : ∀ {x : Uuid}, memory.ids[r.source]? = some x → e.subjectId = x := fun atPlace =>
    Option.some.inj (draws.source.symm.trans atPlace)
  have target : ∀ {x : Uuid}, memory.ids[r.target]? = some x → e.objectId = x := fun atPlace =>
    Option.some.inj (draws.target.symm.trans atPlace)
  have forward : r.source = i ∧ r.target = j → memory.ids[j]? = some e.objectId ∧ e.subjectId = x := by
    rintro ⟨rfl, rfl⟩
    exact ⟨draws.target, source here⟩
  have backward : r.target = i ∧ r.source = j → memory.ids[j]? = some e.subjectId ∧ e.objectId = x := by
    rintro ⟨rfl, rfl⟩
    exact ⟨draws.source, target here⟩
  cases direction with
  | forward =>
    obtain ⟨there, same⟩ := forward leads
    exact ⟨_, there, (mem_neighbors wrote).mpr ⟨e, isEdge, ⟨same, rfl⟩, passes⟩⟩
  | reverse =>
    obtain ⟨there, same⟩ := backward leads
    exact ⟨_, there, (mem_neighbors wrote).mpr ⟨e, isEdge, ⟨same, rfl⟩, passes⟩⟩
  | both =>
    rcases leads with out | into
    · obtain ⟨there, same⟩ := forward out
      exact ⟨_, there, (mem_neighbors wrote).mpr ⟨e, isEdge, Or.inl ⟨same, rfl⟩, passes⟩⟩
    · obtain ⟨there, same⟩ := backward into
      exact ⟨_, there, (mem_neighbors wrote).mpr ⟨e, isEdge, Or.inr ⟨same, rfl⟩, passes⟩⟩

theorem neighbor_takes (represents : Represents memory edges graph) (wrote : memory.Wrote edges) (named : relationTypes ≠ some [])
    (x y : Uuid) (i : Nat) (here : memory.ids[i]? = some x) (next : y ∈ memory.neighbors direction relationTypes revision x) :
    ∃ j, memory.ids[j]? = some y ∧ Takes graph direction relationTypes revision i j := by
  obtain ⟨e, isEdge, leads, follows⟩ := (mem_neighbors wrote).mp next
  obtain ⟨r, member, draws⟩ := represents.present e isEdge
  rw [← follows_iff draws named] at follows
  have forward : e.subjectId = x ∧ e.objectId = y → memory.ids[r.target]? = some y ∧ r.source = i := by
    rintro ⟨rfl, rfl⟩
    exact ⟨draws.target, ids_injective draws.source here⟩
  have backward : e.objectId = x ∧ e.subjectId = y → memory.ids[r.source]? = some y ∧ r.target = i := by
    rintro ⟨rfl, rfl⟩
    exact ⟨draws.source, ids_injective draws.target here⟩
  cases direction with
  | forward =>
    obtain ⟨there, same⟩ := forward leads
    exact ⟨_, there, r, member, ⟨same, rfl⟩, follows⟩
  | reverse =>
    obtain ⟨there, same⟩ := backward leads
    exact ⟨_, there, r, member, ⟨same, rfl⟩, follows⟩
  | both =>
    rcases leads with out | into
    · obtain ⟨there, same⟩ := forward out
      exact ⟨_, there, r, member, Or.inl ⟨same, rfl⟩, follows⟩
    · obtain ⟨there, same⟩ := backward into
      exact ⟨_, there, r, member, Or.inr ⟨same, rfl⟩, follows⟩

theorem neighbor_listed (represents : Represents memory edges graph) (wrote : memory.Wrote edges) {x y : Uuid}
    (next : y ∈ memory.neighbors direction relationTypes revision x) : ∃ i : Nat, memory.ids[i]? = some x := by
  obtain ⟨e, isEdge, leads, _⟩ := (mem_neighbors wrote).mp next
  obtain ⟨r, _, draws⟩ := represents.present e isEdge
  cases direction with
  | forward => exact ⟨_, leads.1 ▸ draws.source⟩
  | reverse => exact ⟨_, leads.1 ▸ draws.target⟩
  | both =>
    rcases leads with out | into
    · exact ⟨_, out.1 ▸ draws.source⟩
    · exact ⟨_, into.1 ▸ draws.target⟩

theorem mem_startsAt (represents : Represents memory edges graph) {startIds : List Uuid} {i : Nat} :
    i ∈ startsAt graph startIds ↔ ∃ x ∈ startIds, memory.ids[i]? = some x := by
  rw [startsAt, Cypher.Graph.mem_matching]
  simp only [List.any_eq_true, decide_eq_true_eq, represents.id_at]
  grind

theorem mem_reachedFrom {startIds : List Uuid} {depth : Nat} {m : Nat} :
    m ∈ reachedFrom graph startIds relationTypes depth direction revision ↔
      ∃ i ∈ startsAt graph startIds, Trails.Within (Takes graph direction relationTypes revision) depth i m := by
  rw [reachedFrom, List.mem_dedup, List.mem_append, List.mem_flatMap]
  have path := fun i => @Cypher.Graph.mem_varLength _ graph (orientation direction) depth
    (fun r => typesPredicate relationTypes r && revPredicate revision r) i m
  constructor
  · rintro (isStart | ⟨i, isStart, ends⟩)
    · exact ⟨m, isStart, Trails.within_refl _ _ _⟩
    · exact ⟨i, isStart, (path i).mp (Or.inr ends)⟩
  · rintro ⟨i, isStart, walk⟩
    rcases (path i).mpr walk with rfl | ends
    · exact Or.inl isStart
    · exact Or.inr ⟨i, isStart, ends⟩

theorem reached_alike (represents : Represents memory edges graph) (wrote : memory.Wrote edges) (named : relationTypes ≠ some [])
    (startIds : List Uuid) (depth : Nat) (id : Uuid) :
    (id ∈ memory.ids ∧ id ∈ memory.bfs direction relationTypes revision depth [] startIds) ↔
      ∃ m ∈ reachedFrom graph startIds relationTypes depth direction revision, memory.ids[m]? = some id := by
  rw [bfs_eq_search, Trails.mem_search_nil]
  simp only [mem_reachedFrom]
  constructor
  · rintro ⟨isEntity, x, isStart, walk⟩
    have listed : ∃ i : Nat, memory.ids[i]? = some x := by
      cases depth with
      | zero => exact List.getElem?_of_mem (walk ▸ isEntity)
      | succ depth =>
        rcases walk with rfl | ⟨y, next, _⟩
        · exact List.getElem?_of_mem isEntity
        · exact neighbor_listed represents wrote next
    obtain ⟨i, atStart⟩ := listed
    obtain ⟨m, atEnd, walk'⟩ := walk.follow (R := fun (x : Uuid) (i : Nat) => memory.ids[i]? = some x)
      (neighbor_takes represents wrote named) atStart
    exact ⟨m, ⟨i, (mem_startsAt represents).mpr ⟨x, isStart, atStart⟩, walk'⟩, atEnd⟩
  · rintro ⟨m, ⟨i, isStart, walk⟩, atEnd⟩
    obtain ⟨x, listed, atStart⟩ := (mem_startsAt represents).mp isStart
    obtain ⟨id', atEnd', walk'⟩ := walk.follow (R := fun (i : Nat) (x : Uuid) => memory.ids[i]? = some x)
      (takes_neighbor represents wrote named) atStart
    obtain rfl : id' = id := Option.some.inj (atEnd'.symm.trans atEnd)
    exact ⟨List.mem_of_getElem? atEnd, x, listed, walk'⟩

theorem traverse_alike (server : Neo4jServer) (represents : Represents memory edges graph) (wrote : memory.Wrote edges)
    (named : relationTypes ≠ some []) (quoted : revision.all staysQuoted = true) (startIds : List Uuid) (depth : Nat) :
    ∃ gs, traverseFrom server graph startIds relationTypes depth direction revision = .ok gs ∧
      ∀ id, id ∈ (memory.traverseFrom startIds relationTypes depth direction revision).map (fun e => e.id) ↔
        id ∈ gs.map fun g => g.id := by
  have inMemory : ∀ id, id ∈ (memory.traverseFrom startIds relationTypes depth direction revision).map (fun e => e.id) ↔
      id ∈ memory.ids ∧ id ∈ memory.bfs direction relationTypes revision depth [] startIds := by
    intro id
    simp only [InMemoryKnowledgeGraph.traverseFrom, InMemoryKnowledgeGraph.ids, List.mem_map, List.mem_filter,
      List.contains_iff_mem]
    grind
  simp only [inMemory, reached_alike represents wrote named]
  cases startIds with
  | nil =>
    refine ⟨[], rfl, fun id => ⟨?_, fun member => absurd member List.not_mem_nil⟩⟩
    rintro ⟨m, member, _⟩
    obtain ⟨i, isStart, _⟩ := mem_reachedFrom.mp member
    obtain ⟨x, listed, _⟩ := (mem_startsAt represents).mp isStart
    cases listed
  | cons x startIds =>
    have plain : (revision.filter fun text => !staysQuoted text) = none := by
      cases revision with
      | none => rfl
      | some text => simpa [Option.filter] using quoted
    obtain ⟨gs, reads, ids⟩ := @read_nodes _ _ _ represents
      ((reachedFrom graph (x :: startIds) relationTypes depth direction revision).filterMap (graph.nodes[·]?)) fun n member => by
        obtain ⟨i, _, atPlace⟩ := List.mem_filterMap.mp member
        exact List.mem_of_getElem? atPlace
    refine ⟨gs, by rw [traverseFrom, plain]; exact reads, fun id => ?_⟩
    rw [ids]
    constructor
    · rintro ⟨m, member, atPlace⟩
      obtain ⟨n, atNode, hasId⟩ := represents.id_at.mp atPlace
      exact ⟨n, List.mem_filterMap.mpr ⟨m, member, atNode⟩, hasId⟩
    · rintro ⟨n, member, hasId⟩
      obtain ⟨m, reached, atNode⟩ := List.mem_filterMap.mp member
      exact ⟨m, reached, represents.id_at.mpr ⟨n, atNode, hasId⟩⟩

end Walks

/-! ### Runs -/

theorem answer_alike (server : Neo4jServer) (represents : Represents memory edges graph) (wrote : memory.Wrote edges)
    (one : ∀ e ∈ edges, ∀ other ∈ edges, e.ends = other.ends → e.revision = other.revision) {query : GraphQuery}
    (plain : PlainQuery query) : ∃ result, answer server graph query = .ok result ∧ SameAnswer (memory.answer query) result := by
  have traversed : ∀ (startIds : List Uuid) (relationTypes : Option (List RelationType)) (depth : Nat) (direction : Direction)
      (revision : Option String), relationTypes ≠ some [] → revision.all staysQuoted = true →
      ∃ gs, traverseFrom server graph startIds relationTypes depth direction revision = .ok gs ∧
        SameAnswer { entities := memory.traverseFrom startIds relationTypes depth direction revision } { entities := gs } := by
    intro startIds relationTypes depth direction revision named quoted
    obtain ⟨gs, runs, ids⟩ := @traverse_alike _ _ _ direction _ _ server represents wrote named quoted startIds depth
    exact ⟨gs, runs, ids, fun edge => Iff.rfl⟩
  cases query with
  | traverse startIds relationTypes depth revision =>
    obtain ⟨gs, runs, same⟩ := traversed startIds (some relationTypes) depth .forward revision (by simpa using plain.1) plain.2
    exact ⟨{ entities := gs }, by rw [answer, runs]; rfl, same⟩
  | traverseReverse startIds relationTypes depth revision =>
    obtain ⟨gs, runs, same⟩ := traversed startIds (some relationTypes) depth .reverse revision (by simpa using plain.1) plain.2
    exact ⟨{ entities := gs }, by rw [answer, runs]; rfl, same⟩
  | neighborhood startIds relationTypes direction revision =>
    obtain ⟨gs, runs, same⟩ := traversed startIds relationTypes 1 direction revision plain.1 plain.2
    exact ⟨{ entities := gs }, by rw [answer, runs]; rfl, same⟩
  | findEntities query =>
    obtain ⟨gs, runs, ids⟩ := findEntities_alike represents query
    exact ⟨{ entities := gs }, by rw [answer, runs]; rfl, ids, fun edge => Iff.rfl⟩
  | findRelations query =>
    obtain ⟨gs, runs, same⟩ := findRelations_alike represents wrote one query
    exact ⟨{ relations := gs }, by rw [answer, runs]; rfl, fun id => Iff.rfl, same⟩

/-- While the calls are plain each of them returns, and after each both adapters
answer alike. -/
theorem adapters_agree (server : Neo4jServer) {calls : List GraphCall} (plain : PlainCalls calls) :
    (∀ before call, before ++ [call] <+: calls → (apply server (applyAll server {} before) call).1 = .ok ()) ∧
      ∀ before, before <+: calls → ∀ query, PlainQuery query → AnswersAlike server before query := by
  constructor
  · rintro before call ⟨rest, rfl⟩
    have plainBefore : PlainCalls (before ++ [call]) := plain.of_append
    exact (built_append (built_of_plain server plainBefore.of_append) plainBefore).1
  · rintro before ⟨rest, rfl⟩ query plainQuery
    have plainBefore : PlainCalls before := plain.of_append
    have wrote := InMemoryKnowledgeGraph.wrote_applyAll InMemoryKnowledgeGraph.wrote_empty before
    rw [List.nil_append] at wrote
    exact answer_alike server (built_of_plain server plainBefore).represents wrote plainBefore.revisions plainQuery

/-- A server that finds nothing where a revision leaves its quotes. -/
def quietServer : Neo4jServer where
  refusal _ := ⟨"CypherTypeError", ""⟩
  unquoted _ _ _ _ _ _ := .ok []

def callEdge (revision : Option String) : List GraphCall :=
  [.upsertEntities [{ id := .v5 "a", label := .symbol }, { id := .v5 "b", label := .symbol }],
    .upsertRelations [{ subjectId := .v5 "a", relationType := .calls, objectId := .v5 "b", revision := revision }]]

theorem callEdge_plain : PlainCalls (callEdge (some "abc")) := by
  have nothing : ∀ name text, Keeps [] name text := fun name text value member => absurd member List.not_mem_nil
  have stores : Storable [] := fun entry member => absurd member List.not_mem_nil
  refine ⟨?_, ?_, ?_, ?_, ?_⟩
  · intro e member
    simp only [callEdge, writtenEntities, GraphCall.entities, List.flatMap_cons, List.flatMap_nil, List.append_nil,
      List.mem_cons, List.not_mem_nil, or_false] at member
    rcases member with rfl | rfl <;> exact ⟨stores, nothing _ _, nothing _ _⟩
  · intro e member other member' _
    simp only [callEdge, writtenEntities, GraphCall.entities, List.flatMap_cons, List.flatMap_nil, List.append_nil,
      List.mem_cons, List.not_mem_nil, or_false] at member member'
    rcases member with rfl | rfl <;> rcases member' with rfl | rfl <;> rfl
  · intro r member
    obtain rfl : r = { subjectId := .v5 "a", relationType := .calls, objectId := .v5 "b", revision := some "abc" } := by
      simpa [callEdge, written, GraphCall.relations] using member
    exact ⟨stores, by simp, nothing _ _, nothing _ _, nothing _ _⟩
  · intro r member other member' _
    simp only [callEdge, written, GraphCall.relations, List.flatMap_cons, List.flatMap_nil, List.append_nil, List.nil_append,
      List.mem_singleton] at member member'
    rw [member, member']
  · rintro before call isPrefix r member
    cases before with
    | nil =>
      obtain rfl := (List.cons_prefix_cons.mp isPrefix).1
      cases member
    | cons first before =>
      obtain ⟨rfl, later⟩ := List.cons_prefix_cons.mp isPrefix
      cases before with
      | nil =>
        obtain rfl := (List.cons_prefix_cons.mp later).1
        obtain rfl : r = _ := List.mem_singleton.mp member
        simp [writtenEntities, GraphCall.entities]
      | cons second before =>
        have length := later.length_le
        simp at length

theorem callEdge_agrees : AnswersAlike quietServer (callEdge (some "abc")) (.findRelations {}) :=
  (adapters_agree quietServer callEdge_plain).2 _ List.prefix_rfl _ trivial

/-- The database has the empty text for a revision that is missing. -/
theorem unrevised_differs : ¬ AnswersAlike quietServer (callEdge none) (.findRelations {}) := by
  rintro ⟨result, found, same⟩
  have inMemory : (⟨.v5 "a", .calls, .v5 "b", none⟩ : GraphRelation) ∈
      ((InMemoryKnowledgeGraph.applyAll {} (callEdge none)).answer (.findRelations {})).relations.map fun e => e.toGraphRelation := by
    decide
  have computed : (answer quietServer (applyAll quietServer {} (callEdge none)) (.findRelations {})).map
      (fun result => result.relations.map fun e => e.toGraphRelation) = .ok [⟨.v5 "a", .calls, .v5 "b", some ""⟩] := by
    rfl
  have listed := (same.edges _).mp inMemory
  rw [found] at computed
  have edges : result.relations.map (fun e => e.toGraphRelation) = [⟨.v5 "a", .calls, .v5 "b", some ""⟩] := Except.ok.inj computed
  rw [edges] at listed
  revert listed
  decide

end Neo4jKnowledgeGraph
end Brain
