import Brain.Graph.Agreement

namespace Brain

def GraphRelation.Leads (relation : GraphRelation) : Direction → Uuid → Uuid → Prop
  | .forward, x, y => relation.subjectId = x ∧ relation.objectId = y
  | .reverse, x, y => relation.objectId = x ∧ relation.subjectId = y
  | .both, x, y => relation.subjectId = x ∧ relation.objectId = y ∨ relation.objectId = x ∧ relation.subjectId = y

/-- The edge has one of the types and the revision, where these are given. -/
structure GraphRelation.Allowed (types : Option (List RelationType)) (revision : Option String) (relation : GraphRelation) :
    Prop where
  type : ∀ allowed ∈ types, relation.relationType ∈ allowed
  revision : ∀ wanted ∈ revision, relation.revision = some wanted

inductive EdgePath (edges : List GraphEdge) (direction : Direction) (types : Option (List RelationType))
    (revision : Option String) : Uuid → List GraphEdge → Uuid → Prop
  | here (x : Uuid) : EdgePath edges direction types revision x [] x
  | edge {x y z : Uuid} {first : GraphEdge} {path : List GraphEdge} (written : first ∈ edges)
      (leads : first.Leads direction x y) (allowed : first.Allowed types revision)
      (rest : EdgePath edges direction types revision y path z) :
      EdgePath edges direction types revision x (first :: path) z

namespace InMemoryKnowledgeGraph
variable {graph : InMemoryKnowledgeGraph} {edges : List GraphEdge} {direction : Direction}
  {types : Option (List RelationType)} {revision : Option String}

/-- What a traversal returns: the stored entities that a path of at most `depth`
edges leads to from a start, each once. -/
def ReachesExactly (graph : InMemoryKnowledgeGraph) (edges : List GraphEdge) (direction : Direction)
    (types : Option (List RelationType)) (revision : Option String) (startIds : List Uuid) (depth : Nat)
    (found : List GraphNode) : Prop :=
  (found.map fun e => e.id).Nodup ∧ ∀ entity, entity ∈ found ↔ entity ∈ graph.entities.items ∧
    ∃ start ∈ startIds, ∃ path, path.length ≤ depth ∧ EdgePath edges direction types revision start path entity.id

/-- All traversals of a graph are bounded reachability. Called with `None` for the
types, `traverse` and `traverse_reverse` are `traverseFrom` with none. -/
structure TraversesExactly (graph : InMemoryKnowledgeGraph) (edges : List GraphEdge) : Prop where
  traverse : ∀ startIds types depth revision,
    ReachesExactly graph edges .forward (some types) revision startIds depth (graph.traverse startIds types depth revision)
  traverseReverse : ∀ startIds types depth revision,
    ReachesExactly graph edges .reverse (some types) revision startIds depth (graph.traverseReverse startIds types depth revision)
  neighborhood : ∀ startIds types direction revision,
    ReachesExactly graph edges direction types revision startIds 1 (graph.neighborhood startIds types direction revision)
  traverseFrom : ∀ startIds types depth direction revision,
    ReachesExactly graph edges direction types revision startIds depth
      (graph.traverseFrom startIds types depth direction revision)

theorem follows_iff_allowed {relation : GraphRelation} : follows types revision relation = true ↔ relation.Allowed types revision := by
  rw [follows, Bool.and_eq_true]
  constructor
  · rintro ⟨type, wanted⟩
    refine ⟨fun allowed given => ?_, fun text given => ?_⟩
    · rw [Option.mem_def.mp given] at type
      exact List.contains_iff_mem.mp type
    · rw [Option.mem_def.mp given] at wanted
      exact of_decide_eq_true wanted
  · rintro ⟨type, wanted⟩
    constructor
    · cases types with
      | none => rfl
      | some allowed => exact List.contains_iff_mem.mpr (type allowed rfl)
    · cases revision with
      | none => rfl
      | some text => exact decide_eq_true (wanted text rfl)

theorem mem_neighbors_iff (wrote : graph.Wrote edges) {x y : Uuid} :
    y ∈ graph.neighbors direction types revision x ↔ ∃ e ∈ edges, e.Leads direction x y ∧ e.Allowed types revision := by
  rw [Neo4jKnowledgeGraph.mem_neighbors wrote]
  refine exists_congr fun e => and_congr_right fun _ => and_congr ?_ follows_iff_allowed
  cases direction <;> rfl

theorem within_iff_path (wrote : graph.Wrote edges) {depth : Nat} {x z : Uuid} :
    Trails.Within (fun x y => y ∈ graph.neighbors direction types revision x) depth x z ↔
      ∃ path, path.length ≤ depth ∧ EdgePath edges direction types revision x path z := by
  induction depth generalizing x with
  | zero =>
    constructor
    · rintro rfl
      exact ⟨[], Nat.le_refl 0, .here x⟩
    · rintro ⟨path, short, walk⟩
      cases walk with
      | here => rfl
      | edge => exact absurd short (Nat.not_succ_le_zero _)
  | succ depth ih =>
    constructor
    · rintro (rfl | ⟨y, next, rest⟩)
      · exact ⟨[], Nat.zero_le _, .here x⟩
      · obtain ⟨e, written, leads, allowed⟩ := (mem_neighbors_iff wrote).mp next
        obtain ⟨path, short, walk⟩ := ih.mp rest
        exact ⟨e :: path, Nat.succ_le_succ short, .edge written leads allowed walk⟩
    · rintro ⟨path, short, walk⟩
      cases walk with
      | here => exact Or.inl rfl
      | edge written leads allowed rest =>
        have next := (mem_neighbors_iff wrote).mpr ⟨_, written, leads, allowed⟩
        exact Or.inr ⟨_, next, ih.mpr ⟨_, Nat.le_of_succ_le_succ short, rest⟩⟩

theorem traverseFrom_exact (wrote : graph.Wrote edges) (startIds : List Uuid) (depth : Nat) :
    ReachesExactly graph edges direction types revision startIds depth
      (graph.traverseFrom startIds types depth direction revision) := by
  unfold traverseFrom
  refine ⟨graph.entities.nodup.sublist (List.filter_sublist.map _), fun entity => ?_⟩
  rw [List.mem_filter, List.contains_iff_mem, Neo4jKnowledgeGraph.bfs_eq_search, Trails.mem_search_nil]
  simp only [within_iff_path wrote]

/-- Whatever was written to a graph, its traversals are bounded reachability. -/
theorem traversals_exact (calls : List GraphCall) :
    TraversesExactly (({} : InMemoryKnowledgeGraph).applyAll calls) (written calls) := by
  have wrote := wrote_applyAll wrote_empty calls
  rw [List.nil_append] at wrote
  exact {
    traverse := fun startIds _ depth _ => traverseFrom_exact wrote startIds depth
    traverseReverse := fun startIds _ depth _ => traverseFrom_exact wrote startIds depth
    neighborhood := fun startIds _ _ _ => traverseFrom_exact wrote startIds 1
    traverseFrom := fun startIds _ depth _ _ => traverseFrom_exact wrote startIds depth }

end InMemoryKnowledgeGraph

end Brain
