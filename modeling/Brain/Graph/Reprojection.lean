import Brain.CodeGraph.Integrity
import Brain.Graph.Projection

namespace Brain
open InMemoryKnowledgeGraph GraphProjectionService

namespace CanonicalProject
variable (state : CanonicalProject)

/-- The ids of the nodes of a code graph: a symbol's own and its file's. -/
def codeIds (repositoryId : RepositoryId) (revision : String) : List Uuid :=
  (state.listSymbols repositoryId revision).flatMap fun symbol =>
    [fileEntityId repositoryId revision symbol.path, symbol.id]

def ids (revision : Option String) : List Uuid :=
  state.coreIds ++ revision.toList.flatMap fun revision =>
    state.repositories.flatMap fun repository => state.codeIds repository.id revision

variable {state}

theorem mem_codeIds {repositoryId : RepositoryId} {revision : String} {id : Uuid} :
    id ∈ (state.codeEntities repositoryId revision).map (fun n => n.id) ↔ id ∈ state.codeIds repositoryId revision := by
  unfold codeEntities codeIds
  rw [List.mem_flatMap]
  constructor
  · intro listed
    obtain ⟨n, isNode, rfl⟩ := List.mem_map.mp listed
    obtain ⟨symbol, member, isFile | isSymbol⟩ := mem_symbolEntities isNode
    · exact ⟨symbol, member, isFile ▸ List.mem_cons_self ..⟩
    · exact ⟨symbol, member, isSymbol ▸ List.mem_cons_of_mem _ (List.mem_singleton_self _)⟩
  · rintro ⟨symbol, member, isId⟩
    rcases List.mem_cons.mp isId with rfl | own
    · exact file_listed member List.not_mem_nil
    · rw [List.mem_singleton.mp own]
      exact List.mem_map.mpr ⟨_, symbol_listed member, rfl⟩

theorem mem_ids {revision : Option String} {id : Uuid} :
    id ∈ (state.entities revision).map (fun n => n.id) ↔ id ∈ state.ids revision := by
  rw [entities, ids, List.map_append, ids_coreEntities, List.mem_append, List.mem_append, List.map_flatMap,
    List.mem_flatMap, List.mem_flatMap]
  refine or_congr_right (exists_congr fun sha => and_congr_right fun _ => ?_)
  rw [List.map_flatMap, List.mem_flatMap, List.mem_flatMap]
  exact exists_congr fun repository => and_congr_right fun _ => mem_codeIds

end CanonicalProject

/-! ### One projection after others -/

/-- Graphs with the same nodes and the same relations. A relation that is listed
twice counts once. -/
structure SameGraph (graph other : InMemoryKnowledgeGraph) : Prop where
  nodes : ∀ n, n ∈ graph.entities.items ↔ n ∈ other.entities.items
  edges : ∀ e, e ∈ Groups.all graph.relationsOut ↔ e ∈ Groups.all other.relationsOut

structure ListedStill (old step : ProjectionStep) : Prop where
  ids : ∀ id ∈ old.state.ids old.revision, id ∈ step.state.ids step.revision
  relations : ∀ e ∈ old.relations, e ∈ step.relations

theorem mem_edges {run : List ProjectionStep} {e : GraphEdge} :
    e ∈ Groups.all (projectAll run).relationsOut ↔ e ∈ run.flatMap ProjectionStep.relations := by
  have own := filter_all_out (projectAll_tables run).2 e.subjectId
  have one : ∀ es : List GraphEdge, e ∈ es ↔ e ∈ es.filter fun other => other.subjectId = e.subjectId := by
    intro es
    simp
  rw [one, own, ← one]

theorem get_node (run : List ProjectionStep) (id : Uuid) :
    (projectAll run).entities.get id = LastWriter.last (fun n : GraphNode => n.id) (run.flatMap ProjectionStep.entities) id := by
  rw [(projectAll_tables run).1, Keyed.laws.get_foldl]
  exact Option.or_none

theorem get_node_append (earlier : List ProjectionStep) (step : ProjectionStep) (id : Uuid) :
    (projectAll (earlier ++ [step])).entities.get id =
      ((projectAll [step]).entities.get id).or ((projectAll earlier).entities.get id) := by
  simp only [get_node, List.flatMap_append, LastWriter.last_append]

theorem exists_node {run : List ProjectionStep} {id : Uuid} :
    (∃ n, (projectAll run).entities.get id = some n) ↔ ∃ step ∈ run, id ∈ step.state.ids step.revision := by
  rw [get_node]
  constructor
  · rintro ⟨n, isLast⟩
    obtain ⟨written, rfl⟩ := LastWriter.last_eq_some isLast
    obtain ⟨step, member, isNode⟩ := List.mem_flatMap.mp written
    exact ⟨step, member, CanonicalProject.mem_ids.mp (List.mem_map_of_mem isNode)⟩
  · rintro ⟨step, member, listed⟩
    obtain ⟨n, isNode, rfl⟩ := List.mem_map.mp (CanonicalProject.mem_ids.mpr listed)
    exact LastWriter.exists_last _ (List.mem_flatMap.mpr ⟨step, member, isNode⟩)

/-- A projection after others leaves the graph that it leaves alone exactly when
all that the others listed is listed still. -/
theorem sameGraph_iff (earlier : List ProjectionStep) (step : ProjectionStep) :
    SameGraph (projectAll (earlier ++ [step])) (projectAll [step]) ↔ ∀ old ∈ earlier, ListedStill old step := by
  constructor
  · intro same old member
    constructor
    · intro id listed
      obtain ⟨n, found⟩ := exists_node.mpr ⟨old, List.mem_append_left [step] member, listed⟩
      obtain ⟨stored, isId⟩ := Keyed.get_eq_some.mp found
      obtain ⟨last, isLast, listedLast⟩ := exists_node.mp ⟨n, Keyed.get_eq_some.mpr ⟨(same.nodes n).mp stored, isId⟩⟩
      rwa [List.mem_singleton.mp isLast] at listedLast
    · intro e isEdge
      have once := (same.edges e).mp (mem_edges.mpr (List.mem_flatMap.mpr ⟨old, List.mem_append_left _ member, isEdge⟩))
      simpa using mem_edges.mp once
  · intro still
    constructor
    · intro n
      have entry : ∀ graph : InMemoryKnowledgeGraph, n ∈ graph.entities.items ↔ graph.entities.get n.id = some n :=
        fun graph => (Keyed.get_eq_some.trans (and_iff_left rfl)).symm
      rw [entry, entry, get_node_append]
      cases once : (projectAll [step]).entities.get n.id with
      | some last => rfl
      | none =>
        -- an id that the last projection does not list was not listed before
        have before : (projectAll earlier).entities.get n.id = none := by
          rw [← Option.not_isSome_iff_eq_none, Option.isSome_iff_exists, exists_node]
          rintro ⟨old, member, listed⟩
          obtain ⟨last, found⟩ := exists_node.mpr ⟨step, List.mem_singleton_self _, (still old member).ids _ listed⟩
          rw [once] at found
          cases found
        rw [before]
        rfl
    · intro e
      rw [mem_edges, mem_edges, List.flatMap_append, List.mem_append, or_iff_right_of_imp]
      intro isEdge
      obtain ⟨old, member, listed⟩ := List.mem_flatMap.mp isEdge
      simpa using (still old member).relations e listed

/-! ### Code that is indexed again -/

def ParsedSymbol.indexed (drawn : SymbolId → Uuid) (symbol : ParsedSymbol) : IndexedSymbol :=
  { symbol with id := drawn symbol.id }

def ParsedRelation.indexed (relation : ParsedRelation) : IndexedRelation := { relation with }

def CanonicalProject.index (state : CanonicalProject) (repositoryId : RepositoryId) (revision : String)
    (drawn : SymbolId → Uuid) (graph : InMemoryCodeGraph) : CanonicalProject :=
  { state with
    listSymbols := fun other sha =>
      if other = repositoryId ∧ sha = revision then (graph.listSymbols other sha).map (ParsedSymbol.indexed drawn)
      else state.listSymbols other sha
    listRelations := fun other sha =>
      if other = repositoryId ∧ sha = revision then
        (graph.listRelations other sha).map fun relation => relation.toParsedRelation.indexed
      else state.listRelations other sha }

section Index
variable {state : CanonicalProject} {repositoryId : RepositoryId} {revision : String} {drawn drawn' : SymbolId → Uuid}
  {graph other : InMemoryCodeGraph}

theorem listSymbols_index : (state.index repositoryId revision drawn graph).listSymbols repositoryId revision =
    (graph.listSymbols repositoryId revision).map (ParsedSymbol.indexed drawn) :=
  if_pos ⟨rfl, rfl⟩

theorem index_congr (symbols : graph.listSymbols repositoryId revision = other.listSymbols repositoryId revision)
    (relations : (graph.listRelations repositoryId revision).map (fun relation => relation.toParsedRelation) =
      (other.listRelations repositoryId revision).map fun relation => relation.toParsedRelation)
    (ids : ∀ symbol ∈ graph.listSymbols repositoryId revision, drawn symbol.id = drawn' symbol.id) :
    state.index repositoryId revision drawn graph = state.index repositoryId revision drawn' other := by
  have sameSymbols : (graph.listSymbols repositoryId revision).map (ParsedSymbol.indexed drawn) =
      (other.listSymbols repositoryId revision).map (ParsedSymbol.indexed drawn') := by
    rw [← symbols]
    refine List.map_congr_left fun symbol member => ?_
    rw [ParsedSymbol.indexed, ParsedSymbol.indexed, ids symbol member]
  have sameRelations := congrArg (List.map ParsedRelation.indexed) relations
  rw [List.map_map, List.map_map] at sameRelations
  unfold CanonicalProject.index
  congr 1
  · funext repository sha
    split
    · rename_i own
      rw [own.1, own.2, sameSymbols]
    · rfl
  · funext repository sha
    split
    · rename_i own
      rw [own.1, own.2]
      exact sameRelations
    · rfl

theorem mem_ids_index {symbol : ParsedSymbol} (member : repositoryId ∈ state.repositories.map Repository.id)
    (listed : symbol ∈ graph.listSymbols repositoryId revision) :
    drawn symbol.id ∈ (state.index repositoryId revision drawn graph).ids (some revision) := by
  obtain ⟨repository, inState, rfl⟩ := List.mem_map.mp member
  have own : symbol.indexed drawn ∈
      (state.index repository.id revision drawn graph).listSymbols repository.id revision := by
    rw [listSymbols_index]
    exact List.mem_map_of_mem listed
  refine List.mem_append_right _ (List.mem_flatMap.mpr ⟨revision, List.mem_singleton_self _, ?_⟩)
  refine List.mem_flatMap.mpr ⟨repository, inState, List.mem_flatMap.mpr ⟨_, own, ?_⟩⟩
  exact List.mem_cons_of_mem _ (List.mem_singleton_self _)

end Index

def DrawnApart (state : CanonicalProject) (call : BuildCall) (graph : InMemoryCodeGraph) (drawn drawn' : SymbolId → Uuid) :
    Prop :=
  ∀ symbol ∈ graph.listSymbols call.repositoryId call.revision,
    drawn symbol.id ∈ (state.index call.repositoryId call.revision drawn' graph).ids (some call.revision) →
      drawn symbol.id = drawn' symbol.id

namespace CodeIntelligenceService
variable {self : CodeIntelligenceService} {call : BuildCall} {graph : InMemoryCodeGraph}

theorem resolves_of_returns {result : CodeIndexResult} (returns : (self.build call graph).1 = .ok result) :
    ¬ self.Fails call := by
  intro fails
  obtain ⟨exception, raises⟩ := build_of_fails fails graph
  rw [raises] at returns
  cases returns

theorem listed_again (replaces : call.replace = true) (resolves : ¬ self.Fails call) (graph : InMemoryCodeGraph) :
    (self.build call graph).2.listSymbols call.repositoryId call.revision =
        (self.build call (self.build call graph).2).2.listSymbols call.repositoryId call.revision ∧
      ((self.build call graph).2.listRelations call.repositoryId call.revision).map (fun r => r.toParsedRelation) =
        ((self.build call (self.build call graph).2).2.listRelations call.repositoryId call.revision).map
          fun r => r.toParsedRelation := by
  obtain ⟨first, _⟩ := @replaced_of_returns self graph call replaces resolves
  obtain ⟨second, _⟩ := @replaced_of_returns self (self.build call graph).2 call replaces resolves
  have same := first.trans second.symm
  exact ⟨congrArg Prod.fst same, congrArg (fun bare => bare.2.1) same⟩

end CodeIntelligenceService
open CodeIntelligenceService

theorem reindexed_iff {self : CodeIntelligenceService} {call : BuildCall} {graph : InMemoryCodeGraph}
    {state : CanonicalProject} {drawn drawn' : SymbolId → Uuid} (replaces : call.replace = true)
    {result : CodeIndexResult} (returns : (self.build call graph).1 = .ok result)
    (inProject : call.repositoryId ∈ state.repositories.map Repository.id)
    (apart : DrawnApart state call (self.build call graph).2 drawn drawn') :
    let first := state.index call.repositoryId call.revision drawn (self.build call graph).2
    let second := state.index call.repositoryId call.revision drawn' (self.build call (self.build call graph).2).2
    SameGraph (projectAll [⟨first, some call.revision⟩, ⟨second, some call.revision⟩])
        (projectAll [⟨second, some call.revision⟩]) ↔
      ∀ symbol ∈ (self.build call graph).2.listSymbols call.repositoryId call.revision, drawn symbol.id = drawn' symbol.id := by
  intro first second
  obtain ⟨symbols, relations⟩ := listed_again replaces (resolves_of_returns returns) graph
  -- but for the ids the second build lists what the first did
  have again : second = state.index call.repositoryId call.revision drawn' (self.build call graph).2 :=
    (index_congr symbols relations fun _ _ => rfl).symm
  have still := sameGraph_iff [⟨first, some call.revision⟩] ⟨second, some call.revision⟩
  rw [List.singleton_append] at still
  rw [still]
  constructor
  · intro listed symbol member
    have inSecond := (listed _ (List.mem_singleton_self _)).ids _ (mem_ids_index inProject member)
    rw [again] at inSecond
    exact apart symbol member inSecond
  · intro ids old isOld
    obtain rfl := List.mem_singleton.mp isOld
    have same : first = second := index_congr symbols relations ids
    rw [same]
    exact ⟨fun _ listed => listed, fun _ listed => listed⟩

/-- A projection after others leaves what it leaves in an empty graph exactly
when all that the others listed is listed still; code indexed again on the same
files needs the ids of its symbols for that. -/
theorem reprojection_same_iff (earlier : List ProjectionStep) (step : ProjectionStep) :
    (SameGraph (projectAll (earlier ++ [step])) (projectAll [step]) ↔ ∀ old ∈ earlier, ListedStill old step) ∧
    ∀ (self : CodeIntelligenceService) (call : BuildCall) (graph : InMemoryCodeGraph) (result : CodeIndexResult)
      (state : CanonicalProject) (drawn drawn' : SymbolId → Uuid), call.replace = true →
      (self.build call graph).1 = .ok result → call.repositoryId ∈ state.repositories.map Repository.id →
      DrawnApart state call (self.build call graph).2 drawn drawn' →
      (SameGraph
          (projectAll
            [⟨state.index call.repositoryId call.revision drawn (self.build call graph).2, some call.revision⟩,
              ⟨state.index call.repositoryId call.revision drawn' (self.build call (self.build call graph).2).2,
                some call.revision⟩])
          (projectAll
            [⟨state.index call.repositoryId call.revision drawn' (self.build call (self.build call graph).2).2,
              some call.revision⟩]) ↔
        ∀ symbol ∈ (self.build call graph).2.listSymbols call.repositoryId call.revision,
          drawn symbol.id = drawn' symbol.id) :=
  ⟨sameGraph_iff earlier step, fun _ _ _ _ _ _ _ replaces returns inProject apart => reindexed_iff replaces returns inProject apart⟩

def loginProject : CanonicalProject where
  project := { id := .v4 0, name := "login" }
  repositories := [{ id := .v5 "repository", projectId := .v4 0, name := "login", cloneUrl := "" }]

/-- The module is indexed and projected, then indexed again with new ids and
projected again: the class keeps its first node. -/
theorem indexed_again_differs :
    let drawn : SymbolId → Uuid := fun id => .v4 (10 + id.draw)
    let drawn' : SymbolId → Uuid := fun id => .v4 (20 + id.draw)
    let once := (twoModules.build modelsCall {}).2
    let twice := (twoModules.build modelsCall once).2
    let first := loginProject.index modelsCall.repositoryId modelsCall.revision drawn once
    let second := loginProject.index modelsCall.repositoryId modelsCall.revision drawn' twice
    (twoModules.build modelsCall once).1.isOk = true ∧
      ¬ SameGraph (projectAll [⟨first, some "r1"⟩, ⟨second, some "r1"⟩]) (projectAll [⟨second, some "r1"⟩]) := by
  intro drawn drawn' once twice first second
  refine ⟨by decide, fun same => ?_⟩
  have kept : (Uuid.v4 11) ∈ (projectAll [⟨first, some "r1"⟩, ⟨second, some "r1"⟩]).entities.items.map fun n => n.id := by
    decide
  have gone : (Uuid.v4 11) ∉ (projectAll [⟨second, some "r1"⟩]).entities.items.map fun n => n.id := by decide
  obtain ⟨n, stored, isId⟩ := List.mem_map.mp kept
  exact gone (List.mem_map.mpr ⟨n, (same.nodes n).mp stored, isId⟩)

end Brain
