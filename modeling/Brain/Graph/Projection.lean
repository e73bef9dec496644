import Brain.Application.GraphProjection
import Brain.Graph.Upserts

namespace Brain
open InMemoryKnowledgeGraph

namespace CanonicalProject
variable {state : CanonicalProject} {revision : Option String}

/-- Requirements, work items and components refer to entities of the project. -/
structure References (state : CanonicalProject) : Prop where
  parents : ∀ requirement ∈ state.requirements, ∀ parent, requirement.parentId = some parent →
    parent ∈ state.requirements.map Requirement.id
  requirementRefs : ∀ workItem ∈ state.workItems, ∀ requirementRef ∈ workItem.requirementRefs,
    requirementRef ∈ state.requirements.map Requirement.id
  repositoryIds : ∀ component ∈ state.components, ∀ repositoryId ∈ component.repositoryIds,
    repositoryId ∈ state.repositories.map Repository.id

/-- The project has nothing but itself. -/
def Bare (state : CanonicalProject) : Prop :=
  state.repositories = [] ∧ state.requirements = [] ∧ state.workItems = [] ∧ state.components = [] ∧ state.decisions = []

/-! ### The code graph -/

section CodeGraph
variable {repositoryId : RepositoryId} {sha : String} {symbols : List IndexedSymbol}

variable {files : List String}

theorem mem_symbolEntities {n : GraphNode} (member : n ∈ state.symbolEntities repositoryId sha files symbols) :
    ∃ symbol ∈ symbols, n = state.fileNode repositoryId sha symbol ∨ n = state.symbolNode repositoryId sha symbol := by
  induction symbols generalizing files with
  | nil => cases member
  | cons symbol symbols ih =>
    rw [symbolEntities, List.mem_append, List.mem_cons] at member
    rcases member with file | rfl | later
    · split at file
      · cases file
      · exact ⟨symbol, List.mem_cons_self .., Or.inl (List.mem_singleton.mp file)⟩
    · exact ⟨symbol, List.mem_cons_self .., Or.inr rfl⟩
    · obtain ⟨other, listed, isNode⟩ := ih later
      exact ⟨other, List.mem_cons_of_mem _ listed, isNode⟩

variable {symbol : IndexedSymbol}

theorem symbol_listed (member : symbol ∈ symbols) :
    state.symbolNode repositoryId sha symbol ∈ state.symbolEntities repositoryId sha files symbols := by
  induction symbols generalizing files with
  | nil => cases member
  | cons other symbols ih =>
    rw [symbolEntities, List.mem_append, List.mem_cons]
    rcases List.mem_cons.mp member with rfl | later
    · exact Or.inr (Or.inl rfl)
    · exact Or.inr (Or.inr (ih later))

theorem file_listed (member : symbol ∈ symbols) (new : symbol.path ∉ files)
    : fileEntityId repositoryId sha symbol.path ∈
      (state.symbolEntities repositoryId sha files symbols).map fun n => n.id := by
  induction symbols generalizing files with
  | nil => cases member
  | cons other symbols ih =>
    rw [symbolEntities, List.map_append, List.mem_append, List.map_cons, List.mem_cons]
    by_cases same : other.path = symbol.path
    · left
      rw [if_neg (by simpa [same] using new), List.map_singleton, List.mem_singleton, ← same]
      rfl
    · rcases List.mem_cons.mp member with rfl | later
      · exact absurd rfl same
      · exact Or.inr (Or.inr (ih later (by simpa [Ne.symm same] using new)))

theorem mem_symbolRelations {e : GraphEdge} (member : e ∈ symbolRelations repositoryId sha files symbols) :
    ∃ symbol ∈ symbols, e = relation (some sha) (fileEntityId repositoryId sha symbol.path) .partOf repositoryId ∨
      e = relation (some sha) symbol.id .partOf (fileEntityId repositoryId sha symbol.path) := by
  induction symbols generalizing files with
  | nil => cases member
  | cons symbol symbols ih =>
    simp only [symbolRelations, List.mem_append, List.mem_cons] at member
    rcases member with (file | rfl | again) | later
    · split at file
      · cases file
      · exact ⟨symbol, List.mem_cons_self .., Or.inl (List.mem_singleton.mp file)⟩
    · exact ⟨symbol, List.mem_cons_self .., Or.inr rfl⟩
    · split at again
      · exact ⟨symbol, List.mem_cons_self .., Or.inr (List.mem_singleton.mp again)⟩
      · cases again
    · obtain ⟨other, listed, isRelation⟩ := ih later
      exact ⟨other, List.mem_cons_of_mem _ listed, isRelation⟩

theorem symbolOf_mem {identity : SymbolIdentity} (found : symbolOf symbols identity = some symbol) : symbol ∈ symbols :=
  (LastWriter.last_eq_some found).1

theorem mem_codeRelation {code : IndexedRelation} {e : GraphEdge}
    (member : codeRelation repositoryId sha symbols code = some e) : e.revision = some sha ∧
      (∃ source ∈ symbols, e.subjectId = source.id) ∧ ∃ target ∈ symbols, e.objectId = target.id := by
  simp only [codeRelation, Option.bind_eq_bind, Option.bind_eq_some_iff, Option.some.injEq] at member
  obtain ⟨source, isSource, target, isTarget, rfl⟩ := member
  exact ⟨rfl, ⟨source, symbolOf_mem isSource, rfl⟩, ⟨target, symbolOf_mem isTarget, rfl⟩⟩

theorem codeRelations_listed {e : GraphEdge} (member : e ∈ state.codeRelations repositoryId sha) :
    e.revision = some sha ∧ e.subjectId ∈ (state.codeEntities repositoryId sha).map (fun n => n.id) ∧
      (e.objectId ∈ (state.codeEntities repositoryId sha).map (fun n => n.id) ∨ e.objectId = repositoryId) := by
  have symbolIds : ∀ symbol ∈ state.listSymbols repositoryId sha,
      symbol.id ∈ (state.codeEntities repositoryId sha).map fun n => n.id :=
    fun symbol listed => List.mem_map.mpr ⟨_, symbol_listed listed, rfl⟩
  have fileIds : ∀ symbol ∈ state.listSymbols repositoryId sha, fileEntityId repositoryId sha symbol.path ∈
      (state.codeEntities repositoryId sha).map fun n => n.id :=
    fun symbol listed => file_listed listed (List.not_mem_nil)
  rcases List.mem_append.mp member with ofSymbol | ofCode
  · obtain ⟨symbol, listed, rfl | rfl⟩ := mem_symbolRelations ofSymbol
    · exact ⟨rfl, fileIds symbol listed, Or.inr rfl⟩
    · exact ⟨rfl, symbolIds symbol listed, Or.inl (fileIds symbol listed)⟩
  · obtain ⟨code, _, isEdge⟩ := List.mem_filterMap.mp ofCode
    obtain ⟨atRevision, ⟨source, listed, isSource⟩, ⟨target, listed', isTarget⟩⟩ := mem_codeRelation isEdge
    exact ⟨atRevision, isSource ▸ symbolIds source listed, Or.inl (isTarget ▸ symbolIds target listed')⟩

end CodeGraph

/-! ### The project itself -/

def coreIds (state : CanonicalProject) : List Uuid :=
  state.project.id :: (state.repositories.map Repository.id ++ state.requirements.map Requirement.id ++
    state.workItems.map (fun workItem => workItem.id) ++ state.components.map SoftwareComponent.id ++
    state.decisions.map Decision.id)

theorem ids_coreEntities (state : CanonicalProject) (revision : Option String) :
    (state.coreEntities revision).map (fun n => n.id) = state.coreIds := by
  simp only [coreEntities, coreIds, List.map_cons, List.map_append, List.map_map]
  rfl

theorem mentioned_listed {text : String} {component : SoftwareComponent} (member : component ∈ state.mentioned text) :
    component.id ∈ state.components.map SoftwareComponent.id := by
  have inTable : component ∈ state.componentByName.items := List.mem_of_mem_filter member
  rcases Keyed.mem_foldl_upsert inTable with before | listed
  · cases before
  · exact List.mem_map_of_mem listed

theorem coreRelations_listed (references : References state) {e : GraphEdge} (member : e ∈ state.coreRelations revision) :
    e.revision = revision ∧ e.subjectId ∈ state.coreIds ∧ e.objectId ∈ state.coreIds := by
  have project : state.project.id ∈ state.coreIds := List.mem_cons_self ..
  have repositories : ∀ id ∈ state.repositories.map Repository.id, id ∈ state.coreIds := by
    intro id listed
    simp [coreIds, listed]
  have requirements : ∀ id ∈ state.requirements.map Requirement.id, id ∈ state.coreIds := by
    intro id listed
    simp [coreIds, listed]
  have workItems : ∀ workItem ∈ state.workItems, workItem.id ∈ state.coreIds := by
    intro workItem listed
    have isId : workItem.id ∈ state.workItems.map fun workItem => workItem.id := List.mem_map_of_mem listed
    simp [coreIds, isId]
  have components : ∀ id ∈ state.components.map SoftwareComponent.id, id ∈ state.coreIds := by
    intro id listed
    simp [coreIds, listed]
  have decisions : ∀ id ∈ state.decisions.map Decision.id, id ∈ state.coreIds := by
    intro id listed
    simp [coreIds, listed]
  simp only [coreRelations, List.mem_append, List.mem_flatMap] at member
  rcases member with ((((⟨r, listed, isEdge⟩ | ⟨q, listed, isEdge⟩) | ⟨w, listed, isEdge⟩) | ⟨c, listed, isEdge⟩) |
    ⟨q, listed, isEdge⟩) | ⟨d, listed, isEdge⟩
  · obtain rfl := List.mem_singleton.mp isEdge
    exact ⟨rfl, project, repositories _ (List.mem_map_of_mem listed)⟩
  · have own := requirements _ (List.mem_map_of_mem listed)
    rcases List.mem_cons.mp isEdge with rfl | derived
    · exact ⟨rfl, own, project⟩
    · simp only [Option.mem_toList, Option.map_eq_some_iff] at derived
      obtain ⟨parent, isParent, rfl⟩ := derived
      exact ⟨rfl, own, requirements _ (references.parents q listed parent isParent)⟩
  · rcases List.mem_cons.mp isEdge with rfl | implements
    · exact ⟨rfl, workItems w listed, project⟩
    · obtain ⟨requirementRef, inRefs, rfl⟩ := List.mem_map.mp implements
      exact ⟨rfl, workItems w listed, requirements _ (references.requirementRefs w listed requirementRef inRefs)⟩
  · have own := components _ (List.mem_map_of_mem listed)
    rcases List.mem_cons.mp isEdge with rfl | depends
    · exact ⟨rfl, own, project⟩
    · obtain ⟨repositoryId, inIds, rfl⟩ := List.mem_map.mp depends
      exact ⟨rfl, own, repositories _ (references.repositoryIds c listed repositoryId inIds)⟩
  · obtain ⟨component, isMentioned, rfl⟩ := List.mem_map.mp isEdge
    exact ⟨rfl, requirements _ (List.mem_map_of_mem listed), components _ (mentioned_listed isMentioned)⟩
  · have own := decisions _ (List.mem_map_of_mem listed)
    rcases List.mem_cons.mp isEdge with rfl | mention
    · exact ⟨rfl, own, project⟩
    · obtain ⟨component, isMentioned, rfl⟩ := List.mem_map.mp mention
      exact ⟨rfl, own, components _ (mentioned_listed isMentioned)⟩

theorem ends_coreRelations (state : CanonicalProject) (revision other : Option String) :
    (state.coreRelations revision).map endsOf = (state.coreRelations other).map endsOf := by
  have optional : ∀ q : Requirement, ((q.parentId.map fun parent => relation revision q.id .derivedFrom parent).toList).map
      endsOf = ((q.parentId.map fun parent => relation other q.id .derivedFrom parent).toList).map endsOf := by
    intro q
    cases q.parentId <;> rfl
  simp only [coreRelations, List.map_append, List.map_flatMap, repositoryRelations, requirementRelations,
    workItemRelations, componentRelations, requirementReferences, decisionRelations, List.map_cons, List.map_map,
    optional]
  rfl

theorem coreRelations_eq_nil_iff : state.coreRelations revision = [] ↔ state.Bare := by
  constructor
  · intro none
    simp only [coreRelations, List.append_eq_nil_iff, List.flatMap_eq_nil_iff] at none
    obtain ⟨⟨⟨⟨⟨repositories, requirements⟩, workItems⟩, components⟩, _⟩, decisions⟩ := none
    refine ⟨?_, ?_, ?_, ?_, ?_⟩ <;> rw [List.eq_nil_iff_forall_not_mem] <;> intro x listed
    · exact List.cons_ne_nil _ _ (repositories x listed)
    · exact List.cons_ne_nil _ _ (requirements x listed)
    · exact List.cons_ne_nil _ _ (workItems x listed)
    · exact List.cons_ne_nil _ _ (components x listed)
    · exact List.cons_ne_nil _ _ (decisions x listed)
  · rintro ⟨repositories, requirements, workItems, components, decisions⟩
    simp [coreRelations, repositories, requirements, workItems, components, decisions]

/-! ### One projection -/

theorem entities_own {n : GraphNode} (member : n ∈ state.entities revision) :
    n.projectId = some state.project.id ∧ n.revision = revision := by
  rcases List.mem_append.mp member with core | code
  · simp only [coreEntities, List.mem_cons, List.mem_append, List.mem_map] at core
    rcases core with rfl | ((((⟨_, _, rfl⟩ | ⟨_, _, rfl⟩) | ⟨_, _, rfl⟩) | ⟨_, _, rfl⟩) | ⟨_, _, rfl⟩)
    all_goals exact ⟨rfl, rfl⟩
  · simp only [List.mem_flatMap, Option.mem_toList] at code
    obtain ⟨sha, rfl, repository, _, isNode⟩ := code
    obtain ⟨symbol, _, rfl | rfl⟩ := mem_symbolEntities isNode
    · exact ⟨rfl, rfl⟩
    · exact ⟨rfl, rfl⟩

theorem coreIds_listed {id : Uuid} (member : id ∈ state.coreIds) : id ∈ (state.entities revision).map fun n => n.id := by
  rw [entities, List.map_append, ids_coreEntities]
  exact List.mem_append_left _ member

theorem relations_listed (references : References state) {e : GraphEdge} (member : e ∈ state.relations revision) :
    e.revision = revision ∧ e.subjectId ∈ (state.entities revision).map (fun n => n.id) ∧
      e.objectId ∈ (state.entities revision).map (fun n => n.id) := by
  rcases List.mem_append.mp member with core | code
  · obtain ⟨atRevision, subject, object⟩ := coreRelations_listed references core
    exact ⟨atRevision, coreIds_listed subject, coreIds_listed object⟩
  · simp only [List.mem_flatMap, Option.mem_toList] at code
    obtain ⟨sha, rfl, repository, listed, isEdge⟩ := code
    obtain ⟨atRevision, subject, object⟩ := codeRelations_listed isEdge
    have written : ∀ id ∈ (state.codeEntities repository.id sha).map (fun n => n.id),
        id ∈ (state.entities (some sha)).map fun n => n.id := by
      intro id inCode
      obtain ⟨n, isNode, rfl⟩ := List.mem_map.mp inCode
      refine List.mem_map_of_mem (List.mem_append_right _ ?_)
      exact List.mem_flatMap.mpr ⟨sha, List.mem_singleton_self _, List.mem_flatMap.mpr ⟨repository, listed, isNode⟩⟩
    refine ⟨atRevision, written _ subject, object.elim (written _) fun isRepository => ?_⟩
    rw [isRepository]
    exact coreIds_listed (by simp [coreIds, List.mem_map_of_mem listed])

theorem relations_eq_nil_iff : state.relations revision = [] ↔ state.Bare := by
  rw [relations, List.append_eq_nil_iff, coreRelations_eq_nil_iff]
  refine and_iff_left_of_imp fun bare => ?_
  rw [bare.1]
  cases revision <;> rfl

end CanonicalProject

/-! ### Projections one after another -/

structure ProjectionStep where
  state : CanonicalProject
  revision : Option String

namespace ProjectionStep

def entities (step : ProjectionStep) : List GraphNode := step.state.entities step.revision

def relations (step : ProjectionStep) : List GraphEdge := step.state.relations step.revision

def projectId (step : ProjectionStep) : ProjectId := step.state.project.id

end ProjectionStep

namespace GraphProjectionService

def projectAll (run : List ProjectionStep) : InMemoryKnowledgeGraph :=
  run.foldl (fun graph step => project graph step.state step.revision) {}

theorem projectAll_tables (run : List ProjectionStep) :
    (projectAll run).entities = (run.flatMap ProjectionStep.entities).foldl Keyed.upsert Keyed.empty ∧
      (projectAll run).Wrote (run.flatMap ProjectionStep.relations) := by
  have onward : ∀ (graph : InMemoryKnowledgeGraph) (edges : List GraphEdge), graph.Wrote edges →
      (run.foldl (fun graph step => project graph step.state step.revision) graph).entities =
        (run.flatMap ProjectionStep.entities).foldl Keyed.upsert graph.entities ∧
      (run.foldl (fun graph step => project graph step.state step.revision) graph).Wrote
        (edges ++ run.flatMap ProjectionStep.relations) := by
    induction run with
    | nil =>
      intro graph edges wrote
      exact ⟨rfl, by simpa using wrote⟩
    | cons step run ih =>
      intro graph edges wrote
      have first := InMemoryKnowledgeGraph.wrote_apply
        (InMemoryKnowledgeGraph.wrote_apply wrote (.upsertEntities step.entities)) (.upsertRelations step.relations)
      obtain ⟨entities, rest⟩ := ih (project graph step.state step.revision) _ first
      have own : (project graph step.state step.revision).entities = step.entities.foldl Keyed.upsert graph.entities :=
        ((graph.upsertEntities step.entities).upsertRelations_tables step.relations).1
      constructor
      · rw [List.foldl_cons, entities, own, List.flatMap_cons, List.foldl_append]
      · rw [List.foldl_cons, List.flatMap_cons]
        simpa only [List.append_assoc, GraphCall.relations, List.append_nil, List.nil_append] using rest
  exact onward {} [] InMemoryKnowledgeGraph.wrote_empty

end GraphProjectionService

end Brain
