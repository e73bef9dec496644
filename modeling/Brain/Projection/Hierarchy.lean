import Brain.Ingestion.History
import Brain.Projection.Writes

namespace Brain
open Calls

/-! ### Parent edges -/

def World.parentEdges (w : World) (id : Uuid) : List GraphRelation :=
  (w.graph.outgoing id).filter (·.relationType = .parentOf)

/-- What a traversal over outgoing `PARENT_OF` edges steps along. -/
def World.parentEdge (w : World) (a b : Uuid) : Prop := ∃ relation ∈ w.parentEdges a, relation.objectId = b

/-- The project or work item `b` has the parent `a`. -/
def World.IsParent (w : World) (a b : Uuid) : Prop :=
  (∃ project ∈ w.projects.items, project.id = b ∧ project.parentId = some a) ∨
    ∃ item ∈ w.workItems.items, item.id = b ∧ item.parentId = some a

instance (w : World) (a b : Uuid) : Decidable (w.IsParent a b) := inferInstanceAs (Decidable (_ ∨ _))

/-- Every edge runs from the parent to the child, and the edges reach exactly
the descendants. -/
structure World.Uniform (w : World) : Prop where
  oriented : ∀ id, ∀ relation ∈ w.graph.outgoing id, relation.relationType = .parentOf →
    w.IsParent relation.subjectId relation.objectId
  descendants : ∀ a b, Relation.TransGen w.parentEdge a b ↔ Relation.TransGen w.IsParent a b

structure Hierarchical (w : World) : Prop where
  edges : ∀ a b, w.parentEdge a b ↔ ∃ project ∈ w.projects.items, project.id = b ∧ project.parentId = some a
  subjects : ∀ id, ∀ relation ∈ w.parentEdges id, relation.subjectId = id
  orphans : ∀ item ∈ w.workItems.items, item.parentId = none
  relations : ∀ relation ∈ w.relations.items, relation.relationType ≠ .parentOf
  projects : ∀ project ∈ w.projects.items, project.id.Below w.nextUuid
  issued : Issued w

theorem Hierarchical.uniform {w : World} (hierarchical : Hierarchical w) : w.Uniform := by
  have same : ∀ a b, w.parentEdge a b ↔ w.IsParent a b := by
    intro a b
    rw [hierarchical.edges]
    constructor
    · exact Or.inl
    · rintro (ofProject | ⟨item, stored, _, hasParent⟩)
      · exact ofProject
      · rw [hierarchical.orphans item stored] at hasParent
        cases hasParent
  constructor
  · intro id relation listed isParent
    have member : relation ∈ w.parentEdges id := List.mem_filter.mpr ⟨listed, by simpa using isParent⟩
    rw [hierarchical.subjects id relation member]
    exact (same id relation.objectId).mp ⟨relation, member, rfl⟩
  · intro a b
    have equal : w.parentEdge = w.IsParent := by
      funext a b
      exact propext (same a b)
    rw [equal]

theorem parentEdges_workEdges (w : World) (id : Uuid) :
    w.parentEdges id = (w.workEdges id).filter (·.relationType = .parentOf) := by
  unfold World.parentEdges World.workEdges
  rw [List.filter_filter]
  congr 1
  funext relation
  cases relation.relationType <;> rfl

theorem parentEdges_upsertRelations (w : World) (relations : List GraphRelation) (id : Uuid) :
    (World.upsertRelations relations w).parentEdges id = w.parentEdges id ++
      relations.filter (fun relation => relation.subjectId = id && relation.relationType = .parentOf) := by
  unfold World.parentEdges World.upsertRelations
  rw [KnowledgeGraph.outgoing_upsertRelations, List.filter_append, List.filter_filter]
  simp only [Bool.and_comm]

/-- The step writes no parent edge. -/
def KeepsParents (w t : World) : Prop := ∀ id, t.parentEdges id = w.parentEdges id

theorem KeepsEdges.parents {w t : World} (keeps : KeepsEdges w t) : KeepsParents w t := by
  intro id
  rw [parentEdges_workEdges, parentEdges_workEdges, keeps id]

theorem KeepsParents.upsertRelations {w : World} {relations : List GraphRelation}
    (none : ∀ relation ∈ relations, relation.relationType ≠ .parentOf) :
    KeepsParents w (World.upsertRelations relations w) := by
  intro id
  have nothing : relations.filter (fun relation => relation.subjectId = id && relation.relationType = .parentOf) = [] := by
    apply List.filter_eq_nil_iff.mpr
    intro relation member
    simp [none relation member]
  rw [parentEdges_upsertRelations, nothing, List.append_nil]

theorem Hierarchical.keep {w t : World} (hierarchical : Hierarchical w) (edges : KeepsParents w t)
    (projects : t.projects = w.projects) (orphans : ∀ item ∈ t.workItems.items, item.parentId = none)
    (relations : ∀ relation ∈ t.relations.items, relation.relationType ≠ .parentOf) (le : w.nextUuid ≤ t.nextUuid)
    (issued : Issued t) : Hierarchical t where
  edges a b := by
    unfold World.parentEdge
    rw [edges a, projects]
    exact hierarchical.edges a b
  subjects id relation member := hierarchical.subjects id relation (by rwa [edges id] at member)
  orphans := orphans
  relations := relations
  projects project stored := (hierarchical.projects project (by rwa [projects] at stored)).mono le
  issued := issued

/-! ### Work items -/

/-- The snapshot names no parent that is known. -/
def World.Parentless (w : World) (s : OpenProjectWorkItemSnapshot) : Prop :=
  ∀ x, parentExternalId s = some x → x = s.externalId ∨ w.package x = none

section
variable {s : OpenProjectWorkItemSnapshot} {w t : World} {x : String} {ingesting : Bool}

theorem CanonicalWrite.parentless {s' : OpenProjectWorkItemSnapshot} (write : CanonicalWrite s ingesting w t) (issued : Issued w)
    (same : ingesting = true → s' = s) (parentless : w.Parentless s') : t.Parentless s' := by
  intro x names
  rcases write.packageId issued x with kept | ⟨ingests, rfl, _⟩
  · refine (parentless x names).imp_right fun absent => ?_
    simpa [World.packageId, absent] using kept
  · exact Or.inl (by rw [same ingests])

theorem rawRelation_not_parent {raw : RawDict} {sourceName : Option String} {targetName : String}
    {mapped : WorkItemRelationType} (names : rawRelation s raw = some (sourceName, targetName, mapped)) :
    mapped ≠ .parentOf := by
  have table : ∀ name, mapRelationType name ≠ some .parentOf := by
    intro name
    unfold mapRelationType
    intro found
    obtain ⟨early, late, entries, _⟩ := List.lookup_eq_some_iff.mp found
    have listed : (lower (strip name), WorkItemRelationType.parentOf) ∈ relationTypes := by simp [entries]
    simp [relationTypes] at listed
  unfold rawRelation at names
  dsimp only at names
  split at names
  · cases names
  · obtain ⟨type, looked, same⟩ := Option.map_eq_some_iff.mp names
    cases same
    rintro rfl
    exact table _ looked

theorem subgraphRelations_not_parent {item : WorkItem} {relations : List WorkItemRelation} (orphan : item.parentId = none)
    (none : ∀ relation ∈ relations, relation.relationType ≠ .parentOf) :
    ∀ relation ∈ subgraphRelations item relations, relation.relationType ≠ .parentOf := by
  intro relation member
  simp only [subgraphRelations, orphan, Option.toList_none, List.map_nil, List.mem_append, List.mem_cons,
    List.mem_map, List.not_mem_nil, or_false] at member
  rcases member with (rfl | ⟨row, listed, rfl⟩) | ⟨assignee, _, rfl⟩
  · simp
  · have type := none row listed
    cases kind : row.relationType <;> simp_all [mapGraphRelation]
  · simp

theorem Hierarchical.write (hierarchical : Hierarchical w) (parentless : w.Parentless s) (write : CanonicalWrite s ingesting w t) :
    Hierarchical t := by
  have issued := write.issued hierarchical.issued
  have orphans := hierarchical.orphans
  have rows := hierarchical.relations
  cases write with
  | apart apart =>
    refine hierarchical.keep apart.edges.parents apart.projects ?_ ?_ apart.nextUuid issued
    · rwa [apart.workItems]
    · rwa [apart.relations]
  | create projectId _ absent =>
    refine hierarchical.keep (fun _ => rfl) rfl ?_ rows (Nat.le_succ _) issued
    intro entry member
    rcases Keyed.mem_upsert.mp member with rfl | ⟨stored, _⟩
    · rfl
    · exact orphans entry stored
  | @apply item _ own =>
    refine hierarchical.keep (fun _ => rfl) rfl ?_ rows (Nat.le_refl _) issued
    intro entry member
    rcases Keyed.mem_upsert.mp member with rfl | ⟨stored, _⟩
    · have orphan := orphans item (package_stored own)
      exact orphan
    · exact orphans entry stored
  | @adopt item parent x own names found other =>
    rcases parentless x names with rfl | absent
    · rw [own] at found
      cases found
      exact absurd rfl other
    · rw [absent] at found
      cases found
  | @relate item target raw sourceName targetName mapped relation own listed names isSource isTarget isEnd other isType fresh =>
    obtain ⟨graph, projects, advanced⟩ := createRelation_rest relation { w with nextUuid := w.nextUuid + 1 }
    refine hierarchical.keep (KeepsEdges.of_graph graph).parents projects ?_ ?_ (advanced ▸ Nat.le_succ _) issued
    · rwa [createRelation_workItems]
    · intro row member
      unfold World.createRelation at member
      split at member
      · exact rows row member
      · rcases Keyed.mem_upsert.mp member with rfl | ⟨stored, _⟩
        · rw [isType]
          exact rawRelation_not_parent names
        · exact rows row stored
  | @project _ item own projected =>
    obtain ⟨entities, rfl⟩ := projected
    have orphan := orphans item (package_stored own)
    have none : ∀ relation ∈ subgraphRelations item (w.listRelationsByWorkItem item.id), relation.relationType ≠ .parentOf :=
      subgraphRelations_not_parent orphan fun row listed => rows row (List.mem_filter.mp listed).1
    exact hierarchical.keep (KeepsParents.upsertRelations (w := World.upsertEntities entities w) none) rfl orphans rows (Nat.le_refl _) issued

theorem Hierarchical.writes (hierarchical : Hierarchical w) (parentless : w.Parentless s) (writes : CanonicalWrites s ingesting w t) :
    Hierarchical t := by
  have both : Hierarchical t ∧ t.Parentless s := by
    induction writes with
    | refl => exact ⟨hierarchical, parentless⟩
    | tail _ write ih => exact ⟨ih.1.write ih.2 write, write.parentless ih.1.issued (fun _ => rfl) ih.2⟩
  exact both.1

end

/-! ### Projects -/

/-- The project that `upsert_project` rewrites, if there is one. -/
def World.projectFor (w : World) (externalId : String) (projectId : Option ProjectId) : Option Project :=
  (projectId.bind w.projects.get).or (w.findProject "openproject" externalId (some "project"))

def World.parentFor (w : World) (parentExternalId : Option String) : Option ProjectId :=
  (given parentExternalId).bind fun x => (w.findProject "openproject" x (some "project")).map Project.id

section
variable {o : Outside} {w t : World}

theorem parentFor_stored {parentExternalId : Option String} {a : ProjectId} (found : w.parentFor parentExternalId = some a) :
    ∃ project ∈ w.projects.items, project.id = a := by
  obtain ⟨x, _, hit⟩ := Option.bind_eq_some_iff.mp found
  obtain ⟨project, listed, same⟩ := Option.map_eq_some_iff.mp hit
  exact ⟨project, List.mem_of_find?_eq_some listed, same⟩

theorem findProjectForUpsert_returns (clean : o.Clean) (externalId : String) (projectId : Option ProjectId) :
    Returns o (findProjectForUpsert externalId projectId) w (fun found t => t = w ∧ found = w.projectFor externalId projectId) := by
  cases projectId with
  | some id =>
    refine Meets.bind (Meets.call_of_returns (fun n => clean n _) ?_)
    unfold World.projectFor
    dsimp only [byResult, Option.bind_some]
    cases w.projects.get id with
    | some project => exact Meets.pure ⟨rfl, rfl⟩
    | none => exact Meets.call_of_returns (fun n => clean n _) ⟨rfl, rfl⟩
  | none => exact Meets.bind (Meets.pure (Meets.call_of_returns (fun n => clean n _) ⟨rfl, rfl⟩))

theorem findParentProject_returns (clean : o.Clean) (parentExternalId : Option String) :
    Returns o (findParentProject parentExternalId) w (fun found t => t = w ∧ found = w.parentFor parentExternalId) := by
  unfold findParentProject World.parentFor
  cases given parentExternalId with
  | some externalId => exact Meets.bind (Meets.call_of_returns (fun n => clean n _) (Meets.pure ⟨rfl, rfl⟩))
  | none => exact Meets.pure ⟨rfl, rfl⟩

/-- `project` is stored in place of the one with its id, with the edge from its parent. -/
structure Upserted (project : Project) (w t : World) : Prop where
  projects : ∀ other, other ∈ t.projects.items ↔ other = project ∨ other ∈ w.projects.items ∧ other.id ≠ project.id
  workItems : t.workItems = w.workItems
  relations : t.relations = w.relations
  nextUuid : w.nextUuid ≤ t.nextUuid
  edges : ∀ id, t.workEdges id = w.workEdges id ++
    if project.parentId = some id then [{ subjectId := id, relationType := .parentOf, objectId := project.id }] else []

variable {project : Project}

theorem Upserted.parentEdges {w t : World} (upserted : Upserted project w t) (id : Uuid) :
    t.parentEdges id = w.parentEdges id ++
      if project.parentId = some id then [{ subjectId := id, relationType := .parentOf, objectId := project.id }] else [] := by
  rw [parentEdges_workEdges, parentEdges_workEdges, upserted.edges id, List.filter_append]
  split <;> simp

theorem upsertProjectNode_upserts {u : World} (clean : o.Clean)
    (projects : ∀ other, other ∈ u.projects.items ↔ other = project ∨ other ∈ w.projects.items ∧ other.id ≠ project.id)
    (rest : u = { w with projects := u.projects, nextUuid := u.nextUuid }) (le : w.nextUuid ≤ u.nextUuid) :
    Returns o (upsertProjectNode project) u (fun _ t => Upserted project w t ∧ t.nextUuid = u.nextUuid) := by
  have workItems : u.workItems = w.workItems := by rw [rest]
  have relations : u.relations = w.relations := by rw [rest]
  have graph : u.graph = w.graph := by rw [rest]
  have before : KeepsEdges w u := KeepsEdges.of_graph graph
  have noted : ∀ entities id, (World.upsertEntities entities u).workEdges id = w.workEdges id := fun _ id => before id
  refine Meets.bind (Meets.call_of_returns (fun n => clean n _) ?_)
  dsimp only [byResult]
  cases parent : project.parentId with
  | none =>
    refine Meets.pure ⟨⟨projects, workItems, relations, le, fun id => ?_⟩, rfl⟩
    rw [noted, parent]
    simp
  | some parentId =>
    refine Meets.call_of_returns (fun n => clean n _) ⟨⟨projects, workItems, relations, le, fun id => ?_⟩, rfl⟩
    refine (workEdges_upsertRelations _ _ id).trans ?_
    rw [noted, parent]
    by_cases same : parentId = id
    · simp [same, RelationType.isWorkEdge]
    · simp [same]

theorem upsertProject_upserts (clean : o.Clean) (externalId name description : String) (parentExternalId : Option String)
    (projectId : Option ProjectId) :
    Returns o (upsertProject externalId name description parentExternalId projectId) w (fun project t => Upserted project w t ∧
      match w.projectFor externalId projectId with
      | none => project.id = .v4 w.nextUuid ∧ t.nextUuid = w.nextUuid + 1 ∧ project.parentId = w.parentFor parentExternalId ∧
          project.externalRefs = [openProjectRef externalId "project"]
      | some old => old ∈ w.projects.items ∧ project.id = old.id ∧
          project.parentId = (w.parentFor parentExternalId).or old.parentId ∧
          project.externalRefs = if old.externalRefs.contains (openProjectRef externalId "project") then old.externalRefs
            else old.externalRefs ++ [openProjectRef externalId "project"]) := by
  refine Meets.seq _ (findProjectForUpsert_returns clean externalId projectId) ?_ (fun _ _ stopped => stopped.elim)
  rintro existing t ⟨rfl, found⟩
  refine Meets.seq _ (findParentProject_returns clean parentExternalId) ?_ (fun _ _ stopped => stopped.elim)
  rintro parentId t ⟨rfl, parent⟩
  rw [← found]
  cases existing with
  | none =>
    refine Meets.bind (Meets.internal ?_)
    refine Meets.bind (Meets.call_of_returns (fun n => clean n _) ?_)
    refine Meets.seq _ (upsertProjectNode_upserts (w := t) clean (fun _ => Keyed.mem_upsert) rfl (Nat.le_succ _)) ?_
      (fun _ _ stopped => stopped.elim)
    rintro _ u ⟨upserted, drawn⟩
    exact Meets.pure ⟨upserted, rfl, drawn, parent, rfl⟩
  | some old =>
    have stored : old ∈ t.projects.items := by
      rcases Option.or_eq_some_iff.mp found.symm with byId | ⟨_, byRef⟩
      · obtain ⟨id, _, listed⟩ := Option.bind_eq_some_iff.mp byId
        exact (Keyed.get_eq_some.mp listed).1
      · exact List.mem_of_find?_eq_some byRef
    have finish : ∀ u : World, (∀ other, other ∈ u.projects.items ↔
        other = updatedProject old (openProjectRef externalId "project") name description parentId ∨
          other ∈ t.projects.items ∧ other.id ≠ old.id) →
        u = { t with projects := u.projects, nextUuid := u.nextUuid } → t.nextUuid ≤ u.nextUuid →
        Returns o (do
          upsertProjectNode (updatedProject old (openProjectRef externalId "project") name description parentId)
          pure (updatedProject old (openProjectRef externalId "project") name description parentId)) u
          (fun project v => Upserted project t v ∧ old ∈ t.projects.items ∧ project.id = old.id ∧
            project.parentId = (t.parentFor parentExternalId).or old.parentId ∧
            project.externalRefs = if old.externalRefs.contains (openProjectRef externalId "project") then old.externalRefs
              else old.externalRefs ++ [openProjectRef externalId "project"]) := by
      intro u projects rest le
      refine Meets.seq _ (upsertProjectNode_upserts (w := t) clean projects rest le) ?_ (fun _ _ stopped => stopped.elim)
      rintro _ v ⟨upserted, _⟩
      exact Meets.pure ⟨upserted, stored, rfl, by rw [← parent]; rfl, rfl⟩
    dsimp only
    by_cases changed : updatedProject old (openProjectRef externalId "project") name description parentId ≠ old
    · rw [if_pos changed]
      refine Meets.bind (Meets.call_of_returns (fun n => clean n _) ?_)
      exact finish _ (fun _ => Keyed.mem_upsert) rfl (Nat.le_refl _)
    · rw [if_neg changed]
      refine finish t (fun other => ?_) rfl (Nat.le_refl _)
      rw [not_not.mp changed]
      constructor
      · intro member
        by_cases same : other.id = old.id
        · exact Or.inl (t.projects.key_injective member stored same)
        · exact Or.inr ⟨member, same⟩
      · rintro (rfl | ⟨member, _⟩)
        · exact stored
        · exact member

theorem Hierarchical.upsert (hierarchical : Hierarchical w) (upserted : Upserted project w t)
    (below : project.id.Below t.nextUuid)
    (keepsParent : ∀ old ∈ w.projects.items, old.id = project.id → ∀ a, old.parentId = some a → project.parentId = some a) :
    Hierarchical t where
  edges a b := by
    have split : t.parentEdge a b ↔ w.parentEdge a b ∨ (project.parentId = some a ∧ project.id = b) := by
      unfold World.parentEdge
      rw [upserted.parentEdges a]
      by_cases ofProject : project.parentId = some a
      · simp [ofProject, or_and_right, exists_or]
      · simp [ofProject]
    rw [split, hierarchical.edges]
    constructor
    · rintro (⟨old, stored, isChild, hasParent⟩ | ⟨hasParent, isChild⟩)
      · by_cases same : old.id = project.id
        · have kept := keepsParent old stored same a hasParent
          exact ⟨project, (upserted.projects project).mpr (Or.inl rfl), same.symm.trans isChild, kept⟩
        · exact ⟨old, (upserted.projects old).mpr (Or.inr ⟨stored, same⟩), isChild, hasParent⟩
      · exact ⟨project, (upserted.projects project).mpr (Or.inl rfl), isChild, hasParent⟩
    · rintro ⟨other, stored, isChild, hasParent⟩
      rcases (upserted.projects other).mp stored with rfl | ⟨old, _⟩
      · exact Or.inr ⟨hasParent, isChild⟩
      · exact Or.inl ⟨other, old, isChild, hasParent⟩
  subjects id relation member := by
    rw [upserted.parentEdges id] at member
    rcases List.mem_append.mp member with old | new
    · exact hierarchical.subjects id relation old
    · split at new
      · rw [List.mem_singleton.mp new]
      · cases new
  orphans := by
    rw [upserted.workItems]
    exact hierarchical.orphans
  relations := by
    rw [upserted.relations]
    exact hierarchical.relations
  projects other stored := by
    rcases (upserted.projects other).mp stored with rfl | ⟨old, _⟩
    · exact below
    · exact (hierarchical.projects other old).mono upserted.nextUuid
  issued item stored := by
    rw [upserted.workItems] at stored
    exact (hierarchical.issued item stored).mono upserted.nextUuid

end

/-! ### Runs -/

/-- The call gives no work item a parent, and replaces no parent of a project. -/
def Upright (w : World) (call : Call) : Prop :=
  match call.op with
  | .upsertProject externalId _ _ parentExternalId projectId => call.outside.Clean ∧
      ∀ old a b, w.projectFor externalId projectId = some old → old.parentId = some a →
        w.parentFor parentExternalId = some b → a = b
  | .ingest s options => w.resolvedProject s options.projectId = none ∨ w.Parentless s
  | .resolveRelationships snapshots => ∀ s ∈ snapshots, w.Parentless s
  | .ingestComment _ => True

namespace OpenProjectIngestionService
variable (self : OpenProjectIngestionService)

theorem ingestComment_apart (arguments : CommentArguments) : Within Apart (fun _ => True) (ingestComment arguments) := by
  have unstored : Within Apart (fun _ => True) (do
      let workItemId ← newUuid
      let id ← newUuid
      pure { id, workItemId, authorName := some arguments.authorName, text := arguments.text, kind := .context } :
      Prog Comment) := Within.bind newUuid_apart fun _ => Within.bind newUuid_apart fun _ => Within.pure _
  have projects : ∀ comment, Within Apart (fun _ => True) (projectComment comment) := by
    intro comment
    refine Within.swallow (S := fun _ => True) (Within.bind ?_ fun _ => ?_)
    · exact Within.command (fun _ => ⟨rfl, rfl, rfl, rfl, rfl, fun _ => rfl, Nat.le_refl _⟩) trivial
    · exact Within.command (fun _ => ⟨rfl, rfl, rfl, rfl, rfl, KeepsEdges.other rfl, Nat.le_refl _⟩) trivial
  have stores : Within Apart (fun _ => True) (storeComment arguments) := by
    unfold storeComment
    split
    · exact Within.pure _
    · refine Within.bind newUuid_apart fun _ => Within.bind (Within.command ?_ trivial) fun _ => ?_
      · exact fun _ => ⟨rfl, rfl, rfl, rfl, rfl, fun _ => rfl, Nat.le_refl _⟩
      · exact Within.bind (projects _) fun _ => Within.pure _
  refine Within.bind (Within.query trivial) fun existing => ?_
  split
  · exact Within.pure _
  · refine Within.bind stores fun comment => ?_
    cases comment with
    | some comment =>
      dsimp only
      split
      · exact Within.bind (Within.bind (modelToEnvelope_apart _ _ _ _ _) fun _ => publish_apart _ trivial) fun _ => Within.pure _
      · exact Within.pure _
    | none =>
      dsimp only
      split
      · exact Within.bind (Within.bind (modelToEnvelope_apart _ _ _ _ _) fun _ => publish_apart _ trivial) fun _ => unstored
      · exact unstored

theorem resolveRelationships_hierarchical {o : Outside} {w : World} {snapshots : List OpenProjectWorkItemSnapshot}
    (hierarchical : Hierarchical w) (parentless : ∀ s ∈ snapshots, w.Parentless s) :
    Meets o (resolveRelationships snapshots) w (fun _ t => Hierarchical t) := by
  refine (Meets.forEach (fun t => Hierarchical t ∧ ∀ s ∈ snapshots, t.Parentless s) ⟨hierarchical, parentless⟩ ?_).mono
    fun _ _ kept => kept.1
  rintro s listed t kept
  refine resolveRelationshipsOf_finishes.mono ?_
  rintro r u finished
  have writes : CanonicalWrites s false t u := by
    cases r with
    | ok _ => exact finished.1
    | error _ => exact finished
  clear finished
  induction writes with
  | refl => exact kept
  | tail _ write ih =>
    refine ⟨ih.1.write (ih.2 s listed) write, fun s' listed' => ?_⟩
    exact write.parentless ih.1.issued (fun ingests => nomatch ingests) (ih.2 s' listed')

theorem ended_hierarchical {w : World} (call : Call) (hierarchical : Hierarchical w) (upright : Upright w call) :
    Hierarchical (self.ended call w).store := by
  have keeps : ∀ {t : World}, Apart w t → Hierarchical t := by
    intro t apart
    refine hierarchical.keep apart.edges.parents apart.projects ?_ ?_ apart.nextUuid (apart.issued hierarchical.issued)
    · rw [apart.workItems]
      exact hierarchical.orphans
    · rw [apart.relations]
      exact hierarchical.relations
  obtain ⟨outside, op⟩ := call
  unfold ended
  cases op with
  | upsertProject externalId name description parentExternalId projectId =>
    obtain ⟨clean, unreplaced⟩ := upright
    have upserts : Returns outside (Op.run self (.upsertProject externalId name description parentExternalId projectId)) w
        (fun _ t => Hierarchical t) := by
      refine Meets.seq _ (upsertProject_upserts clean externalId name description parentExternalId projectId) ?_
        (fun _ _ stopped => stopped.elim)
      rintro project t ⟨upserted, origin⟩
      refine Meets.pure ?_
      cases existing : w.projectFor externalId projectId with
      | none =>
        rw [existing] at origin
        refine hierarchical.upsert upserted ?_ ?_
        · rw [origin.1, origin.2.1]
          exact Uuid.fresh_below _
        · intro old stored same
          exact absurd (same.trans origin.1) (hierarchical.projects old stored).ne_fresh
      | some old =>
        rw [existing] at origin
        obtain ⟨stored, sameId, parent, -⟩ := origin
        refine hierarchical.upsert upserted ?_ ?_
        · rw [sameId]
          exact (hierarchical.projects old stored).mono upserted.nextUuid
        · intro other listed same a hasParent
          have isOld : other = old := w.projects.key_injective listed stored (same.trans sameId)
          subst isOld
          rw [parent]
          cases found : w.parentFor parentExternalId with
          | none => exact hasParent
          | some b => rw [unreplaced other a b existing hasParent found]; rfl
    exact upserts.store (fun _ _ kept => kept) 0
  | ingest s options =>
    have ingests : Meets outside (Op.run self (.ingest s options)) w (fun _ t => Hierarchical t) := by
      rcases upright with unresolved | parentless
      · refine Meets.seq _ (self.ingestWorkItemSnapshot_unresolved options unresolved) ?_ (fun _ _ apart => keeps apart)
        exact fun _ _ apart => Meets.pure (keeps apart)
      · refine Meets.seq _ (self.ingestWorkItemSnapshot_finishes options) ?_ ?_
        · exact fun _ _ finished => Meets.pure (hierarchical.writes parentless finished.1)
        · exact fun _ _ stopped => hierarchical.writes parentless stopped
    exact ingests 0
  | resolveRelationships snapshots => exact resolveRelationships_hierarchical hierarchical upright 0
  | ingestComment arguments =>
    have comments : Meets outside (Op.run self (.ingestComment arguments)) w (fun _ t => Apart w t) := by
      refine Meets.seq _ (ingestComment_apart arguments outside w) ?_ (fun _ _ stays => stays.store)
      exact fun _ _ stays => Meets.pure stays
    exact keeps (comments 0)

theorem after_hierarchical (history : List Call) {w : World} (hierarchical : Hierarchical w)
    (upright : self.Along Upright history w) : Hierarchical (self.after history w) := by
  induction history generalizing w with
  | nil => exact hierarchical
  | cons call history ih =>
    have next := self.ended_hierarchical call hierarchical upright.1
    exact ih next upright.2

/-- The orientation is uniform along every history in which no work item gets a
parent and no parent of a project is replaced. -/
theorem hierarchy_uniform (history : List Call) (projects : Keyed Project.id) (nextUuid : Nat)
    (roots : ∀ project ∈ projects.items, project.parentId = none ∧ project.id.Below nextUuid)
    (upright : self.Along Upright history (World.start projects nextUuid)) :
    (self.after history (World.start projects nextUuid)).Uniform := by
  have start : Hierarchical (World.start projects nextUuid) := by
    constructor
    · intro a b
      constructor
      · rintro ⟨relation, listed, _⟩
        cases listed
      · rintro ⟨project, stored, _, hasParent⟩
        rw [(roots project stored).1] at hasParent
        cases hasParent
    · intro id relation listed
      cases listed
    · intro item stored
      cases stored
    · intro relation stored
      cases stored
    · exact fun project stored => (roots project stored).2
    · intro item stored
      cases stored
  exact (self.after_hierarchical history start upright).uniform

theorem hierarchy_uniform_projects :
    let options : IngestOptions := { mode := .live, source := "webhook" }
    let history := [Call.undisturbed (.upsertProject "10" "Parent" "" none none),
      Call.undisturbed (.upsertProject "11" "Child" "" (some "10") none),
      Call.undisturbed (.ingest { externalId := "1", summary := "One" } options)]
    (after {} history (World.start Keyed.empty 0)).Uniform := by
  intro options history
  refine hierarchy_uniform {} history Keyed.empty 0 (fun _ stored => nomatch stored) ⟨⟨Outside.clean_clean, ?_⟩,
    ⟨Outside.clean_clean, ?_⟩, Or.inr ?_, trivial⟩
  · intro old a b found
    cases found
  · intro old a b found
    have missing : World.projectFor (ended {} (.undisturbed (.upsertProject "10" "Parent" "" none none))
        (World.start Keyed.empty 0)).store "11" none = none := by decide +kernel
    rw [missing] at found
    cases found
  · intro x names
    cases names

/-- The edge of an ingested work item runs from the child to its parent. -/
theorem child_edge_inverted :
    let options : IngestOptions := { mode := .live, source := "webhook" }
    let history := [Call.undisturbed (.ingest { externalId := "1", summary := "One" } options),
      Call.undisturbed (.ingest { externalId := "2", summary := "Two", parentId := some 1 } options)]
    ¬ (after {} history World.oneProject).Uniform := by
  intro options history uniform
  have inverted : ∃ id, ∃ relation ∈ (after {} history World.oneProject).graph.outgoing id, relation.relationType = .parentOf ∧
      ¬ (after {} history World.oneProject).IsParent relation.subjectId relation.objectId :=
    ⟨.v4 3, by decide +kernel⟩
  obtain ⟨id, relation, listed, isParent, wrong⟩ := inverted
  exact wrong (uniform.oriented id relation listed isParent)

end OpenProjectIngestionService

end Brain
