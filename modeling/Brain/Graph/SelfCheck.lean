import Brain.CodeGraph.Replacement
import Brain.Graph.Projection

namespace Brain
open FirstWriter InMemoryKnowledgeGraph GraphProjectionService GraphIntegrityChecker

/-! ### What the check reports -/

namespace GraphIntegrityChecker
variable {graph : InMemoryKnowledgeGraph} {entities : List GraphNode} {relations : List GraphEdge} {ids : List Uuid}

theorem duplicateIssues_eq_nil_iff : duplicateIssues entities = [] ↔ (entities.map nodeKey).Nodup := by
  rw [← Tally.counts_le_one_iff, duplicateIssues, List.map_eq_nil_iff, List.filter_eq_nil_iff]
  simp

theorem orphanIssues_eq_nil_iff :
    orphanIssues ids relations = [] ↔ ∀ e ∈ relations, e.subjectId ∈ ids ∧ e.objectId ∈ ids := by
  simp [orphanIssues, List.flatMap_eq_nil_iff]

theorem revisionIssues_eq_nil_iff : revisionIssues entities relations = [] ↔
    ∀ e ∈ relations, ∀ n ∈ entities, n.id = e.subjectId → n.revision ≠ none → e.revision ≠ none := by
  unfold revisionIssues
  rw [List.map_eq_nil_iff, List.filter_eq_nil_iff]
  constructor
  · intro none e member n listed isSubject revised unrevised
    refine none e member ?_
    rw [Bool.and_eq_true, List.contains_iff_mem, ← isSubject]
    refine ⟨List.mem_map_of_mem (List.mem_filter.mpr ⟨listed, ?_⟩), by rw [unrevised]; rfl⟩
    exact Option.isSome_iff_ne_none.mpr revised
  · intro revisions e member issue
    rw [Bool.and_eq_true, List.contains_iff_mem] at issue
    obtain ⟨n, listed, isSubject⟩ := List.mem_map.mp issue.1
    obtain ⟨inEntities, revised⟩ := List.mem_filter.mp listed
    exact revisions e member n inEntities isSubject (Option.isSome_iff_ne_none.mp revised) (Option.isNone_iff_eq_none.mp issue.2)

theorem typeIssues_eq_nil : typeIssues relations = [] := by
  unfold typeIssues
  rw [List.map_eq_nil_iff, List.filter_eq_nil_iff]
  intro e _
  have known : (RelationType.all.map RelationType.value).contains e.relationType.value = true :=
    List.contains_iff_mem.mpr (List.mem_map_of_mem e.relationType.mem_all)
  rw [known]
  exact Bool.false_ne_true

theorem check_clean_iff (projectId : ProjectId) : (check graph (some projectId)).issues = [] ↔
    ((graph.findEntities { projectId := some projectId }).map nodeKey).Nodup ∧
      (∀ e ∈ graph.findRelations {},
        e.subjectId ∈ (graph.findEntities { projectId := some projectId }).map (fun n => n.id) ∧
          e.objectId ∈ (graph.findEntities { projectId := some projectId }).map (fun n => n.id)) ∧
      ∀ e ∈ graph.findRelations {}, ∀ n ∈ graph.findEntities { projectId := some projectId },
        n.id = e.subjectId → n.revision ≠ none → e.revision ≠ none := by
  simp only [check, List.append_eq_nil_iff, duplicateIssues_eq_nil_iff, orphanIssues_eq_nil_iff,
    revisionIssues_eq_nil_iff, typeIssues_eq_nil, and_true, and_assoc]

theorem orphans_reported (graph : InMemoryKnowledgeGraph) (projectId : ProjectId) (e : GraphEdge)
    (member : e ∈ Groups.all graph.relationsOut) :
    (e.subjectId ∉ graph.entities.items.map (fun n => n.id) →
      ⟨"orphan_subject", "relation " ++ e.relationType.value ++ " subject missing"⟩ ∈
        (check graph (some projectId)).issues) ∧
    (e.objectId ∉ graph.entities.items.map (fun n => n.id) →
      ⟨"orphan_object", "relation " ++ e.relationType.value ++ " object missing"⟩ ∈
        (check graph (some projectId)).issues) := by
  have all : (Groups.all graph.relationsOut).filter (fun other => RelationQuery.passes {} other.toGraphRelation) =
      Groups.all graph.relationsOut := List.filter_eq_self.mpr fun _ _ => rfl
  -- the relation that stands for the ends of `e` in `find_relations`
  obtain ⟨f, isFirst⟩ : ∃ f, first endsOf (Groups.all graph.relationsOut) e.ends = some f :=
    exists_first (List.mem_map_of_mem member)
  obtain ⟨_, same⟩ := first_eq_some isFirst
  have found : f ∈ graph.findRelations {} := by
    unfold findRelations
    rw [mem_firsts, all]
    rw [← same] at isFirst
    exact isFirst
  have subject : f.subjectId = e.subjectId := congrArg Prod.fst same
  have object : f.objectId = e.objectId := congrArg (fun ends => ends.2.2) same
  have type : f.relationType = e.relationType := congrArg (fun ends => ends.2.1) same
  have among : ∀ id, id ∉ graph.entities.items.map (fun n => n.id) →
      ((graph.findEntities { projectId := some projectId }).map fun n => n.id).contains id = false := by
    intro id missing
    rw [Bool.eq_false_iff, ne_eq, List.contains_iff_mem]
    exact mt (fun listed => (List.filter_sublist.map _).subset listed) missing
  constructor
  · intro missing
    simp only [check, List.mem_append]
    refine Or.inl (Or.inl (Or.inr (List.mem_flatMap.mpr ⟨f, found, List.mem_append_left _ ?_⟩)))
    rw [subject, type, among _ missing]
    exact List.mem_singleton_self _
  · intro missing
    simp only [check, List.mem_append]
    refine Or.inl (Or.inl (Or.inr (List.mem_flatMap.mpr ⟨f, found, List.mem_append_right _ ?_⟩)))
    rw [object, type, among _ missing]
    exact List.mem_singleton_self _

end GraphIntegrityChecker

/-! ### Runs of projections -/

/-- The canonical state of all projects, whose ids are unique: an id names one entity. -/
structure CanonicalStore where
  projects : Keyed (fun state : CanonicalProject => state.project.id)
  references : ∀ state ∈ projects.items, state.References
  oneEntity : ∀ state ∈ projects.items, ∀ other ∈ projects.items, ∀ revision revision',
    ∀ n ∈ state.entities revision, ∀ m ∈ other.entities revision', n.id = m.id →
      n.projectId = m.projectId ∧ n.label = m.label ∧ n.properties = m.properties

def CanonicalStore.Runs (store : CanonicalStore) (run : List ProjectionStep) : Prop :=
  ∀ step ∈ run, step.state ∈ store.projects.items

/-- Beside another project a project is bare. -/
def Alone (run : List ProjectionStep) : Prop :=
  ∀ step ∈ run, ∀ other ∈ run, step.projectId ≠ other.projectId → other.state.Bare

/-- The entities of a project, at all its revisions, differ in what the check
identifies them by. -/
def Named (run : List ProjectionStep) : Prop :=
  ∀ step ∈ run, ∀ other ∈ run, step.projectId = other.projectId →
    ∀ n ∈ step.entities, ∀ m ∈ other.entities, nodeKey n = nodeKey m → n.id = m.id

/-- A project first projected without a revision is never projected at one. -/
def Scoped (run : List ProjectionStep) : Prop :=
  ∀ early step late, run = early ++ step :: late → (∀ other ∈ early, other.projectId ≠ step.projectId) →
    step.revision = none → step.state.Bare ∨ ∀ other ∈ late, other.projectId = step.projectId → other.revision = none

/-- After every step of the run each project projected so far passes its check. -/
def Passes (run : List ProjectionStep) : Prop :=
  ∀ early late, run = early ++ late → ∀ step ∈ early, (check (projectAll early) (some step.projectId)).issues = []

section Runs
variable {store : CanonicalStore} {run : List ProjectionStep} (runs : store.Runs run)
include runs

variable {step : ProjectionStep}

theorem state_of_projectId {other : ProjectionStep} (member : step ∈ run) (member' : other ∈ run)
    (same : step.projectId = other.projectId) : step.state = other.state :=
  store.projects.key_injective (runs step member) (runs other member') same

omit runs in
theorem mem_nodes {n : GraphNode} (listed : n ∈ (projectAll run).entities.items) :
    ∃ step ∈ run, n ∈ step.entities := by
  rw [(projectAll_tables run).1] at listed
  rcases Keyed.mem_foldl_upsert listed with before | written
  · cases before
  · exact List.mem_flatMap.mp written

theorem exists_final {n : GraphNode} (member : step ∈ run) (written : n ∈ step.entities) :
    ∃ x ∈ (projectAll run).findEntities { projectId := some step.projectId }, x.id = n.id ∧ nodeKey x = nodeKey n := by
  have key : n.id ∈ (projectAll run).entities.items.map fun n => n.id := by
    rw [(projectAll_tables run).1]
    exact Keyed.mem_keys_foldl_upsert (Or.inl (List.mem_map_of_mem (List.mem_flatMap.mpr ⟨step, member, written⟩)))
  obtain ⟨x, stored, sameId⟩ := List.mem_map.mp key
  obtain ⟨other, member', written'⟩ := mem_nodes stored
  obtain ⟨project, label, properties⟩ := store.oneEntity _ (runs other member') _ (runs step member) _ _ x written' n
    written sameId
  refine ⟨x, List.mem_filter.mpr ⟨stored, ?_⟩, sameId, ?_⟩
  · have own := project.trans (CanonicalProject.entities_own written).1
    simp [EntityQuery.passes, own, ProjectionStep.projectId]
  · simp only [nodeKey, entityIdentity, label, properties, sameId]

omit runs in
theorem found_written {projectId : ProjectId} {x : GraphNode}
    (found : x ∈ (projectAll run).findEntities { projectId := some projectId }) :
    ∃ step ∈ run, step.projectId = projectId ∧ x ∈ step.entities := by
  obtain ⟨stored, passes⟩ := List.mem_filter.mp found
  obtain ⟨step, member, written⟩ := mem_nodes stored
  refine ⟨step, member, ?_, written⟩
  have own := (CanonicalProject.entities_own written).1
  simp only [EntityQuery.passes, Option.all_none, Option.all_some, Bool.true_and, Bool.and_true, decide_eq_true_eq,
    own] at passes
  exact Option.some.inj passes

omit runs in
theorem mem_found {e : GraphEdge} : e ∈ (projectAll run).findRelations {} ↔
    first endsOf (run.flatMap ProjectionStep.relations) e.ends = some e := by
  rw [mem_findRelations (projectAll_tables run).2]
  have all : (run.flatMap ProjectionStep.relations).filter
      (fun other => RelationQuery.passes {} other.toGraphRelation) = run.flatMap ProjectionStep.relations :=
    List.filter_eq_self.mpr fun _ _ => rfl
  rw [all]

omit runs in
theorem edge_written (alone : Alone run) (member : step ∈ run) {e : GraphEdge}
    (found : e ∈ (projectAll run).findRelations {}) :
    ∃ other ∈ run, other.projectId = step.projectId ∧ e ∈ other.relations := by
  obtain ⟨written, _⟩ := first_eq_some (mem_found.mp found)
  obtain ⟨other, member', isEdge⟩ := List.mem_flatMap.mp written
  refine ⟨other, member', ?_, isEdge⟩
  by_contra different
  have none : other.relations = [] :=
    CanonicalProject.relations_eq_nil_iff.mpr (alone step member other member' (Ne.symm different))
  rw [none] at isEdge
  cases isEdge

omit runs in
theorem nodup_found (named : Named run) (projectId : ProjectId) :
    (((projectAll run).findEntities { projectId := some projectId }).map nodeKey).Nodup := by
  refine List.Nodup.map_on (fun x found y found' same => ?_)
    ((List.Nodup.of_map _ (projectAll run).entities.nodup).filter _)
  obtain ⟨step, member, isProject, written⟩ := found_written found
  obtain ⟨other, member', isProject', written'⟩ := found_written found'
  have sameId := named step member other member' (isProject.trans isProject'.symm) x written y written' same
  exact (projectAll run).entities.key_injective (List.mem_of_mem_filter found) (List.mem_of_mem_filter found') sameId

/-- The edges of the first projection of the project stand for the same edges
of later ones, so their revision is the first one. -/
theorem revision_found (alone : Alone run) (isScoped : Scoped run) (member : step ∈ run) {e : GraphEdge}
    (found : e ∈ (projectAll run).findRelations {}) {n : GraphNode}
    (listed : n ∈ (projectAll run).findEntities { projectId := some step.projectId }) (revised : n.revision ≠ none) :
    e.revision ≠ none := by
  intro unrevised
  obtain ⟨other, member', isProject, isEdge⟩ := edge_written alone member found
  obtain ⟨writer, inRun, isWriter, written⟩ := found_written listed
  have nonempty : ∀ s ∈ run, s.projectId = step.projectId → ¬ s.state.Bare := by
    intro s inRun' same bare
    rw [state_of_projectId runs inRun' member' (same.trans isProject.symm)] at bare
    have none : other.relations = [] := CanonicalProject.relations_eq_nil_iff.mpr bare
    rw [none] at isEdge
    cases isEdge
  -- the first projection of the project
  obtain ⟨head, isFirst⟩ := exists_first (List.mem_map_of_mem (f := ProjectionStep.projectId) member)
  obtain ⟨inRun', isHead⟩ := first_eq_some isFirst
  obtain ⟨early, late, isRun, before⟩ := first_split isFirst
  cases headRevision : head.revision with
  | none =>
    rcases isScoped early head late isRun (fun s inEarly => isHead ▸ before s inEarly) headRevision with bare | never
    · exact nonempty head inRun' isHead bare
    · rw [(CanonicalProject.entities_own written).2] at revised
      rw [isRun, List.mem_append, List.mem_cons] at inRun
      rcases inRun with inEarly | rfl | inLate
      · exact before writer inEarly isWriter
      · exact revised headRevision
      · exact revised (never writer inLate (isWriter.trans isHead.symm))
  | some sha =>
    have references := store.references _ (runs other member')
    have otherRevision : other.revision = none := (CanonicalProject.relations_listed references isEdge).1.symm.trans unrevised
    have core : e ∈ other.state.coreRelations none := by
      rw [ProjectionStep.relations, otherRevision] at isEdge
      exact (List.append_nil (other.state.coreRelations none)) ▸ isEdge
    have ends : e.ends ∈ head.relations.map endsOf := by
      rw [ProjectionStep.relations, CanonicalProject.relations, List.map_append, List.mem_append]
      left
      rw [state_of_projectId runs inRun' member' (isHead.trans isProject.symm),
        CanonicalProject.ends_coreRelations _ _ none]
      exact List.mem_map_of_mem core
    obtain ⟨g, isFirstEdge⟩ := exists_first ends
    have quiet : early.flatMap ProjectionStep.relations = [] := by
      rw [List.flatMap_eq_nil_iff]
      intro s inEarly
      have inRun'' : s ∈ run := isRun ▸ List.mem_append_left _ inEarly
      exact CanonicalProject.relations_eq_nil_iff.mpr
        (alone head inRun' s inRun'' fun same => before s inEarly (same.symm.trans isHead))
    have whole := mem_found.mp found
    rw [isRun, List.flatMap_append, quiet, List.nil_append, List.flatMap_cons, first_append, isFirstEdge,
      Option.some_or] at whole
    obtain rfl := Option.some.inj whole
    have atHead := (CanonicalProject.relations_listed (store.references _ (runs head inRun'))
      (first_eq_some isFirstEdge).1).1
    rw [unrevised, headRevision] at atHead
    cases atHead

theorem clean_of_conditions (alone : Alone run) (named : Named run) (isScoped : Scoped run) (member : step ∈ run)
    : (check (projectAll run) (some step.projectId)).issues = [] := by
  refine (check_clean_iff _).mpr ⟨nodup_found named _, fun e found => ?_, fun e found n listed _ revised => ?_⟩
  · obtain ⟨other, member', isProject, isEdge⟩ := edge_written alone member found
    obtain ⟨_, subject, object⟩ := CanonicalProject.relations_listed (store.references _ (runs other member')) isEdge
    have final : ∀ id ∈ other.entities.map (fun n => n.id),
        id ∈ ((projectAll run).findEntities { projectId := some step.projectId }).map fun n => n.id := by
      intro id written
      obtain ⟨n, inEntities, rfl⟩ := List.mem_map.mp written
      obtain ⟨x, listed, sameId, _⟩ := exists_final runs member' inEntities
      rw [isProject] at listed
      exact List.mem_map.mpr ⟨x, listed, sameId⟩
    exact ⟨final _ subject, final _ object⟩
  · exact revision_found runs alone isScoped member found listed revised

/-! ### Why the conditions are needed -/

theorem alone_of_passes (passes : Passes run) : Alone run := by
  intro step member other member' different
  by_contra notBare
  obtain ⟨e, isEdge⟩ : ∃ e, e ∈ other.relations :=
    List.exists_mem_of_ne_nil _ (mt CanonicalProject.relations_eq_nil_iff.mp notBare)
  obtain ⟨f, isFirst⟩ := exists_first (List.mem_map_of_mem (f := endsOf) (List.mem_flatMap.mpr ⟨other, member', isEdge⟩))
  have same : f.ends = e.ends := (first_eq_some isFirst).2
  have found : f ∈ (projectAll run).findRelations {} := by
    rw [mem_found, same]
    exact isFirst
  obtain ⟨_, joined, _⟩ := (check_clean_iff _).mp (passes run [] (List.append_nil run).symm step member)
  obtain ⟨x, listed, isSubject⟩ := List.mem_map.mp (joined f found).1
  obtain ⟨_, subject, _⟩ := CanonicalProject.relations_listed (store.references _ (runs other member')) isEdge
  obtain ⟨n, written, isId⟩ := List.mem_map.mp subject
  obtain ⟨writer, inRun, isWriter, written'⟩ := found_written listed
  have sameId : x.id = n.id := isSubject.trans ((congrArg Prod.fst same).trans isId.symm)
  obtain ⟨project, _⟩ := store.oneEntity _ (runs writer inRun) _ (runs other member') _ _ x written' n written sameId
  rw [(CanonicalProject.entities_own written').1, (CanonicalProject.entities_own written).1] at project
  exact different (isWriter.symm.trans (Option.some.inj project))

theorem named_of_passes (passes : Passes run) : Named run := by
  intro step member other member' same n written m written' sameKey
  obtain ⟨distinct, _⟩ := (check_clean_iff _).mp (passes run [] (List.append_nil run).symm step member)
  obtain ⟨x, found, isN, keyN⟩ := exists_final runs member written
  obtain ⟨y, found', isM, keyM⟩ := exists_final runs member' written'
  rw [← same] at found'
  have one := List.inj_on_of_nodup_map distinct found found' (keyN.trans (sameKey.trans keyM.symm))
  rw [← isN, ← isM, one]

theorem scoped_of_passes (passes : Passes run) : Scoped run := by
  intro early step late isRun before unrevised
  have alone := alone_of_passes runs passes
  by_contra neither
  obtain ⟨notBare, revises⟩ := not_or.mp neither
  simp only [not_forall] at revises
  obtain ⟨other, inLate, isProject, revised⟩ := revises
  obtain ⟨between, rest, isLate⟩ := List.append_of_mem inLate
  have inRun : step ∈ run := by simp [isRun]
  -- beside a project that is not bare no other one was projected before
  have nothing : early = [] := by
    rw [List.eq_nil_iff_forall_not_mem]
    intro s inEarly
    exact notBare (alone s (by simp [isRun, inEarly]) step inRun (before s inEarly))
  subst nothing
  rw [List.nil_append] at isRun
  have reached : ∀ s ∈ step :: (between ++ [other]), s ∈ run := by
    intro s member
    rw [isRun, isLate]
    simp only [List.mem_cons, List.mem_append, List.not_mem_nil, or_false] at member ⊢
    tauto
  have here : step ∈ step :: (between ++ [other]) := List.mem_cons_self ..
  have last : other ∈ step :: (between ++ [other]) := by simp
  obtain ⟨_, _, revisions⟩ := (check_clean_iff _).mp
    (passes (step :: (between ++ [other])) rest (by simp [isRun, isLate]) step here)
  have references := store.references _ (runs step inRun)
  obtain ⟨e, core⟩ : ∃ e, e ∈ step.state.coreRelations none :=
    List.exists_mem_of_ne_nil _ (mt CanonicalProject.coreRelations_eq_nil_iff.mp notBare)
  have isEdge : e ∈ step.relations := by
    rw [ProjectionStep.relations, unrevised]
    exact List.mem_append_left _ core
  obtain ⟨f, isFirst⟩ := exists_first (List.mem_map_of_mem (f := endsOf) isEdge)
  have inStep : f ∈ step.relations := (first_eq_some isFirst).1
  have same : f.ends = e.ends := (first_eq_some isFirst).2
  have found : f ∈ (projectAll (step :: (between ++ [other]))).findRelations {} := by
    rw [mem_found, List.flatMap_cons, first_append, same, show first endsOf step.relations e.ends = some f from isFirst,
      Option.some_or]
  have noRevision : f.revision = none := (CanonicalProject.relations_listed references inStep).1.trans unrevised
  -- the node of the subject as the last projection wrote it
  have isState := state_of_projectId runs (reached other last) inRun isProject
  have subject : f.subjectId ∈ other.entities.map fun n => n.id := by
    rw [show f.subjectId = e.subjectId from congrArg Prod.fst same, ProjectionStep.entities, isState]
    exact CanonicalProject.coreIds_listed (CanonicalProject.coreRelations_listed references core).2.1
  obtain ⟨x, isLast, sameId⟩ : ∃ x ∈ (projectAll (step :: (between ++ [other]))).entities.items,
      x ∈ other.entities ∧ x.id = f.subjectId := by
    obtain ⟨n, inEntities, isSubject⟩ := List.mem_map.mp subject
    obtain ⟨x, isWritten⟩ := LastWriter.exists_last (fun n : GraphNode => n.id) inEntities
    obtain ⟨inOther, isId⟩ := LastWriter.last_eq_some isWritten
    refine ⟨x, ?_, inOther, isId.trans isSubject⟩
    have got : (projectAll (step :: (between ++ [other]))).entities.get x.id = some x := by
      rw [(projectAll_tables _).1, Keyed.laws.get_foldl, ← List.cons_append, List.flatMap_append,
        LastWriter.last_append, List.flatMap_singleton, isId, isWritten]
      rfl
    exact (Keyed.get_eq_some.mp got).1
  have own := CanonicalProject.entities_own sameId.1
  have listed : x ∈ (projectAll (step :: (between ++ [other]))).findEntities { projectId := some step.projectId } := by
    refine List.mem_filter.mpr ⟨isLast, ?_⟩
    simp [EntityQuery.passes, own.1, ProjectionStep.projectId, isState]
  exact revisions f found x listed sameId.2 (own.2 ▸ revised) noRevision

end Runs

/-- Every project passes its check after every step of a run exactly when other
projects are bare, the identities of its entities differ, and a revision is
never missing first and given later. An orphan is reported in any case. -/
theorem projections_pass_iff (store : CanonicalStore) (run : List ProjectionStep) (runs : store.Runs run) :
    (Passes run ↔ Alone run ∧ Named run ∧ Scoped run) ∧
      ∀ (graph : InMemoryKnowledgeGraph) (projectId : ProjectId), ∀ e ∈ Groups.all graph.relationsOut,
        (e.subjectId ∉ graph.entities.items.map (fun n => n.id) →
          ⟨"orphan_subject", "relation " ++ e.relationType.value ++ " subject missing"⟩ ∈
            (check graph (some projectId)).issues) ∧
        (e.objectId ∉ graph.entities.items.map (fun n => n.id) →
          ⟨"orphan_object", "relation " ++ e.relationType.value ++ " object missing"⟩ ∈
            (check graph (some projectId)).issues) := by
  refine ⟨⟨fun passes => ?_, ?_⟩, orphans_reported⟩
  · exact ⟨alone_of_passes runs passes, named_of_passes runs passes, scoped_of_passes runs passes⟩
  · rintro ⟨alone, named, isScoped⟩ early late rfl step member
    have inRun : ∀ s ∈ early, s ∈ early ++ late := fun s inEarly => List.mem_append_left _ inEarly
    refine clean_of_conditions (fun s inEarly => runs s (inRun s inEarly)) ?_ ?_ ?_ member
    · exact fun s inEarly other inEarly' => alone s (inRun s inEarly) other (inRun other inEarly')
    · exact fun s inEarly other inEarly' => named s (inRun s inEarly) other (inRun other inEarly')
    · intro before s after isEarly first unrevised
      refine (isScoped before s (after ++ late) (by simp [isEarly]) first unrevised).imp_right fun never other inAfter => ?_
      exact never other (List.mem_append_left _ inAfter)

def oneItem (projectId : ProjectId) (workItemId : WorkItemId) (title : String) : CanonicalProject :=
  { project := { id := projectId, name := title }
    workItems := [{ id := workItemId, projectId := projectId, title := title }] }

theorem mem_oneItem {projectId : ProjectId} {workItemId : WorkItemId} {title : String} {revision : Option String}
    {n : GraphNode} (member : n ∈ (oneItem projectId workItemId title).entities revision) :
    n = (oneItem projectId workItemId title).projectNode revision ∨
      n = (oneItem projectId workItemId title).workItemNode revision
        { id := workItemId, projectId := projectId, title := title } := by
  cases revision <;> simpa [CanonicalProject.entities, CanonicalProject.coreEntities, oneItem] using member

def twoProjects : CanonicalStore where
  projects := ⟨[oneItem (.v4 0) (.v4 1) "login", oneItem (.v4 2) (.v4 3) "pay"], by decide⟩
  references state member := by
    rcases List.mem_cons.mp member with rfl | last
    · exact ⟨by simp [oneItem], by simp [oneItem], by simp [oneItem]⟩
    · obtain rfl := List.mem_singleton.mp last
      exact ⟨by simp [oneItem], by simp [oneItem], by simp [oneItem]⟩
  oneEntity state member other member' revision revision' n listed m listed' sameId := by
    simp only [List.mem_cons, List.not_mem_nil, or_false] at member member'
    rcases member with rfl | rfl <;> rcases member' with rfl | rfl <;>
      rcases mem_oneItem listed with rfl | rfl <;> rcases mem_oneItem listed' with rfl | rfl
    all_goals first
      | exact ⟨rfl, rfl, rfl⟩
      | simp [oneItem, CanonicalProject.projectNode, CanonicalProject.workItemNode, CanonicalProject.entity] at sameId

def loginTwice : List ProjectionStep :=
  [⟨oneItem (.v4 0) (.v4 1) "login", some "abc"⟩, ⟨oneItem (.v4 0) (.v4 1) "login", some "def"⟩]

theorem loginTwice_passes : Passes loginTwice := by
  have own : ∀ step ∈ loginTwice, step.state = oneItem (.v4 0) (.v4 1) "login" ∧ step.revision ≠ none := by
    intro step member
    simp only [loginTwice, List.mem_cons, List.not_mem_nil, or_false] at member
    rcases member with rfl | rfl <;> exact ⟨rfl, by simp⟩
  have runs : twoProjects.Runs loginTwice := by
    intro step member
    rw [(own step member).1]
    exact List.mem_cons_self ..
  refine (projections_pass_iff twoProjects loginTwice runs).1.mpr ⟨?_, ?_, ?_⟩
  · intro step member other member' different
    refine absurd ?_ different
    rw [ProjectionStep.projectId, ProjectionStep.projectId, (own step member).1, (own other member').1]
  · intro step member other member' _ n listed m listed' sameKey
    rw [ProjectionStep.entities, (own step member).1] at listed
    rw [ProjectionStep.entities, (own other member').1] at listed'
    rcases mem_oneItem listed with rfl | rfl <;> rcases mem_oneItem listed' with rfl | rfl
    · rfl
    · exact absurd (show "Project" = "WorkItem" from congrArg Prod.fst sameKey) (by decide)
    · exact absurd (show "WorkItem" = "Project" from congrArg Prod.fst sameKey) (by decide)
    · rfl
  · intro early step late isRun _ unrevised
    exact absurd unrevised (own step (by simp [isRun])).2

/-- The edge of the one project is an orphan to the check of the other. -/
theorem second_project_fails :
    let run : List ProjectionStep := [⟨oneItem (.v4 0) (.v4 1) "login", none⟩, ⟨oneItem (.v4 2) (.v4 3) "pay", none⟩]
    twoProjects.Runs run ∧ (check (projectAll run) (some (.v4 0))).issues =
        [⟨"orphan_subject", "relation PART_OF subject missing"⟩, ⟨"orphan_object", "relation PART_OF object missing"⟩] ∧
      ¬ Passes run := by
  intro run
  have reported : (check (projectAll run) (some (.v4 0))).issues =
      [⟨"orphan_subject", "relation PART_OF subject missing"⟩, ⟨"orphan_object", "relation PART_OF object missing"⟩] := by
    decide
  refine ⟨?_, reported, fun passes => ?_⟩
  · intro step member
    simp only [run, List.mem_cons, List.not_mem_nil, or_false] at member
    rcases member with rfl | rfl
    · exact List.mem_cons_self ..
    · exact List.mem_cons_of_mem _ (List.mem_cons_self ..)
  · have clean := passes run [] rfl _ (List.mem_cons_self ..)
    exact absurd (reported.symm.trans clean) (by decide)

end Brain
