import Brain.Persistence.Refinement

namespace Brain
variable {s : InMemoryRepositories} {db : PostgresDatabase}

/-! ### A call that is answered alike in every order was allowed -/

namespace InTables
variable (held : InTables s db)
include held

theorem project_allowed {call : ProjectCall} (always : ∀ plan, Echoes (s.project call).1 (db.project plan call)) :
    call.Allowed s := by
  cases call with
  | create project => exact (RowMapping.create_ok held.projects held.drawn).mp (Echoes.ran (always default))
  | update project => exact (RowMapping.update_ok held.projects held.drawn).mp (Echoes.ran (always default))
  | findByExternalRef provider externalId externalType =>
    exact RowMapping.oneNamed_of_find held.projects fun plan => (always plan).entity
  | get id => trivial
  | list => trivial
  | delete id => trivial

theorem workItem_allowed {call : WorkItemCall} (always : ∀ plan, Echoes (s.workItem call).1 (db.workItem plan call)) :
    call.Allowed s := by
  cases call with
  | create workItem => exact (RowMapping.create_ok held.workItems held.drawn).mp (Echoes.ran (always default))
  | update workItem => exact (RowMapping.update_ok held.workItems held.drawn).mp (Echoes.ran (always default))
  | findByExternalRef provider externalId externalType =>
    exact RowMapping.oneNamed_of_find held.workItems fun plan => (always plan).entity
  | get id => trivial
  | listByProject projectId => trivial
  | listByWorkItem parentId => trivial
  | delete id => trivial

theorem comment_allowed {call : CommentCall} (always : ∀ plan, Echoes (s.comment call).1 (db.comment plan call)) :
    call.Allowed s := by
  cases call with
  | create comment => exact (RowMapping.create_ok held.comments held.drawn).mp (Echoes.ran (always default))
  | findByExternalRef provider externalId externalType =>
    exact RowMapping.oneNamed_of_find held.comments fun plan => (always plan).entity
  | get id => trivial
  | listByWorkItem workItemId => trivial

theorem attachment_allowed {call : AttachmentCall}
    (always : ∀ plan, Echoes (s.attachment call).1 (db.attachment plan call)) : call.Allowed s := by
  cases call with
  | create attachment =>
    obtain ⟨_, _, done, _⟩ := (always default).wrote
    unfold PostgresAttachmentRepository.create at done
    split at done
    · rename_i fits
      obtain ⟨result, created, _⟩ := Checked.bind_eq_ok.mp done
      exact ⟨fits, (RowMapping.create_ok held.attachments held.drawn).mp ⟨result, created⟩⟩
    · cases done
  | findByExternalRef provider externalId externalType =>
    exact RowMapping.oneNamed_of_find held.attachments fun plan => (always plan).entity
  | get id => trivial
  | listByWorkItem workItemId => trivial

theorem findBySource_one (plan : Plan) {projectId : ProjectId} {sourceUri : String} {found : Option DocumentRecord}
    (done : PostgresDocumentRepository.findBySource plan projectId sourceUri db = .ok found) :
    AtMostOne (fun d : DocumentRecord => d.projectId = projectId && d.source.uri = sourceUri) s.documents.items := by
  have rows := held.documents.stores.filter
    (p := fun d : DocumentRecord => d.projectId = projectId && d.source.uri = sourceUri)
    (q := fun row => row.projectId = projectId && row.source.uri = sourceUri) fun _ => rfl
  have scanned := plan.scan_perm (db.documents.items.filter fun row => row.projectId = projectId && row.source.uri = sourceUri)
  have few : (s.documents.items.filter fun d => d.projectId = projectId && d.source.uri = sourceUri).length ≤ 1 := by
    rw [rows] at scanned
    have length := scanned.length_eq
    rw [List.length_map] at length
    unfold PostgresDocumentRepository.findBySource at done
    rw [← length, ← rows]
    split at done
    · rename_i none
      rw [none]
      exact Nat.zero_le 1
    · rename_i row single
      rw [single]
      exact Nat.le_refl 1
    · cases done
  intro a inA b inB matchesA matchesB
  have member : ∀ d ∈ s.documents.items, (d.projectId = projectId && d.source.uri = sourceUri) = true →
      d ∈ s.documents.items.filter fun d => d.projectId = projectId && d.source.uri = sourceUri :=
    fun d inItems passes => List.mem_filter.mpr ⟨inItems, passes⟩
  have memberA := member a inA matchesA
  have memberB := member b inB matchesB
  cases passing : s.documents.items.filter fun d => d.projectId = projectId && d.source.uri = sourceUri with
  | nil =>
    rw [passing] at memberA
    exact absurd memberA List.not_mem_nil
  | cons d rest =>
    rw [passing] at memberA memberB few
    have alone : rest = [] := List.eq_nil_of_length_eq_zero (by simpa using few)
    rw [alone, List.mem_singleton] at memberA memberB
    rw [memberA, memberB]

theorem document_allowed {call : DocumentCall} (always : ∀ plan, Echoes (s.document call).1 (db.document plan call)) :
    call.Allowed s := by
  cases call with
  | create document => exact (RowMapping.create_ok held.documents held.drawn).mp (Echoes.ran (always default))
  | update document => exact (RowMapping.update_ok held.documents held.drawn).mp (Echoes.ran (always default))
  | findBySource projectId sourceUri => exact held.findBySource_one default (always default).entity
  | get id => trivial
  | listByProject projectId => trivial
  | delete id => trivial

theorem documentVersion_allowed {call : DocumentVersionCall}
    (always : ∀ plan, Echoes (s.documentVersion call).1 (db.documentVersion plan call)) : call.Allowed s := by
  cases call with
  | addVersion version => exact (RowMapping.add_ok held.documentVersions).mp (Echoes.ran (always default))
  | getVersion id => trivial
  | listVersions documentId => trivial

theorem listNodes_one {versionId : DocumentVersionId} {listed : List DocumentNodeRecord}
    (always : ∀ plan, PostgresDocumentRepository.listNodes plan versionId db = .ok listed) :
    AtMostOne (fun n : DocumentNodeRecord => n.versionId = versionId) s.documentNodes.items := by
  have rows := held.documentNodes.filter (p := fun n : DocumentNodeRecord => n.versionId = versionId)
    (q := fun row => row.versionId = versionId) fun _ => rfl
  have first : ∀ node ∈ s.documentNodes.items, decide (node.versionId = versionId) = true → listed.head? = some node := by
    intro node inItems ofVersion
    have member : documentNodeRow node ∈ db.documentNodes.items.filter fun row => row.versionId = versionId := by
      rw [rows]
      exact List.mem_map_of_mem (List.mem_filter.mpr ⟨inItems, ofVersion⟩)
    obtain ⟨plan, ahead⟩ := Plan.scan_first member
    have loaded := RowMapping.loadAll_mem (always plan)
    cases scanned : plan.scan (db.documentNodes.items.filter fun row => row.versionId = versionId) with
    | nil =>
      rw [scanned] at ahead
      cases ahead
    | cons row rest =>
      rw [scanned] at ahead loaded
      cases Option.some.inj ahead
      cases loaded with
      | cons read later =>
        have loads := documentNodeMapping.load_row node
        rw [List.head?_cons, ← loads]
        exact read.symm
  intro a inA b inB ofA ofB
  exact Option.some.inj ((first a inA ofA).symm.trans (first b inB ofB))

theorem documentNode_allowed {call : DocumentNodeCall}
    (always : ∀ plan, Echoes (s.documentNode call).1 (db.documentNode plan call)) : call.Allowed s := by
  cases call with
  | addNode node => exact (RowMapping.add_ok held.documentNodes).mp (Echoes.ran (always default))
  | listNodes versionId =>
    have each : ∀ plan, PostgresDocumentRepository.listNodes plan versionId db =
        .ok (s.documentNodes.items.filter fun n => n.versionId = versionId) := by
      intro plan
      obtain ⟨listed, done, agree⟩ := (always plan).read
      cases agree
      exact done
    exact held.listNodes_one each

theorem execution_allowed {call : ExecutionCall} (always : ∀ plan, Echoes (s.execution call).1 (db.execution plan call)) :
    call.Allowed s := by
  cases call with
  | create execution => exact (RowMapping.add_ok held.executions).mp (Echoes.ran (always default))
  | get id => trivial
  | listByWorkItem workItemId => trivial
  | update execution => trivial

theorem relation_fresh {relation returned : WorkItemRelationRecord} {db' : PostgresDatabase}
    (missing : s.relations.items.find? (fun existing =>
      World.sameTriple existing.toWorkItemRelation relation.toWorkItemRelation) = none)
    (done : PostgresWorkItemRelationRepository.create relation db = .ok (returned, db')) :
    s.relations.get relation.id = none := by
  unfold PostgresWorkItemRelationRepository.create at done
  simp only [held.find_triple_none missing] at done
  obtain ⟨relations, inserted, _⟩ := Checked.bind_eq_ok.mp done
  have items := UniqueTable.insert_eq_some.mp (orRaise_eq_ok.mp inserted)
  have keys := relations.nodup
  rw [items, UniqueTable.nodup_map_concat] at keys
  refine Keyed.get_eq_none.mpr fun existing stored same => keys.2 (List.mem_map.mpr ⟨workItemRelationRow existing, ?_, same⟩)
  rw [held.relations]
  exact List.mem_map_of_mem stored

theorem relation_allowed {call : WorkItemRelationCall}
    (always : ∀ plan, Echoes (s.relation call).1 (db.relation plan call)) : call.Allowed s := by
  cases call with
  | create relation =>
    obtain ⟨returned, db', done, answered⟩ := (always default).wrote
    have itself : returned = relation := by
      unfold PostgresWorkItemRelationRepository.create at done
      dsimp only at done
      split at done
      · cases done
        rfl
      · obtain ⟨relations, _, rest⟩ := Checked.bind_eq_ok.mp done
        cases rest
        rfl
    cases find : s.relations.items.find? fun existing =>
        World.sameTriple existing.toWorkItemRelation relation.toWorkItemRelation with
    | none =>
      refine Or.inr ⟨held.relation_fresh find done, fun existing stored => ?_⟩
      simpa using List.find?_eq_none.mp find existing stored
    | some existing =>
      simp only [InMemoryRepositories.relation, find, Answer.entity.injEq, Option.some.injEq] at answered
      rw [answered, itself] at find
      exact Or.inl (List.mem_of_find?_eq_some find)
  | listByWorkItem workItemId => trivial
  | delete id => trivial

end InTables

/-! ### Runs of calls -/

theorem matches_within {α : Type} {port : Answer α → PortAnswer} (agrees : ∀ a b, a.Agree b → (port a).Agree (port b))
    {expected : Answer α × InMemoryRepositories} {result : Except DatabaseError (Answer α × PostgresDatabase)}
    (alike : Matches expected result) : ∃ answer next, PostgresDatabase.within port result = .ok (answer, next) ∧
      (expected.map port id).1.Agree answer ∧ InTables (expected.map port id).2 next := by
  obtain ⟨answer, next, rfl, agree, held⟩ := alike
  exact ⟨port answer, next, rfl, agrees _ _ agree, held⟩

theorem echoes_of_within {α : Type} {port : Answer α → PortAnswer} (agrees : ∀ a b, (port a).Agree (port b) → a.Agree b)
    {expected : Answer α × InMemoryRepositories} {result : Except DatabaseError (Answer α × PostgresDatabase)}
    (alike : ∃ answer next, PostgresDatabase.within port result = .ok (answer, next) ∧ (expected.map port id).1.Agree answer) :
    Echoes expected.1 result := by
  obtain ⟨answer, next, done, agree⟩ := alike
  cases taken : result with
  | error raised =>
    rw [taken] at done
    cases done
  | ok answered =>
    rw [taken] at done
    cases done
    exact ⟨_, _, rfl, agrees _ _ agree⟩

namespace InTables

theorem step (held : InTables s db) (plan : Plan) {call : PortCall} (allowed : call.Allowed s) :
    ∃ answer next, db.answer plan call = .ok (answer, next) ∧ (s.answer call).1.Agree answer ∧
      InTables (s.answer call).2 next := by
  cases call with
  | projects call => exact matches_within (fun _ _ => id) (held.project plan allowed)
  | workItems call => exact matches_within (fun _ _ => id) (held.workItem plan allowed)
  | documents call => exact matches_within (fun _ _ => id) (held.document plan allowed)
  | documentVersions call => exact matches_within (fun _ _ => id) (held.documentVersion plan allowed)
  | documentNodes call => exact matches_within (fun _ _ => id) (held.documentNode plan allowed)
  | executions call => exact matches_within (fun _ _ => id) (held.execution plan allowed)
  | comments call => exact matches_within (fun _ _ => id) (held.comment plan allowed)
  | attachments call => exact matches_within (fun _ _ => id) (held.attachment plan allowed)
  | relations call => exact matches_within (fun _ _ => id) (held.relation plan allowed)

theorem allowed_of_answers (held : InTables s db) {call : PortCall} (always : ∀ plan, ∃ answer next,
    db.answer plan call = .ok (answer, next) ∧ (s.answer call).1.Agree answer) : call.Allowed s := by
  cases call with
  | projects call => exact held.project_allowed fun plan => echoes_of_within (fun _ _ => id) (always plan)
  | workItems call => exact held.workItem_allowed fun plan => echoes_of_within (fun _ _ => id) (always plan)
  | documents call => exact held.document_allowed fun plan => echoes_of_within (fun _ _ => id) (always plan)
  | documentVersions call => exact held.documentVersion_allowed fun plan => echoes_of_within (fun _ _ => id) (always plan)
  | documentNodes call => exact held.documentNode_allowed fun plan => echoes_of_within (fun _ _ => id) (always plan)
  | executions call => exact held.execution_allowed fun plan => echoes_of_within (fun _ _ => id) (always plan)
  | comments call => exact held.comment_allowed fun plan => echoes_of_within (fun _ _ => id) (always plan)
  | attachments call => exact held.attachment_allowed fun plan => echoes_of_within (fun _ _ => id) (always plan)
  | relations call => exact held.relation_allowed fun plan => echoes_of_within (fun _ _ => id) (always plan)

end InTables

/-- From empty stores, the two sides answer the calls of a run alike, in whatever
order the server reads its rows, where every call of the run is allowed. -/
theorem PostgresDatabase.answers_iff (calls : List PortCall) :
    AnswersLike InMemoryRepositories.answer PostgresDatabase.answer PortAnswer.Agree calls {} {} ↔
      AllAllowed InMemoryRepositories.answer (fun s call => call.Allowed s) calls {} := by
  refine answersLike_iff (R := InTables) ?_ ?_ InTables.empty
  · intro s db call plan held allowed
    exact held.step plan allowed
  · intro s db call held always
    exact held.allowed_of_answers always

/-! ### Runs that are answered differently -/

def redelivered : ExecutionRecord :=
  { id := .v4 0, workflowId := .v4 1, workItemId := .v4 2, executorId := .v4 3, startedAt := 0, correlationId := .v4 4 }

/-- A project that a provider knows under one id as two things. -/
def twiceReferenced : ProjectRecord where
  id := .v4 0
  name := "Platform"
  externalRefs := [openProjectRef "7" "project", openProjectRef "7" "program"]

def blocksRelation (id : WorkItemRelationId) : WorkItemRelationRecord :=
  { id, sourceWorkItemId := .v4 0, targetWorkItemId := .v4 1, relationType := .blocks, detectedAt := 0 }

def headingNode (id : Uuid) : DocumentNodeRecord := { id, versionId := .v4 0 }

def backwards : Plan := { order := fun _ => Fin.revPerm }

/-- A redelivered execution, two references of an owner that differ in their type, a
relation that is created again, and the nodes of a version read in another order. -/
theorem PostgresDatabase.answers_differ :
    ¬ AnswersLike InMemoryRepositories.answer PostgresDatabase.answer PortAnswer.Agree
      [.executions (.create redelivered), .executions (.create redelivered)] {} {} ∧
    ¬ AnswersLike InMemoryRepositories.answer PostgresDatabase.answer PortAnswer.Agree
      [.projects (.create twiceReferenced)] {} {} ∧
    ¬ AnswersLike InMemoryRepositories.answer PostgresDatabase.answer PortAnswer.Agree
      [.relations (.create (blocksRelation (.v4 2))), .relations (.create (blocksRelation (.v4 3)))] {} {} ∧
    ¬ AnswersLike InMemoryRepositories.answer PostgresDatabase.answer PortAnswer.Agree
      [.documentNodes (.addNode (headingNode (.v4 1))), .documentNodes (.addNode (headingNode (.v4 2))),
        .documentNodes (.listNodes (.v4 0))] {} {} := by
  refine ⟨fun alike => ?_, fun alike => ?_, fun alike => ?_, fun alike => ?_⟩
  · obtain ⟨answers, run, _⟩ := alike [default, default] rfl
    cases run
  · obtain ⟨answers, run, _⟩ := alike [default] rfl
    cases run
  · obtain ⟨answers, run, agree⟩ := alike [default, default] rfl
    cases run
    obtain ⟨_, second⟩ := List.forall₂_cons.mp agree
    cases (List.forall₂_cons.mp second).1
  · obtain ⟨answers, run, agree⟩ := alike [default, default, backwards] rfl
    cases run
    obtain ⟨_, second⟩ := List.forall₂_cons.mp agree
    obtain ⟨_, third⟩ := List.forall₂_cons.mp second
    cases (List.forall₂_cons.mp third).1

end Brain
