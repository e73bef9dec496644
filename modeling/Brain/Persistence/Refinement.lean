import Brain.Persistence.InTables

namespace Brain
variable {s s' : InMemoryRepositories} {db db' : PostgresDatabase} {α ρ : Type}

def Matches (expected : Answer α × InMemoryRepositories) (result : Except DatabaseError (Answer α × PostgresDatabase)) : Prop :=
  ∃ answer next, result = .ok (answer, next) ∧ expected.1.Agree answer ∧ InTables expected.2 next

def Echoes (expected : Answer α) (result : Except DatabaseError (Answer α × PostgresDatabase)) : Prop :=
  ∃ answer next, result = .ok (answer, next) ∧ expected.Agree answer

theorem Answer.Agree.eq_entity {found : Option α} {answer : Answer α} (agree : (Answer.entity found).Agree answer) :
    answer = .entity found := by
  cases agree
  rfl

/-! ### One call -/

section Calls
variable {m : RowMapping α ρ} {a : α} (put : m.Rows → ExternalReferences → PostgresDatabase)
  {result : Except DatabaseError (m.Rows × ExternalReferences)}

def store (a : α) (put : m.Rows → ExternalReferences → PostgresDatabase)
    (result : Except DatabaseError (m.Rows × ExternalReferences)) : Except DatabaseError (Answer α × PostgresDatabase) :=
  PostgresDatabase.wrote do
    let (rows, references) ← result
    return (a, put rows references)

theorem matches_store {rows : m.Rows} {references : ExternalReferences} (done : result = .ok (rows, references))
    (held : InTables s' (put rows references)) : Matches (.entity (some a), s') (store a put result) := by
  subst done
  exact ⟨_, _, rfl, .entity _, held⟩

theorem matches_write {result : Except DatabaseError (α × PostgresDatabase)} (done : result = .ok (a, db'))
    (held : InTables s' db') : Matches (.entity (some a), s') (PostgresDatabase.wrote result) := by
  subst done
  exact ⟨_, _, rfl, .entity _, held⟩

theorem Echoes.wrote {expected : Answer α} {result : Except DatabaseError (α × PostgresDatabase)}
    (echoes : Echoes expected (PostgresDatabase.wrote result)) :
    ∃ a db', result = .ok (a, db') ∧ expected = .entity (some a) := by
  obtain ⟨answer, next, done, agree⟩ := echoes
  cases taken : result with
  | error raised =>
    rw [taken] at done
    cases done
  | ok wrote =>
    rw [taken] at done
    cases done
    cases agree
    exact ⟨wrote.1, wrote.2, rfl, rfl⟩

theorem matches_read {β : Type} {expected : Answer α} {form : β → Answer α} {found : β} {result : Except DatabaseError β}
    (done : result = .ok found) (agree : expected.Agree (form found)) (held : InTables s db) :
    Matches (expected, s) (PostgresDatabase.read form db result) := by
  subst done
  exact ⟨_, _, rfl, agree, held⟩

theorem matches_listing {as : List α} {result : Except DatabaseError (List α)}
    (found : ∃ loaded, result = .ok loaded ∧ as.Perm loaded) (held : InTables s db) :
    Matches (.listing as, s) (PostgresDatabase.read .listing db result) := by
  obtain ⟨loaded, done, same⟩ := found
  exact matches_read done (.listing same) held

theorem Echoes.read {β : Type} {expected : Answer α} {form : β → Answer α} {result : Except DatabaseError β}
    (echoes : Echoes expected (PostgresDatabase.read form db result)) :
    ∃ found, result = .ok found ∧ expected.Agree (form found) := by
  obtain ⟨answer, next, done, agree⟩ := echoes
  cases taken : result with
  | error raised =>
    rw [taken] at done
    cases done
  | ok found =>
    rw [taken] at done
    cases done
    exact ⟨found, rfl, agree⟩

theorem Echoes.ran {β : Type} {expected : Answer α} {first : Except DatabaseError β}
    {rest : β → Except DatabaseError (α × PostgresDatabase)} (echoes : Echoes expected (PostgresDatabase.wrote (first >>= rest))) :
    ∃ done, first = .ok done := by
  obtain ⟨_, _, done, _⟩ := echoes.wrote
  obtain ⟨taken, ran, _⟩ := Checked.bind_eq_ok.mp done
  exact ⟨taken, ran⟩

theorem Echoes.entity {expected : Option α} {result : Except DatabaseError (Option α)}
    (echoes : Echoes (.entity expected) (PostgresDatabase.read .entity db result)) : result = .ok expected := by
  obtain ⟨found, done, agree⟩ := echoes.read
  rw [done, Answer.entity.inj agree.eq_entity]

end Calls

/-! ### Projects and work items -/

namespace InTables
variable (held : InTables s db) (plan : Plan)
include held

theorem project {call : ProjectCall} (allowed : call.Allowed s) : Matches (s.project call) (db.project plan call) := by
  cases call with
  | create project =>
    obtain ⟨⟨rows, references⟩, done⟩ := (RowMapping.create_ok held.projects held.drawn).mpr allowed
    have kept := RowMapping.create_owns held.projects held.drawn done
    exact matches_store (fun projects references => { db with projects, references }) done (held.withProjects kept)
  | get id => exact matches_read (RowMapping.fetch_eq held.projects.stores id) (.entity _) held
  | list =>
    have found := RowMapping.selectOrdered_ok (p := fun _ => true) (q := fun _ => true) (fun _ => rfl) plan
      (fun a b => plan.collate a.name b.name) held.projects.stores
    rw [List.filter_true] at found
    exact matches_listing found held
  | update project =>
    obtain ⟨⟨rows, references⟩, done⟩ := (RowMapping.update_ok held.projects held.drawn).mpr allowed
    have kept := RowMapping.update_owns held.projects held.drawn done
    exact matches_store (fun projects references => { db with projects, references }) done (held.withProjects kept)
  | delete id =>
    have kept := RowMapping.delete_owns held.projects held.drawn (Prod.eta (projectMapping.delete "project" id _ _))
    exact ⟨_, _, rfl, .done, held.withProjects kept⟩
  | findByExternalRef provider externalId externalType =>
    exact matches_read (RowMapping.findByExternalRef_eq held.projects plan allowed) (.entity _) held

theorem workItem {call : WorkItemCall} (allowed : call.Allowed s) :
    Matches (s.workItem call) (db.workItem plan call) := by
  cases call with
  | create workItem =>
    obtain ⟨⟨rows, references⟩, done⟩ := (RowMapping.create_ok held.workItems held.drawn).mpr allowed
    have kept := RowMapping.create_owns held.workItems held.drawn done
    exact matches_store (fun workItems references => { db with workItems, references }) done (held.withWorkItems kept)
  | get id => exact matches_read (RowMapping.fetch_eq held.workItems.stores id) (.entity _) held
  | listByProject projectId =>
    exact matches_listing (RowMapping.selectOrdered_ok (fun _ => rfl) plan _ held.workItems.stores) held
  | listByWorkItem parentId =>
    exact matches_listing (RowMapping.select_ok (fun _ => rfl) plan held.workItems.stores) held
  | update workItem =>
    obtain ⟨⟨rows, references⟩, done⟩ := (RowMapping.update_ok held.workItems held.drawn).mpr allowed
    have kept := RowMapping.update_owns held.workItems held.drawn done
    exact matches_store (fun workItems references => { db with workItems, references }) done (held.withWorkItems kept)
  | delete id =>
    have kept := RowMapping.delete_owns held.workItems held.drawn (Prod.eta (workItemMapping.delete "work_item" id _ _))
    exact ⟨_, _, rfl, .done, held.withWorkItems kept⟩
  | findByExternalRef provider externalId externalType =>
    exact matches_read (RowMapping.findByExternalRef_eq held.workItems plan allowed) (.entity _) held

theorem comment {call : CommentCall} (allowed : call.Allowed s) : Matches (s.comment call) (db.comment plan call) := by
  cases call with
  | create comment =>
    obtain ⟨⟨rows, references⟩, done⟩ := (RowMapping.create_ok held.comments held.drawn).mpr allowed
    have kept := RowMapping.create_owns held.comments held.drawn done
    exact matches_store (fun comments references => { db with comments, references }) done (held.withComments kept)
  | get id => exact matches_read (RowMapping.fetch_eq held.comments.stores id) (.entity _) held
  | listByWorkItem workItemId =>
    exact matches_listing (RowMapping.selectOrdered_ok (fun _ => rfl) plan _ held.comments.stores) held
  | findByExternalRef provider externalId externalType =>
    exact matches_read (RowMapping.findByExternalRef_eq held.comments plan allowed) (.entity _) held

theorem attachment {call : AttachmentCall} (allowed : call.Allowed s) :
    Matches (s.attachment call) (db.attachment plan call) := by
  cases call with
  | create attachment =>
    obtain ⟨fits, fresh⟩ := allowed
    obtain ⟨⟨rows, references⟩, done⟩ := (RowMapping.create_ok held.attachments held.drawn).mpr fresh
    have kept := RowMapping.create_owns held.attachments held.drawn done
    have created : PostgresAttachmentRepository.create attachment db =
        .ok (attachment, { db with attachments := rows, references }) := by
      unfold PostgresAttachmentRepository.create
      rw [if_pos fits, done]
      rfl
    exact matches_write created (held.withAttachments kept)
  | get id => exact matches_read (RowMapping.fetch_eq held.attachments.stores id) (.entity _) held
  | listByWorkItem workItemId =>
    exact matches_listing (RowMapping.selectOrdered_ok (fun _ => rfl) plan _ held.attachments.stores) held
  | findByExternalRef provider externalId externalType =>
    exact matches_read (RowMapping.findByExternalRef_eq held.attachments plan allowed) (.entity _) held

/-! ### Documents and executions -/

omit held in
theorem items_nodup (m : RowMapping α ρ) (items : m.Items) : items.items.Nodup := items.nodup.of_map _

theorem findBySource_ok {projectId : ProjectId} {sourceUri : String}
    (one : AtMostOne (fun d : DocumentRecord => d.projectId = projectId && d.source.uri = sourceUri) s.documents.items) :
    PostgresDocumentRepository.findBySource plan projectId sourceUri db =
      .ok (s.documents.items.find? fun d => d.projectId = projectId && d.source.uri = sourceUri) := by
  have rows := held.documents.stores.filter
    (p := fun d : DocumentRecord => d.projectId = projectId && d.source.uri = sourceUri)
    (q := fun row => row.projectId = projectId && row.source.uri = sourceUri) fun _ => rfl
  unfold PostgresDocumentRepository.findBySource
  rw [rows, ← List.head?_filter]
  rcases one.filter_cases (items_nodup _ _) with none | ⟨document, single⟩
  · have scanned := plan.scan_perm (α := DocumentRow) []
    rw [none, List.map_nil, scanned.eq_nil]
    rfl
  · have scanned := plan.scan_perm [documentRow document]
    rw [single, List.map_singleton, show documentMapping.row document = documentRow document from rfl,
      List.perm_singleton.mp scanned]
    have loads : documentFromRow (documentRow document) = some document := documentMapping.load_row document
    simp only [loads]
    rfl

theorem document {call : DocumentCall} (allowed : call.Allowed s) :
    Matches (s.document call) (db.document plan call) := by
  cases call with
  | create document =>
    obtain ⟨⟨rows, references⟩, done⟩ := (RowMapping.create_ok held.documents held.drawn).mpr allowed
    have kept := RowMapping.create_owns held.documents held.drawn done
    exact matches_store (fun documents references => { db with documents, references }) done (held.withDocuments kept)
  | get id => exact matches_read (RowMapping.fetch_eq held.documents.stores id) (.entity _) held
  | listByProject projectId =>
    exact matches_listing (RowMapping.selectOrdered_ok (fun _ => rfl) plan _ held.documents.stores) held
  | findBySource projectId sourceUri =>
    exact matches_read (held.findBySource_ok plan allowed) (.entity _) held
  | update document =>
    obtain ⟨⟨rows, references⟩, done⟩ := (RowMapping.update_ok held.documents held.drawn).mpr allowed
    have kept := RowMapping.update_owns held.documents held.drawn done
    exact matches_store (fun documents references => { db with documents, references }) done (held.withDocuments kept)
  | delete id =>
    have kept := RowMapping.delete_owns held.documents held.drawn (Prod.eta (documentMapping.delete "document" id _ _))
    exact ⟨_, _, rfl, .done, held.withDocuments kept⟩

theorem documentVersion {call : DocumentVersionCall} (allowed : call.Allowed s) :
    Matches (s.documentVersion call) (db.documentVersion plan call) := by
  cases call with
  | addVersion version =>
    obtain ⟨rows, added⟩ := (RowMapping.add_ok held.documentVersions).mpr allowed
    have done : PostgresDocumentRepository.addVersion version db = .ok (version, { db with documentVersions := rows }) :=
      Checked.bind_eq_ok.mpr ⟨rows, added, rfl⟩
    exact matches_write done { held with documentVersions := RowMapping.add_stores held.documentVersions added }
  | getVersion id => exact matches_read (RowMapping.fetch_eq held.documentVersions id) (.entity _) held
  | listVersions documentId =>
    exact matches_listing (RowMapping.selectOrdered_ok (fun _ => rfl) plan _ held.documentVersions) held

theorem documentNode {call : DocumentNodeCall} (allowed : call.Allowed s) :
    Matches (s.documentNode call) (db.documentNode plan call) := by
  cases call with
  | addNode node =>
    obtain ⟨rows, added⟩ := (RowMapping.add_ok held.documentNodes).mpr allowed
    have done : PostgresDocumentRepository.addNode node db = .ok (node, { db with documentNodes := rows }) :=
      Checked.bind_eq_ok.mpr ⟨rows, added, rfl⟩
    exact matches_write done { held with documentNodes := RowMapping.add_stores held.documentNodes added }
  | listNodes versionId =>
    obtain ⟨loaded, done, same⟩ := RowMapping.select_ok (p := fun row => row.versionId = versionId)
      (q := fun n => n.versionId = versionId) (fun _ => rfl) plan held.documentNodes
    have ordered : s.documentNodes.items.filter (fun n => n.versionId = versionId) = loaded := by
      rcases allowed.filter_cases (items_nodup _ _) with none | ⟨node, single⟩
      · rw [none] at same ⊢
        exact same.nil_eq
      · rw [single] at same ⊢
        exact (List.perm_singleton.mp same.symm).symm
    exact matches_read done (ordered ▸ .sequence _) held

theorem execution {call : ExecutionCall} (allowed : call.Allowed s) :
    Matches (s.execution call) (db.execution plan call) := by
  cases call with
  | create execution =>
    obtain ⟨rows, added⟩ := (RowMapping.add_ok held.executions).mpr allowed
    have done : PostgresExecutionRepository.create execution db = .ok (execution, { db with executions := rows }) :=
      Checked.bind_eq_ok.mpr ⟨rows, added, rfl⟩
    exact matches_write done { held with executions := RowMapping.add_stores held.executions added }
  | get id => exact matches_read (RowMapping.fetch_eq held.executions id) (.entity _) held
  | listByWorkItem workItemId =>
    exact matches_listing (RowMapping.selectOrdered_ok (fun _ => rfl) plan _ held.executions) held
  | update execution =>
    obtain ⟨rows, written, stores⟩ := @RowMapping.write_ok _ _ _ _ _ execution held.executions
    have done : PostgresExecutionRepository.update execution db = .ok (execution, { db with executions := rows }) :=
      Checked.bind_eq_ok.mpr ⟨rows, written, rfl⟩
    exact matches_write done { held with executions := stores }

/-! ### Relations -/

omit held in
theorem sameTriple_iff {a b : WorkItemRelationRecord} :
    World.sameTriple a.toWorkItemRelation b.toWorkItemRelation = true ↔
      (workItemRelationRow a).triple = (workItemRelationRow b).triple := by
  have members : StrEnum.value a.relationType = StrEnum.value b.relationType ↔ a.relationType = b.relationType :=
    ⟨StrEnum.value_injective, fun same => by rw [same]⟩
  simp [World.sameTriple, WorkItemRelationRow.triple, workItemRelationRow, members, and_assoc]

theorem relation_unique {a b : WorkItemRelationRecord} (left : a ∈ s.relations.items) (right : b ∈ s.relations.items)
    (same : (workItemRelationRow a).triple = (workItemRelationRow b).triple) : a = b := by
  have rowOf : ∀ r ∈ s.relations.items, workItemRelationRow r ∈ db.relations.items := fun r stored => by
    rw [held.relations]
    exact List.mem_map_of_mem stored
  have rows := db.relations.unique_injective (rowOf a left) (rowOf b right) same
  have loaded : some a = some b := by rw [← workItemRelationFromRow_row a, rows, workItemRelationFromRow_row]
  exact Option.some.inj loaded

theorem any_triple (relation : WorkItemRelationRecord) :
    (db.relations.items.any fun stored => stored.triple = (workItemRelationRow relation).triple) =
      s.relations.items.any fun existing => World.sameTriple existing.toWorkItemRelation relation.toWorkItemRelation := by
  rw [held.relations, List.any_map]
  refine congrArg (s.relations.items.any ·) (funext fun existing => ?_)
  rw [Bool.eq_iff_iff, sameTriple_iff]
  simp

theorem find_triple_none {relation : WorkItemRelationRecord}
    (missing : s.relations.items.find? (fun existing =>
      World.sameTriple existing.toWorkItemRelation relation.toWorkItemRelation) = none) :
    (db.relations.items.any fun stored => stored.triple = (workItemRelationRow relation).triple) = false := by
  rw [held.any_triple]
  simpa using missing

theorem change_stored {relation : WorkItemRelationRecord} (stored : relation ∈ s.relations.items) :
    db.relations.items.map (fun row => if row.triple = (workItemRelationRow relation).triple then
      { row with detectedAt := relation.detectedAt } else row) = db.relations.items := by
  rw [held.relations, List.map_map]
  refine List.map_congr_left fun other inItems => ?_
  show (if _ then _ else _) = _
  split
  · rename_i same
    rw [held.relation_unique inItems stored same]
    rfl
  · rfl

theorem createRelation_stored {relation : WorkItemRelationRecord} (stored : relation ∈ s.relations.items) :
    Matches (s.relation (.create relation)) (db.relation plan (.create relation)) := by
  have itself : World.sameTriple relation.toWorkItemRelation relation.toWorkItemRelation = true := sameTriple_iff.mpr rfl
  have found : s.relations.items.find? (fun existing =>
      World.sameTriple existing.toWorkItemRelation relation.toWorkItemRelation) = some relation := by
    cases find : s.relations.items.find? fun existing =>
        World.sameTriple existing.toWorkItemRelation relation.toWorkItemRelation with
    | none => exact absurd itself (by simpa using List.find?_eq_none.mp find relation stored)
    | some existing =>
      have passes := List.find?_some find
      have same := sameTriple_iff.mp passes
      rw [held.relation_unique (List.mem_of_find?_eq_some find) stored same]
  have expected : s.relation (.create relation) = (.entity (some relation), s) := by
    simp only [InMemoryRepositories.relation, found]
  have present : (db.relations.items.any fun row => row.triple = (workItemRelationRow relation).triple) = true := by
    rw [held.any_triple]
    exact List.any_eq_true.mpr ⟨relation, stored, itself⟩
  have done : ∃ db', PostgresWorkItemRelationRepository.create relation db = .ok (relation, db') ∧ InTables s db' := by
    unfold PostgresWorkItemRelationRepository.create
    simp only [present, if_true]
    refine ⟨_, rfl, { held with relations := ?_ }⟩
    show db.relations.items.map _ = s.relations.items.map _
    rw [held.change_stored stored]
    exact held.relations
  obtain ⟨db', created, kept⟩ := done
  rw [expected]
  exact matches_write created kept

theorem createRelation_new {relation : WorkItemRelationRecord} (fresh : s.relations.get relation.id = none)
    (missing : s.relations.items.find? (fun existing =>
      World.sameTriple existing.toWorkItemRelation relation.toWorkItemRelation) = none) :
    Matches (s.relation (.create relation)) (db.relation plan (.create relation)) := by
  have expected : s.relation (.create relation) =
      (.entity (some relation), { s with relations := s.relations.upsert relation }) := by
    simp only [InMemoryRepositories.relation, missing]
  have absent := held.find_triple_none missing
  have newKey : (workItemRelationRow relation).id ∉ db.relations.items.map WorkItemRelationRow.id := by
    rw [held.relations, List.map_map]
    intro member
    obtain ⟨other, stored, same⟩ := List.mem_map.mp member
    exact Keyed.get_eq_none.mp fresh other stored same
  have newTriple : (workItemRelationRow relation).triple ∉ db.relations.items.map WorkItemRelationRow.triple := by
    intro member
    obtain ⟨row, stored, same⟩ := List.mem_map.mp member
    simpa [same] using List.any_eq_false.mp absent row stored
  have inserted : db.relations.insert (workItemRelationRow relation) = some ⟨⟨db.relations.items ++ [workItemRelationRow relation],
      UniqueTable.nodup_map_concat.mpr ⟨db.relations.nodup, newKey⟩⟩,
      UniqueTable.nodup_map_concat.mpr ⟨db.relations.uniques, newTriple⟩⟩ := UniqueTable.insert_eq_some.mpr rfl
  have done : ∃ db', PostgresWorkItemRelationRepository.create relation db = .ok (relation, db') ∧
      InTables { s with relations := s.relations.upsert relation } db' := by
    unfold PostgresWorkItemRelationRepository.create
    simp only [absent, inserted]
    refine ⟨_, rfl, { held with relations := ?_ }⟩
    have appended := Keyed.items_upsert_fresh (Keyed.get_eq_none.mp fresh)
    show db.relations.items ++ [workItemRelationRow relation] = (s.relations.upsert relation).items.map workItemRelationRow
    rw [appended, List.map_append, List.map_singleton, held.relations]
  obtain ⟨db', created, kept⟩ := done
  rw [expected]
  exact matches_write created kept

theorem relation {call : WorkItemRelationCall} (allowed : call.Allowed s) :
    Matches (s.relation call) (db.relation plan call) := by
  cases call with
  | create relation =>
    rcases allowed with stored | ⟨fresh, other⟩
    · exact held.createRelation_stored plan stored
    · exact held.createRelation_new plan fresh (List.find?_eq_none.mpr fun existing inItems => by simp [other existing inItems])
  | listByWorkItem workItemId =>
    have rows := held.relations.filter
      (p := fun r : WorkItemRelationRecord => r.sourceWorkItemId = workItemId || r.targetWorkItemId = workItemId)
      (q := fun row => row.sourceWorkItemId = workItemId || row.targetWorkItemId = workItemId) fun _ => rfl
    have scanned := plan.scan_perm (db.relations.items.filter fun row =>
      row.sourceWorkItemId = workItemId || row.targetWorkItemId = workItemId)
    have found := RowMapping.loadAll_perm (m := workItemRelationMapping) (scanned.trans (List.Perm.of_eq rows))
    exact matches_listing found held
  | delete id =>
    have same : (db.relations.deleteWhere fun row => row.id = id).toKeyed = db.relations.toKeyed.delete id :=
      Keyed.ext_items (by simp [Keyed.delete])
    have deleted : Keyed.Images workItemRelationRow (s.relations.delete id)
        (db.relations.deleteWhere fun row => row.id = id).toKeyed := by
      rw [same]
      exact held.relations.delete (fun _ => rfl) id
    exact ⟨_, _, rfl, .done, { held with relations := deleted }⟩

end InTables

end Brain
