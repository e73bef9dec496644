import Brain.Lib.Answers
import Brain.Persistence.Rows

namespace Brain

/-! ### The calls of the ports -/

inductive ProjectCall
  | create (project : ProjectRecord)
  | get (id : ProjectId)
  | list
  | update (project : ProjectRecord)
  | delete (id : ProjectId)
  | findByExternalRef (provider externalId : String) (externalType : Option String)

inductive WorkItemCall
  | create (workItem : WorkItemRecord)
  | get (id : WorkItemId)
  | listByProject (projectId : ProjectId)
  | listByWorkItem (parentId : WorkItemId)
  | update (workItem : WorkItemRecord)
  | delete (id : WorkItemId)
  | findByExternalRef (provider externalId : String) (externalType : Option String)

inductive DocumentCall
  | create (document : DocumentRecord)
  | get (id : DocumentId)
  | listByProject (projectId : ProjectId)
  | findBySource (projectId : ProjectId) (sourceUri : String)
  | update (document : DocumentRecord)
  | delete (id : DocumentId)

inductive DocumentVersionCall
  | addVersion (version : DocumentVersion)
  | getVersion (id : DocumentVersionId)
  | listVersions (documentId : DocumentId)

inductive DocumentNodeCall
  | addNode (node : DocumentNodeRecord)
  | listNodes (versionId : DocumentVersionId)

inductive ExecutionCall
  | create (execution : ExecutionRecord)
  | get (id : ExecutionId)
  | listByWorkItem (workItemId : WorkItemId)
  | update (execution : ExecutionRecord)

inductive CommentCall
  | create (comment : CommentRecord)
  | get (id : CommentId)
  | listByWorkItem (workItemId : WorkItemId)
  | findByExternalRef (provider externalId : String) (externalType : Option String)

inductive AttachmentCall
  | create (attachment : AttachmentRecord)
  | get (id : AttachmentId)
  | listByWorkItem (workItemId : WorkItemId)
  | findByExternalRef (provider externalId : String) (externalType : Option String)

inductive WorkItemRelationCall
  | create (relation : WorkItemRelationRecord)
  | listByWorkItem (workItemId : WorkItemId)
  | delete (id : WorkItemRelationId)

inductive PortCall
  | projects (call : ProjectCall)
  | workItems (call : WorkItemCall)
  | documents (call : DocumentCall)
  | documentVersions (call : DocumentVersionCall)
  | documentNodes (call : DocumentNodeCall)
  | executions (call : ExecutionCall)
  | comments (call : CommentCall)
  | attachments (call : AttachmentCall)
  | relations (call : WorkItemRelationCall)

/-! ### Their answers -/

/-- What a call returns: an entity or `None`, a list, a list whose order is part of
the answer, or nothing. -/
inductive Answer (α : Type)
  | entity (found : Option α)
  | listing (as : List α)
  | sequence (as : List α)
  | done
  deriving DecidableEq

/-- Listings agree up to order. -/
inductive Answer.Agree {α : Type} : Answer α → Answer α → Prop
  | entity (found : Option α) : Agree (.entity found) (.entity found)
  | listing {as as' : List α} (same : as.Perm as') : Agree (.listing as) (.listing as')
  | sequence (as : List α) : Agree (.sequence as) (.sequence as)
  | done : Agree .done .done

inductive PortAnswer
  | projects (answer : Answer ProjectRecord)
  | workItems (answer : Answer WorkItemRecord)
  | documents (answer : Answer DocumentRecord)
  | documentVersions (answer : Answer DocumentVersion)
  | documentNodes (answer : Answer DocumentNodeRecord)
  | executions (answer : Answer ExecutionRecord)
  | comments (answer : Answer CommentRecord)
  | attachments (answer : Answer AttachmentRecord)
  | relations (answer : Answer WorkItemRelationRecord)
  deriving DecidableEq

def PortAnswer.Agree : PortAnswer → PortAnswer → Prop
  | .projects a, .projects b => a.Agree b
  | .workItems a, .workItems b => a.Agree b
  | .documents a, .documents b => a.Agree b
  | .documentVersions a, .documentVersions b => a.Agree b
  | .documentNodes a, .documentNodes b => a.Agree b
  | .executions a, .executions b => a.Agree b
  | .comments a, .comments b => a.Agree b
  | .attachments a, .attachments b => a.Agree b
  | .relations a, .relations b => a.Agree b
  | _, _ => False

/-! ### The in-memory repositories -/

structure InMemoryRepositories where
  projects : projectMapping.Items := .empty
  workItems : workItemMapping.Items := .empty
  documents : documentMapping.Items := .empty
  documentVersions : documentVersionMapping.Items := .empty
  documentNodes : documentNodeMapping.Items := .empty
  executions : executionMapping.Items := .empty
  comments : commentMapping.Items := .empty
  attachments : attachmentMapping.Items := .empty
  relations : Keyed fun relation : WorkItemRelationRecord => relation.id := .empty

namespace InMemoryRepositories

/-- `create` and `update` both upsert by id. -/
def project : ProjectCall → InMemoryRepositories → Answer ProjectRecord × InMemoryRepositories
  | .create project, s => (.entity (some project), { s with projects := s.projects.upsert project })
  | .get id, s => (.entity (s.projects.get id), s)
  | .list, s => (.listing s.projects.items, s)
  | .update project, s => (.entity (some project), { s with projects := s.projects.upsert project })
  | .delete id, s => (.done, { s with projects := s.projects.delete id })
  | .findByExternalRef provider externalId externalType, s =>
    (.entity (findByExternalRef (·.externalRefs) s.projects.items provider externalId externalType), s)

def workItem : WorkItemCall → InMemoryRepositories → Answer WorkItemRecord × InMemoryRepositories
  | .create workItem, s => (.entity (some workItem), { s with workItems := s.workItems.upsert workItem })
  | .get id, s => (.entity (s.workItems.get id), s)
  | .listByProject projectId, s => (.listing (s.workItems.items.filter fun w => w.projectId = projectId), s)
  | .listByWorkItem parentId, s => (.listing (s.workItems.items.filter fun w => w.parentId = some parentId), s)
  | .update workItem, s => (.entity (some workItem), { s with workItems := s.workItems.upsert workItem })
  | .delete id, s => (.done, { s with workItems := s.workItems.delete id })
  | .findByExternalRef provider externalId externalType, s =>
    (.entity (findByExternalRef (·.externalRefs) s.workItems.items provider externalId externalType), s)

def document : DocumentCall → InMemoryRepositories → Answer DocumentRecord × InMemoryRepositories
  | .create document, s => (.entity (some document), { s with documents := s.documents.upsert document })
  | .get id, s => (.entity (s.documents.get id), s)
  | .listByProject projectId, s => (.listing (s.documents.items.filter fun d => d.projectId = projectId), s)
  | .findBySource projectId sourceUri, s =>
    (.entity (s.documents.items.find? fun d => d.projectId = projectId && d.source.uri = sourceUri), s)
  | .update document, s => (.entity (some document), { s with documents := s.documents.upsert document })
  | .delete id, s => (.done, { s with documents := s.documents.delete id })

def documentVersion : DocumentVersionCall → InMemoryRepositories → Answer DocumentVersion × InMemoryRepositories
  | .addVersion version, s => (.entity (some version), { s with documentVersions := s.documentVersions.upsert version })
  | .getVersion id, s => (.entity (s.documentVersions.get id), s)
  | .listVersions documentId, s => (.listing (s.documentVersions.items.filter fun v => v.documentId = documentId), s)

def documentNode : DocumentNodeCall → InMemoryRepositories → Answer DocumentNodeRecord × InMemoryRepositories
  | .addNode node, s => (.entity (some node), { s with documentNodes := s.documentNodes.upsert node })
  | .listNodes versionId, s => (.sequence (s.documentNodes.items.filter fun n => n.versionId = versionId), s)

def execution : ExecutionCall → InMemoryRepositories → Answer ExecutionRecord × InMemoryRepositories
  | .create execution, s => (.entity (some execution), { s with executions := s.executions.upsert execution })
  | .get id, s => (.entity (s.executions.get id), s)
  | .listByWorkItem workItemId, s => (.listing (s.executions.items.filter fun e => e.workItemId = workItemId), s)
  | .update execution, s => (.entity (some execution), { s with executions := s.executions.upsert execution })

def comment : CommentCall → InMemoryRepositories → Answer CommentRecord × InMemoryRepositories
  | .create comment, s => (.entity (some comment), { s with comments := s.comments.upsert comment })
  | .get id, s => (.entity (s.comments.get id), s)
  | .listByWorkItem workItemId, s => (.listing (s.comments.items.filter fun c => c.workItemId = workItemId), s)
  | .findByExternalRef provider externalId externalType, s =>
    (.entity (findByExternalRef (·.externalRefs) s.comments.items provider externalId externalType), s)

def attachment : AttachmentCall → InMemoryRepositories → Answer AttachmentRecord × InMemoryRepositories
  | .create attachment, s => (.entity (some attachment), { s with attachments := s.attachments.upsert attachment })
  | .get id, s => (.entity (s.attachments.get id), s)
  | .listByWorkItem workItemId, s => (.listing (s.attachments.items.filter fun a => a.workItemId = workItemId), s)
  | .findByExternalRef provider externalId externalType, s =>
    (.entity (findByExternalRef (·.externalRefs) s.attachments.items provider externalId externalType), s)

/-- A stored relation with the ends and the type of the new one is returned in its place. -/
def relation : WorkItemRelationCall → InMemoryRepositories → Answer WorkItemRelationRecord × InMemoryRepositories
  | .create relation, s =>
    match s.relations.items.find? fun existing => World.sameTriple existing.toWorkItemRelation relation.toWorkItemRelation with
    | some existing => (.entity (some existing), s)
    | none => (.entity (some relation), { s with relations := s.relations.upsert relation })
  | .listByWorkItem workItemId, s =>
    (.listing (s.relations.items.filter fun r => r.sourceWorkItemId = workItemId || r.targetWorkItemId = workItemId), s)
  | .delete id, s => (.done, { s with relations := s.relations.delete id })

def answer : PortCall → InMemoryRepositories → PortAnswer × InMemoryRepositories
  | .projects call, s => (s.project call).map .projects id
  | .workItems call, s => (s.workItem call).map .workItems id
  | .documents call, s => (s.document call).map .documents id
  | .documentVersions call, s => (s.documentVersion call).map .documentVersions id
  | .documentNodes call, s => (s.documentNode call).map .documentNodes id
  | .executions call, s => (s.execution call).map .executions id
  | .comments call, s => (s.comment call).map .comments id
  | .attachments call, s => (s.attachment call).map .attachments id
  | .relations call, s => (s.relation call).map .relations id

end InMemoryRepositories

/-! ### The PostgreSQL repositories -/

namespace PostgresDatabase

/-- What a call that writes returns. -/
def wrote {α : Type} (result : Except DatabaseError (α × PostgresDatabase)) :
    Except DatabaseError (Answer α × PostgresDatabase) :=
  result.map fun done => (.entity (some done.1), done.2)

def read {α β : Type} (form : β → Answer α) (db : PostgresDatabase) (result : Except DatabaseError β) :
    Except DatabaseError (Answer α × PostgresDatabase) :=
  result.map fun found => (form found, db)

def project (plan : Plan) : ProjectCall → PostgresDatabase → Except DatabaseError (Answer ProjectRecord × PostgresDatabase)
  | .create project, db => wrote (PostgresProjectRepository.create project db)
  | .get id, db => read .entity db (PostgresProjectRepository.get id db)
  | .list, db => read .listing db (PostgresProjectRepository.list plan db)
  | .update project, db => wrote (PostgresProjectRepository.update project db)
  | .delete id, db => .ok (.done, PostgresProjectRepository.delete id db)
  | .findByExternalRef provider externalId externalType, db =>
    read .entity db (PostgresProjectRepository.findByExternalRef plan provider externalId externalType db)

def workItem (plan : Plan) :
    WorkItemCall → PostgresDatabase → Except DatabaseError (Answer WorkItemRecord × PostgresDatabase)
  | .create workItem, db => wrote (PostgresWorkItemRepository.create workItem db)
  | .get id, db => read .entity db (PostgresWorkItemRepository.get id db)
  | .listByProject projectId, db => read .listing db (PostgresWorkItemRepository.listByProject plan projectId db)
  | .listByWorkItem parentId, db => read .listing db (PostgresWorkItemRepository.listByWorkItem plan parentId db)
  | .update workItem, db => wrote (PostgresWorkItemRepository.update workItem db)
  | .delete id, db => .ok (.done, PostgresWorkItemRepository.delete id db)
  | .findByExternalRef provider externalId externalType, db =>
    read .entity db (PostgresWorkItemRepository.findByExternalRef plan provider externalId externalType db)

def document (plan : Plan) :
    DocumentCall → PostgresDatabase → Except DatabaseError (Answer DocumentRecord × PostgresDatabase)
  | .create document, db => wrote (PostgresDocumentRepository.create document db)
  | .get id, db => read .entity db (PostgresDocumentRepository.get id db)
  | .listByProject projectId, db => read .listing db (PostgresDocumentRepository.listByProject plan projectId db)
  | .findBySource projectId sourceUri, db =>
    read .entity db (PostgresDocumentRepository.findBySource plan projectId sourceUri db)
  | .update document, db => wrote (PostgresDocumentRepository.update document db)
  | .delete id, db => .ok (.done, PostgresDocumentRepository.delete id db)

def documentVersion (plan : Plan) :
    DocumentVersionCall → PostgresDatabase → Except DatabaseError (Answer DocumentVersion × PostgresDatabase)
  | .addVersion version, db => wrote (PostgresDocumentRepository.addVersion version db)
  | .getVersion id, db => read .entity db (PostgresDocumentRepository.getVersion id db)
  | .listVersions documentId, db => read .listing db (PostgresDocumentRepository.listVersions plan documentId db)

def documentNode (plan : Plan) :
    DocumentNodeCall → PostgresDatabase → Except DatabaseError (Answer DocumentNodeRecord × PostgresDatabase)
  | .addNode node, db => wrote (PostgresDocumentRepository.addNode node db)
  | .listNodes versionId, db => read .sequence db (PostgresDocumentRepository.listNodes plan versionId db)

def execution (plan : Plan) :
    ExecutionCall → PostgresDatabase → Except DatabaseError (Answer ExecutionRecord × PostgresDatabase)
  | .create execution, db => wrote (PostgresExecutionRepository.create execution db)
  | .get id, db => read .entity db (PostgresExecutionRepository.get id db)
  | .listByWorkItem workItemId, db => read .listing db (PostgresExecutionRepository.listByWorkItem plan workItemId db)
  | .update execution, db => wrote (PostgresExecutionRepository.update execution db)

def comment (plan : Plan) :
    CommentCall → PostgresDatabase → Except DatabaseError (Answer CommentRecord × PostgresDatabase)
  | .create comment, db => wrote (PostgresCommentRepository.create comment db)
  | .get id, db => read .entity db (PostgresCommentRepository.get id db)
  | .listByWorkItem workItemId, db => read .listing db (PostgresCommentRepository.listByWorkItem plan workItemId db)
  | .findByExternalRef provider externalId externalType, db =>
    read .entity db (PostgresCommentRepository.findByExternalRef plan provider externalId externalType db)

def attachment (plan : Plan) :
    AttachmentCall → PostgresDatabase → Except DatabaseError (Answer AttachmentRecord × PostgresDatabase)
  | .create attachment, db => wrote (PostgresAttachmentRepository.create attachment db)
  | .get id, db => read .entity db (PostgresAttachmentRepository.get id db)
  | .listByWorkItem workItemId, db => read .listing db (PostgresAttachmentRepository.listByWorkItem plan workItemId db)
  | .findByExternalRef provider externalId externalType, db =>
    read .entity db (PostgresAttachmentRepository.findByExternalRef plan provider externalId externalType db)

def relation (plan : Plan) :
    WorkItemRelationCall → PostgresDatabase → Except DatabaseError (Answer WorkItemRelationRecord × PostgresDatabase)
  | .create relation, db => wrote (PostgresWorkItemRelationRepository.create relation db)
  | .listByWorkItem workItemId, db =>
    read .listing db (PostgresWorkItemRelationRepository.listByWorkItem plan workItemId db)
  | .delete id, db => .ok (.done, PostgresWorkItemRelationRepository.delete id db)

def within {α : Type} (port : Answer α → PortAnswer) (result : Except DatabaseError (Answer α × PostgresDatabase)) :
    Except DatabaseError (PortAnswer × PostgresDatabase) :=
  result.map fun done => (port done.1, done.2)

def answer (plan : Plan) : PortCall → PostgresDatabase → Except DatabaseError (PortAnswer × PostgresDatabase)
  | .projects call, db => within .projects (db.project plan call)
  | .workItems call, db => within .workItems (db.workItem plan call)
  | .documents call, db => within .documents (db.document plan call)
  | .documentVersions call, db => within .documentVersions (db.documentVersion plan call)
  | .documentNodes call, db => within .documentNodes (db.documentNode plan call)
  | .executions call, db => within .executions (db.execution plan call)
  | .comments call, db => within .comments (db.comment plan call)
  | .attachments call, db => within .attachments (db.attachment plan call)
  | .relations call, db => within .relations (db.relation plan call)

end PostgresDatabase

/-! ### What a call must meet -/

/-- At most one entity passes the test. -/
def AtMostOne {α : Type} (p : α → Bool) (as : List α) : Prop := ∀ a ∈ as, ∀ b ∈ as, p a = true → p b = true → a = b

theorem AtMostOne.filter_cases {α : Type} {p : α → Bool} {as : List α} (one : AtMostOne p as) (nodup : as.Nodup) :
    as.filter p = [] ∨ ∃ a, as.filter p = [a] := by
  have distinct := nodup.filter p
  have member : ∀ a ∈ as.filter p, a ∈ as ∧ p a = true := fun a => List.mem_filter.mp
  cases passing : as.filter p with
  | nil => exact Or.inl rfl
  | cons a rest =>
    refine Or.inr ⟨a, ?_⟩
    cases rest with
    | nil => rfl
    | cons b rest =>
      rw [passing] at distinct member
      have first := member a (List.mem_cons_self ..)
      have second := member b (List.mem_cons_of_mem _ (List.mem_cons_self ..))
      have same := one a first.1 b second.1 first.2 second.2
      subst same
      exact absurd (List.mem_cons_self ..) (List.nodup_cons.mp distinct).1

variable {s s' : InMemoryRepositories} {db : PostgresDatabase}

def ProjectCall.Allowed (s : InMemoryRepositories) : ProjectCall → Prop
  | .create project => s.projects.get project.id = none ∧ DistinctRefs project.externalRefs
  | .update project => DistinctRefs project.externalRefs
  | .findByExternalRef provider externalId externalType =>
    RowMapping.OneNamed (·.externalRefs) provider externalId externalType s.projects.items
  | .get _ | .list | .delete _ => True

def WorkItemCall.Allowed (s : InMemoryRepositories) : WorkItemCall → Prop
  | .create workItem => s.workItems.get workItem.id = none ∧ DistinctRefs workItem.externalRefs
  | .update workItem => DistinctRefs workItem.externalRefs
  | .findByExternalRef provider externalId externalType =>
    RowMapping.OneNamed (·.externalRefs) provider externalId externalType s.workItems.items
  | .get _ | .listByProject _ | .listByWorkItem _ | .delete _ => True

def DocumentCall.Allowed (s : InMemoryRepositories) : DocumentCall → Prop
  | .create document => s.documents.get document.id = none ∧ DistinctRefs document.externalRefs
  | .update document => DistinctRefs document.externalRefs
  | .findBySource projectId sourceUri =>
    AtMostOne (fun d => d.projectId = projectId && d.source.uri = sourceUri) s.documents.items
  | .get _ | .listByProject _ | .delete _ => True

def DocumentVersionCall.Allowed (s : InMemoryRepositories) : DocumentVersionCall → Prop
  | .addVersion version => s.documentVersions.get version.id = none
  | .getVersion _ | .listVersions _ => True

def DocumentNodeCall.Allowed (s : InMemoryRepositories) : DocumentNodeCall → Prop
  | .addNode node => s.documentNodes.get node.id = none
  | .listNodes versionId => AtMostOne (fun n => n.versionId = versionId) s.documentNodes.items

def ExecutionCall.Allowed (s : InMemoryRepositories) : ExecutionCall → Prop
  | .create execution => s.executions.get execution.id = none
  | .get _ | .listByWorkItem _ | .update _ => True

def CommentCall.Allowed (s : InMemoryRepositories) : CommentCall → Prop
  | .create comment => s.comments.get comment.id = none ∧ DistinctRefs comment.externalRefs
  | .findByExternalRef provider externalId externalType =>
    RowMapping.OneNamed (·.externalRefs) provider externalId externalType s.comments.items
  | .get _ | .listByWorkItem _ => True

def AttachmentCall.Allowed (s : InMemoryRepositories) : AttachmentCall → Prop
  | .create attachment => attachment.fileSize.all isBigint = true ∧
    s.attachments.get attachment.id = none ∧ DistinctRefs attachment.externalRefs
  | .findByExternalRef provider externalId externalType =>
    RowMapping.OneNamed (·.externalRefs) provider externalId externalType s.attachments.items
  | .get _ | .listByWorkItem _ => True

/-- A relation is created when it is stored as it is, or when neither its id nor its
ends and type are stored. -/
def WorkItemRelationCall.Allowed (s : InMemoryRepositories) : WorkItemRelationCall → Prop
  | .create relation => relation ∈ s.relations.items ∨ (s.relations.get relation.id = none ∧
    ∀ existing ∈ s.relations.items, World.sameTriple existing.toWorkItemRelation relation.toWorkItemRelation = false)
  | .listByWorkItem _ | .delete _ => True

def PortCall.Allowed (s : InMemoryRepositories) : PortCall → Prop
  | .projects call => call.Allowed s
  | .workItems call => call.Allowed s
  | .documents call => call.Allowed s
  | .documentVersions call => call.Allowed s
  | .documentNodes call => call.Allowed s
  | .executions call => call.Allowed s
  | .comments call => call.Allowed s
  | .attachments call => call.Allowed s
  | .relations call => call.Allowed s

/-! ### The tables hold what the in-memory repositories hold -/

structure InTables (s : InMemoryRepositories) (db : PostgresDatabase) : Prop where
  projects : projectMapping.Owns "project" (·.externalRefs) s.projects db.projects db.references
  workItems : workItemMapping.Owns "work_item" (·.externalRefs) s.workItems db.workItems db.references
  documents : documentMapping.Owns "document" (·.externalRefs) s.documents db.documents db.references
  documentVersions : documentVersionMapping.Stores s.documentVersions db.documentVersions
  documentNodes : documentNodeMapping.Stores s.documentNodes db.documentNodes
  executions : executionMapping.Stores s.executions db.executions
  comments : commentMapping.Owns "comment" (·.externalRefs) s.comments db.comments db.references
  attachments : attachmentMapping.Owns "attachment" (·.externalRefs) s.attachments db.attachments db.references
  relations : Keyed.Images workItemRelationRow s.relations db.relations.toKeyed
  drawn : db.references.Drawn

namespace InTables

theorem owns_empty {α ρ : Type} (m : RowMapping α ρ) (ownerType : String) (externalRefs : α → List ExternalReference) :
    m.Owns ownerType externalRefs .empty .empty {} := by
  refine ⟨Keyed.Images.empty, fun ownerId ref => ⟨fun has => absurd has ExternalReferences.not_has_empty, ?_⟩⟩
  rintro ⟨a, member, _⟩
  exact absurd member List.not_mem_nil

theorem empty : InTables {} {} where
  projects := owns_empty ..
  workItems := owns_empty ..
  documents := owns_empty ..
  documentVersions := Keyed.Images.empty
  documentNodes := Keyed.Images.empty
  executions := Keyed.Images.empty
  comments := owns_empty ..
  attachments := owns_empty ..
  relations := Keyed.Images.empty
  drawn := ExternalReferences.drawn_empty

variable (held : InTables s db) {references : ExternalReferences}
include held

theorem withProjects {items : projectMapping.Items} {rows : projectMapping.Rows}
    (kept : projectMapping.Owns "project" (·.externalRefs) items rows references ∧ references.Drawn ∧
      RowMapping.Elsewhere "project" db.references references) :
    InTables { s with projects := items } { db with projects := rows, references } :=
  { held with
    projects := kept.1
    workItems := held.workItems.elsewhere kept.2.2 (by decide)
    documents := held.documents.elsewhere kept.2.2 (by decide)
    comments := held.comments.elsewhere kept.2.2 (by decide)
    attachments := held.attachments.elsewhere kept.2.2 (by decide)
    drawn := kept.2.1 }

theorem withWorkItems {items : workItemMapping.Items} {rows : workItemMapping.Rows}
    (kept : workItemMapping.Owns "work_item" (·.externalRefs) items rows references ∧ references.Drawn ∧
      RowMapping.Elsewhere "work_item" db.references references) :
    InTables { s with workItems := items } { db with workItems := rows, references } :=
  { held with
    workItems := kept.1
    projects := held.projects.elsewhere kept.2.2 (by decide)
    documents := held.documents.elsewhere kept.2.2 (by decide)
    comments := held.comments.elsewhere kept.2.2 (by decide)
    attachments := held.attachments.elsewhere kept.2.2 (by decide)
    drawn := kept.2.1 }

theorem withDocuments {items : documentMapping.Items} {rows : documentMapping.Rows}
    (kept : documentMapping.Owns "document" (·.externalRefs) items rows references ∧ references.Drawn ∧
      RowMapping.Elsewhere "document" db.references references) :
    InTables { s with documents := items } { db with documents := rows, references } :=
  { held with
    documents := kept.1
    projects := held.projects.elsewhere kept.2.2 (by decide)
    workItems := held.workItems.elsewhere kept.2.2 (by decide)
    comments := held.comments.elsewhere kept.2.2 (by decide)
    attachments := held.attachments.elsewhere kept.2.2 (by decide)
    drawn := kept.2.1 }

theorem withComments {items : commentMapping.Items} {rows : commentMapping.Rows}
    (kept : commentMapping.Owns "comment" (·.externalRefs) items rows references ∧ references.Drawn ∧
      RowMapping.Elsewhere "comment" db.references references) :
    InTables { s with comments := items } { db with comments := rows, references } :=
  { held with
    comments := kept.1
    projects := held.projects.elsewhere kept.2.2 (by decide)
    workItems := held.workItems.elsewhere kept.2.2 (by decide)
    documents := held.documents.elsewhere kept.2.2 (by decide)
    attachments := held.attachments.elsewhere kept.2.2 (by decide)
    drawn := kept.2.1 }

theorem withAttachments {items : attachmentMapping.Items} {rows : attachmentMapping.Rows}
    (kept : attachmentMapping.Owns "attachment" (·.externalRefs) items rows references ∧ references.Drawn ∧
      RowMapping.Elsewhere "attachment" db.references references) :
    InTables { s with attachments := items } { db with attachments := rows, references } :=
  { held with
    attachments := kept.1
    projects := held.projects.elsewhere kept.2.2 (by decide)
    workItems := held.workItems.elsewhere kept.2.2 (by decide)
    documents := held.documents.elsewhere kept.2.2 (by decide)
    comments := held.comments.elsewhere kept.2.2 (by decide)
    drawn := kept.2.1 }

end InTables

end Brain
