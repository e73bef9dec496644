import Brain.Adapters.InMemory
import Brain.Adapters.PostgresTables

namespace Brain

inductive DatabaseError
  | integrityError | dataError | multipleResultsFound | validationError
  deriving DecidableEq

def orRaise {α : Type} (error : DatabaseError) : Option α → Except DatabaseError α
  | some a => .ok a
  | none => .error error

/-! ### External references -/

/-- The table of references, and the counter `uuid4` draws the ids of its rows from. -/
structure ExternalReferences where
  table : UniqueTable ExternalReferenceRow.id ExternalReferenceRow.identity := .empty
  nextUuid : Nat := 0

namespace ExternalReferences

/-- The rows of an owner's references, with ids drawn from `n` on. -/
def rowsOf (ownerType : String) (ownerId : Uuid) (refs : List ExternalReference) (n : Nat) : List ExternalReferenceRow :=
  (refs.zipIdx n).map fun drawn => { id := .v4 drawn.2, ownerType, ownerId, reference := drawn.1 }

def deleteExternalRefs (ownerType : String) (ownerId : Uuid) (references : ExternalReferences) : ExternalReferences :=
  { references with
    table := references.table.deleteWhere fun row => row.ownerType = ownerType && row.ownerId = ownerId }

/-- The old rows are deleted at once, the new ones added by the flush. -/
def replaceExternalRefs (ownerType : String) (ownerId : Uuid) (refs : List ExternalReference)
    (references : ExternalReferences) : Except DatabaseError ExternalReferences := do
  let kept := references.deleteExternalRefs ownerType ownerId
  let table ← orRaise .integrityError
    (UniqueTable.insertAll (rowsOf ownerType ownerId refs references.nextUuid) kept.table)
  return { table, nextUuid := references.nextUuid + refs.length }

/-- The rows that `find_by_external_ref` selects. -/
def matching (ownerType provider externalId : String) (externalType : Option String) (references : ExternalReferences) :
    List ExternalReferenceRow :=
  references.table.items.filter fun row => row.ownerType = ownerType && row.reference.refersTo provider externalId externalType

end ExternalReferences

/-! ### What the repositories share -/

namespace RowMapping
variable {α ρ : Type} (m : RowMapping α ρ)

/-- What the in-memory repository holds. -/
abbrev Items := Keyed m.id

abbrev Rows := Keyed m.key

def add (a : α) (rows : m.Rows) : Except DatabaseError m.Rows := orRaise .integrityError (rows.insert (m.row a))

def loadAll (rows : List ρ) : Except DatabaseError (List α) := rows.mapM fun row => orRaise .validationError (m.load row)

def fetch (rows : m.Rows) (id : Uuid) : Except DatabaseError (Option α) :=
  match rows.get id with
  | none => .ok none
  | some row => (orRaise .validationError (m.load row)).map some

def select (plan : Plan) (p : ρ → Bool) (rows : m.Rows) : Except DatabaseError (List α) :=
  m.loadAll (plan.scan (rows.items.filter p))

def selectOrdered (plan : Plan) (le : ρ → ρ → Bool) (p : ρ → Bool) (rows : m.Rows) : Except DatabaseError (List α) :=
  m.loadAll ((plan.scan (rows.items.filter p)).mergeSort le)

/-- `update` of a table without references. -/
def write (a : α) (rows : m.Rows) : Except DatabaseError m.Rows :=
  match rows.get (m.id a) with
  | none => m.add a rows
  | some row => .ok (rows.upsert (m.apply row a))

variable (ownerType : String) (externalRefs : α → List ExternalReference)

def create (a : α) (rows : m.Rows) (references : ExternalReferences) :
    Except DatabaseError (m.Rows × ExternalReferences) := do
  let rows ← m.add a rows
  let references ← references.replaceExternalRefs ownerType (m.id a) (externalRefs a)
  return (rows, references)

def update (a : α) (rows : m.Rows) (references : ExternalReferences) :
    Except DatabaseError (m.Rows × ExternalReferences) :=
  match rows.get (m.id a) with
  | none => m.create ownerType externalRefs a rows references
  | some row => do
    let references ← references.replaceExternalRefs ownerType (m.id a) (externalRefs a)
    return (rows.upsert (m.apply row a), references)

def delete (id : Uuid) (rows : m.Rows) (references : ExternalReferences) : m.Rows × ExternalReferences :=
  match rows.get id with
  | none => (rows, references)
  | some _ => (rows.delete id, references.deleteExternalRefs ownerType id)

/-- `limit(1)` takes the first matching row that is read. -/
def findByExternalRef (plan : Plan) (provider externalId : String) (externalType : Option String) (rows : m.Rows)
    (references : ExternalReferences) : Except DatabaseError (Option α) :=
  match (plan.scan (references.matching ownerType provider externalId externalType)).head? with
  | none => .ok none
  | some row => m.fetch rows row.ownerId

end RowMapping

/-! ### The database -/

structure PostgresDatabase where
  projects : projectMapping.Rows := .empty
  workItems : workItemMapping.Rows := .empty
  documents : documentMapping.Rows := .empty
  documentVersions : documentVersionMapping.Rows := .empty
  documentNodes : documentNodeMapping.Rows := .empty
  executions : executionMapping.Rows := .empty
  comments : commentMapping.Rows := .empty
  attachments : attachmentMapping.Rows := .empty
  relations : UniqueTable WorkItemRelationRow.id WorkItemRelationRow.triple := .empty
  references : ExternalReferences := {}

namespace PostgresProjectRepository

def create (project : ProjectRecord) (db : PostgresDatabase) : Except DatabaseError (ProjectRecord × PostgresDatabase) := do
  let (projects, references) ← projectMapping.create "project" (·.externalRefs) project db.projects db.references
  return (project, { db with projects, references })

def get (id : ProjectId) (db : PostgresDatabase) : Except DatabaseError (Option ProjectRecord) :=
  projectMapping.fetch db.projects id

def list (plan : Plan) (db : PostgresDatabase) : Except DatabaseError (List ProjectRecord) :=
  projectMapping.selectOrdered plan (fun a b => plan.collate a.name b.name) (fun _ => true) db.projects

def update (project : ProjectRecord) (db : PostgresDatabase) : Except DatabaseError (ProjectRecord × PostgresDatabase) := do
  let (projects, references) ← projectMapping.update "project" (·.externalRefs) project db.projects db.references
  return (project, { db with projects, references })

def delete (id : ProjectId) (db : PostgresDatabase) : PostgresDatabase :=
  let (projects, references) := projectMapping.delete "project" id db.projects db.references
  { db with projects, references }

def findByExternalRef (plan : Plan) (provider externalId : String) (externalType : Option String) (db : PostgresDatabase) :
    Except DatabaseError (Option ProjectRecord) :=
  projectMapping.findByExternalRef "project" plan provider externalId externalType db.projects db.references

end PostgresProjectRepository

namespace PostgresWorkItemRepository

def create (workItem : WorkItemRecord) (db : PostgresDatabase) : Except DatabaseError (WorkItemRecord × PostgresDatabase) := do
  let (workItems, references) ← workItemMapping.create "work_item" (·.externalRefs) workItem db.workItems db.references
  return (workItem, { db with workItems, references })

def get (id : WorkItemId) (db : PostgresDatabase) : Except DatabaseError (Option WorkItemRecord) :=
  workItemMapping.fetch db.workItems id

def listByProject (plan : Plan) (projectId : ProjectId) (db : PostgresDatabase) :
    Except DatabaseError (List WorkItemRecord) :=
  workItemMapping.selectOrdered plan (fun a b => plan.collate a.title b.title) (fun row => row.projectId = projectId)
    db.workItems

def listByWorkItem (plan : Plan) (parentId : WorkItemId) (db : PostgresDatabase) :
    Except DatabaseError (List WorkItemRecord) :=
  workItemMapping.select plan (fun row => row.parentId = some parentId) db.workItems

def update (workItem : WorkItemRecord) (db : PostgresDatabase) : Except DatabaseError (WorkItemRecord × PostgresDatabase) := do
  let (workItems, references) ← workItemMapping.update "work_item" (·.externalRefs) workItem db.workItems db.references
  return (workItem, { db with workItems, references })

def delete (id : WorkItemId) (db : PostgresDatabase) : PostgresDatabase :=
  let (workItems, references) := workItemMapping.delete "work_item" id db.workItems db.references
  { db with workItems, references }

def findByExternalRef (plan : Plan) (provider externalId : String) (externalType : Option String) (db : PostgresDatabase) :
    Except DatabaseError (Option WorkItemRecord) :=
  workItemMapping.findByExternalRef "work_item" plan provider externalId externalType db.workItems db.references

end PostgresWorkItemRepository

namespace PostgresDocumentRepository

def create (document : DocumentRecord) (db : PostgresDatabase) : Except DatabaseError (DocumentRecord × PostgresDatabase) := do
  let (documents, references) ← documentMapping.create "document" (·.externalRefs) document db.documents db.references
  return (document, { db with documents, references })

def get (id : DocumentId) (db : PostgresDatabase) : Except DatabaseError (Option DocumentRecord) :=
  documentMapping.fetch db.documents id

def listByProject (plan : Plan) (projectId : ProjectId) (db : PostgresDatabase) :
    Except DatabaseError (List DocumentRecord) :=
  documentMapping.selectOrdered plan (fun a b => plan.collate a.title b.title) (fun row => row.projectId = projectId)
    db.documents

/-- `scalar_one_or_none` raises when a second row is selected. -/
def findBySource (plan : Plan) (projectId : ProjectId) (sourceUri : String) (db : PostgresDatabase) :
    Except DatabaseError (Option DocumentRecord) :=
  match plan.scan (db.documents.items.filter fun row => row.projectId = projectId && row.source.uri = sourceUri) with
  | [] => .ok none
  | [row] => (orRaise .validationError (documentFromRow row)).map some
  | _ :: _ :: _ => .error .multipleResultsFound

def update (document : DocumentRecord) (db : PostgresDatabase) : Except DatabaseError (DocumentRecord × PostgresDatabase) := do
  let (documents, references) ← documentMapping.update "document" (·.externalRefs) document db.documents db.references
  return (document, { db with documents, references })

def delete (id : DocumentId) (db : PostgresDatabase) : PostgresDatabase :=
  let (documents, references) := documentMapping.delete "document" id db.documents db.references
  { db with documents, references }

def addVersion (version : DocumentVersion) (db : PostgresDatabase) :
    Except DatabaseError (DocumentVersion × PostgresDatabase) := do
  let documentVersions ← documentVersionMapping.add version db.documentVersions
  return (version, { db with documentVersions })

def getVersion (id : DocumentVersionId) (db : PostgresDatabase) : Except DatabaseError (Option DocumentVersion) :=
  documentVersionMapping.fetch db.documentVersions id

def listVersions (plan : Plan) (documentId : DocumentId) (db : PostgresDatabase) :
    Except DatabaseError (List DocumentVersion) :=
  documentVersionMapping.selectOrdered plan (fun a b => a.ingestedAt ≤ b.ingestedAt) (fun row => row.documentId = documentId)
    db.documentVersions

def addNode (node : DocumentNodeRecord) (db : PostgresDatabase) :
    Except DatabaseError (DocumentNodeRecord × PostgresDatabase) := do
  let documentNodes ← documentNodeMapping.add node db.documentNodes
  return (node, { db with documentNodes })

/-- The query has no `ORDER BY`. -/
def listNodes (plan : Plan) (versionId : DocumentVersionId) (db : PostgresDatabase) :
    Except DatabaseError (List DocumentNodeRecord) :=
  documentNodeMapping.select plan (fun row => row.versionId = versionId) db.documentNodes

end PostgresDocumentRepository

namespace PostgresExecutionRepository

def create (execution : ExecutionRecord) (db : PostgresDatabase) :
    Except DatabaseError (ExecutionRecord × PostgresDatabase) := do
  let executions ← executionMapping.add execution db.executions
  return (execution, { db with executions })

def get (id : ExecutionId) (db : PostgresDatabase) : Except DatabaseError (Option ExecutionRecord) :=
  executionMapping.fetch db.executions id

def listByWorkItem (plan : Plan) (workItemId : WorkItemId) (db : PostgresDatabase) :
    Except DatabaseError (List ExecutionRecord) :=
  executionMapping.selectOrdered plan (fun a b => a.startedAt ≤ b.startedAt) (fun row => row.workItemId = workItemId)
    db.executions

def update (execution : ExecutionRecord) (db : PostgresDatabase) :
    Except DatabaseError (ExecutionRecord × PostgresDatabase) := do
  let executions ← executionMapping.write execution db.executions
  return (execution, { db with executions })

end PostgresExecutionRepository

namespace PostgresCommentRepository

def create (comment : CommentRecord) (db : PostgresDatabase) : Except DatabaseError (CommentRecord × PostgresDatabase) := do
  let (comments, references) ← commentMapping.create "comment" (·.externalRefs) comment db.comments db.references
  return (comment, { db with comments, references })

def get (id : CommentId) (db : PostgresDatabase) : Except DatabaseError (Option CommentRecord) :=
  commentMapping.fetch db.comments id

def listByWorkItem (plan : Plan) (workItemId : WorkItemId) (db : PostgresDatabase) :
    Except DatabaseError (List CommentRecord) :=
  commentMapping.selectOrdered plan (fun a b => a.createdAt ≤ b.createdAt) (fun row => row.workItemId = workItemId) db.comments

def findByExternalRef (plan : Plan) (provider externalId : String) (externalType : Option String) (db : PostgresDatabase) :
    Except DatabaseError (Option CommentRecord) :=
  commentMapping.findByExternalRef "comment" plan provider externalId externalType db.comments db.references

end PostgresCommentRepository

namespace PostgresAttachmentRepository

/-- The driver refuses a size that the `BIGINT` column cannot hold. -/
def create (attachment : AttachmentRecord) (db : PostgresDatabase) :
    Except DatabaseError (AttachmentRecord × PostgresDatabase) :=
  if attachment.fileSize.all isBigint then do
    let (attachments, references) ←
      attachmentMapping.create "attachment" (·.externalRefs) attachment db.attachments db.references
    return (attachment, { db with attachments, references })
  else .error .dataError

def get (id : AttachmentId) (db : PostgresDatabase) : Except DatabaseError (Option AttachmentRecord) :=
  attachmentMapping.fetch db.attachments id

def listByWorkItem (plan : Plan) (workItemId : WorkItemId) (db : PostgresDatabase) :
    Except DatabaseError (List AttachmentRecord) :=
  attachmentMapping.selectOrdered plan (fun a b => a.createdAt ≤ b.createdAt) (fun row => row.workItemId = workItemId)
    db.attachments

def findByExternalRef (plan : Plan) (provider externalId : String) (externalType : Option String) (db : PostgresDatabase) :
    Except DatabaseError (Option AttachmentRecord) :=
  attachmentMapping.findByExternalRef "attachment" plan provider externalId externalType db.attachments db.references

end PostgresAttachmentRepository

namespace PostgresWorkItemRelationRepository

/-- `INSERT ... ON CONFLICT DO UPDATE` on the triple. The id of the relation that
is returned is stored only when the triple was new. -/
def create (relation : WorkItemRelationRecord) (db : PostgresDatabase) :
    Except DatabaseError (WorkItemRelationRecord × PostgresDatabase) :=
  let row := workItemRelationRow relation
  if db.relations.items.any fun stored => stored.triple = row.triple then
    .ok (relation, { db with
      relations := db.relations.change
        (fun stored => if stored.triple = row.triple then { stored with detectedAt := relation.detectedAt } else stored)
        (fun stored => by split <;> rfl) (fun stored => by split <;> rfl) })
  else do
    let relations ← orRaise .integrityError (db.relations.insert row)
    return (relation, { db with relations })

def listByWorkItem (plan : Plan) (workItemId : WorkItemId) (db : PostgresDatabase) :
    Except DatabaseError (List WorkItemRelationRecord) :=
  (plan.scan (db.relations.items.filter fun row =>
    row.sourceWorkItemId = workItemId || row.targetWorkItemId = workItemId)).mapM fun row =>
      orRaise .validationError (workItemRelationFromRow row)

def delete (id : WorkItemRelationId) (db : PostgresDatabase) : PostgresDatabase :=
  { db with relations := db.relations.deleteWhere fun row => row.id = id }

end PostgresWorkItemRelationRepository

end Brain
