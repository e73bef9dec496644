import Brain.Domain.Records
import Brain.Lib.Tables

namespace Brain

/-! ### Columns -/

def dumpUuids (ids : List Uuid) : List String := ids.map Uuid.text

def loadUuids (texts : List String) : Option (List Uuid) := texts.mapM Uuid.read

theorem loadUuids_dumpUuids (ids : List Uuid) : loadUuids (dumpUuids ids) = some ids := by
  unfold loadUuids dumpUuids
  induction ids with
  | nil => rfl
  | cons id ids ih => simp [Uuid.read_text, ih]

/-- A nullable column of a member's text. -/
def loadOptional {α : Type} [StrEnum α] : Option String → Option (Option α)
  | none => some none
  | some text => (StrEnum.read text).map some

theorem loadOptional_value {α : Type} [StrEnum α] (member : Option α) :
    loadOptional (member.map StrEnum.value) = some member := by
  cases member with
  | none => rfl
  | some a => simp [loadOptional, StrEnum.read_value]

/-- The integers of a `BIGINT` column. -/
def isBigint (n : Int) : Bool := -9223372036854775808 ≤ n && n ≤ 9223372036854775807

/-! ### Rows

A `JSONB` column of value objects holds the objects, which load as what was dumped. -/

structure ProjectRow where
  id : Uuid
  name : String
  description : Option String
  status : String
  parentId : Option Uuid
  repositories : List String
  externalRefs : List ExternalReference

structure WorkItemRow where
  id : Uuid
  projectId : Uuid
  type : String
  title : String
  description : String
  priority : Option String
  parentId : Option Uuid
  assignee : Option Uuid
  assignment : Option Assignment
  acceptanceCriteria : List AcceptanceCriterion
  requirementRefs : List String
  externalRefs : List ExternalReference
  humanWorkStatus : String
  implementationStatus : String
  verificationStatus : String
  pullRequestStatus : String

/-- The `source` column is the last three. -/
structure DocumentRow where
  id : Uuid
  projectId : Uuid
  type : String
  title : String
  currentVersionId : Option Uuid
  externalRefs : List ExternalReference
  source : DocumentSource
  sourceRef : Option ExternalReference

structure DocumentVersionRow where
  id : Uuid
  documentId : Uuid
  sourceVersion : Option String
  repositoryId : Option Uuid
  commitSha : Option String
  checksum : String
  ingestedAt : Time
  contentUri : Option String

structure DocumentNodeRow where
  id : Uuid
  versionId : Uuid
  nodeType : String
  title : Option String
  headingPath : List String
  content : String
  parentId : Option Uuid
  childIds : List String
  codeRefs : List String
  requirementRefs : List String
  workItemRefs : List String
  links : List String
  unresolvedRefs : List String

structure ExecutionRow where
  id : Uuid
  workflowId : Uuid
  workItemId : Uuid
  executorId : Uuid
  contextCapsuleId : Option Uuid
  status : String
  startedAt : Time
  completedAt : Option Time
  parentExecutionId : Option Uuid
  correlationId : Uuid
  baseBranch : Option String
  workingBranch : Option String
  worktreePath : Option String

structure CommentRow where
  id : Uuid
  workItemId : Uuid
  authorId : Option Uuid
  authorName : Option String
  text : String
  kind : String
  createdAt : Time
  externalRefs : List ExternalReference

structure AttachmentRow where
  id : Uuid
  workItemId : Uuid
  fileName : String
  contentType : String
  fileSize : Option Int
  downloadUrl : Option String
  contentIngested : Bool
  createdAt : Time
  externalRefs : List ExternalReference

structure WorkItemRelationRow where
  id : Uuid
  sourceWorkItemId : Uuid
  targetWorkItemId : Uuid
  relationType : String
  detectedAt : Time
  externalRefs : List ExternalReference

/-- The columns of `uq_work_item_relation`. -/
def WorkItemRelationRow.triple (row : WorkItemRelationRow) : Uuid × Uuid × String :=
  (row.sourceWorkItemId, row.targetWorkItemId, row.relationType)

structure ExternalReferenceRow where
  id : Uuid
  ownerType : String
  ownerId : Uuid
  reference : ExternalReference

/-- The columns of `uq_external_references_owner_provider_external`. -/
def ExternalReferenceRow.identity (row : ExternalReferenceRow) : String × Uuid × String × String :=
  (row.ownerType, row.ownerId, row.reference.provider, row.reference.externalId)

/-! ### Entities and their rows -/

/-- How the entities of a table are written and read: `row` is what `create` adds,
`apply` what `update` leaves of a row, and `load` is `none` where validation raises. -/
structure RowMapping (α ρ : Type) where
  id : α → Uuid
  key : ρ → Uuid
  row : α → ρ
  apply : ρ → α → ρ
  load : ρ → Option α
  key_row : ∀ a, key (row a) = id a
  apply_stored : ∀ stored a, key stored = id a → apply stored a = row a
  load_row : ∀ a, load (row a) = some a

def projectRow (project : ProjectRecord) : ProjectRow where
  id := project.id
  name := project.name
  description := project.description
  status := StrEnum.value project.status
  parentId := project.parentId
  repositories := dumpUuids project.repositories
  externalRefs := project.externalRefs

def applyProject (row : ProjectRow) (project : ProjectRecord) : ProjectRow :=
  { row with
    name := project.name
    description := project.description
    status := StrEnum.value project.status
    parentId := project.parentId
    repositories := dumpUuids project.repositories
    externalRefs := project.externalRefs }

def projectFromRow (row : ProjectRow) : Option ProjectRecord := do
  let status ← StrEnum.read row.status
  let repositories ← loadUuids row.repositories
  return { id := row.id, name := row.name, description := row.description, status, parentId := row.parentId, repositories
           externalRefs := row.externalRefs }

def projectMapping : RowMapping ProjectRecord ProjectRow where
  id project := project.id
  key := ProjectRow.id
  row := projectRow
  apply := applyProject
  load := projectFromRow
  key_row _ := rfl
  apply_stored stored project same := by
    show { projectRow project with id := stored.id } = projectRow project
    rw [same]
    rfl
  load_row project := by
    unfold projectFromRow projectRow
    simp only [StrEnum.read_value, loadUuids_dumpUuids, Option.bind_eq_bind, Option.bind_some]
    rfl

def workItemRow (workItem : WorkItemRecord) : WorkItemRow where
  id := workItem.id
  projectId := workItem.projectId
  type := StrEnum.value workItem.type
  title := workItem.title
  description := workItem.description
  priority := workItem.priority.map StrEnum.value
  parentId := workItem.parentId
  assignee := workItem.assignee
  assignment := workItem.assignment
  acceptanceCriteria := workItem.acceptanceCriteria
  requirementRefs := dumpUuids workItem.requirementRefs
  externalRefs := workItem.externalRefs
  humanWorkStatus := StrEnum.value workItem.humanWorkStatus
  implementationStatus := StrEnum.value workItem.implementationStatus
  verificationStatus := StrEnum.value workItem.verificationStatus
  pullRequestStatus := StrEnum.value workItem.pullRequestStatus

def applyWorkItem (row : WorkItemRow) (workItem : WorkItemRecord) : WorkItemRow :=
  { row with
    projectId := workItem.projectId
    type := StrEnum.value workItem.type
    title := workItem.title
    description := workItem.description
    priority := workItem.priority.map StrEnum.value
    parentId := workItem.parentId
    assignee := workItem.assignee
    assignment := workItem.assignment
    acceptanceCriteria := workItem.acceptanceCriteria
    requirementRefs := dumpUuids workItem.requirementRefs
    externalRefs := workItem.externalRefs
    humanWorkStatus := StrEnum.value workItem.humanWorkStatus
    implementationStatus := StrEnum.value workItem.implementationStatus
    verificationStatus := StrEnum.value workItem.verificationStatus
    pullRequestStatus := StrEnum.value workItem.pullRequestStatus }

def workItemFromRow (row : WorkItemRow) : Option WorkItemRecord := do
  let type ← StrEnum.read row.type
  let priority ← loadOptional row.priority
  let requirementRefs ← loadUuids row.requirementRefs
  let humanWorkStatus ← StrEnum.read row.humanWorkStatus
  let implementationStatus ← StrEnum.read row.implementationStatus
  let verificationStatus ← StrEnum.read row.verificationStatus
  let pullRequestStatus ← StrEnum.read row.pullRequestStatus
  return { id := row.id, projectId := row.projectId, type, title := row.title, description := row.description, priority
           parentId := row.parentId, assignee := row.assignee, assignment := row.assignment
           acceptanceCriteria := row.acceptanceCriteria, requirementRefs, externalRefs := row.externalRefs, humanWorkStatus
           implementationStatus, verificationStatus, pullRequestStatus }

def workItemMapping : RowMapping WorkItemRecord WorkItemRow where
  id workItem := workItem.id
  key := WorkItemRow.id
  row := workItemRow
  apply := applyWorkItem
  load := workItemFromRow
  key_row _ := rfl
  apply_stored stored workItem same := by
    show { workItemRow workItem with id := stored.id } = workItemRow workItem
    rw [same]
    rfl
  load_row workItem := by
    unfold workItemFromRow workItemRow
    simp only [StrEnum.read_value, loadOptional_value, loadUuids_dumpUuids, Option.bind_eq_bind, Option.bind_some]
    rfl

def documentRow (document : DocumentRecord) : DocumentRow where
  id := document.id
  projectId := document.projectId
  type := StrEnum.value document.type
  title := document.title
  currentVersionId := document.currentVersionId
  externalRefs := document.externalRefs
  source := document.source
  sourceRef := document.externalRef

def applyDocument (row : DocumentRow) (document : DocumentRecord) : DocumentRow :=
  { row with
    projectId := document.projectId
    type := StrEnum.value document.type
    title := document.title
    currentVersionId := document.currentVersionId
    externalRefs := document.externalRefs
    source := document.source
    sourceRef := document.externalRef }

def documentFromRow (row : DocumentRow) : Option DocumentRecord := do
  let type ← StrEnum.read row.type
  return { id := row.id, projectId := row.projectId, type, title := row.title, source := row.source
           externalRef := row.sourceRef, currentVersionId := row.currentVersionId, externalRefs := row.externalRefs }

def documentMapping : RowMapping DocumentRecord DocumentRow where
  id document := document.id
  key := DocumentRow.id
  row := documentRow
  apply := applyDocument
  load := documentFromRow
  key_row _ := rfl
  apply_stored stored document same := by
    show { documentRow document with id := stored.id } = documentRow document
    rw [same]
    rfl
  load_row document := by
    unfold documentFromRow documentRow
    simp only [StrEnum.read_value, Option.bind_eq_bind, Option.bind_some]
    rfl

def documentVersionRow (version : DocumentVersion) : DocumentVersionRow where
  id := version.id
  documentId := version.documentId
  sourceVersion := version.sourceVersion
  repositoryId := version.repositoryId
  commitSha := version.commitSha
  checksum := version.checksum
  ingestedAt := version.ingestedAt
  contentUri := version.contentUri

def documentVersionFromRow (row : DocumentVersionRow) : Option DocumentVersion :=
  some { id := row.id, documentId := row.documentId, sourceVersion := row.sourceVersion, repositoryId := row.repositoryId
         commitSha := row.commitSha, checksum := row.checksum, ingestedAt := row.ingestedAt, contentUri := row.contentUri }

/-- No version is updated. -/
def documentVersionMapping : RowMapping DocumentVersion DocumentVersionRow where
  id := DocumentVersion.id
  key := DocumentVersionRow.id
  row := documentVersionRow
  apply _ := documentVersionRow
  load := documentVersionFromRow
  key_row _ := rfl
  apply_stored _ _ _ := rfl
  load_row _ := rfl

def documentNodeRow (node : DocumentNodeRecord) : DocumentNodeRow where
  id := node.id
  versionId := node.versionId
  nodeType := StrEnum.value node.nodeType
  title := node.title
  headingPath := node.headingPath
  content := node.content
  parentId := node.parentId
  childIds := dumpUuids node.childIds
  codeRefs := node.codeRefs
  requirementRefs := dumpUuids node.requirementRefs
  workItemRefs := dumpUuids node.workItemRefs
  links := node.links
  unresolvedRefs := node.unresolvedRefs

def documentNodeFromRow (row : DocumentNodeRow) : Option DocumentNodeRecord := do
  let nodeType ← StrEnum.read row.nodeType
  let childIds ← loadUuids row.childIds
  let requirementRefs ← loadUuids row.requirementRefs
  let workItemRefs ← loadUuids row.workItemRefs
  return { id := row.id, versionId := row.versionId, nodeType, title := row.title, headingPath := row.headingPath
           content := row.content, parentId := row.parentId, childIds, codeRefs := row.codeRefs, requirementRefs
           workItemRefs, links := row.links, unresolvedRefs := row.unresolvedRefs }

/-- No node is updated. -/
def documentNodeMapping : RowMapping DocumentNodeRecord DocumentNodeRow where
  id node := node.id
  key := DocumentNodeRow.id
  row := documentNodeRow
  apply _ := documentNodeRow
  load := documentNodeFromRow
  key_row _ := rfl
  apply_stored _ _ _ := rfl
  load_row node := by
    unfold documentNodeFromRow documentNodeRow
    simp only [StrEnum.read_value, loadUuids_dumpUuids, Option.bind_eq_bind, Option.bind_some]
    rfl

def executionRow (execution : ExecutionRecord) : ExecutionRow where
  id := execution.id
  workflowId := execution.workflowId
  workItemId := execution.workItemId
  executorId := execution.executorId
  contextCapsuleId := execution.contextCapsuleId
  status := StrEnum.value execution.status
  startedAt := execution.startedAt
  completedAt := execution.completedAt
  parentExecutionId := execution.parentExecutionId
  correlationId := execution.correlationId
  baseBranch := execution.baseBranch
  workingBranch := execution.workingBranch
  worktreePath := execution.worktreePath

def applyExecution (row : ExecutionRow) (execution : ExecutionRecord) : ExecutionRow :=
  { row with
    workflowId := execution.workflowId
    workItemId := execution.workItemId
    executorId := execution.executorId
    contextCapsuleId := execution.contextCapsuleId
    status := StrEnum.value execution.status
    startedAt := execution.startedAt
    completedAt := execution.completedAt
    parentExecutionId := execution.parentExecutionId
    correlationId := execution.correlationId
    baseBranch := execution.baseBranch
    workingBranch := execution.workingBranch
    worktreePath := execution.worktreePath }

def executionFromRow (row : ExecutionRow) : Option ExecutionRecord := do
  let status ← StrEnum.read row.status
  return { id := row.id, workflowId := row.workflowId, workItemId := row.workItemId, executorId := row.executorId
           contextCapsuleId := row.contextCapsuleId, status, startedAt := row.startedAt, completedAt := row.completedAt
           parentExecutionId := row.parentExecutionId, correlationId := row.correlationId, baseBranch := row.baseBranch
           workingBranch := row.workingBranch, worktreePath := row.worktreePath }

def executionMapping : RowMapping ExecutionRecord ExecutionRow where
  id execution := execution.id
  key := ExecutionRow.id
  row := executionRow
  apply := applyExecution
  load := executionFromRow
  key_row _ := rfl
  apply_stored stored execution same := by
    show { executionRow execution with id := stored.id } = executionRow execution
    rw [same]
    rfl
  load_row execution := by
    unfold executionFromRow executionRow
    simp only [StrEnum.read_value, Option.bind_eq_bind, Option.bind_some]
    rfl

def commentRow (comment : CommentRecord) : CommentRow where
  id := comment.id
  workItemId := comment.workItemId
  authorId := comment.authorId
  authorName := comment.authorName
  text := comment.text
  kind := StrEnum.value comment.kind
  createdAt := comment.createdAt
  externalRefs := comment.externalRefs

def commentFromRow (row : CommentRow) : Option CommentRecord := do
  let kind ← if row.kind = "" then some .context else StrEnum.read row.kind
  return { id := row.id, workItemId := row.workItemId, authorId := row.authorId, authorName := row.authorName
           text := row.text, kind, createdAt := row.createdAt, externalRefs := row.externalRefs }

/-- No comment is updated. -/
def commentMapping : RowMapping CommentRecord CommentRow where
  id comment := comment.id
  key := CommentRow.id
  row := commentRow
  apply _ := commentRow
  load := commentFromRow
  key_row _ := rfl
  apply_stored _ _ _ := rfl
  load_row comment := by
    have named : StrEnum.value comment.kind ≠ "" := by cases comment.kind <;> decide
    unfold commentFromRow commentRow
    simp only [named, if_false, StrEnum.read_value, Option.bind_eq_bind, Option.bind_some]
    rfl

def attachmentRow (attachment : AttachmentRecord) : AttachmentRow where
  id := attachment.id
  workItemId := attachment.workItemId
  fileName := attachment.fileName
  contentType := attachment.contentType
  fileSize := attachment.fileSize
  downloadUrl := attachment.downloadUrl
  contentIngested := attachment.contentIngested
  createdAt := attachment.createdAt
  externalRefs := attachment.externalRefs

def attachmentFromRow (row : AttachmentRow) : Option AttachmentRecord :=
  some { id := row.id, workItemId := row.workItemId, fileName := row.fileName, contentType := row.contentType
         fileSize := row.fileSize, downloadUrl := row.downloadUrl, contentIngested := row.contentIngested
         createdAt := row.createdAt, externalRefs := row.externalRefs }

/-- No attachment is updated. -/
def attachmentMapping : RowMapping AttachmentRecord AttachmentRow where
  id := AttachmentRecord.id
  key := AttachmentRow.id
  row := attachmentRow
  apply _ := attachmentRow
  load := attachmentFromRow
  key_row _ := rfl
  apply_stored _ _ _ := rfl
  load_row _ := rfl

def workItemRelationRow (relation : WorkItemRelationRecord) : WorkItemRelationRow where
  id := relation.id
  sourceWorkItemId := relation.sourceWorkItemId
  targetWorkItemId := relation.targetWorkItemId
  relationType := StrEnum.value relation.relationType
  detectedAt := relation.detectedAt
  externalRefs := relation.externalRefs

def workItemRelationFromRow (row : WorkItemRelationRow) : Option WorkItemRelationRecord := do
  let relationType ← StrEnum.read row.relationType
  return { id := row.id, sourceWorkItemId := row.sourceWorkItemId, targetWorkItemId := row.targetWorkItemId, relationType
           detectedAt := row.detectedAt, externalRefs := row.externalRefs }

theorem workItemRelationFromRow_row (relation : WorkItemRelationRecord) :
    workItemRelationFromRow (workItemRelationRow relation) = some relation := by
  unfold workItemRelationFromRow workItemRelationRow
  simp only [StrEnum.read_value, Option.bind_eq_bind, Option.bind_some]
  rfl

/-- A relation that is created again only gets its time written. -/
def workItemRelationMapping : RowMapping WorkItemRelationRecord WorkItemRelationRow where
  id relation := relation.id
  key := WorkItemRelationRow.id
  row := workItemRelationRow
  apply _ := workItemRelationRow
  load := workItemRelationFromRow
  key_row _ := rfl
  apply_stored _ _ _ := rfl
  load_row := workItemRelationFromRow_row

end Brain
