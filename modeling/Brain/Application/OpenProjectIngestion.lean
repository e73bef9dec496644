import Brain.Application.DocumentIngestion

namespace Brain
open Calls

inductive IngestionMode
  | bootstrap | live
  deriving DecidableEq

structure OpenProjectIngestionResult where
  workItem : Option WorkItem := none
  created : Bool := false
  changes : List SemanticChange := []
  eventType : Option EventType := none
  assignmentTriggered : Bool := false
  snapshotSaved : Bool := false
  attachmentsIngested : Nat := 0
  relationsIngested : Nat := 0

/-- The collaborators of the service that are not repositories. -/
structure OpenProjectIngestionService where
  brainActorId : Option String := none
  documentIngestion : Option DocumentIngestionService := none
  contentFetcher : Option (String → String) := none

def snapshotPayload (s : OpenProjectWorkItemSnapshot) : RawDict :=
  let optional (value : Option String) : PyValue := (value.map PyValue.str).getD .none
  [("type", .str s.type), ("priority", .str s.priority), ("closed", .bool s.closed),
    ("project_id", optional s.projectId), ("project_name", optional s.projectName),
    ("assignee_name", optional s.assigneeName), ("parent_id", (s.parentId.map PyValue.int).getD .none),
    ("attachments", .list (s.attachments.map .dict)), ("relations", .list (s.relations.map .dict)),
    ("activities_url", optional s.activitiesUrl), ("created_at", optional s.createdAt),
    ("updated_at", optional s.updatedAt)]

def relationTypes : List (String × WorkItemRelationType) :=
  [("blocks", .blocks), ("relates", .relatesTo), ("relates_to", .relatesTo), ("precedes", .precedes),
    ("follows", .follows)]

def mapRelationType (raw : String) : Option WorkItemRelationType := relationTypes.lookup (lower (strip raw))

def mapGraphRelation : WorkItemRelationType → RelationType
  | .parentOf => .parentOf
  | .blocks => .blocks
  | .relatesTo => .relatesTo
  | .precedes => .precedes
  | .follows => .follows

def isTextAttachment (contentType : String) : Bool :=
  let lowered := lower (strip contentType)
  "text/".toList.isPrefixOf lowered.toList ||
    ["application/json", "application/yaml", "application/x-yaml"].contains lowered

def asInt (value : PyValue) : PyValue :=
  if value.isNone then .none else ((parseInt value.text).map PyValue.int).getD .none

/-! ### Projects -/

/-- `_upsert_project_node`. Unlike the work-item subgraph it is not guarded. -/
def upsertProjectNode (project : Project) : Prog Unit := do
  command .projectNodeEntities (World.upsertEntities
    [{ id := project.id, label := .project, projectId := some project.id,
       properties := [("name", .str project.name)] }])
  match project.parentId with
  | some parentId =>
    command .projectNodeRelations (World.upsertRelations
      [{ subjectId := parentId, relationType := .parentOf, objectId := project.id }])
  | none => pure ()

def findProjectForUpsert (externalId : String) (projectId : Option ProjectId) : Prog (Option Project) := do
  let byId ← match projectId with
    | some id => query .upsertProjectGet (·.projects.get id)
    | none => pure none
  match byId with
  | some project => pure (some project)
  | none => query .upsertProjectFind (·.findProject "openproject" externalId (some "project"))

def findParentProject (parentExternalId : Option String) : Prog (Option ProjectId) :=
  match given parentExternalId with
  | some externalId => do
    let parent ← query .upsertProjectFindParent (·.findProject "openproject" externalId (some "project"))
    pure (parent.map Project.id)
  | none => pure none

/-- The project as `upsert_project` rewrites it: empty values keep the old ones. -/
def updatedProject (project : Project) (ref : ExternalReference) (name description : String)
    (parentId : Option ProjectId) : Project :=
  { project with
    name := strOr name project.name
    description := if description = "" then project.description else some description
    parentId := parentId.or project.parentId
    externalRefs := if project.externalRefs.contains ref then project.externalRefs
      else project.externalRefs ++ [ref] }

def upsertProject (externalId name : String) (description : String := "")
    (parentExternalId : Option String := none) (projectId : Option ProjectId := none) : Prog Project := do
  let existing ← findProjectForUpsert externalId projectId
  let ref := openProjectRef externalId "project"
  let parentId ← findParentProject parentExternalId
  match existing with
  | none => do
    let id ← newUuid
    let project : Project :=
      { id, name := strOr name ("OpenProject " ++ externalId)
        description := if description = "" then none else some description
        parentId, externalRefs := [ref] }
    command .upsertProjectCreate (World.putProject project)
    upsertProjectNode project
    pure project
  | some project => do
    let updated := updatedProject project ref name description parentId
    if updated ≠ project then command .upsertProjectUpdate (World.putProject updated)
    upsertProjectNode updated
    pure updated

/-! ### Work items -/

def resolveProject (snapshot : OpenProjectWorkItemSnapshot) (projectId : Option ProjectId) :
    Prog (Option ProjectId) :=
  match projectId with
  | some id => do
    let project ← query .resolveProjectGet (·.projects.get id)
    pure (project.map fun _ => id)
  | none => do
    let byRef ← match given snapshot.projectId with
      | some externalId => query .resolveProjectFind (·.findProject "openproject" externalId (some "project"))
      | none => pure none
    match byRef with
    | some project => pure (some project.id)
    | none => query .resolveProjectList (fun w => w.projects.items.head?.map Project.id)

def newWorkItem (id : WorkItemId) (snapshot : OpenProjectWorkItemSnapshot) (projectId : ProjectId) : WorkItem :=
  { id, projectId, title := strOr snapshot.summary ("OpenProject " ++ snapshot.externalId)
    description := snapshot.description
    externalRefs := [openProjectRef snapshot.externalId "work_package"] }

def findOrCreateWorkItem (snapshot : OpenProjectWorkItemSnapshot) (projectId : ProjectId) :
    Prog (WorkItem × Bool) := do
  let existing ← query .findOrCreateFind
    (·.findWorkItem "openproject" snapshot.externalId (some "work_package"))
  match existing with
  | some workItem => pure (workItem, false)
  | none => do
    let id ← newUuid
    let workItem := newWorkItem id snapshot projectId
    command .findOrCreateCreate (World.putWorkItem workItem)
    command .saveMapping (World.saveMapping
      { workItemId := id, provider := "openproject", externalId := snapshot.externalId, syncState := .synced })
    pure (workItem, true)

/-- The id `uuid5(_NAMESPACE, f"openproject:user:{assignee_id}")`. -/
def userActorId (assigneeId : String) : ActorId := .v5 ("openproject:user:" ++ assigneeId)

def resolveAssignee (snapshot : OpenProjectWorkItemSnapshot) : Prog (Option ActorId) :=
  match given snapshot.assigneeId with
  | none => pure none
  | some assigneeId => do
    let actorId := userActorId assigneeId
    let actor ← query .actorsGet (·.actors.get actorId)
    match actor with
    | some _ => pure (some actorId)
    | none => do
      command .actorsCreate (World.putActor
        { id := actorId, actorType := .human,
          displayName := strOr (snapshot.assigneeName.getD "") assigneeId })
      pure (some actorId)

/-- The fields `_apply_snapshot` assigns. An empty summary, description or
assignee keeps the value the work item has. -/
def appliedSnapshot (workItem : WorkItem) (snapshot : OpenProjectWorkItemSnapshot)
    (assignee : Option ActorId) : WorkItem :=
  { workItem with
    title := strOr snapshot.summary workItem.title
    description := strOr snapshot.description workItem.description
    type := mapWorkItemType snapshot.type
    humanWorkStatus := mapHumanWorkStatus snapshot.state
    priority := mapPriority snapshot.priority
    assignee := assignee.or workItem.assignee }

/-- The work item is mutated in place in the source, so its new value is returned. -/
def applySnapshot (workItem : WorkItem) (snapshot : OpenProjectWorkItemSnapshot) : Prog WorkItem := do
  let assignee ← resolveAssignee snapshot
  let applied := appliedSnapshot workItem snapshot assignee
  command .applyUpdate (World.putWorkItem applied)
  pure applied

/-- `not snapshot.parent_id` holds for a missing id and for 0. -/
def parentExternalId (snapshot : OpenProjectWorkItemSnapshot) : Option String :=
  (snapshot.parentId.filter (· ≠ 0)).map toString

def resolveParent (workItem : WorkItem) (snapshot : OpenProjectWorkItemSnapshot) : Prog WorkItem :=
  match parentExternalId snapshot with
  | none => pure workItem
  | some externalId => do
    let parent ← query .parentFind (·.findWorkItem "openproject" externalId (some "work_package"))
    match parent with
    | none => pure workItem
    | some parent =>
      if parent.id = workItem.id then pure workItem
      else do
        let updated := { workItem with parentId := some parent.id }
        command .parentUpdate (World.putWorkItem updated)
        pure updated

/-- The ends and the type a raw relation names, with the source absent where the
provider omits it or names the ingested work package itself. `none` where the
loop of `_resolve_relations` skips the relation before any lookup. -/
def rawRelation (snapshot : OpenProjectWorkItemSnapshot) (raw : RawDict) :
    Option (Option String × String × WorkItemRelationType) :=
  let target := (pyGet raw "target_id").or (pyGet raw "to")
  let relationType := (pyGet raw "relation_type").or (pyGet raw "type")
  if !target.truthy || !relationType.truthy then none
  else (mapRelationType relationType.text).map fun mapped =>
    let source := (pyGet raw "source_id").or (pyGet raw "from")
    (if !source.isNone && source.text ≠ snapshot.externalId then some source.text else none,
      target.text, mapped)

/-- `str(raw.get("id") or f"{source_work_item_id}:{target_id}")`. -/
def relationExternalId (raw : RawDict) (source : WorkItemId) (target : String) : String :=
  let id := pyGet raw "id"
  if id.truthy then id.text else source.text ++ ":" ++ target

def resolveSource (workItem : WorkItem) : Option String → Prog (Option WorkItemId)
  | none => pure (some workItem.id)
  | some externalId => do
    let source ← query .relationSourceFind (·.findWorkItem "openproject" externalId (some "work_package"))
    pure (source.map WorkItem.id)

/-- One turn of the loop of `_resolve_relations`: 1 when a relation was handed
to the repository. -/
def resolveRelation (workItem : WorkItem) (snapshot : OpenProjectWorkItemSnapshot) (raw : RawDict) :
    Prog Nat :=
  match rawRelation snapshot raw with
  | none => pure 0
  | some (sourceExternalId, targetExternalId, mapped) => do
    let source ← resolveSource workItem sourceExternalId
    match source with
    | none => pure 0
    | some source => do
      let target ← query .relationTargetFind
        (·.findWorkItem "openproject" targetExternalId (some "work_package"))
      match target with
      | none => pure 0
      | some target =>
        if target.id = source then pure 0
        else do
          let id ← newUuid
          command .relationsCreate (World.createRelation
            { id, sourceWorkItemId := source, targetWorkItemId := target.id, relationType := mapped
              externalRefs := [openProjectRef (relationExternalId raw source targetExternalId) "relation"] })
          pure 1

def resolveRelations (workItem : WorkItem) (snapshot : OpenProjectWorkItemSnapshot) : Prog Nat :=
  tally (resolveRelation workItem snapshot) snapshot.relations

/-! ### Graph projection -/

def subgraphEntities (workItem : WorkItem) (project : Option Project) : List GraphEntity :=
  { id := workItem.id, label := .workItem, projectId := some workItem.projectId
    properties := [("title", .str workItem.title), ("type", .str workItem.type.value),
      ("human_work_status", .str workItem.humanWorkStatus.value)] } ::
  (project.toList.map fun p =>
    { id := p.id, label := .project, projectId := some p.id, properties := [("name", .str p.name)] }) ++
  (workItem.assignee.toList.map fun assignee =>
    { id := assignee, label := .actor, projectId := some workItem.projectId
      properties := [("actor_type", .str "human")] })

def subgraphRelations (workItem : WorkItem) (relations : List WorkItemRelation) : List GraphRelation :=
  { subjectId := workItem.id, relationType := .partOf, objectId := workItem.projectId } ::
  (workItem.parentId.toList.map fun parent =>
    { subjectId := workItem.id, relationType := .parentOf, objectId := parent }) ++
  (relations.map fun r =>
    { subjectId := r.sourceWorkItemId, relationType := mapGraphRelation r.relationType
      objectId := r.targetWorkItemId }) ++
  (workItem.assignee.toList.map fun assignee =>
    { subjectId := workItem.id, relationType := .assignedTo, objectId := assignee })

def projectSubgraphInner (workItem : WorkItem) : Prog Unit := do
  let project ← query .subgraphProjectGet (·.projects.get workItem.projectId)
  let relations ← query .subgraphRelationsList (·.listRelationsByWorkItem workItem.id)
  command .subgraphEntities (World.upsertEntities (subgraphEntities workItem project))
  command .subgraphRelations (World.upsertRelations (subgraphRelations workItem relations))

/-- Best effort: a failing projection never fails the ingestion. -/
def projectSubgraph (workItem : WorkItem) : Prog Unit := swallow (projectSubgraphInner workItem)

/-! ### Attachments -/

def upsertAttachmentEdges (attachment : Attachment) : Prog Unit := swallow do
  command .attachmentEntities (World.upsertEntities
    [{ id := attachment.id, label := .attachment
       properties := [("file_name", .str attachment.fileName), ("content_type", .str attachment.contentType)] }])
  command .attachmentRelations (World.upsertRelations
    [{ subjectId := attachment.workItemId, relationType := .hasAttachment, objectId := attachment.id }])

/-- The attachment as reconciliation rewrites a known one. -/
def updatedAttachment (existing : Attachment) (raw : RawDict) : Attachment :=
  let orText (name fallback : String) : String :=
    if (pyGet raw name).truthy then (pyGet raw name).text else fallback
  { existing with
    fileName := orText "file_name" existing.fileName
    contentType := orText "content_type" existing.contentType
    fileSize := (raw.lookup "file_size").getD existing.fileSize
    downloadUrl := if orText "download_url" "" = "" then existing.downloadUrl
      else some (orText "download_url" "") }

/-- `updated != existing` on the fields reconciliation can change. -/
def attachmentChanged (updated existing : Attachment) : Bool :=
  updated.fileName != existing.fileName || updated.contentType != existing.contentType ||
    !updated.fileSize.eq existing.fileSize || updated.downloadUrl != existing.downloadUrl

def newAttachment (id : AttachmentId) (workItem : WorkItem) (raw : RawDict) (externalId : String) : Attachment :=
  { id, workItemId := workItem.id
    fileName := if (pyGet raw "file_name").truthy then (pyGet raw "file_name").text
      else "attachment-" ++ externalId
    contentType := textOrEmpty (pyGet raw "content_type")
    fileSize := asInt (pyGet raw "file_size")
    downloadUrl := given (some (textOrEmpty (pyGet raw "download_url")))
    externalRefs := [openProjectRef externalId "attachment"] }

namespace OpenProjectIngestionService
variable (self : OpenProjectIngestionService)

/-- A failing fetch is logged and skipped, a failing document ingestion is not. -/
def ingestAttachmentContent (attachment : Attachment) (projectId : ProjectId) : Prog Unit :=
  match self.contentFetcher, self.documentIngestion, attachment.downloadUrl with
  | some fetch, some documentIngestion, some url => do
    let content ← attempt (query .contentFetch (fun _ => fetch url))
    match content with
    | .error _ => pure ()
    | .ok content => do
      let artifact : SourceArtifact :=
        { sourceUri := url, provider := "openproject"
          mimeType := some (strOr attachment.contentType "text/plain")
          fileName := some attachment.fileName, content := some content }
      let _ ← documentIngestion.ingest artifact projectId
      command .attachmentMarkIngested (World.putAttachment { attachment with contentIngested := true })
  | _, _, _ => pure ()

def createAttachment (raw : RawDict) (workItem : WorkItem) (externalId : String) : Prog Unit := do
  let id ← newUuid
  let attachment := newAttachment id workItem raw externalId
  command .attachmentCreate (World.putAttachment attachment)
  if (given attachment.downloadUrl).isSome && isTextAttachment attachment.contentType then
    self.ingestAttachmentContent attachment workItem.projectId
  upsertAttachmentEdges attachment

def reconcileAttachment (raw : RawDict) (workItem : WorkItem) (externalId : String) : Prog Unit := do
  let existing ← query .attachmentFind (·.findAttachment "openproject" externalId (some "attachment"))
  match existing with
  | some existing =>
    let updated := updatedAttachment existing raw
    if attachmentChanged updated existing then command .attachmentUpdate (World.putAttachment updated)
    else pure ()
  | none => self.createAttachment raw workItem externalId

def reconcileAttachments (workItem : WorkItem) (snapshot : OpenProjectWorkItemSnapshot) : Prog Nat :=
  tally (fun raw =>
    let externalId := textOrEmpty (pyGet raw "id")
    if externalId = "" then pure 0
    else do
      self.reconcileAttachment raw workItem externalId
      pure 1) snapshot.attachments

/-! ### Live events -/

def eventIsCreated (created : Bool) (providerAction : Option String) : Bool :=
  match providerAction with
  | some action => action = "work_package:created"
  | none => created

/-- The snapshot is assigned to the configured brain actor. -/
def assignedToBrain (snapshot : OpenProjectWorkItemSnapshot) : Bool :=
  match given self.brainActorId, given snapshot.assigneeId with
  | some brain, some assignee => assignee = brain
  | _, _ => false

def shouldTriggerAssignment (snapshot : OpenProjectWorkItemSnapshot) (changes : List SemanticChange)
    (created : Bool) (providerAction : Option String) : Bool :=
  self.assignedToBrain snapshot &&
    (eventIsCreated created providerAction || changes.contains .assigneeChanged)

def workItemEventType (created : Bool) : EventType := if created then .workItemCreated else .workItemChanged

def buildWorkItemEnvelope (workItem : WorkItem) (snapshot : OpenProjectWorkItemSnapshot)
    (changes : List SemanticChange) (created : Bool) (source : String) (projectId : ProjectId)
    (correlationId : Option Uuid) : Prog EventEnvelope :=
  modelToEnvelope (workItemEventType created)
    (.workItem workItem (changes.map SemanticChange.value) (snapshotPayload snapshot) snapshot.externalId)
    source (some projectId) correlationId

def publishAssignment (workItem : WorkItem) (snapshot : OpenProjectWorkItemSnapshot) (source : String)
    (correlationId : Option Uuid) : Prog Unit := do
  let envelope ← modelToEnvelope .workItemAssigned (.workItemAssigned workItem.id snapshot.assigneeId)
    source none correlationId
  command .publishAssignment (World.publish envelope)

/-- The arguments of `ingest_work_item_snapshot` besides the snapshot. -/
structure IngestOptions where
  mode : IngestionMode
  source : String
  correlationId : Option Uuid := none
  projectId : Option ProjectId := none
  providerAction : Option String := none
  publishUnchanged : Bool := true

/-- The events of a live ingest whose work item was resolved. -/
def publishResolved (options : IngestOptions) (snapshot : OpenProjectWorkItemSnapshot) (workItem : WorkItem)
    (projectId : ProjectId) (result : OpenProjectIngestionResult) : Prog OpenProjectIngestionResult :=
  if !options.publishUnchanged && !result.created && result.changes.isEmpty then pure result
  else do
    let envelope ← buildWorkItemEnvelope workItem snapshot result.changes
      (eventIsCreated result.created options.providerAction) options.source projectId options.correlationId
    command .publishWorkItem (World.publish envelope)
    let result := { result with eventType := some envelope.eventType }
    if self.shouldTriggerAssignment snapshot result.changes result.created options.providerAction then do
      publishAssignment workItem snapshot options.source options.correlationId
      pure { result with assignmentTriggered := true }
    else pure result

/-- The generic event of a live ingest without a canonical work item. -/
def publishProviderFact (options : IngestOptions) (snapshot : OpenProjectWorkItemSnapshot)
    (changes : List SemanticChange) (result : OpenProjectIngestionResult) :
    Prog OpenProjectIngestionResult := do
  let envelope ← modelToEnvelope (workItemEventType (eventIsCreated result.created options.providerAction))
    (.providerFact "openproject" snapshot.externalId snapshot.summary snapshot.state snapshot.assigneeId
      (changes.map SemanticChange.value) (snapshotPayload snapshot))
    options.source none options.correlationId
  command .publishProviderFact (World.publish envelope)
  pure { result with eventType := some envelope.eventType }

/-- The part of `ingest_work_item_snapshot` under `if project is not None`. -/
def ingestCanonical (snapshot : OpenProjectWorkItemSnapshot) (changes : List SemanticChange)
    (projectId : ProjectId) : Prog (WorkItem × OpenProjectIngestionResult) := do
  let (workItem, created) ← findOrCreateWorkItem snapshot projectId
  let workItem ← applySnapshot workItem snapshot
  let workItem ← resolveParent workItem snapshot
  let relationsIngested ← resolveRelations workItem snapshot
  let attachmentsIngested ← self.reconcileAttachments workItem snapshot
  projectSubgraph workItem
  pure (workItem, { workItem := some workItem, created, changes, relationsIngested, attachmentsIngested })

def ingestWorkItemSnapshot (snapshot : OpenProjectWorkItemSnapshot) (options : IngestOptions) :
    Prog OpenProjectIngestionResult := do
  let previous ← query .snapshotsGet (·.snapshots.get snapshot.externalId)
  let changes := diffSnapshots previous snapshot
  let project ← resolveProject snapshot options.projectId
  match project with
  | some projectId => do
    let (workItem, result) ← self.ingestCanonical snapshot changes projectId
    command .snapshotsSave (World.saveSnapshot snapshot)
    let result := { result with snapshotSaved := true }
    if options.mode = .bootstrap then pure result
    else self.publishResolved options snapshot workItem projectId result
  | none => do
    command .snapshotsSave (World.saveSnapshot snapshot)
    let result : OpenProjectIngestionResult := { snapshotSaved := true }
    if options.mode = .bootstrap then pure result
    else publishProviderFact options snapshot changes result

/-- The loop turn of `resolve_relationships`. -/
def resolveRelationshipsOf (snapshot : OpenProjectWorkItemSnapshot) : Prog Unit := do
  let workItem ← query .resolveRelationshipsFind
    (·.findWorkItem "openproject" snapshot.externalId (some "work_package"))
  match workItem with
  | none => pure ()
  | some workItem => do
    let workItem ← resolveParent workItem snapshot
    let _ ← resolveRelations workItem snapshot
    projectSubgraph workItem

def resolveRelationships (snapshots : List OpenProjectWorkItemSnapshot) : Prog Unit :=
  forEach resolveRelationshipsOf snapshots

/-! ### Comments -/

structure CommentArguments where
  workItemId : Option WorkItemId
  externalId : String
  authorName : String
  text : String
  mode : IngestionMode
  source : String := "openproject.ingestion"
  correlationId : Option Uuid := none

def projectComment (comment : Comment) : Prog Unit := swallow do
  command .commentEntities (World.upsertEntities
    [{ id := comment.id, label := .comment
       properties := [("text", .str (String.ofList (comment.text.toList.take 500)))] }])
  command .commentRelations (World.upsertRelations
    [{ subjectId := comment.id, relationType := .commentOn, objectId := comment.workItemId }])

def newComment (id : CommentId) (workItemId : WorkItemId) (arguments : CommentArguments) : Comment :=
  { id, workItemId, authorName := some arguments.authorName, text := arguments.text
    kind := if arguments.mode = .bootstrap then .context else .feedback
    externalRefs := [openProjectRef arguments.externalId "activity"] }

def storeComment (arguments : CommentArguments) : Prog (Option Comment) :=
  match arguments.workItemId with
  | none => pure none
  | some workItemId => do
    let id ← newUuid
    let comment := newComment id workItemId arguments
    command .commentCreate (World.putComment comment)
    projectComment comment
    pure (some comment)

def publishFeedback (arguments : CommentArguments) : Prog Unit := do
  let envelope ← modelToEnvelope .humanFeedbackReceived
    (.humanFeedbackReceived arguments.workItemId arguments.authorName "openproject" arguments.externalId
      .note arguments.text)
    arguments.source none arguments.correlationId
  command .publishFeedback (World.publish envelope)

/-- A comment on no work item is returned under a drawn id and stored nowhere. -/
def ingestComment (arguments : CommentArguments) : Prog Comment := do
  let existing ← query .commentFind
    (·.findComment "openproject" arguments.externalId (some "activity"))
  match existing with
  | some comment => pure comment
  | none => do
    let comment ← storeComment arguments
    if arguments.mode = .live then publishFeedback arguments
    match comment with
    | some comment => pure comment
    | none => do
      let workItemId ← newUuid
      let id ← newUuid
      pure { id, workItemId, authorName := some arguments.authorName, text := arguments.text, kind := .context }

end OpenProjectIngestionService

end Brain
