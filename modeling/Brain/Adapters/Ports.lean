import Brain.Adapters.InMemory
import Brain.Lib.Calls

namespace Brain

/-- One name for each place where a service awaits a port. -/
inductive Site
  -- OpenProjectIngestionService.upsert_project
  | upsertProjectGet | upsertProjectFind | upsertProjectFindParent | upsertProjectCreate
  | upsertProjectUpdate | projectNodeEntities | projectNodeRelations
  -- OpenProjectIngestionService.ingest_work_item_snapshot and its helpers
  | snapshotsGet | resolveProjectGet | resolveProjectFind | resolveProjectList
  | findOrCreateFind | findOrCreateCreate | saveMapping
  | actorsGet | actorsCreate | applyUpdate | parentFind | parentUpdate
  | relationSourceFind | relationTargetFind | relationsCreate
  | attachmentFind | attachmentUpdate | attachmentCreate | contentFetch | attachmentMarkIngested
  | attachmentEntities | attachmentRelations
  | subgraphProjectGet | subgraphRelationsList | subgraphEntities | subgraphRelations
  | snapshotsSave | publishWorkItem | publishAssignment | publishProviderFact
  -- OpenProjectIngestionService.resolve_relationships and ingest_comment
  | resolveRelationshipsFind
  | commentFind | commentCreate | commentEntities | commentRelations | publishFeedback
  -- DocumentIngestionService.ingest
  | parserParse | documentFindBySource | documentGetVersion | documentCreate | documentListNodes
  | documentAddVersion | documentAddNode | documentUpdate | decisionCreate | publishDocumentChanged
  -- the handler of INGEST_DOCUMENT
  | documentGet
  -- OpenProjectProjectBootstrapService.bootstrap and its helpers
  | bootstrapStateGet | bootstrapStateCreate | bootstrapStateSave | bootstrapStateCheckpoint
  | bootstrapStateFailed | listProjects | listWorkPackages | listActivities
  | commentsWorkItemFind | countListByProject | countListByWorkItem
  | baselineWatermarkGet | baselineWatermarkSave
  -- WorkManagementPullSyncService.sync_project and its helpers
  | pullWatermarkGet | pullWatermarkSave | listChangedWorkPackages | conflictWorkItemFind
  | conflictList | conflictSave | sweepListByProject | getWorkPackageSnapshot
  -- XWikiDocumentationSyncService.sync_space and its helpers
  | spaceWatermarkGet | listChangedDocuments | pageProjectFind | fetchDocument
  | advanceWatermarkGet | advanceWatermarkSave
  deriving DecidableEq

/-- The sites that await something else than a state repository: the graph, the
event bus, the parser, the attachment fetcher and the provider. -/
def Site.isRepository : Site → Bool
  | .projectNodeEntities | .projectNodeRelations | .contentFetch | .attachmentEntities
  | .attachmentRelations | .subgraphEntities | .subgraphRelations | .publishWorkItem
  | .publishAssignment | .publishProviderFact | .commentEntities | .commentRelations
  | .publishFeedback | .parserParse | .publishDocumentChanged | .listProjects | .listWorkPackages
  | .listActivities | .listChangedWorkPackages | .getWorkPackageSnapshot | .listChangedDocuments
  | .fetchDocument => false
  | _ => true

structure PyException where
  typeName : String
  message : String

abbrev Outside := Calls.Outside Site PyException
abbrev Raised := Calls.Raised Site PyException
abbrev Prog (α : Type) := Calls.Prog Site PyException World α

/-- The repositories are the in-memory ones, which never raise. -/
def RepositoriesReturn (o : Outside) : Prop :=
  ∀ n (site : Site), site.isRepository → o.outcome n site = .returns

def newUuid : Prog Uuid :=
  Calls.internal (fun w => (.v4 w.nextUuid, { w with nextUuid := w.nextUuid + 1 }))

/-- `correlation_id or uuid.uuid4()`. -/
def orNewUuid : Option Uuid → Prog Uuid
  | some id => pure id
  | none => newUuid

/-- `model_to_envelope`, on the payload the event dumps to. -/
def modelToEnvelope (eventType : EventType) (payload : EventPayload) (source : String)
    (projectId : Option ProjectId) (correlationId : Option Uuid) : Prog EventEnvelope := do
  let correlationId ← orNewUuid correlationId
  let eventId ← newUuid
  pure { eventId, eventType, projectId, correlationId, source, payload }

end Brain
