import Brain.Application.OpenProjectParser
import Brain.Domain.Events
import Brain.Domain.Graph

namespace Brain

/-- Everything the in-memory adapters hold, and the counter `uuid4` draws from.
`fetched` records the single work packages asked for; the code never reads it. -/
structure World where
  projects : Keyed Project.id := Keyed.empty
  workItems : Keyed WorkItem.id := Keyed.empty
  actors : Keyed Actor.id := Keyed.empty
  comments : Keyed Comment.id := Keyed.empty
  attachments : Keyed Attachment.id := Keyed.empty
  relations : Keyed WorkItemRelation.id := Keyed.empty
  mappings : Keyed IntegrationMapping.key := Keyed.empty
  conflicts : List SyncConflict := []
  snapshots : Keyed OpenProjectWorkItemSnapshot.externalId := Keyed.empty
  documents : Keyed Document.id := Keyed.empty
  documentVersions : Keyed DocumentVersion.id := Keyed.empty
  documentNodes : Keyed DocumentNode.id := Keyed.empty
  decisions : Keyed Decision.id := Keyed.empty
  graph : KnowledgeGraph := {}
  published : List EventEnvelope := []
  bootstrapStates : Keyed ProviderBootstrapState.key := Keyed.empty
  watermarks : Keyed ProviderSyncWatermark.key := Keyed.empty
  fetched : List String := []
  nextUuid : Nat := 0

/-- The scan of every `find_by_external_ref`: the first entity in insertion
order with a matching reference. -/
def findByExternalRef {α : Type} (externalRefs : α → List ExternalReference) (entities : List α)
    (provider externalId : String) (externalType : Option String) : Option α :=
  entities.find? (fun entity =>
    (externalRefs entity).any (fun ref => ref.refersTo provider externalId externalType))

namespace World

def findProject (w : World) (provider externalId : String) (externalType : Option String) : Option Project :=
  findByExternalRef Project.externalRefs w.projects.items provider externalId externalType

def findWorkItem (w : World) (provider externalId : String) (externalType : Option String) : Option WorkItem :=
  findByExternalRef WorkItem.externalRefs w.workItems.items provider externalId externalType

def findComment (w : World) (provider externalId : String) (externalType : Option String) : Option Comment :=
  findByExternalRef Comment.externalRefs w.comments.items provider externalId externalType

def findAttachment (w : World) (provider externalId : String) (externalType : Option String) :
    Option Attachment :=
  findByExternalRef Attachment.externalRefs w.attachments.items provider externalId externalType

def listWorkItemsByProject (w : World) (projectId : ProjectId) : List WorkItem :=
  w.workItems.items.filter (fun item => item.projectId = projectId)

/-- `create` and `update` of a repository both upsert by id. -/
def putProject (project : Project) (w : World) : World := { w with projects := w.projects.upsert project }

def putWorkItem (item : WorkItem) (w : World) : World := { w with workItems := w.workItems.upsert item }

def putActor (actor : Actor) (w : World) : World := { w with actors := w.actors.upsert actor }

def putComment (comment : Comment) (w : World) : World := { w with comments := w.comments.upsert comment }

def putAttachment (attachment : Attachment) (w : World) : World :=
  { w with attachments := w.attachments.upsert attachment }

def sameTriple (a b : WorkItemRelation) : Bool :=
  a.sourceWorkItemId = b.sourceWorkItemId && a.targetWorkItemId = b.targetWorkItemId &&
    a.relationType = b.relationType

/-- `InMemoryWorkItemRelationRepository.create`: nothing is stored when a
relation with the same ends and type exists. -/
def createRelation (relation : WorkItemRelation) (w : World) : World :=
  if w.relations.items.any (sameTriple · relation) then w
  else { w with relations := w.relations.upsert relation }

def listRelationsByWorkItem (w : World) (id : WorkItemId) : List WorkItemRelation :=
  w.relations.items.filter (fun r => r.sourceWorkItemId = id || r.targetWorkItemId = id)

def saveMapping (mapping : IntegrationMapping) (w : World) : World :=
  { w with mappings := w.mappings.upsert mapping }

def listMappings (w : World) (workItemId : WorkItemId) : List IntegrationMapping :=
  w.mappings.items.filter (fun m => m.workItemId = workItemId)

def saveConflict (conflict : SyncConflict) (w : World) : World :=
  { w with conflicts := w.conflicts ++ [conflict] }

def listConflicts (w : World) (workItemId : WorkItemId) : List SyncConflict :=
  w.conflicts.filter (fun c => c.workItemId = workItemId)

def saveSnapshot (snapshot : OpenProjectWorkItemSnapshot) (w : World) : World :=
  { w with snapshots := w.snapshots.upsert snapshot }

def upsertEntities (entities : List GraphEntity) (w : World) : World :=
  { w with graph := w.graph.upsertEntities entities }

def upsertRelations (relations : List GraphRelation) (w : World) : World :=
  { w with graph := w.graph.upsertRelations relations }

/-- The bus keeps every event it was handed, also when a handler then raises. -/
def publish (event : EventEnvelope) (w : World) : World := { w with published := w.published ++ [event] }

def findDocumentBySource (w : World) (projectId : ProjectId) (sourceUri : String) : Option Document :=
  w.documents.items.find? (fun d => d.projectId = projectId && d.source.uri = sourceUri)

def putDocument (document : Document) (w : World) : World :=
  { w with documents := w.documents.upsert document }

def addVersion (version : DocumentVersion) (w : World) : World :=
  { w with documentVersions := w.documentVersions.upsert version }

def addNode (node : DocumentNode) (w : World) : World :=
  { w with documentNodes := w.documentNodes.upsert node }

def listNodes (w : World) (versionId : DocumentVersionId) : List DocumentNode :=
  w.documentNodes.items.filter (fun n => n.versionId = versionId)

def putDecision (decision : Decision) (w : World) : World :=
  { w with decisions := w.decisions.upsert decision }

def saveBootstrapState (state : ProviderBootstrapState) (w : World) : World :=
  { w with bootstrapStates := w.bootstrapStates.upsert state }

/-- `get_or_create` of the watermark table. -/
def getOrCreateWatermark (provider syncKey : String) (w : World) : ProviderSyncWatermark × World :=
  match w.watermarks.get (provider, syncKey) with
  | some watermark => (watermark, w)
  | none => ({ provider, syncKey }, { w with watermarks := w.watermarks.upsert { provider, syncKey } })

def saveWatermark (watermark : ProviderSyncWatermark) (w : World) : World :=
  { w with watermarks := w.watermarks.upsert watermark }

def noteFetch (externalId : String) (w : World) : World := { w with fetched := w.fetched ++ [externalId] }

end World

end Brain
