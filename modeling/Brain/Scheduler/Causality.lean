import Brain.Scheduler.Reconciliation

namespace Brain
open Calls

/-! The services of a pass look at the moments of their own calls only. -/

theorem newUuid_causal : Causal newUuid := Causal.internal _

theorem modelToEnvelope_causal (eventType : EventType) (payload : EventPayload) (source : String)
    (projectId : Option ProjectId) (correlationId : Option Uuid) :
    Causal (modelToEnvelope eventType payload source projectId correlationId) := by
  refine Causal.bind ?_ fun _ => Causal.bind newUuid_causal fun _ => Causal.pure _
  cases correlationId with
  | none => exact newUuid_causal
  | some id => exact Causal.pure id

namespace DocumentIngestionService
variable (self : DocumentIngestionService)

theorem createDecisions_causal (parsed : ParsedDocument) (artifact : SourceArtifact) (projectId : ProjectId) :
    Causal (self.createDecisions parsed artifact projectId) := by
  unfold createDecisions
  split
  · split
    · exact Causal.bind newUuid_causal fun _ => Causal.bind (Causal.command _ _) fun _ => Causal.pure _
    · exact Causal.pure _
  · exact Causal.pure _

theorem publishDocumentChanged_causal (document : Document) (source : String) :
    Causal (publishDocumentChanged document source) :=
  Causal.bind (modelToEnvelope_causal _ _ _ _ _) fun _ => Causal.command _ _

theorem findOrCreateDocument_causal (artifact : SourceArtifact) (parsed : ParsedDocument) (docType : DocumentType)
    (projectId : ProjectId) : Causal (findOrCreateDocument artifact parsed docType projectId) := by
  refine Causal.bind (Causal.query _ _) fun existing => ?_
  split
  · split
    · exact Causal.bind (Causal.query _ _) fun _ => Causal.pure _
    · exact Causal.pure _
  · exact Causal.bind newUuid_causal fun _ => Causal.bind (Causal.command _ _) fun _ => Causal.pure _

theorem storeVersion_causal (artifact : SourceArtifact) (parsed : ParsedDocument) (docType : DocumentType)
    (projectId : ProjectId) (repositoryId : Option RepositoryId) (commitSha : Option String) (document : Document) :
    Causal (self.storeVersion artifact parsed docType projectId repositoryId commitSha document) := by
  refine Causal.bind newUuid_causal fun _ => Causal.bind Causal.now fun _ => ?_
  refine Causal.bind (Causal.command _ _) fun _ => ?_
  refine Causal.bind (Causal.forEach _ fun _ => Causal.command _ _) fun _ => ?_
  refine Causal.bind (Causal.command _ _) fun _ => Causal.bind (self.createDecisions_causal _ _ _) fun _ => ?_
  split
  · exact Causal.bind (publishDocumentChanged_causal _ _) fun _ => Causal.pure _
  · exact Causal.pure _

theorem ingest_causal (artifact : SourceArtifact) (projectId : ProjectId) (documentType : Option DocumentType)
    (repositoryId : Option RepositoryId) (commitSha : Option String) :
    Causal (self.ingest artifact projectId documentType repositoryId commitSha) := by
  refine Causal.bind (Causal.call _ _) fun _ => Causal.bind (findOrCreateDocument_causal _ _ _ _) fun found => ?_
  obtain ⟨document, currentVersion⟩ := found
  cases currentVersion with
  | none => exact self.storeVersion_causal _ _ _ _ _ _ _
  | some version =>
    dsimp only
    split
    · exact Causal.bind (Causal.query _ _) fun _ => Causal.pure _
    · exact self.storeVersion_causal _ _ _ _ _ _ _

end DocumentIngestionService

/-! ### Work items -/

theorem resolveProject_causal (snapshot : OpenProjectWorkItemSnapshot) (projectId : Option ProjectId) :
    Causal (resolveProject snapshot projectId) := by
  unfold resolveProject
  split
  · exact Causal.bind (Causal.query _ _) fun _ => Causal.pure _
  · dsimp only
    split
    · refine Causal.bind (Causal.query _ _) fun found => ?_
      cases found with
      | none => exact Causal.query _ _
      | some project => exact Causal.pure _
    · refine Causal.bind (Causal.pure none) fun found => ?_
      cases found with
      | none => exact Causal.query _ _
      | some project => exact Causal.pure _

theorem findOrCreateWorkItem_causal (snapshot : OpenProjectWorkItemSnapshot) (projectId : ProjectId) :
    Causal (findOrCreateWorkItem snapshot projectId) := by
  refine Causal.bind (Causal.query _ _) fun existing => ?_
  split
  · exact Causal.pure _
  · refine Causal.bind newUuid_causal fun _ => Causal.bind (Causal.command _ _) fun _ => ?_
    exact Causal.bind (Causal.command _ _) fun _ => Causal.pure _

theorem applySnapshot_causal (workItem : WorkItem) (snapshot : OpenProjectWorkItemSnapshot) :
    Causal (applySnapshot workItem snapshot) := by
  refine Causal.bind ?_ fun _ => Causal.bind (Causal.command _ _) fun _ => Causal.pure _
  unfold resolveAssignee
  split
  · exact Causal.pure none
  · refine Causal.bind (Causal.query _ _) fun actor => ?_
    split
    · exact Causal.pure _
    · exact Causal.bind (Causal.command _ _) fun _ => Causal.pure _

theorem resolveParent_causal (workItem : WorkItem) (snapshot : OpenProjectWorkItemSnapshot) :
    Causal (resolveParent workItem snapshot) := by
  unfold resolveParent
  split
  · exact Causal.pure _
  · refine Causal.bind (Causal.query _ _) fun parent => ?_
    split
    · exact Causal.pure _
    · split
      · exact Causal.pure _
      · exact Causal.bind (Causal.command _ _) fun _ => Causal.pure _

theorem resolveRelation_causal (workItem : WorkItem) (snapshot : OpenProjectWorkItemSnapshot) (raw : RawDict) :
    Causal (resolveRelation workItem snapshot raw) := by
  unfold resolveRelation
  split
  · exact Causal.pure 0
  · refine Causal.bind ?_ fun source => ?_
    · unfold resolveSource
      split
      · exact Causal.pure _
      · exact Causal.bind (Causal.query _ _) fun _ => Causal.pure _
    · split
      · exact Causal.pure 0
      · refine Causal.bind (Causal.query _ _) fun target => ?_
        split
        · exact Causal.pure 0
        · split
          · exact Causal.pure 0
          · exact Causal.bind newUuid_causal fun _ => Causal.bind (Causal.command _ _) fun _ => Causal.pure 1

theorem projectSubgraph_causal (workItem : WorkItem) : Causal (projectSubgraph workItem) := by
  refine Causal.swallow (Causal.bind (Causal.query _ _) fun _ => Causal.bind (Causal.query _ _) fun _ => ?_)
  exact Causal.bind (Causal.command _ _) fun _ => Causal.command _ _

namespace OpenProjectIngestionService
variable (self : OpenProjectIngestionService)

theorem ingestAttachmentContent_causal (attachment : Attachment) (projectId : ProjectId) :
    Causal (self.ingestAttachmentContent attachment projectId) := by
  unfold ingestAttachmentContent
  split
  · rename_i fetch documentIngestion url _ _ _
    refine Causal.bind (Causal.attempt (Causal.query _ _)) fun content => ?_
    split
    · exact Causal.pure ()
    · exact Causal.bind (documentIngestion.ingest_causal _ _ _ _ _) fun _ => Causal.command _ _
  · exact Causal.pure ()

theorem reconcileAttachment_causal (raw : RawDict) (workItem : WorkItem) (externalId : String) :
    Causal (self.reconcileAttachment raw workItem externalId) := by
  refine Causal.bind (Causal.query _ _) fun existing => ?_
  split
  · dsimp only
    split
    · exact Causal.command _ _
    · exact Causal.pure ()
  · refine Causal.bind newUuid_causal fun _ => Causal.bind (Causal.command _ _) fun _ => ?_
    have edges : ∀ attachment, Causal (upsertAttachmentEdges attachment) :=
      fun _ => Causal.swallow (Causal.bind (Causal.command _ _) fun _ => Causal.command _ _)
    dsimp only
    split
    · exact Causal.bind (self.ingestAttachmentContent_causal _ _) fun _ => edges _
    · exact edges _

theorem ingestCanonical_causal (snapshot : OpenProjectWorkItemSnapshot) (changes : List SemanticChange)
    (projectId : ProjectId) : Causal (self.ingestCanonical snapshot changes projectId) := by
  refine Causal.bind (findOrCreateWorkItem_causal _ _) fun found => ?_
  refine Causal.bind (applySnapshot_causal _ _) fun _ => Causal.bind (resolveParent_causal _ _) fun _ => ?_
  refine Causal.bind (Causal.tally _ fun _ => resolveRelation_causal _ _ _) fun _ => Causal.bind ?_ fun _ => ?_
  · refine Causal.tally _ fun raw => ?_
    dsimp only
    split
    · exact Causal.pure 0
    · exact Causal.bind (self.reconcileAttachment_causal _ _ _) fun _ => Causal.pure 1
  · exact Causal.bind (projectSubgraph_causal _) fun _ => Causal.pure _

theorem publishResolved_causal (options : IngestOptions) (snapshot : OpenProjectWorkItemSnapshot) (workItem : WorkItem)
    (projectId : ProjectId) (result : OpenProjectIngestionResult) :
    Causal (self.publishResolved options snapshot workItem projectId result) := by
  unfold publishResolved
  split
  · exact Causal.pure _
  · refine Causal.bind (modelToEnvelope_causal _ _ _ _ _) fun _ => Causal.bind (Causal.command _ _) fun _ => ?_
    dsimp only
    split
    · refine Causal.bind ?_ fun _ => Causal.pure _
      exact Causal.bind (modelToEnvelope_causal _ _ _ _ _) fun _ => Causal.command _ _
    · exact Causal.pure _

theorem ingestWorkItemSnapshot_causal (snapshot : OpenProjectWorkItemSnapshot) (options : IngestOptions) :
    Causal (self.ingestWorkItemSnapshot snapshot options) := by
  refine Causal.bind (Causal.query _ _) fun _ => Causal.bind (resolveProject_causal _ _) fun project => ?_
  split
  · refine Causal.bind (self.ingestCanonical_causal _ _ _) fun _ => Causal.bind (Causal.command _ _) fun _ => ?_
    dsimp only
    split
    · exact Causal.pure _
    · exact self.publishResolved_causal _ _ _ _ _
  · refine Causal.bind (Causal.command _ _) fun _ => ?_
    dsimp only
    split
    · exact Causal.pure _
    · refine Causal.bind (modelToEnvelope_causal _ _ _ _ _) fun _ => ?_
      exact Causal.bind (Causal.command _ _) fun _ => Causal.pure _

end OpenProjectIngestionService

/-! ### The provider pull -/

namespace WorkManagementPullSyncService
variable (self : WorkManagementPullSyncService)
variable (projectId : ProjectId)

theorem recordStatusConflict_causal (snapshot : OpenProjectWorkItemSnapshot) : Causal (recordStatusConflict snapshot) := by
  unfold recordStatusConflict
  split
  · exact Causal.pure 0
  · refine Causal.bind (Causal.query _ _) fun workItem => ?_
    split
    · exact Causal.pure 0
    · split
      · exact Causal.pure 0
      · refine Causal.bind (Causal.query _ _) fun conflicts => ?_
        split
        · exact Causal.pure 0
        · exact Causal.bind (Causal.command _ _) fun _ => Causal.pure 1

theorem pullSnapshots_causal (page : List OpenProjectWorkItemSnapshot) (pulled : PullSyncResult × List String)
    : Causal (self.pullSnapshots projectId page pulled) := by
  induction page generalizing pulled with
  | nil => exact Causal.pure pulled
  | cons snapshot page ih =>
    obtain ⟨result, seen⟩ := pulled
    refine Causal.bind (self.ingestion.ingestWorkItemSnapshot_causal _ _) fun _ => ?_
    exact Causal.bind (recordStatusConflict_causal _) fun _ => ih _

theorem pullPage_causal (projectExternalId : String) (since : Time) (offset : Nat)
    (pulled : PullSyncResult × List String) : Causal (self.pullPage projectId projectExternalId since offset pulled) := by
  refine Causal.bind (Causal.attempt (Causal.query _ _)) fun answer => ?_
  split
  · split
    · exact Causal.pure _
    · exact Causal.reraise _
  · exact Causal.bind (self.pullSnapshots_causal _ _ _) fun _ => Causal.pure _

theorem sweepItems_causal (seen : List String) (workItems : List WorkItem) (swept : Nat) :
    Causal (self.sweepItems projectId seen workItems swept) := by
  induction workItems generalizing swept with
  | nil => exact Causal.pure swept
  | cons workItem workItems ih =>
    unfold sweepItems
    split
    · exact Causal.pure swept
    · split
      · exact ih swept
      · split
        · exact ih swept
        · refine Causal.bind (Causal.call _ _) fun snapshot => ?_
          split
          · exact ih swept
          · exact Causal.bind (self.ingestion.ingestWorkItemSnapshot_causal _ _) fun _ => ih (swept + 1)

theorem finishSync_causal (watermark : ProviderSyncWatermark) (result : PullSyncResult) (seen : List String)
    : Causal (self.finishSync projectId watermark result seen) := by
  have save : ∀ itemsSwept : Nat, Causal (do
      let lastSyncedAt ← now
      command .pullWatermarkSave (World.saveWatermark { watermark with
        lastSyncedAt := some lastSyncedAt
        lastExternalId := seen.getLast?.or watermark.lastExternalId })
      pure { result with
        itemsSwept
        details := result.details ++ ["watermark advanced; " ++ toString result.itemsPulled ++ " pulled"] } :
      Prog PullSyncResult) :=
    fun _ => Causal.bind Causal.now fun _ => Causal.bind (Causal.command _ _) fun _ => Causal.pure _
  unfold finishSync
  dsimp only
  split
  · refine Causal.bind (Causal.bind (Causal.query _ _) fun _ => ?_) save
    exact self.sweepItems_causal _ _ _ _
  · exact Causal.bind (Causal.pure _) save

theorem syncProject_causal (project : Project) : Causal (self.syncProject project) := by
  unfold syncProject
  split
  · exact Causal.pure _
  · refine Causal.bind (Causal.call _ _) fun watermark => Causal.bind ?_ fun since => ?_
    · refine Causal.bind Causal.now fun current => ?_
      split <;> exact Causal.pure _
    · refine Causal.bind (Causal.paged (fun _ _ => self.pullPage_causal _ _ _ _ _) _ _ _) fun pulled => ?_
      obtain ⟨result, seen⟩ := pulled.getD ({ projectId := some project.id }, [])
      exact self.finishSync_causal _ _ _ _

end WorkManagementPullSyncService

/-! ### The documentation cycles -/

namespace XWikiDocumentationSyncService
variable (self : XWikiDocumentationSyncService)
variable (port : DocumentationPort)

theorem syncPage_causal (ref : ExternalReference) : Causal (self.syncPage port ref) := by
  refine Causal.bind (Causal.attempt (Causal.bind (Causal.query _ _) fun resolution => ?_)) fun turn => ?_
  · split
    · exact Causal.pure _
    · refine Causal.bind (Causal.ask _ _) fun _ => ?_
      exact Causal.bind (self.ingestion.ingest_causal _ _ _ _ _) fun _ => Causal.pure _
  · split <;> exact Causal.pure _

theorem syncPages_causal (refs : List ExternalReference) (cycle : SpaceCycle) :
    Causal (self.syncPages port refs cycle) := by
  induction refs generalizing cycle with
  | nil => exact Causal.pure cycle
  | cons ref refs ih => exact Causal.bind (self.syncPage_causal port ref) fun _ => ih _

theorem syncSpace_causal (project : Project) (space : String) : Causal (self.syncSpace port project space) := by
  refine Causal.bind ?_ fun cycle => ?_
  · refine Causal.bind (Causal.bind (Causal.call _ _) fun _ => Causal.pure _) fun _ => ?_
    exact Causal.bind (Causal.ask _ _) fun _ => self.syncPages_causal _ _ _
  · dsimp only
    split
    · refine Causal.bind (Causal.bind (Causal.call _ _) fun _ => ?_) fun _ => Causal.pure _
      exact Causal.bind Causal.now fun _ => Causal.command _ _
    · exact Causal.pure _

theorem syncProjectSpaces_causal (project : Project) : Causal (self.syncProjectSpaces port project) := by
  unfold syncProjectSpaces
  induction mappedSpaces project with
  | nil => exact Causal.pure []
  | cons space spaces ih =>
    exact Causal.bind (self.syncSpace_causal port project space) fun _ => Causal.bind ih fun _ => Causal.pure _

end XWikiDocumentationSyncService

end Brain
