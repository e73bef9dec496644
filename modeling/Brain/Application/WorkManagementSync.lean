import Brain.Adapters.OpenProject
import Brain.Application.OpenProjectIngestion
import Brain.Lib.Paging

namespace Brain
open Calls OpenProjectIngestionService

structure PullSyncResult where
  projectId : Option ProjectId := none
  status : String := "ok"
  itemsPulled : Nat := 0
  itemsCreated : Nat := 0
  itemsSwept : Nat := 0
  conflictsDetected : Nat := 0
  pagesFetched : Nat := 0
  details : List String := []

structure WorkManagementPullSyncService where
  provider : OpenProjectAdapter
  ingestion : OpenProjectIngestionService := {}
  pageSize : Nat := 100
  positive : 0 < pageSize := by decide
  sinceDays : Nat := 1
  sweepLimit : Nat := 20

def isMissingProviderProject (exception : PyException) : Bool :=
  textContains exception.message "Project filter has invalid values" ||
    (textContains exception.message "InvalidQuery" && textContains (lower exception.message) "project")

def findProviderRef (externalRefs : List ExternalReference) (externalType : String) : Option ExternalReference :=
  externalRefs.find? (fun ref => ref.provider = "openproject" && ref.externalType = some externalType)

def providerProjectRef (project : Project) : Option ExternalReference := findProviderRef project.externalRefs "project"

def workItemProviderRef (workItem : WorkItem) : Option ExternalReference :=
  findProviderRef workItem.externalRefs "work_package"

namespace WorkManagementPullSyncService

def overlapSeconds : Nat := 5

def secondsPerDay : Nat := 86400

def pullOptions (source : String) (projectId : ProjectId) : IngestOptions :=
  { mode := .live, source, projectId := some projectId, publishUnchanged := false }

def recordsStatus (snapshot : OpenProjectWorkItemSnapshot) (conflict : SyncConflict) : Bool :=
  conflict.providerField = "status" && conflict.providerValue = snapshot.state && !conflict.resolved

def recordStatusConflict (snapshot : OpenProjectWorkItemSnapshot) : Prog Nat :=
  if mapHumanWorkStatus snapshot.state ≠ .done ∧ mapHumanWorkStatus snapshot.state ≠ .cancelled then pure 0
  else do
    let workItem ← query .conflictWorkItemFind
      (·.findWorkItem "openproject" snapshot.externalId (some "work_package"))
    match workItem with
    | none => pure 0
    | some workItem =>
      if workItem.verificationStatus = .passed then pure 0
      else do
        let conflicts ← query .conflictList (·.listConflicts workItem.id)
        if conflicts.any (recordsStatus snapshot) then pure 0
        else do
          command .conflictSave (World.saveConflict
            { workItemId := workItem.id, provider := "openproject", externalId := snapshot.externalId
              providerField := "status", providerValue := snapshot.state, brainValue := "verification_pending" })
          pure 1

variable (self : WorkManagementPullSyncService)

def since (watermark : ProviderSyncWatermark) : Prog Time := do
  let current ← now
  match watermark.lastSyncedAt, watermark.bootstrapCompletedAt with
  | some lastSyncedAt, _ => pure lastSyncedAt
  | none, some bootstrapCompletedAt => pure (bootstrapCompletedAt - overlapSeconds)
  | none, none => pure (current - self.sinceDays * secondsPerDay)

/-- The loop over one page. `seen` lists the ingested work packages. -/
def pullSnapshots (projectId : ProjectId) : List OpenProjectWorkItemSnapshot → PullSyncResult × List String →
    Prog (PullSyncResult × List String)
  | [], pulled => pure pulled
  | snapshot :: page, (result, seen) => do
    let ingested ← self.ingestion.ingestWorkItemSnapshot snapshot (pullOptions "pull" projectId)
    let conflicts ← recordStatusConflict snapshot
    pullSnapshots projectId page
      ({ result with
          itemsCreated := result.itemsCreated + (if ingested.created then 1 else 0)
          conflictsDetected := result.conflictsDetected + conflicts }, seen ++ [snapshot.externalId])

/-- The loop turn of `sync_project`. -/
def pullPage (projectId : ProjectId) (projectExternalId : String) (since : Time) (offset : Nat)
    (pulled : PullSyncResult × List String) : Prog ((PullSyncResult × List String) × Bool) := do
  let (result, seen) := pulled
  let answer ← attempt (query .listChangedWorkPackages
    (fun _ => self.provider.listChangedWorkPackages since offset self.pageSize (some projectExternalId)))
  match answer with
  | .error e =>
    if isMissingProviderProject e.exception then
      pure (({ result with
        status := "provider_project_missing"
        details := result.details ++
          ["provider project " ++ projectExternalId ++ " does not exist or is not accessible"] }, seen), true)
    else reraise e
  | .ok page => do
    let (result, seen) ← self.pullSnapshots projectId page
      ({ result with pagesFetched := result.pagesFetched + 1 }, seen)
    pure (({ result with
      itemsPulled := result.itemsPulled + page.length
      details := result.details ++ ["page " ++ toString offset ++ ": " ++ toString page.length ++ " work packages"] },
      seen), page.length < self.pageSize)

/-- The loop of `sync_project`, for at most `turns` turns. -/
def pullLoop (projectId : ProjectId) (projectExternalId : String) (since : Time) (result : PullSyncResult)
    (turns : Nat) : Prog (Option (PullSyncResult × List String)) :=
  paged self.pageSize (self.pullPage projectId projectExternalId since) turns 1 (result, [])

/-- The loop of `_sweep_missing`, which counts up to the limit. -/
def sweepItems (projectId : ProjectId) (seen : List String) : List WorkItem → Nat → Prog Nat
  | [], swept => pure swept
  | workItem :: workItems, swept =>
    if self.sweepLimit ≤ swept then pure swept
    else
      match workItemProviderRef workItem with
      | none => sweepItems projectId seen workItems swept
      | some ref =>
        if seen.contains ref.externalId then sweepItems projectId seen workItems swept
        else do
          let snapshot ← call .getWorkPackageSnapshot fun w : World =>
            (self.provider.getWorkPackageSnapshot ref.externalId, w.noteFetch ref.externalId)
          match snapshot with
          | none => sweepItems projectId seen workItems swept
          | some snapshot => do
            let _ ← self.ingestion.ingestWorkItemSnapshot snapshot (pullOptions "pull.sweep" projectId)
            sweepItems projectId seen workItems (swept + 1)

def sweepMissing (projectId : ProjectId) (seen : List String) : Prog Nat := do
  let workItems ← query .sweepListByProject (·.listWorkItemsByProject projectId)
  self.sweepItems projectId seen workItems 0

/-- The end of `sync_project`: the sweep and the new watermark. -/
def finishSync (projectId : ProjectId) (watermark : ProviderSyncWatermark) (result : PullSyncResult)
    (seen : List String) : Prog PullSyncResult := do
  let itemsSwept ← if watermark.lastSyncedAt.isSome then self.sweepMissing projectId seen else pure result.itemsSwept
  let lastSyncedAt ← now
  command .pullWatermarkSave (World.saveWatermark { watermark with
    lastSyncedAt := some lastSyncedAt
    lastExternalId := seen.getLast?.or watermark.lastExternalId })
  pure { result with
    itemsSwept
    details := result.details ++ ["watermark advanced; " ++ toString result.itemsPulled ++ " pulled"] }

def syncProject (project : Project) : Prog PullSyncResult :=
  match providerProjectRef project with
  | none => pure { projectId := some project.id, status := "no_provider_ref" }
  | some ref => do
    let result : PullSyncResult := { projectId := some project.id }
    let watermark ← call .pullWatermarkGet
      (World.getOrCreateWatermark "openproject" ("work_items:" ++ ref.externalId))
    let since ← self.since watermark
    let pulled ← self.pullLoop project.id ref.externalId since result
      ((self.provider.transport.updatedWorkPackages since (some ref.externalId)).length + 1)
    let (result, seen) := pulled.getD (result, [])
    self.finishSync project.id watermark result seen

end WorkManagementPullSyncService

end Brain
