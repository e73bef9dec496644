import Brain.Adapters.OpenProject
import Brain.Application.OpenProjectIngestion
import Brain.Lib.Paging

namespace Brain
open Calls OpenProjectIngestionService

structure BootstrapResult where
  projectId : ProjectId
  status : BootstrapStatus
  projectsIngested : Nat := 0
  workItemsIngested : Nat := 0
  commentsIngested : Nat := 0
  relationsIngested : Nat := 0
  pagesFetched : Nat := 0
  resumed : Bool := false
  details : List String := []

structure OpenProjectProjectBootstrapService where
  provider : OpenProjectAdapter
  ingestion : OpenProjectIngestionService := {}
  pageSize : Nat := 100
  positive : 0 < pageSize := by decide

def ProviderBootstrapState.isCompleted (state : ProviderBootstrapState) : Bool :=
  state.status = .ready || state.status = .liveSync

/-- The state the handler of `bootstrap` saves. -/
def ProviderBootstrapState.failedWith (state : ProviderBootstrapState) (message : String) : ProviderBootstrapState :=
  { state with status := .failed, lastError := some message }

namespace OpenProjectProjectBootstrapService

/-- One stage of `bootstrap`: its state is saved and its work done. The source
has a single `try` around all stages. Its handler saves the state of the stage
it was reached from, and re-raises. -/
def stage {α : Type} (state : ProviderBootstrapState) (work : Prog α) : Prog α :=
  onRaise (do
      command .bootstrapStateSave (World.saveBootstrapState state)
      work)
    (fun e => command .bootstrapStateFailed (World.saveBootstrapState
      (state.failedWith (e.exception.typeName ++ ": " ++ e.exception.message))))

def loadState (projectId : ProjectId) : Prog ProviderBootstrapState := do
  let stored ← query .bootstrapStateGet (·.bootstrapStates.get (projectId, "openproject"))
  match stored with
  | some state => pure state
  | none => do
    let state : ProviderBootstrapState := { projectId, provider := "openproject" }
    command .bootstrapStateCreate (World.saveBootstrapState state)
    pure state

/-- A failure that is recorded and returned, so that nobody retries. -/
def failDefinitive (state : ProviderBootstrapState) (result : BootstrapResult) (message : String) :
    Prog BootstrapResult := do
  command .bootstrapStateSave (World.saveBootstrapState (state.failedWith message))
  pure { result with status := .failed, details := result.details ++ [message] }

def ingestProject (targetExternalId : String) (targetProjectId : ProjectId) (project : ProviderProject) : Prog Unit := do
  let _ ← upsertProject project.externalId project.name project.description project.parentExternalId
    (if project.externalId = targetExternalId then some targetProjectId else none)
  pure ()

def ingestProjects (projects : List ProviderProject) (targetExternalId : String) (targetProjectId : ProjectId) :
    Prog Nat := do
  forEach (ingestProject targetExternalId targetProjectId) projects
  pure projects.length

def bootstrapOptions (projectId : ProjectId) : IngestOptions :=
  { mode := .bootstrap, source := "bootstrap", projectId := some projectId }

variable (self : OpenProjectProjectBootstrapService)

/-- The first stage. `.error` holds the result of a definitive failure. -/
def discover (state : ProviderBootstrapState) (result : BootstrapResult) (projectId : ProjectId)
    (externalProjectId : String) : Prog (Except BootstrapResult BootstrapResult) := do
  let projects ← query .listProjects (fun _ => self.provider.listProjects)
  if !projects.any (fun p => p.externalId = externalProjectId) then do
    let failed ← failDefinitive state result
      ("provider project " ++ externalProjectId ++ " does not exist or is not visible")
    pure (.error failed)
  else do
    let projectsIngested ← ingestProjects projects externalProjectId projectId
    pure (.ok { result with projectsIngested })

def ingestSnapshot (projectId : ProjectId) (snapshot : OpenProjectWorkItemSnapshot) : Prog Unit := do
  let _ ← self.ingestion.ingestWorkItemSnapshot snapshot (bootstrapOptions projectId)
  pure ()

/-- The loop turn of `_fetch_all_work_packages`. The checkpoint is a copy of the
state: the caller's state keeps its page. -/
def fetchPage (externalProjectId : String) (state : ProviderBootstrapState) (projectId : ProjectId) (offset : Nat)
    (fetched : BootstrapResult × List OpenProjectWorkItemSnapshot) :
    Prog ((BootstrapResult × List OpenProjectWorkItemSnapshot) × Bool) := do
  let page ← query .listWorkPackages
    (fun _ => self.provider.listWorkPackages externalProjectId offset self.pageSize)
  forEach (self.ingestSnapshot projectId) page
  command .bootstrapStateCheckpoint (World.saveBootstrapState { state with lastPage := offset })
  let (result, snapshots) := fetched
  let result := { result with
    pagesFetched := result.pagesFetched + 1
    workItemsIngested := result.workItemsIngested + page.length
    details := result.details ++ ["page " ++ toString offset ++ ": " ++ toString page.length ++ " work packages"] }
  pure ((result, snapshots ++ page), page.length < self.pageSize)

/-- The loop of `_fetch_all_work_packages`, for at most `turns` turns. -/
def fetchLoop (externalProjectId : String) (state : ProviderBootstrapState) (result : BootstrapResult)
    (projectId : ProjectId) (turns : Nat) : Prog (Option (BootstrapResult × List OpenProjectWorkItemSnapshot)) :=
  paged self.pageSize (self.fetchPage externalProjectId state projectId) turns (max state.lastPage 1) (result, [])

/-- The loop ends within one turn more than there are elements. -/
def fetchAllWorkPackages (externalProjectId : String) (state : ProviderBootstrapState) (result : BootstrapResult)
    (projectId : ProjectId) : Prog (BootstrapResult × List OpenProjectWorkItemSnapshot) := do
  let fetched ← self.fetchLoop externalProjectId state result projectId
    ((self.provider.transport.projectWorkPackages externalProjectId).length + 1)
  pure (fetched.getD (result, []))

def countRelations (projectId : ProjectId) : Prog Nat := do
  let workItems ← query .countListByProject (·.listWorkItemsByProject projectId)
  tally (fun workItem => do
    let relations ← query .countListByWorkItem (·.listRelationsByWorkItem workItem.id)
    pure relations.length) workItems

def activityComment (workItemId : WorkItemId) (activity : ProviderActivity) : CommentArguments :=
  { workItemId := some workItemId, externalId := activity.externalId, authorName := activity.authorName
    text := activity.text, mode := .bootstrap, source := "bootstrap" }

def ingestActivity (workItem : WorkItem) (activity : ProviderActivity) : Prog Nat :=
  if strip activity.text = "" then pure 0
  else do
    let _ ← ingestComment (activityComment workItem.id activity)
    pure 1

def ingestCommentsOf (snapshot : OpenProjectWorkItemSnapshot) : Prog Nat := do
  let workItem ← query .commentsWorkItemFind
    (·.findWorkItem "openproject" snapshot.externalId (some "work_package"))
  match workItem with
  | none => pure 0
  | some workItem => do
    let activities ← query .listActivities (fun _ => self.provider.listActivities snapshot.externalId)
    tally (ingestActivity workItem) activities

def ingestComments (snapshots : List OpenProjectWorkItemSnapshot) : Prog Nat :=
  tally self.ingestCommentsOf snapshots

def syncKey (externalProjectId : String) : String := "work_items:" ++ externalProjectId

def establishBaseline (externalProjectId : String) (snapshots : List OpenProjectWorkItemSnapshot) : Prog Unit := do
  let watermark ← call .baselineWatermarkGet
    (World.getOrCreateWatermark "openproject" (syncKey externalProjectId))
  let lastSyncedAt ← now
  let bootstrapCompletedAt ← now
  command .baselineWatermarkSave (World.saveWatermark { watermark with
    lastSyncedAt := some lastSyncedAt
    bootstrapCompletedAt := some bootstrapCompletedAt
    lastExternalId := snapshots.getLast?.map OpenProjectWorkItemSnapshot.externalId })

/-- The stages of `bootstrap` after the discovery. -/
def importProject (discovered : ProviderBootstrapState) (result : BootstrapResult) (projectId : ProjectId)
    (externalProjectId : String) : Prog BootstrapResult := do
  let ingesting := { discovered with status := .ingesting, stage := .fetchWorkItems }
  let (result, snapshots) ← stage ingesting
    (self.fetchAllWorkPackages externalProjectId ingesting result projectId)
  let resolving := { ingesting with stage := .resolveRelations }
  let relationsIngested ← stage resolving (do
    resolveRelationships snapshots
    countRelations projectId)
  let commenting := { resolving with stage := .ingestComments }
  let commentsIngested ← stage commenting (self.ingestComments snapshots)
  let building := { commenting with status := .buildingGraph, stage := .buildGraph }
  stage building (pure ())
  let establishing := { building with status := .establishingBaseline, stage := .establishBaseline }
  stage establishing (establishBaseline externalProjectId snapshots)
  let completedAt ← now
  let complete := { establishing with
    status := .ready, stage := .complete, completedAt := some completedAt, lastError := none }
  stage complete (pure ())
  pure { result with
    relationsIngested, commentsIngested, status := .ready
    details := result.details ++ ["bootstrap complete: " ++ toString result.workItemsIngested ++ " work items, " ++
      toString commentsIngested ++ " comments"] }

def run (state : ProviderBootstrapState) (projectId : ProjectId) (externalProjectId : String) :
    Prog BootstrapResult := do
  let discovering := { state with status := .discovering, stage := .discoverProjects, lastError := none }
  let discovered ← stage discovering
    (self.discover discovering { projectId, status := .connected } projectId externalProjectId)
  match discovered with
  | .error failed => pure failed
  | .ok result => self.importProject discovering result projectId externalProjectId

def bootstrap (projectId : ProjectId) (externalProjectId : String) (force : Bool := false) :
    Prog BootstrapResult := do
  let state ← loadState projectId
  if !force && state.isCompleted then
    pure { projectId, status := state.status, resumed := true
           details := ["bootstrap already completed; set force to re-run"] }
  else self.run state projectId externalProjectId

end OpenProjectProjectBootstrapService

end Brain
