import Brain.Application.ObservationProjection
import Brain.Application.Observations
import Brain.Application.Revisions
import Brain.Application.WorkManagementSync
import Brain.Application.XWikiIngestion
import Brain.Adapters.CommandQueue
import Brain.Lib.Scripts

namespace Brain
open Calls

/-! ### The stores of a pass -/

structure StartedExecution extends Execution where
  startedAt : Time
  deriving DecidableEq

inductive ScheduledPayload
  | syncRepository (repositoryId : RepositoryId)
  | syncWorkManagement (projectId : ProjectId)
  deriving DecidableEq

def ScheduledPayload.commandType : ScheduledPayload → CommandType
  | .syncRepository _ => .syncRepository
  | .syncWorkManagement _ => .syncWorkManagement

/-- An envelope of `make_command` with its payload. -/
structure ScheduledCommand extends CommandEnvelope where
  payload : ScheduledPayload
  deriving DecidableEq

/-- What the six jobs read and write. `components` lists the project of every
component of the catalog. -/
structure ReconciliationStores where
  world : World := {}
  repositories : List Repository := []
  snapshots : List RepositorySnapshot := []
  components : List ProjectId := []
  executions : Keyed fun execution : StartedExecution => execution.id := Keyed.empty
  journal : Journal := {}
  refs : Keyed HumanActivityReference.pair := Keyed.empty
  queue : List ScheduledCommand := []

inductive ReconciliationJob
  | repositories | workManagement | documentation | projectionFreshness | stuckExecutions | failedProjections
  deriving DecidableEq

/-- The place of a job in `reconcile`. -/
def ReconciliationJob.rank : ReconciliationJob → Nat
  | .repositories => 0
  | .workManagement => 1
  | .documentation => 2
  | .projectionFreshness => 3
  | .stuckExecutions => 4
  | .failedProjections => 5

/-- Where a pass awaits something: inside a service over `World`, or in a job. -/
inductive SchedulerSite
  | service (site : Site)
  | listProjects (job : ReconciliationJob)
  | listRepositories | listSnapshots | enqueueSyncRepository
  | enqueueSyncWorkManagement
  | commit
  | listComponents
  | listWorkItems | listExecutions | updateExecution | getWorkItem
  | findByDedupKey | saveObservation | publishObservation
  | listFailed | getObservation | getProjection | publishActivity | saveProjection
  deriving DecidableEq

abbrev SchedulerOutside := Calls.Outside SchedulerSite PyException
abbrev SchedulerRaised := Calls.Raised SchedulerSite PyException
abbrev SchedulerProg (α : Type) := Calls.Prog SchedulerSite PyException ReconciliationStores α

structure ReconciliationTurn where
  job : ReconciliationJob
  project : Option ProjectId := none

abbrev SchedulerScript (α : Type) := Script SchedulerSite PyException ReconciliationStores ReconciliationTurn α

def ReconciliationStores.worldPart : Part World ReconciliationStores where
  get s := s.world
  put world s := { s with world }

/-- A service over `World`, called in a job. -/
def inWorld {α : Type} (p : Prog α) : SchedulerProg α := p.on .service ReconciliationStores.worldPart

structure ReconciliationReport where
  repositoriesChecked : Nat := 0
  repositoriesStale : Nat := 0
  repositoriesSynced : Nat := 0
  workManagementChecked : Nat := 0
  workManagementSynced : Nat := 0
  documentationChecked : Nat := 0
  documentationSynced : Nat := 0
  projectionsStale : Nat := 0
  stuckExecutions : Nat := 0
  stuckRecovered : Nat := 0
  projectionsRetried : Nat := 0
  observationsCreated : List String := []
  details : List String := []

def ReconciliationReport.note (report : ReconciliationReport) (detail : String) : ReconciliationReport :=
  { report with details := report.details ++ [detail] }

/-- The container as the jobs see it. `publishActivity` is the answer of the
activity port at a moment. -/
structure ReconciliationService where
  queue : Bool
  stuckThreshold : Nat := 3600
  workManagement : Bool := false
  syncEnabled : Bool := false
  pull : Option WorkManagementPullSyncService := none
  documentationPorts : List DocumentationPort := []
  documentationSync : Option XWikiDocumentationSyncService := none
  session : Bool := false
  neo4j : Bool := false
  observations : ObservationService := ⟨true⟩
  publishActivity : Nat → ExternalReference → Observation → HumanActivityReference

def listProjects (job : ReconciliationJob) : SchedulerScript (List Project) :=
  .act { job } (query (.listProjects job) (·.world.projects.items))

def makeCommand (payload : ScheduledPayload) : Prog ScheduledCommand := do
  let correlationId ← newUuid
  let commandId ← newUuid
  pure { commandId, commandType := payload.commandType, correlationId, payload }

def enqueue (site : SchedulerSite) (payload : ScheduledPayload) : SchedulerProg Unit := do
  let scheduled ← inWorld (makeCommand payload)
  command site fun s => { s with queue := s.queue ++ [scheduled] }

namespace ReconciliationService
variable (self : ReconciliationService)

/-! ### Repositories -/

def enqueueSync (repositoryId : RepositoryId) : SchedulerProg Unit :=
  if self.queue then enqueue .enqueueSyncRepository (.syncRepository repositoryId) else pure ()

def checkRepository (report : ReconciliationReport) (repository : Repository) : SchedulerProg ReconciliationReport := do
  let report := { report with repositoriesChecked := report.repositoriesChecked + 1 }
  match repository.currentRevision with
  | none => pure report
  | some currentRevision => do
    let latest ← query .listSnapshots (·.snapshots.filter (·.repositoryId = repository.id))
    match latest.getLast? with
    | none => pure report
    | some latest =>
      if latest.revision = currentRevision then pure report
      else do
        let report := { report with repositoriesStale := report.repositoriesStale + 1 }.note
          ("repository " ++ repository.name ++ " stale: " ++ currentRevision ++ " vs " ++ latest.revision)
        self.enqueueSync repository.id
        pure { report with repositoriesSynced := report.repositoriesSynced + 1 }

def reconcileRepositories (report : ReconciliationReport) : SchedulerScript ReconciliationReport := do
  let projects ← listProjects .repositories
  let repositories ← Script.gather (fun project : Project => .act ⟨.repositories, some project.id⟩
    (query .listRepositories (·.repositories.filter (·.projectId = project.id)))) projects
  Script.fold (fun report repository => .act ⟨.repositories, some repository.projectId⟩
    (self.checkRepository report repository)) report repositories

/-! ### Work management -/

def hasProviderRef (project : Project) : Bool :=
  project.externalRefs.any fun ref => ref.provider = "openproject" && ref.externalType = some "project"

/-- The turn of `reconcile_work_management` for a project with a provider reference. -/
def pullProject (pull : WorkManagementPullSyncService) (report : ReconciliationReport) (project : Project) :
    SchedulerProg ReconciliationReport := do
  let report := { report with workManagementChecked := report.workManagementChecked + 1 }
  let report ← if self.queue then do
      enqueue .enqueueSyncWorkManagement (.syncWorkManagement project.id)
      pure (report.note ("work management sync enqueued for project " ++ project.name))
    else do
      let result ← inWorld (pull.syncProject project)
      pure (report.note ("work management synced for project " ++ project.name ++ ": " ++
        toString result.itemsPulled ++ " pulled, " ++ toString result.itemsCreated ++ " created"))
  pure { report with workManagementSynced := report.workManagementSynced + 1 }

def reconcileWorkManagement (report : ReconciliationReport) : SchedulerScript ReconciliationReport :=
  match self.pull with
  | none => pure report
  | some pull =>
    if !self.workManagement || !self.syncEnabled then pure report
    else do
      let projects ← listProjects .workManagement
      Script.fold (fun report project =>
        if hasProviderRef project then .act ⟨.workManagement, some project.id⟩ (self.pullProject pull report project)
        else pure report) report projects

/-! ### Documentation -/

def hasSpace (project : Project) : Bool :=
  project.externalRefs.any fun ref => ref.provider = "xwiki" && ref.externalType = some "space"

def noteSpace (report : ReconciliationReport) (result : XWikiSpaceSyncResult) : ReconciliationReport :=
  { report with documentationSynced := report.documentationSynced + 1 }.note
    ("xwiki " ++ result.space ++ ": discovered=" ++ toString result.discovered ++ " ingested=" ++
      toString result.ingested ++ " failed=" ++ toString result.failed)

def syncPorts (sync : XWikiDocumentationSyncService) (project : Project) :
    List DocumentationPort → ReconciliationReport → SchedulerProg ReconciliationReport
  | [], report => pure report
  | port :: ports, report => do
    let results ← inWorld (sync.syncProjectSpaces port project)
    syncPorts sync project ports (results.foldl noteSpace report)

/-- The turn of `reconcile_documentation` for a project with a space. -/
def documentProject (sync : XWikiDocumentationSyncService) (report : ReconciliationReport) (project : Project) :
    SchedulerProg ReconciliationReport := do
  let report := { report with documentationChecked := report.documentationChecked + 1 }
  let report ← syncPorts sync project self.documentationPorts report
  if self.session then command .commit id
  pure report

def reconcileDocumentation (report : ReconciliationReport) : SchedulerScript ReconciliationReport :=
  match self.documentationSync with
  | none => pure report
  | some sync =>
    if self.documentationPorts.isEmpty then pure report
    else do
      let projects ← listProjects .documentation
      Script.fold (fun report project =>
        if hasSpace project then .act ⟨.documentation, some project.id⟩ (self.documentProject sync report project)
        else pure report) report projects

/-! ### Projection freshness -/

def checkProject (report : ReconciliationReport) (project : Project) : SchedulerProg ReconciliationReport := do
  let components ← query .listComponents (·.components.filter (· = project.id))
  if !components.isEmpty && !self.neo4j then
    pure ({ report with projectionsStale := report.projectionsStale + 1 }.note
      ("project " ++ project.name ++ ": graph projection stale"))
  else pure report

def checkProjectionFreshness (report : ReconciliationReport) : SchedulerScript ReconciliationReport := do
  let projects ← listProjects .projectionFreshness
  Script.fold (fun report project => .act ⟨.projectionFreshness, some project.id⟩ (self.checkProject report project))
    report projects

/-! ### Stuck executions -/

def constructObservation (args : CreateObservation) : SchedulerProg Unit := do
  let id ← internal fun s => (.v4 s.journal.nextUuid, { s with journal.nextUuid := s.journal.nextUuid + 1 })
  let observation := args.observation id
  command .saveObservation fun s => { s with journal.observations := s.journal.observations.upsert observation }
  if self.observations.eventBus then
    command .publishObservation fun s =>
      { s with journal.published := s.journal.published ++ [ObservationService.emitted .observationCreated observation] }

/-- `ObservationService.create`. -/
def createObservation (args : CreateObservation) : SchedulerProg Unit := do
  match args.dedupKey with
  | none => self.constructObservation args
  | some key => do
    let existing ← query .findByDedupKey (·.journal.findByDedupKey key)
    match existing with
    | some _ => pure ()
    | none => self.constructObservation args

def isStuck (now : Time) (execution : StartedExecution) : Bool :=
  (execution.status = .started || execution.status = .running) && execution.startedAt + self.stuckThreshold ≤ now

def blockExecutions (workItemId : WorkItemId) (now : Time) :
    List StartedExecution → ReconciliationReport → SchedulerProg ReconciliationReport
  | [], report => pure report
  | execution :: executions, report =>
    if self.isStuck now execution then do
      let report := { report with stuckExecutions := report.stuckExecutions + 1 }
      let blocked : StartedExecution := { execution with status := .blocked }
      command .updateExecution fun s => { s with executions := s.executions.upsert blocked }
      let report := { report with stuckRecovered := report.stuckRecovered + 1 }.note
        ("execution " ++ execution.id.text ++ " stuck; marked blocked")
      let workItem ← query .getWorkItem (·.world.workItems.get workItemId)
      match workItem with
      | none => blockExecutions workItemId now executions report
      | some workItem => do
        self.createObservation
          { projectId := workItem.projectId, observationType := .humanActionRequired, title := "Execution stuck"
            body := "Execution " ++ execution.id.text ++ " exceeded the stuck threshold."
            workItemId := some workItemId, executionId := some execution.id
            dedupKey := some ("stuck:" ++ execution.id.text) }
        blockExecutions workItemId now executions
          { report with observationsCreated := report.observationsCreated ++ [execution.id.text] }
    else blockExecutions workItemId now executions report

/-- The turn of `detect_stuck_executions` for a work item. -/
def blockStuck (now : Time) (report : ReconciliationReport) (workItemId : WorkItemId) :
    SchedulerProg ReconciliationReport := do
  let executions ← query .listExecutions (·.executions.items.filter (·.workItemId = workItemId))
  self.blockExecutions workItemId now executions report

/-- `_work_item_ids`, each with the project it was listed for. -/
def workItemIds : SchedulerScript (List (ProjectId × WorkItemId)) := do
  let projects ← listProjects .stuckExecutions
  Script.gather (fun project : Project => .act ⟨.stuckExecutions, some project.id⟩
    (query .listWorkItems fun s =>
      (s.world.listWorkItemsByProject project.id).map fun workItem => (project.id, workItem.id))) projects

def detectStuckExecutions (report : ReconciliationReport) : SchedulerScript ReconciliationReport := do
  let now ← Script.act ⟨.stuckExecutions, none⟩ now
  let ids ← workItemIds
  Script.fold (fun report listed => .act ⟨.stuckExecutions, some listed.1⟩ (self.blockStuck now report listed.2))
    report ids

/-! ### Failed projections -/

/-- `project` with `force`. -/
def projectForced (observation : Observation) (target : ExternalReference) : SchedulerProg HumanActivityReference := do
  let _ ← query .getProjection (·.refs.get (observation.id, target.provider))
  let reference ← ask .publishActivity fun n _ => self.publishActivity n target observation
  command .saveProjection fun s => { s with refs := s.refs.upsert reference }
  pure reference

/-- The turn of `retry_failed` for a reference. -/
def retryReference (retried : List HumanActivityReference) (reference : HumanActivityReference) :
    SchedulerProg (List HumanActivityReference) :=
  if reference.status ≠ .failed then pure retried
  else do
    let observation ← query .getObservation (·.journal.observations.get reference.observationId)
    match observation with
    | none => pure retried
    | some observation => do
      let updated ← self.projectForced observation reference.target
      pure (if updated.status = .published then retried ++ [updated] else retried)

def noteRetried (report : ReconciliationReport) (reference : HumanActivityReference) : ReconciliationReport :=
  report.note ("retried observation " ++ reference.observationId.text ++ " -> " ++ reference.provider)

def retryFailedProjections (report : ReconciliationReport) : SchedulerScript ReconciliationReport := do
  let failed ← Script.act ⟨.failedProjections, none⟩
    (query .listFailed fun s => lastOf 50 (s.refs.items.filter (·.status = .failed)))
  let retried ← Script.fold (fun retried reference => .act ⟨.failedProjections, none⟩
    (self.retryReference retried reference)) [] failed
  pure (retried.foldl noteRetried { report with projectionsRetried := report.projectionsRetried + retried.length })

/-! ### A pass and the loop -/

def reconcile : SchedulerScript ReconciliationReport := do
  let report ← self.reconcileRepositories {}
  let report ← self.reconcileWorkManagement report
  let report ← self.reconcileDocumentation report
  let report ← self.checkProjectionFreshness report
  let report ← self.detectStuckExecutions report
  self.retryFailedProjections report

/-- `SchedulerLoop.run` for a number of iterations, when nobody stops it. -/
def runLoop : Nat → SchedulerProg Nat
  | 0 => pure 0
  | iterations + 1 => do
    let _ ← attempt self.reconcile.run
    let ran ← runLoop iterations
    pure (ran + 1)

end ReconciliationService

end Brain
