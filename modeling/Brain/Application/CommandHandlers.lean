import Brain.Adapters.Ports
import Brain.Lib.Runs

namespace Brain

structure WorkspaceLock where
  repositoryId : RepositoryId
  ownerExecutionId : ExecutionId
  branchName : String
  deriving DecidableEq

/-- `InMemoryWorkspaceLockStore`. -/
abbrev WorkspaceLockStore := Keyed WorkspaceLock.repositoryId

namespace WorkspaceLockStore

def acquire (lock : WorkspaceLock) (locks : WorkspaceLockStore) : Bool × WorkspaceLockStore :=
  match locks.get lock.repositoryId with
  | some _ => (false, locks)
  | none => (true, locks.upsert lock)

def release (repositoryId : RepositoryId) (ownerExecutionId : ExecutionId) (locks : WorkspaceLockStore) :
    Bool × WorkspaceLockStore :=
  match locks.get repositoryId with
  | none => (false, locks)
  | some held => if held.ownerExecutionId ≠ ownerExecutionId then (false, locks) else (true, locks.delete repositoryId)

def heldBy (repositoryId : RepositoryId) (locks : WorkspaceLockStore) : Option WorkspaceLock := locks.get repositoryId

def tryAcquire (repositoryId : RepositoryId) (executionId : ExecutionId) (branchName : String)
    (locks : WorkspaceLockStore) : Option WorkspaceLock × WorkspaceLockStore :=
  let lock : WorkspaceLock := { repositoryId, ownerExecutionId := executionId, branchName }
  match locks.acquire lock with
  | (true, locks) => (some lock, locks)
  | (false, locks) => (none, locks)

variable {locks : WorkspaceLockStore} {r : RepositoryId} {e : ExecutionId} {branch : String}

theorem tryAcquire_free (free : locks.heldBy r = none) :
    locks.tryAcquire r e branch = (some ⟨r, e, branch⟩, locks.upsert ⟨r, e, branch⟩) := by
  unfold heldBy at free
  simp [tryAcquire, acquire, free]

theorem tryAcquire_held {lock : WorkspaceLock} (held : locks.heldBy r = some lock) :
    locks.tryAcquire r e branch = (none, locks) := by
  unfold heldBy at held
  simp [tryAcquire, acquire, held]

theorem release_owner {lock : WorkspaceLock} (held : locks.heldBy r = some lock) (owner : lock.ownerExecutionId = e) :
    locks.release r e = (true, locks.delete r) := by
  unfold heldBy at held
  simp [release, held, owner]

theorem release_other (other : ∀ lock, locks.heldBy r = some lock → lock.ownerExecutionId ≠ e) :
    locks.release r e = (false, locks) := by
  unfold heldBy at other
  unfold release
  cases held : locks.get r with
  | none => rfl
  | some lock => exact if_pos (other lock held)

end WorkspaceLockStore

structure Workspace where
  repository : Repository
  branchName : String
  path : String
  baseRevision : String

/-- An `EXECUTE_WORK_ITEM` command, and the ids its handler draws. -/
structure ExecuteWorkItem where
  workItemId : WorkItemId
  executionId : Option ExecutionId := none
  newExecutionId : ExecutionId
  newWorkflowId : WorkflowId
  newActorId : ActorId

def ExecuteWorkItem.execution (command : ExecuteWorkItem) : ExecutionId :=
  command.executionId.getD command.newExecutionId

/-- The dictionary `_execute_work_item` returns. -/
inductive ExecuteReturn
  | blocked (workItemId : WorkItemId) (executionId : ExecutionId) (reasons : List String)
  | ran (workItemId : WorkItemId) (executionId : ExecutionId) (status : String) (blockers : List String)
  deriving DecidableEq

/-- Where `_execute_work_item` stands: what it awaits, with the variables it
reads later. The executor's call is awaited from `executing` on. -/
inductive ExecuteStage
  | getWorkItem
  | getProject (workItem : WorkItem)
  | listRepositories (workItem : WorkItem) (project : Option Project)
  | createWorkspace (repository : Repository)
  | createExecution (repository : Option Repository) (request : WorkspaceRequest)
  | tryAcquire (repository : Repository) (request : WorkspaceRequest)
  | execute (lock : Option Repository) (request : WorkspaceRequest)
  | executing (lock : Option Repository) (request : WorkspaceRequest)
  | release (repository : Repository) (request : WorkspaceRequest) (ended : Except PyException ExecutorResult)
  | auditExecution (result : ExecutorResult)
  | getExecution (result : ExecutorResult)
  | updateExecution (execution : Execution) (result : ExecutorResult)
  | blockedGet
  | blockedUpdate (execution : Execution)
  | blockedWorkItem
  | blockedObservation
  | blockedAudit
  | finished (ended : Except PyException ExecuteReturn)

/-- What an await comes back with. -/
inductive ExecuteAnswer
  | workItem (found : Option WorkItem)
  | project (found : Option Project)
  | repositories (found : List Repository)
  | workspace (workspace : Workspace)
  | result (result : ExecutorResult)
  | done
  | raises (exception : PyException)

/-- What the commands of one container share. -/
structure ExecutionShared where
  locks : WorkspaceLockStore := Keyed.empty
  executions : Keyed Execution.id := Keyed.empty

namespace ExecuteWorkItem
variable (command : ExecuteWorkItem)

def buildExecutionRequest : WorkspaceRequest :=
  { executionId := command.execution, workflowId := command.newWorkflowId, workItemId := command.workItemId
    repositoryRef := "", baseRevision := "HEAD" }

def inWorkspace (workspace : Workspace) : WorkspaceRequest :=
  { command.buildExecutionRequest with
    repositoryRef := workspace.repository.cloneUrl
    baseRevision := workspace.baseRevision
    baseBranch := some workspace.branchName
    workingBranch := some workspace.branchName
    worktreePath := orNone workspace.path
    workspacePath := orNone workspace.path }

def startedExecution (request : WorkspaceRequest) : Execution :=
  { id := command.execution, workflowId := request.workflowId, workItemId := command.workItemId
    executorId := command.newActorId, status := .started, baseBranch := request.baseBranch
    workingBranch := request.workingBranch, worktreePath := request.worktreePath }

/-- After `executions.create`: only with a repository is there a lock to take. -/
def afterCreate (repository : Option Repository) (request : WorkspaceRequest) : ExecuteStage :=
  match repository with
  | some repository => .tryAcquire repository request
  | none => .execute none request

/-- After the executor ended: `finally` releases the lock first. -/
def afterExecute (lock : Option Repository) (request : WorkspaceRequest)
    (ended : Except PyException ExecutorResult) : ExecuteStage :=
  match lock, ended with
  | some repository, ended => .release repository request ended
  | none, .ok result => .auditExecution result
  | none, .error exception => .finished (.error exception)

def blockedReturn : ExecuteReturn :=
  .blocked command.workItemId command.execution
    ["repository is already being changed by another execution"]

def ranReturn (result : ExecutorResult) : ExecuteReturn :=
  .ran command.workItemId command.execution result.status.value result.blockers

def withResult (now : Time) (execution : Execution) (result : ExecutorResult) : Execution :=
  { execution with
    status := result.status
    completedAt := if [ExecutionStatus.completed, .failed, .cancelled].contains result.status then some now else none }

/-- The handler resumes at an await and runs to its next one. An exception ends
it everywhere but in the executor's call, whose `finally` comes first; the lock
store is in memory and does not raise. -/
def resume (now : Time) (answer : ExecuteAnswer) (stage : ExecuteStage) (s : ExecutionShared) :
    Option (ExecuteStage × ExecutionShared) :=
  match stage, answer with
  | .getWorkItem, .workItem none => some (.execute none command.buildExecutionRequest, s)
  | .getWorkItem, .workItem (some workItem) => some (.getProject workItem, s)
  | .getProject workItem, .project found => some (.listRepositories workItem found, s)
  | .listRepositories _ project, .repositories found =>
    match found.head?, project with
    | some repository, some _ => some (.createWorkspace repository, s)
    | repository, _ => some (.createExecution repository command.buildExecutionRequest, s)
  | .createWorkspace repository, .workspace workspace =>
    some (.createExecution (some repository) (command.inWorkspace workspace), s)
  | .createExecution repository request, .done =>
    some (afterCreate repository request,
      { s with executions := s.executions.upsert (command.startedExecution request) })
  | .tryAcquire repository request, .done =>
    let branch := ((request.workingBranch.bind orNone).getD "brain")
    match s.locks.tryAcquire repository.id command.execution branch with
    | (some _, locks) => some (.execute (some repository) request, { s with locks })
    | (none, locks) => some (.blockedGet, { s with locks })
  | .execute lock request, .done => some (.executing lock request, s)
  | .executing lock request, .result result => some (afterExecute lock request (.ok result), s)
  | .executing lock request, .raises exception => some (afterExecute lock request (.error exception), s)
  | .release repository _ ended, .done =>
    let locks := (s.locks.release repository.id command.execution).2
    match ended with
    | .ok result => some (.auditExecution result, { s with locks })
    | .error exception => some (.finished (.error exception), { s with locks })
  | .auditExecution result, .done => some (.getExecution result, s)
  | .getExecution result, .done =>
    match s.executions.get command.execution with
    | some execution => some (.updateExecution (withResult now execution result) result, s)
    | none => some (.finished (.ok (command.ranReturn result)), s)
  | .updateExecution execution result, .done =>
    some (.finished (.ok (command.ranReturn result)), { s with executions := s.executions.upsert execution })
  -- `_mark_blocked`
  | .blockedGet, .done =>
    match s.executions.get command.execution with
    | some execution => some (.blockedUpdate { execution with status := .blocked }, s)
    | none => some (.blockedWorkItem, s)
  | .blockedUpdate execution, .done =>
    some (.blockedWorkItem, { s with executions := s.executions.upsert execution })
  | .blockedWorkItem, .workItem (some _) => some (.blockedObservation, s)
  | .blockedWorkItem, .workItem none => some (.blockedAudit, s)
  | .blockedObservation, .done => some (.blockedAudit, s)
  | .blockedAudit, .done => some (.finished (.ok command.blockedReturn), s)
  | .tryAcquire _ _, .raises _ => none
  | .execute _ _, .raises _ => none
  | .release _ _ _, .raises _ => none
  | .finished _, _ => none
  | _, .raises exception => some (.finished (.error exception), s)
  | _, _ => none

end ExecuteWorkItem

/-- The repository whose lock a command holds at a stage. -/
def ExecuteStage.holds : ExecuteStage → Option RepositoryId
  | .execute lock _ | .executing lock _ => lock.map Repository.id
  | .release repository _ _ => some repository.id
  | _ => none

/-- The repository the executor is working on. -/
def ExecuteStage.executesOn : ExecuteStage → Option RepositoryId
  | .executing lock _ => lock.map Repository.id
  | _ => none

def ExecuteStage.isFinished : ExecuteStage → Bool
  | .finished _ => true
  | _ => false

/-- Any number of `EXECUTE_WORK_ITEM` commands in one container. -/
abbrev ExecuteTasks (ι : Type) := Tasks ι ExecuteStage ExecutionShared

def ExecuteTasks.start {ι : Type} (executions : Keyed Execution.id := Keyed.empty) : ExecuteTasks ι :=
  { state := fun _ => .getWorkItem, shared := { executions } }

def ExecuteTasks.step {ι : Type} [DecidableEq ι] (commands : ι → ExecuteWorkItem) :
    ExecuteTasks ι → ι × Time × ExecuteAnswer → Option (ExecuteTasks ι) :=
  Tasks.turn fun i answer stage s => (commands i).resume answer.1 answer.2 stage s

end Brain
