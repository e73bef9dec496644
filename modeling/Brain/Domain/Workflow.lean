import Brain.Domain.Entities

namespace Brain

abbrev WorkflowId := Uuid
abbrev ExecutionId := Uuid

inductive WorkflowStage
  | intake | understand | buildContext | routeExecutor | execute | verify | retry | human | createPr
  | updateBrain | complete | failed
  deriving DecidableEq

inductive WorkflowStatus
  | running | completed | failed | blocked
  deriving DecidableEq

inductive ApprovalState
  | notRequired | pending | approved | rejected
  deriving DecidableEq

inductive RetryPolicyType
  | transientToolFailure | llmFailure | verificationFailure | invalidInput | humanRequired
  deriving DecidableEq

structure WorkflowState where
  workflowId : WorkflowId
  projectId : Option ProjectId := none
  workItemId : Option WorkItemId := none
  repositoryId : Option Uuid := none
  revision : Option String := none
  currentExecutionId : Option ExecutionId := none
  stage : WorkflowStage := .intake
  status : WorkflowStatus := .running
  retryCount : Int := 0
  maxRetries : Int := 3
  approvalState : ApprovalState := .notRequired
  lastError : Option String := none
  deriving DecidableEq

structure WorkflowEdge where
  source : WorkflowStage
  target : WorkflowStage
  condition : Option String := none
  deriving DecidableEq

structure WorkflowGraph where
  name : String
  edges : List WorkflowEdge

def WorkflowGraph.nextStages (graph : WorkflowGraph) (stage : WorkflowStage) : List WorkflowStage :=
  (graph.edges.filter fun edge => edge.source = stage).map WorkflowEdge.target

def mainEngineeringGraph : WorkflowGraph where
  name := "main_engineering"
  edges := [
    { source := .intake, target := .understand },
    { source := .understand, target := .buildContext },
    { source := .buildContext, target := .routeExecutor },
    { source := .routeExecutor, target := .execute },
    { source := .execute, target := .verify },
    { source := .verify, target := .retry, condition := some "verification_failed" },
    { source := .verify, target := .human, condition := some "human_required" },
    { source := .verify, target := .createPr, condition := some "passed" },
    { source := .retry, target := .execute },
    { source := .createPr, target := .updateBrain },
    { source := .updateBrain, target := .complete }]

/-! ### Executions -/

inductive ExecutionStatus
  | requested | started | running | completed | failed | cancelled | blocked
  deriving DecidableEq, Inhabited

def ExecutionStatus.value : ExecutionStatus → String
  | .requested => "requested"
  | .started => "started"
  | .running => "running"
  | .completed => "completed"
  | .failed => "failed"
  | .cancelled => "cancelled"
  | .blocked => "blocked"

/-- `status.value in {"completed", "passed"}`. -/
def ExecutionStatus.isGood (status : ExecutionStatus) : Bool := ["completed", "passed"].contains status.value

structure ExecutionPermissions where
  repositoryRead : Bool := true
  repositoryWrite : Bool := false
  shell : Bool := false
  network : Bool := false
  gitCommit : Bool := false
  gitPush : Bool := false
  createPullRequest : Bool := false
  mergePullRequest : Bool := false
  runContainers : Bool := false
  accessSecrets : Bool := false
  deploy : Bool := false
  deriving DecidableEq

structure ExecutionRequest where
  executionId : ExecutionId
  workflowId : WorkflowId
  workItemId : WorkItemId
  repositoryRef : String
  baseRevision : String
  deriving DecidableEq

structure ExecutionResult where
  executionId : ExecutionId
  status : ExecutionStatus
  deriving DecidableEq, Inhabited

structure ExecutorDescriptor where
  executorId : Uuid
  coding : Bool := true
  toolSupport : Bool := true
  contextWindow : Nat := 128000
  deployment : String := "remote"
  deriving DecidableEq

/-! ### Approvals -/

inductive ApprovalType
  | plan | architecture | security | pr | execution
  deriving DecidableEq

inductive ApprovalDecision
  | pending | approved | rejected | needsChanges
  deriving DecidableEq

structure Approval where
  id : Uuid
  approvalType : ApprovalType
  workflowId : Option WorkflowId := none
  workItemId : Option WorkItemId := none
  executionId : Option ExecutionId := none
  requestedBy : Option ActorId := none
  decidedBy : Option ActorId := none
  decision : ApprovalDecision := .pending
  reason : String := ""
  deriving DecidableEq

def Approval.isOpen (approval : Approval) : Bool := approval.decision = .pending

structure Repository where
  id : RepositoryId
  projectId : ProjectId
  name : String
  cloneUrl : String
  defaultBranch : String := "main"
  currentRevision : Option String := none
  externalRefs : List ExternalReference := []
  deriving DecidableEq

structure Execution where
  id : ExecutionId
  workflowId : WorkflowId
  workItemId : WorkItemId
  executorId : ActorId
  status : ExecutionStatus := .requested
  completedAt : Option Time := none
  baseBranch : Option String := none
  workingBranch : Option String := none
  worktreePath : Option String := none
  deriving DecidableEq

/-- The request with the fields that name a workspace. -/
structure WorkspaceRequest extends ExecutionRequest where
  baseBranch : Option String := none
  workingBranch : Option String := none
  worktreePath : Option String := none
  workspacePath : Option String := none
  deriving DecidableEq

/-- The result with the fields that say what was changed. -/
structure ExecutorResult extends ExecutionResult where
  modifiedFiles : List String := []
  blockers : List String := []
  deriving DecidableEq

/-- `path or None`. -/
def orNone (text : String) : Option String := if text = "" then none else some text

end Brain
