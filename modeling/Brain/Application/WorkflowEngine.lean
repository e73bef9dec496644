import Brain.Adapters.Ports

namespace Brain

/-- The calls that matter to a workflow. `executed` also notes the state the
engine was in. -/
inductive WorkflowEvent
  | executed (state : WorkflowState) (request : ExecutionRequest) (result : ExecutionResult)
  | saved (state : WorkflowState)
  deriving DecidableEq

/-- Checkpoints, executors and approvals. `events` records the calls; the code never reads it. -/
structure WorkflowWorld where
  checkpoints : Keyed WorkflowState.workflowId := Keyed.empty
  executors : Keyed ExecutorDescriptor.executorId := Keyed.empty
  approvals : Keyed Approval.id := Keyed.empty
  events : List WorkflowEvent := []
  nextUuid : Nat := 0

inductive WorkflowSite
  | loadCheckpoint | saveCheckpoint (stage : WorkflowStage) | selectExecutor | execute | saveApproval | listApprovals
  deriving DecidableEq

abbrev WorkflowProg (α : Type) := Calls.Prog WorkflowSite PyException WorkflowWorld α
abbrev WorkflowOutside := Calls.Outside WorkflowSite PyException
abbrev WorkflowRaised := Calls.Raised WorkflowSite PyException

namespace WorkflowWorld

def saveCheckpoint (state : WorkflowState) (w : WorkflowWorld) : WorkflowWorld :=
  { w with checkpoints := w.checkpoints.upsert state, events := w.events ++ [.saved state] }

def select (w : WorkflowWorld) (requiresCoding requiresTools : Bool := false) (minContextWindow : Nat := 0)
    (deployment : Option String := none) : Option ExecutorDescriptor :=
  w.executors.items.find? fun descriptor =>
    !(requiresCoding && !descriptor.coding) && !(requiresTools && !descriptor.toolSupport) &&
      !(descriptor.contextWindow < minContextWindow : Bool) && deployment.all (descriptor.deployment = ·)

def saveApproval (approval : Approval) (w : WorkflowWorld) : WorkflowWorld :=
  { w with approvals := w.approvals.upsert approval }

def listForWorkflow (w : WorkflowWorld) (workflowId : WorkflowId) : List Approval :=
  w.approvals.items.filter fun approval => approval.workflowId = some workflowId

/-- The states in which the executor was called. -/
def visits (w : WorkflowWorld) : List WorkflowState :=
  w.events.filterMap fun
    | .executed state _ _ => some state
    | .saved _ => none

end WorkflowWorld

def newWorkflowUuid : WorkflowProg Uuid :=
  Calls.internal fun w => (.v4 w.nextUuid, { w with nextUuid := w.nextUuid + 1 })

end Brain

namespace Brain
open Calls

structure WorkflowOutcome where
  state : WorkflowState
  executionResult : Option ExecutionResult := none
  prExternalId : Option String := none

structure RetryDecision where
  retryable : Bool
  policy : Option RetryPolicyType := none
  reason : String := ""

/-- `answers n` is the status the executor returns on its call `n`. -/
structure WorkflowEngine where
  answers : Nat → ExecutionStatus
  hasPullRequests : Bool := false
  graph : WorkflowGraph := mainEngineeringGraph

/-- Python takes a missing and an empty text for false. -/
def hasError (state : WorkflowState) : Bool := state.lastError.any (· ≠ "")

namespace WorkflowEngine

def decideAfterVerify (state : WorkflowState) : WorkflowStage × WorkflowState :=
  if state.maxRetries ≤ state.retryCount then (.human, { state with status := .blocked })
  else (if hasError state then .retry else .createPr, state)

def retryDecision (state : WorkflowState) : RetryDecision :=
  let mentions := fun part => state.lastError.any fun error => textContains error part
  if hasError state && mentions "verification" then ⟨true, some .verificationFailure, "verification failed"⟩
  else if hasError state && mentions "tool" then ⟨true, some .transientToolFailure, "transient tool failure"⟩
  else ⟨false, none, "no retryable condition"⟩

variable (self : WorkflowEngine)

/-- The executor takes the request and returns the result of its next call. -/
def perform (state : WorkflowState) (request : ExecutionRequest) (w : WorkflowWorld) :
    ExecutionResult × WorkflowWorld :=
  let result := { executionId := request.executionId, status := self.answers w.visits.length }
  (result, { w with events := w.events ++ [.executed state request result] })

def executeStage (state : WorkflowState) : WorkflowProg ExecutionResult := do
  let descriptor ← query .selectExecutor (·.select true true)
  match descriptor with
  | none => reraise ⟨.selectExecutor, true, ⟨"RuntimeError", "no executor available"⟩⟩
  | some _ => do
    let executionId ← newWorkflowUuid
    let workItemId ← match state.workItemId with
      | some id => pure id
      | none => newWorkflowUuid
    call .execute (self.perform state
      { executionId, workflowId := state.workflowId, workItemId
        repositoryRef := (state.repositoryId.map Uuid.text).getD ""
        baseRevision := state.revision.getD "" })

/-- `_advance`. The source changes the state it is given. -/
def advance (state : WorkflowState) :
    WorkflowProg (Option WorkflowStage × Option ExecutionResult × WorkflowState) :=
  match self.graph.nextStages state.stage with
  | [] => pure (none, none, state)
  | candidate :: _ =>
    match state.stage with
    | .execute => do
      let result ← self.executeStage state
      let state := { state with currentExecutionId := some result.executionId, stage := .verify }
      let state := if result.status.isGood then { state with lastError := none } else state
      pure (some .verify, some result, state)
    | .verify =>
      let (stage, state) := decideAfterVerify state
      pure (some stage, none, state)
    | .retry =>
      if (retryDecision state).retryable && state.retryCount < state.maxRetries then
        pure (some .execute, none, { state with retryCount := state.retryCount + 1 })
      else pure (some .failed, none, { state with status := .failed })
    | .createPr => pure (some .updateBrain, none, state)
    | _ => pure (some candidate, none, state)

/-- The loop turn of `resume`, with the test of the `while` first. -/
def turn (held : WorkflowState × Option ExecutionResult) :
    WorkflowProg ((WorkflowState × Option ExecutionResult) × Bool) := do
  let (state, executionResult) := held
  if state.status ≠ .running then pure ((state, executionResult), true)
  else do
    let (nextStage, result, state) ← self.advance state
    match nextStage with
    | none => do
      let state := { state with status := .completed }
      command (.saveCheckpoint state.stage) (WorkflowWorld.saveCheckpoint state)
      pure ((state, executionResult), true)
    | some stage => do
      let state := { state with stage }
      let executionResult := result.or executionResult
      command (.saveCheckpoint state.stage) (WorkflowWorld.saveCheckpoint state)
      if state.stage = .complete ∨ state.stage = .failed then do
        let state := { state with status := if state.stage = .complete then .completed else .failed }
        command (.saveCheckpoint state.stage) (WorkflowWorld.saveCheckpoint state)
        pure ((state, executionResult), true)
      else pure ((state, executionResult), false)

/-- The loop of `resume`, for at most `turns` turns. -/
def resumeLoop (state : WorkflowState) (turns : Nat) :
    WorkflowProg (Option (WorkflowState × Option ExecutionResult)) :=
  loop self.turn turns (state, none)

/-- More turns than the loop takes. -/
def turnLimit (state : WorkflowState) : Nat := 3 * (state.maxRetries - state.retryCount).toNat + 11

def resume (workflowId : WorkflowId) : WorkflowProg WorkflowOutcome := do
  let found ← query .loadCheckpoint (·.checkpoints.get workflowId)
  match found with
  | none => reraise ⟨.loadCheckpoint, true, ⟨"ValueError", "no checkpoint for workflow " ++ workflowId.text⟩⟩
  | some state => do
    let ended ← self.resumeLoop state (turnLimit state)
    let (state, executionResult) := ended.getD (state, none)
    pure { state, executionResult
           prExternalId := if state.stage = .createPr ∧ self.hasPullRequests then some "PR-created" else none }

end WorkflowEngine


namespace ApprovalGate

/-- The first open approval type. -/
def requiresApproval (state : WorkflowState) : WorkflowProg (Option ApprovalType) := do
  let approvals ← query .listApprovals (·.listForWorkflow state.workflowId)
  pure ((approvals.find? Approval.isOpen).map Approval.approvalType)

/-- The source changes the state it is given. -/
def requestApproval (state : WorkflowState) (approvalType : ApprovalType) (requestedBy : Option ActorId := none) :
    WorkflowProg (Approval × WorkflowState) := do
  let id ← newWorkflowUuid
  let approval : Approval := {
    id
    approvalType
    workflowId := some state.workflowId
    workItemId := state.workItemId
    executionId := state.currentExecutionId
    requestedBy }
  command .saveApproval (WorkflowWorld.saveApproval approval)
  pure (approval, { state with approvalState := .pending })

def decide (approval : Approval) (decidedBy : ActorId) (decision : ApprovalDecision) (reason : String := "") :
    WorkflowProg Approval := do
  let approval := { approval with decidedBy := some decidedBy, decision, reason }
  command .saveApproval (WorkflowWorld.saveApproval approval)
  pure approval

def applyToWorkflow (approval : Approval) (state : WorkflowState) : WorkflowState :=
  if approval.workflowId ≠ some state.workflowId then state
  else match approval.decision with
    | .approved => { state with approvalState := .approved }
    | .rejected => { state with approvalState := .rejected }
    | .needsChanges => { state with approvalState := .pending }
    | .pending => state

end ApprovalGate

/-- A call of the gate for a workflow. The approvals it is about are named by their identifiers. -/
inductive GateCall
  | request (approvalType : ApprovalType) (requestedBy : Option ActorId)
  | decide (id : Uuid) (decidedBy : ActorId) (decision : ApprovalDecision) (reason : String)
  | apply (id : Uuid)

/-- Makes the call. An approval that was never requested cannot be handed over. -/
def GateCall.perform (state : WorkflowState) : GateCall → WorkflowProg WorkflowState
  | .request approvalType requestedBy => do
    let (_, state) ← ApprovalGate.requestApproval state approvalType requestedBy
    pure state
  | .decide id decidedBy decision reason => do
    match ← internal fun w : WorkflowWorld => (w.approvals.get id, w) with
    | none => pure state
    | some approval => do
      let _ ← ApprovalGate.decide approval decidedBy decision reason
      pure state
  | .apply id => do
    match ← internal fun w : WorkflowWorld => (w.approvals.get id, w) with
    | none => pure state
    | some approval => pure (ApprovalGate.applyToWorkflow approval state)

end Brain
