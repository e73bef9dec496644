import Brain.Domain.Observations
import Brain.Domain.Verification
import Brain.Lib.Supersteps

namespace Brain

/-- `EngineeringState`, less the ids of observations, which no node reads. -/
structure EngineeringState where
  workflowId : WorkflowId
  projectId : Option ProjectId
  workItemId : WorkItemId
  repositoryId : Option RepositoryId := none
  baseRevision : Option String := none
  contextCapsuleId : Option Uuid := none
  executionId : Option ExecutionId := none
  verificationId : Option VerificationId := none
  stage : String := "intake"
  status : String := "running"
  retryCount : Int := 0
  waitingForHuman : Bool := false
  error : Option String := none
  implementationStatus : Option String := none
  modifiedFiles : List String := []
  deriving DecidableEq

structure EngineeringWorkItem extends WorkItem where
  implementationStatus : String := "not_started"
  acceptanceCriteria : List String := []

/-- What a run did, in order. The code never reads it. -/
inductive EngineeringEvent
  /-- A read of the repositories. -/
  | lookedUp
  /-- `load_work_item` found no work item or no project. -/
  | loadFailed
  | observed (dedupKey : String)
  | builtContext
  | executed (request : ExecutionRequest) (result : ExecutorResult)
  | verified (executionId : Option ExecutionId) (acceptanceCriteria changedFiles : List String)
      (verdict : VerificationVerdict)
  | createPullRequest (repository : Repository) (sourceBranch targetBranch title description : String)
  deriving DecidableEq

def EngineeringEvent.isExecuted : EngineeringEvent → Bool
  | .executed .. => true
  | _ => false

def EngineeringEvent.isVerified : EngineeringEvent → Bool
  | .verified .. => true
  | _ => false

def EngineeringEvent.isCreate : EngineeringEvent → Bool
  | .createPullRequest .. => true
  | _ => false

structure EngineeringWorld where
  events : List EngineeringEvent := []
  nextUuid : Nat := 0
  deriving DecidableEq

namespace EngineeringWorld

def record (event : EngineeringEvent) (w : EngineeringWorld) : EngineeringWorld := { w with events := w.events ++ [event] }

def drawUuid (w : EngineeringWorld) : Uuid × EngineeringWorld := (.v4 w.nextUuid, { w with nextUuid := w.nextUuid + 1 })

/-- The number of executions so far. -/
def executions (w : EngineeringWorld) : Nat := w.events.countP EngineeringEvent.isExecuted

/-- The number of verifications so far. -/
def verifications (w : EngineeringWorld) : Nat := w.events.countP EngineeringEvent.isVerified

end EngineeringWorld

/-- The container, by what it answers. Lookups may find something else each time:
their first argument is the number of events so far. `executor n` and `verdict n`
are the outcomes of the `n`-th execution and verification. -/
structure EngineeringContainer where
  workItem : Nat → WorkItemId → Option EngineeringWorkItem
  project : Nat → ProjectId → Option Project
  repositories : Nat → ProjectId → List Repository
  executor : Nat → ExecutorResult
  verdict : Nat → VerificationVerdict
  hasPullRequests : Bool := true
  autoCreatePr : Bool := false

inductive EngineeringNode
  | loadWorkItem | understand | analyze | createObservation | buildContext | execute | verify | retry | human
  | prReadiness | createPr | publishObservation | updateBrain | fail
  deriving DecidableEq

namespace EngineeringContainer
variable (container : EngineeringContainer) (state : EngineeringState) (w : EngineeringWorld)

/-! ### Nodes -/

def loadWorkItem : EngineeringState × EngineeringWorld :=
  match container.workItem w.events.length state.workItemId with
  | none => ({ state with stage := "failed", error := some "work item not found" }, (w.record .lookedUp).record .loadFailed)
  | some workItem =>
    let w := w.record .lookedUp
    match container.project w.events.length workItem.projectId with
    | none => ({ state with stage := "failed", error := some "project not found" }, (w.record .lookedUp).record .loadFailed)
    | some project => ({ state with projectId := some project.id, stage := "understand" }, w.record .lookedUp)

def analyzeImplementation : EngineeringState × EngineeringWorld :=
  let status := ((container.workItem w.events.length state.workItemId).map
    EngineeringWorkItem.implementationStatus).getD "analyzed"
  ({ state with stage := "build_context", implementationStatus := some status }, w.record .lookedUp)

def createObservation : EngineeringState × EngineeringWorld :=
  let w :=
    if state.implementationStatus ∉ [some "implemented", some "implemented_unverified"] ∨ state.projectId = none then w
    else w.record (.observed ("impl-status:" ++ state.workItemId.text))
  ({ state with stage := "build_context" }, w)

def buildContext : EngineeringState × EngineeringWorld :=
  let (capsuleId, w) := w.drawUuid
  ({ state with stage := "execute", contextCapsuleId := some capsuleId }, w.record .builtContext)

def execute : EngineeringState × EngineeringWorld :=
  let (executionId, w) := w.drawUuid
  let request : ExecutionRequest := {
    executionId, workflowId := state.workflowId, workItemId := state.workItemId
    repositoryRef := (state.repositoryId.map Uuid.text).getD ""
    baseRevision := (state.baseRevision.bind orNone).getD "HEAD" }
  let result := container.executor w.executions
  let w := w.record (.executed request result)
  if result.status.value ∈ ["failed", "blocked", "cancelled"] then
    ({ state with
      stage := "retry", executionId := some executionId, error := some ("execution " ++ result.status.value) }, w)
  else
    ({ state with stage := "verify", executionId := some executionId, modifiedFiles := result.modifiedFiles }, w)

def verify : EngineeringState × EngineeringWorld :=
  let acceptanceCriteria := ((container.workItem w.events.length state.workItemId).map
    EngineeringWorkItem.acceptanceCriteria).getD []
  let verdict := container.verdict w.verifications
  let (runId, w) := (w.record .lookedUp).drawUuid
  let w := w.record (.verified state.executionId acceptanceCriteria state.modifiedFiles verdict)
  if verdict = .pass then
    ({ state with stage := "pr_readiness", verificationId := some runId, error := none }, w)
  else if 3 ≤ state.retryCount then
    ({ state with
      stage := "human", verificationId := some runId, waitingForHuman := true
      error := some ("verification " ++ verdict.value ++ " after retries") }, w)
  else
    ({ state with
      stage := "retry", verificationId := some runId, error := some ("verification " ++ verdict.value) }, w)

def retry : EngineeringState :=
  if 3 ≤ state.retryCount then { state with stage := "human", waitingForHuman := true }
  else { state with stage := "execute", retryCount := state.retryCount + 1 }

def prReadiness : EngineeringState :=
  { state with stage := if container.autoCreatePr then "create_pr" else "publish_observation" }

/-- Whether a pull request is created is not read from the stage. -/
def createPr : EngineeringState × EngineeringWorld :=
  let returned := { state with stage := "publish_observation" }
  if !container.hasPullRequests then (returned, w)
  else
    match container.workItem w.events.length state.workItemId with
    | none => (returned, w.record .lookedUp)
    | some workItem =>
      let w := w.record .lookedUp
      match container.repositories w.events.length workItem.projectId with
      | [] => (returned, w.record .lookedUp)
      | repository :: _ =>
        (returned, (w.record .lookedUp).record (.createPullRequest repository ("brain/" ++ state.workflowId.text)
          repository.defaultBranch workItem.title workItem.description))

def runNode : EngineeringNode → EngineeringState → EngineeringWorld → EngineeringState × EngineeringWorld
  | .loadWorkItem, state, w => container.loadWorkItem state w
  | .understand, state, w => ({ state with stage := "analyze" }, w)
  | .analyze, state, w => container.analyzeImplementation state w
  | .createObservation, state, w => createObservation state w
  | .buildContext, state, w => buildContext state w
  | .execute, state, w => container.execute state w
  | .verify, state, w => container.verify state w
  | .retry, state, w => (retry state, w)
  | .human, state, w => ({ state with stage := "human", waitingForHuman := true }, w)
  | .prReadiness, state, w => (container.prReadiness state, w)
  | .createPr, state, w => container.createPr state w
  | .publishObservation, state, w => ({ state with stage := "update_brain" }, w)
  | .updateBrain, state, w => ({ state with stage := "complete", status := "completed" }, w)
  | .fail, state, w => ({ state with stage := "failed", status := "failed" }, w)

/-! ### Edges -/

def edges : List (EngineeringNode × EngineeringNode) :=
  [(.loadWorkItem, .understand), (.understand, .analyze), (.analyze, .createObservation),
    (.createObservation, .buildContext), (.buildContext, .execute), (.execute, .verify), (.prReadiness, .createPr),
    (.prReadiness, .publishObservation), (.createPr, .publishObservation), (.publishObservation, .updateBrain)]

def conditionalEdges (state : EngineeringState) : EngineeringNode → String × List (String × EngineeringNode)
  | .verify => (state.stage, [("pr_readiness", .prReadiness), ("retry", .retry), ("human", .human)])
  | .retry => (if state.waitingForHuman then "human" else "execute", [("execute", .execute), ("human", .human)])
  | _ => ("", [])

def next (node : EngineeringNode) (state : EngineeringState) : List EngineeringNode :=
  (edges.filter fun edge => edge.1 = node).map Prod.snd ++
    ((conditionalEdges state node).2.lookup (conditionalEdges state node).1).toList

def graph : Supersteps.Graph EngineeringNode EngineeringState EngineeringWorld where
  run := container.runNode
  next := next

end EngineeringContainer

abbrev EngineeringConfig := Supersteps.Config EngineeringNode EngineeringState EngineeringWorld

/-- A run starts at `load_work_item`. -/
def engineeringStart (initial : EngineeringState) : EngineeringConfig :=
  { active := [.loadWorkItem], state := initial, world := {} }

end Brain
