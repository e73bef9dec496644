import Brain.Application.PolicyService
import Brain.Application.VerificationEngine
import Brain.Domain.Observations
import Brain.Events.Encoding
import Brain.Adapters.Ports

namespace Brain
open Calls

/-- A pull request the provider has created, with the execution it was asked for. -/
structure PullRequest where
  executionId : ExecutionId
  repositoryId : RepositoryId
  sourceBranch : String
  targetBranch : String
  title : String
  description : String
  ref : ExternalReference
  deriving DecidableEq

/-- The repositories, the provider, the event bus and the work-management task as
far as pull requests reach them. `outcomes` records the verification outcomes as
they are stored; the code never reads it. -/
structure PullRequestWorld where
  executions : Keyed Execution.id := Keyed.empty
  workItems : Keyed WorkItem.id := Keyed.empty
  repositories : Keyed Repository.id := Keyed.empty
  verificationResults : Keyed VerificationResult.id := Keyed.empty
  verificationRuns : VerificationRuns := Keyed.empty
  policySet : PolicySet := defaultPolicySet
  observations : Keyed Observation.id := Keyed.empty
  pullRequests : List PullRequest := []
  published : List Publication := []
  projected : List (Observation × ExternalReference) := []
  outcomes : List (ExecutionId × VerificationVerdict) := []
  nextUuid : Nat := 0

inductive PullRequestSite
  | getExecution | getWorkItem | listVerificationResults | getPolicySet | listRepositories | createPullRequest
  | publishCreated | findByDedupKey | saveObservation | publishObservation | projectObservation
  deriving DecidableEq

abbrev PullRequestProg (α : Type) := Calls.Prog PullRequestSite PyException PullRequestWorld α
abbrev PullRequestOutside := Calls.Outside PullRequestSite PyException

def newPullRequestUuid : PullRequestProg Uuid :=
  internal fun w => (.v4 w.nextUuid, { w with nextUuid := w.nextUuid + 1 })

def PullRequestWorld.listByExecution (w : PullRequestWorld) (executionId : ExecutionId) : List VerificationResult :=
  w.verificationResults.items.filter (·.executionId = executionId)

def PullRequestWorld.listByProject (w : PullRequestWorld) (projectId : ProjectId) : List Repository :=
  w.repositories.items.filter (·.projectId = projectId)

/-- `ObservationService.create`, with the arguments the pull request service gives. -/
def createObservation (projectId : ProjectId) (observationType : ObservationType) (title body : String)
    (workItemId : WorkItemId) (executionId : ExecutionId) (dedupKey : String) : PullRequestProg Observation := do
  let existing ← query .findByDedupKey (·.observations.items.find? (·.dedupKey = some dedupKey))
  match existing with
  | some observation => pure observation
  | none => do
    let id ← newPullRequestUuid
    let observation : Observation := {
      id, projectId, observationType, title, body
      workItemId := some workItemId, executionId := some executionId
      severity := ObservationPolicy.severity observationType
      visibility := ObservationPolicy.classify observationType
      requiresHumanAttention := ObservationPolicy.requiresHumanAttention observationType
      dedupKey := some dedupKey }
    command .saveObservation fun w => { w with observations := w.observations.upsert observation }
    command .publishObservation fun w =>
      { w with published := w.published ++ [.observationCreated id projectId observationType.value title body] }
    pure observation

def workManagementTarget (workItem : WorkItem) : Option ExternalReference :=
  workItem.externalRefs.find? fun ref =>
    ref.externalType.any fun externalType => externalType ∈ ["task", "work_item", "issue"]

structure PullRequestServiceResult where
  created : Bool
  externalRef : Option ExternalReference := none
  observationId : Option ObservationId := none
  reasons : List String := []

/-- `provider n` is the reference the provider gives its `n`-th pull request;
`none` stands for no provider. -/
structure PullRequestService where
  provider : Option (Nat → ExternalReference)
  policy : PolicyService

namespace PullRequestService

/-- The test of `_verification_passed`. -/
def anyPass (results : List VerificationResult) : Bool := results.any fun result => lower result.verdict.value = "pass"

def verificationPassed (executionId : ExecutionId) : PullRequestProg Bool := do
  let results ← query .listVerificationResults (·.listByExecution executionId)
  pure (anyPass results)

variable (self : PullRequestService)

/-- The tests of `_policy_permits`. -/
def permits (policySet : PolicySet) (workItem : WorkItem) : Bool :=
  let evaluation := self.policy.evaluate policySet (some workItem)
  if !evaluation.allowed then false else .pr ∉ evaluation.requiredApprovals

def policyPermits (workItem : WorkItem) : PullRequestProg Bool := do
  let policySet ← query .getPolicySet (·.policySet)
  pure (self.permits policySet workItem)

def notPassReason : String := "verification verdict is not PASS"

def gateReasons (passed permitted : Bool) : List String :=
  (if passed then [] else [notPassReason]) ++
    (if permitted then [] else ["policy does not permit pull request creation"])

/-- What the provider's `create_pull_request` does. -/
def provide (references : Nat → ExternalReference) (execution : Execution) (workItem : WorkItem)
    (repository : Repository) (w : PullRequestWorld) : ExternalReference × PullRequestWorld :=
  let ref := references w.pullRequests.length
  let pullRequest : PullRequest := {
    executionId := execution.id, repositoryId := repository.id
    sourceBranch := (execution.workingBranch.bind orNone).getD ("brain/" ++ execution.id.text)
    targetBranch := repository.defaultBranch, title := workItem.title, description := workItem.description, ref }
  (ref, { w with pullRequests := w.pullRequests ++ [pullRequest] })

def projectToTask (observation : Observation) (workItem : WorkItem) : PullRequestProg Unit :=
  match workManagementTarget workItem with
  | none => pure ()
  | some target =>
    swallow (command .projectObservation fun w => { w with projected := w.projected ++ [(observation, target)] })

/-- `create_pull_request` from the event on. -/
def announce (ref : ExternalReference) (execution : Execution) (workItem : WorkItem) :
    PullRequestProg PullRequestServiceResult := do
  command .publishCreated fun w =>
    { w with published := w.published ++ [.createPullRequest ref execution.id workItem.id] }
  let observation ← createObservation workItem.projectId .verificationPass "Pull request created"
    ("Verification passed. Merge Request !" ++ ref.externalId ++ " was created.") workItem.id execution.id
    ("pr-created:" ++ execution.id.text)
  projectToTask observation workItem
  pure { created := true, externalRef := some ref, observationId := some observation.id
         reasons := ["verification passed; policy permitted"] }

/-- `create_pull_request` once the gates let it pass. -/
def request (references : Nat → ExternalReference) (execution : Execution) (workItem : WorkItem) :
    PullRequestProg PullRequestServiceResult := do
  match ← query .listRepositories (·.listByProject workItem.projectId) with
  | [] => pure { created := false, reasons := ["no repository for the work item"] }
  | repository :: _ => do
    let ref ← call .createPullRequest (provide references execution workItem repository)
    announce ref execution workItem

/-- `create_pull_request` from the gates on. -/
def gate (references : Nat → ExternalReference) (execution : Execution) (workItem : WorkItem)
    (executionId : ExecutionId) : PullRequestProg PullRequestServiceResult := do
  let passed ← verificationPassed executionId
  let permitted ← self.policyPermits workItem
  if gateReasons passed permitted ≠ [] then pure { created := false, reasons := gateReasons passed permitted }
  else request references execution workItem

def createPullRequest (executionId : ExecutionId) (workItemId : WorkItemId) :
    PullRequestProg PullRequestServiceResult := do
  match self.provider with
  | none => pure { created := false, reasons := ["no pull request provider configured"] }
  | some references => do
    match ← query .getExecution (·.executions.get executionId) with
    | none => pure { created := false, reasons := ["execution not found"] }
    | some execution => do
      match ← query .getWorkItem (·.workItems.get workItemId) with
      | none => pure { created := false, reasons := ["work item not found"] }
      | some workItem => self.gate references execution workItem executionId

end PullRequestService

end Brain
