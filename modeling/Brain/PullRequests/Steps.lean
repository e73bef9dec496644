import Brain.Application.PullRequestService
import Brain.Lib.Runs

namespace Brain
open Calls

/-- What the pull request service reads and other components write. -/
structure Surroundings where
  executions : Keyed Execution.id
  workItems : Keyed WorkItem.id
  repositories : Keyed Repository.id
  policySet : PolicySet
  observations : Keyed Observation.id

inductive PullRequestStep
  /-- A call of `create_pull_request`. -/
  | create (executionId : ExecutionId) (workItemId : WorkItemId) (outside : PullRequestOutside)
  /-- A call of `VerificationEngine.verify`. -/
  | verify (engine : VerificationEngine) (request : VerifyRequest)
  /-- A verification result is stored, `verification_results.create`. -/
  | record (executionId : ExecutionId) (verdict : VerificationVerdict)
  | write (surroundings : Surroundings)

namespace PullRequestWorld

def verify (engine : VerificationEngine) (request : VerifyRequest) (w : PullRequestWorld) : PullRequestWorld :=
  let (outcome, runs) := engine.verify (.v4 w.nextUuid) request w.verificationRuns
  { w with
    verificationRuns := runs
    outcomes := if request.persist then w.outcomes ++ [(request.executionId, outcome.run.verdict)] else w.outcomes
    nextUuid := w.nextUuid + 1 }

def record (executionId : ExecutionId) (verdict : VerificationVerdict) (w : PullRequestWorld) : PullRequestWorld :=
  { w with
    verificationResults := w.verificationResults.upsert { id := .v4 w.nextUuid, executionId, verdict }
    outcomes := w.outcomes ++ [(executionId, verdict)]
    nextUuid := w.nextUuid + 1 }

def write (surroundings : Surroundings) (w : PullRequestWorld) : PullRequestWorld :=
  { w with
    executions := surroundings.executions, workItems := surroundings.workItems
    repositories := surroundings.repositories, policySet := surroundings.policySet
    observations := surroundings.observations }

def requested (w : PullRequestWorld) : List ExecutionId := w.pullRequests.map PullRequest.executionId

/-- Nothing is verified or created yet. -/
structure Fresh (w : PullRequestWorld) : Prop where
  results : w.verificationResults.items = []
  runs : w.verificationRuns.items = []
  outcomes : w.outcomes = []
  pullRequests : w.pullRequests = []

end PullRequestWorld

/-- How a call of `create_pull_request` ended. -/
abbrev CallRun := Run PullRequestSite PyException PullRequestWorld PullRequestServiceResult

namespace PullRequestService
variable (self : PullRequestService)

def run (executionId : ExecutionId) (workItemId : WorkItemId) (outside : PullRequestOutside) (w : PullRequestWorld) :
    CallRun :=
  self.createPullRequest executionId workItemId outside 0 w

def step (w : PullRequestWorld) : PullRequestStep → Option PullRequestWorld
  | .create executionId workItemId outside => some (self.run executionId workItemId outside w).store
  | .verify engine request => some (w.verify engine request)
  | .record executionId verdict => some (w.record executionId verdict)
  | .write surroundings => some (w.write surroundings)

/-! ### A sample -/

def sampleService : PullRequestService where
  provider := some fun n => { provider := "gitlab", externalId := toString n, externalType := some "merge_request" }
  policy := { search := fun _ _ => false }

def sampleExecution : Execution where
  id := .v4 1
  workflowId := .v4 2
  workItemId := .v4 3
  executorId := .v4 4
  workingBranch := some "brain/wi/deadbeef"

def sampleWorkItem : WorkItem := { id := .v4 3, projectId := .v4 5, title := "implement the parser" }

/-- An execution, its work item and a repository, before any verification. -/
def sampleWorld : PullRequestWorld where
  executions := Keyed.empty.upsert sampleExecution
  workItems := Keyed.empty.upsert sampleWorkItem
  repositories := Keyed.empty.upsert { id := .v4 6, projectId := .v4 5, name := "repo", cloneUrl := "git@host:team/repo.git" }
  nextUuid := 7

/-! ### What a call does -/

/-- Every gate before the provider lets a call pass. -/
structure Reaches (service : PullRequestService) (w : PullRequestWorld) (executionId : ExecutionId) (workItemId : WorkItemId) : Prop where
  provider : service.provider ≠ none
  execution : w.executions.get executionId ≠ none
  verified : anyPass (w.listByExecution executionId) = true
  workItem : ∃ workItem, w.workItems.get workItemId = some workItem ∧ service.permits w.policySet workItem = true ∧
    w.listByProject workItem.projectId ≠ []

/-- The calls before the provider's return, and the provider's has its effect. -/
structure TakesEffect (outside : PullRequestOutside) : Prop where
  getExecution : outside.outcome 0 .getExecution = .returns
  getWorkItem : outside.outcome 1 .getWorkItem = .returns
  listVerificationResults : outside.outcome 2 .listVerificationResults = .returns
  getPolicySet : outside.outcome 3 .getPolicySet = .returns
  listRepositories : outside.outcome 4 .listRepositories = .returns
  createPullRequest : ∀ exception, outside.outcome 5 .createPullRequest ≠ .raises false exception

/-- What a call leaves alone once the provider was asked. -/
structure Announces (w w' : PullRequestWorld) : Prop where
  pullRequests : w'.pullRequests = w.pullRequests
  results : w'.verificationResults = w.verificationResults
  runs : w'.verificationRuns = w.verificationRuns
  outcomes : w'.outcomes = w.outcomes
  nextUuid : w.nextUuid ≤ w'.nextUuid

instance : IsPreorder PullRequestWorld Announces where
  refl _ := ⟨rfl, rfl, rfl, rfl, Nat.le_refl _⟩
  trans _ _ _ left right :=
    ⟨right.pullRequests.trans left.pullRequests, right.results.trans left.results, right.runs.trans left.runs,
      right.outcomes.trans left.outcomes, left.nextUuid.trans right.nextUuid⟩

/-- What a call leaves alone in any case. -/
structure Untouched (w w' : PullRequestWorld) : Prop where
  results : w'.verificationResults = w.verificationResults
  runs : w'.verificationRuns = w.verificationRuns
  outcomes : w'.outcomes = w.outcomes
  nextUuid : w.nextUuid ≤ w'.nextUuid

instance : IsPreorder PullRequestWorld Untouched where
  refl _ := ⟨rfl, rfl, rfl, Nat.le_refl _⟩
  trans _ _ _ left right :=
    ⟨right.results.trans left.results, right.runs.trans left.runs, right.outcomes.trans left.outcomes,
      left.nextUuid.trans right.nextUuid⟩

theorem createObservation_within {projectId : ProjectId} {observationType : ObservationType} {title body : String}
    {workItemId : WorkItemId} {executionId : ExecutionId} {dedupKey : String} :
    Within Announces (fun _ => True)
      (createObservation projectId observationType title body workItemId executionId dedupKey) := by
  unfold createObservation
  refine Within.bind (Within.query trivial) fun existing => ?_
  cases existing with
  | some observation => exact Within.pure observation
  | none =>
    refine Within.bind (Within.internal fun w => ⟨rfl, rfl, rfl, rfl, Nat.le_succ _⟩) fun id => ?_
    refine Within.bind (Within.command (fun w => ⟨rfl, rfl, rfl, rfl, Nat.le_refl _⟩) trivial) fun _ => ?_
    refine Within.bind (Within.command (fun w => ⟨rfl, rfl, rfl, rfl, Nat.le_refl _⟩) trivial) fun _ => ?_
    exact Within.pure _

variable {workItem : WorkItem}

theorem projectToTask_within {observation : Observation} :
    Within Announces (fun _ => True) (projectToTask observation workItem) := by
  unfold projectToTask
  split
  · exact Within.pure ()
  · exact Within.swallow (S := fun _ => True) (Within.command (fun w => ⟨rfl, rfl, rfl, rfl, Nat.le_refl _⟩) trivial)

theorem announce_within {ref : ExternalReference} {execution : Execution} :
    Within Announces (fun _ => True) (announce ref execution workItem) := by
  unfold announce
  refine Within.bind (Within.command (fun w => ⟨rfl, rfl, rfl, rfl, Nat.le_refl _⟩) trivial) fun _ => ?_
  refine Within.bind createObservation_within fun observation => ?_
  exact Within.bind projectToTask_within fun _ => Within.pure _

theorem announce_announces (ref : ExternalReference) (execution : Execution) (workItem : WorkItem)
    (outside : PullRequestOutside) (n : Nat) (w : PullRequestWorld) :
    Announces w (announce ref execution workItem outside n w).store :=
  (announce_within outside w n).store

/-- The call changed nothing. It gives the verification reason only without a PASS. -/
structure Stopped (service : PullRequestService) (w : PullRequestWorld) (executionId : ExecutionId) (workItemId : WorkItemId)
    (outside : PullRequestOutside) (run : CallRun) : Prop where
  blocked : ¬ (service.Reaches w executionId workItemId ∧ TakesEffect outside)
  store : run.store = w
  reason : ∀ r, run.result = .ok r → notPassReason ∈ r.reasons → anyPass (w.listByExecution executionId) = false

structure Asked (service : PullRequestService) (w : PullRequestWorld) (executionId : ExecutionId) (workItemId : WorkItemId)
    (outside : PullRequestOutside) (run : CallRun) : Prop where
  reaches : service.Reaches w executionId workItemId
  effect : TakesEffect outside
  created : ∃ pullRequest, pullRequest.executionId = executionId ∧
    run.store.pullRequests = w.pullRequests ++ [pullRequest]
  untouched : Untouched w run.store
  reason : ∀ r, run.result = .ok r → notPassReason ∉ r.reasons

theorem announce_reasons (ref : ExternalReference) (execution : Execution) (workItem : WorkItem)
    (outside : PullRequestOutside) (w : PullRequestWorld) :
    Meets outside (announce ref execution workItem) w
      (byResult (fun r _ => r.reasons = ["verification passed; policy permitted"]) fun _ _ => True) := by
  refine Meets.seq (fun _ _ => True) (fun _ => trivial) ?_ fun _ _ _ => trivial
  intro _ _ _
  refine Meets.seq (fun _ _ => True) (fun _ => trivial) ?_ fun _ _ _ => trivial
  intro observation _ _
  refine Meets.seq (fun _ _ => True) (fun _ => trivial) ?_ fun _ _ _ => trivial
  exact fun _ _ _ => Meets.pure rfl

theorem reasons_of_announced {ref : ExternalReference} {execution : Execution} {outside : PullRequestOutside}
    {n : Nat} {w : PullRequestWorld} {r : PullRequestServiceResult}
    (ended : (announce ref execution workItem outside n w).result = .ok r) : notPassReason ∉ r.reasons := by
  have reasons := announce_reasons ref execution workItem outside w n
  rw [ended] at reasons
  rw [show r.reasons = _ from reasons]
  decide

theorem notPass_mem_gateReasons {passed permitted : Bool} :
    notPassReason ∈ gateReasons passed permitted ↔ passed = false := by
  cases passed <;> cases permitted <;> decide

theorem gateReasons_eq_nil {passed permitted : Bool} :
    gateReasons passed permitted = [] ↔ passed = true ∧ permitted = true := by
  cases passed <;> cases permitted <;> decide

variable {self} {w : PullRequestWorld} {executionId : ExecutionId} {workItemId : WorkItemId}
  {outside : PullRequestOutside}

theorem Stopped.raised {raised : Calls.Raised PullRequestSite PyException} {n : Nat} (early : ¬ TakesEffect outside) :
    self.Stopped w executionId workItemId outside ⟨.error raised, n, w⟩ :=
  ⟨fun both => early both.2, rfl, fun _ ended => nomatch ended⟩

theorem Stopped.refused {reason : String} {n : Nat} (blocked : ¬ self.Reaches w executionId workItemId)
    (other : notPassReason ≠ reason) :
    self.Stopped w executionId workItemId outside ⟨.ok { created := false, reasons := [reason] }, n, w⟩ := by
  refine ⟨fun both => blocked both.1, rfl, ?_⟩
  rintro _ ⟨⟩ mentioned
  exact absurd (List.mem_singleton.mp mentioned) other

section Ending
variable {references : Nat → ExternalReference} {execution : Execution} {workItem : WorkItem}

theorem request_ends {repositories : List Repository} (stored : w.listByProject workItem.projectId = repositories)
    (found : w.executions.get executionId = some execution)
    (reaches : repositories ≠ [] → self.Reaches w executionId workItemId)
    (blocked : repositories = [] → ¬ self.Reaches w executionId workItemId)
    (early : outside.outcome 4 .listRepositories = .returns →
      (∀ exception, outside.outcome 5 .createPullRequest ≠ .raises false exception) → TakesEffect outside) :
    self.Stopped w executionId workItemId outside (request references execution workItem outside 4 w) ∨
      self.Asked w executionId workItemId outside (request references execution workItem outside 4 w) := by
  have id : execution.id = executionId := (Keyed.get_eq_some.mp found).2
  unfold request
  rw [query_bind, stored]
  cases listed : outside.outcome 4 .listRepositories with
  | raises => exact Or.inl (Stopped.raised fun effect => nomatch listed.symm.trans effect.listRepositories)
  | returns =>
    cases repositories with
    | nil => exact Or.inl (Stopped.refused (blocked rfl) (by decide))
    | cons repository rest =>
      have passed := reaches (List.cons_ne_nil _ _)
      dsimp only
      rw [call_bind]
      cases last : outside.outcome 5 .createPullRequest with
      | returns =>
        have kept := announce_announces (provide references execution workItem repository w).1 execution workItem outside 6
          (provide references execution workItem repository w).2
        exact Or.inr {
          reaches := passed
          effect := early listed fun exception raised => nomatch last.symm.trans raised
          created := ⟨_, id, kept.pullRequests⟩
          untouched := ⟨kept.results, kept.runs, kept.outcomes, kept.nextUuid⟩
          reason := fun r ended => reasons_of_announced ended }
      | raises tookEffect exception =>
        cases tookEffect with
        | false => exact Or.inl (Stopped.raised fun effect => effect.createPullRequest exception last)
        | true =>
          exact Or.inr {
            reaches := passed
            effect := early listed fun other raised => nomatch last.symm.trans raised
            created := ⟨_, id, rfl⟩
            untouched := ⟨rfl, rfl, rfl, Nat.le_refl _⟩
            reason := fun _ ended => nomatch ended }

theorem gate_ends (port : self.provider = some references) (found : w.executions.get executionId = some execution)
    (foundItem : w.workItems.get workItemId = some workItem)
    (getExecution : outside.outcome 0 .getExecution = .returns)
    (getWorkItem : outside.outcome 1 .getWorkItem = .returns) :
    self.Stopped w executionId workItemId outside (self.gate references execution workItem executionId outside 2 w) ∨
      self.Asked w executionId workItemId outside
        (self.gate references execution workItem executionId outside 2 w) := by
  have item : self.Reaches w executionId workItemId → self.permits w.policySet workItem = true ∧
      w.listByProject workItem.projectId ≠ [] := by
    intro reaches
    obtain ⟨other, stored, gates⟩ := reaches.workItem
    cases foundItem.symm.trans stored
    exact gates
  unfold gate verificationPassed policyPermits
  rw [query_pure_bind]
  cases listResults : outside.outcome 2 .listVerificationResults with
  | raises => exact Or.inl (Stopped.raised fun effect => nomatch listResults.symm.trans effect.listVerificationResults)
  | returns =>
    dsimp only
    rw [query_pure_bind]
    cases getPolicySet : outside.outcome 3 .getPolicySet with
    | raises => exact Or.inl (Stopped.raised fun effect => nomatch getPolicySet.symm.trans effect.getPolicySet)
    | returns =>
      dsimp only
      by_cases passes : gateReasons (anyPass (w.listByExecution executionId)) (self.permits w.policySet workItem) = []
      · obtain ⟨verified, permitted⟩ := gateReasons_eq_nil.mp passes
        rw [if_neg (not_not.mpr passes)]
        refine request_ends rfl found ?_ (fun none_stored reaches => (item reaches).2 none_stored) ?_
        · intro some_stored
          exact ⟨by simp [port], by simp [found], verified, workItem, foundItem, permitted, some_stored⟩
        · intro listed provided
          exact ⟨getExecution, getWorkItem, listResults, getPolicySet, listed, provided⟩
      · rw [if_pos passes]
        refine Or.inl ⟨fun both => ?_, rfl, ?_⟩
        · exact passes (gateReasons_eq_nil.mpr ⟨both.1.verified, (item both.1).1⟩)
        · rintro _ ⟨⟩ mentioned
          exact notPass_mem_gateReasons.mp mentioned

end Ending

variable (self w executionId workItemId outside) in
theorem run_ends : self.Stopped w executionId workItemId outside (self.run executionId workItemId outside w) ∨
    self.Asked w executionId workItemId outside (self.run executionId workItemId outside w) := by
  unfold run createPullRequest
  cases port : self.provider with
  | none => exact Or.inl (Stopped.refused (fun reaches => reaches.provider port) (by decide))
  | some references =>
    dsimp only
    rw [query_bind]
    cases getExecution : outside.outcome 0 .getExecution with
    | raises => exact Or.inl (Stopped.raised fun effect => nomatch getExecution.symm.trans effect.getExecution)
    | returns =>
      dsimp only
      cases found : w.executions.get executionId with
      | none => exact Or.inl (Stopped.refused (fun reaches => reaches.execution found) (by decide))
      | some execution =>
        dsimp only
        rw [query_bind]
        cases getWorkItem : outside.outcome 1 .getWorkItem with
        | raises => exact Or.inl (Stopped.raised fun effect => nomatch getWorkItem.symm.trans effect.getWorkItem)
        | returns =>
          dsimp only
          cases foundItem : w.workItems.get workItemId with
          | none =>
            refine Or.inl (Stopped.refused (fun reaches => ?_) (by decide))
            obtain ⟨workItem, stored, _⟩ := reaches.workItem
            cases foundItem.symm.trans stored
          | some workItem => exact gate_ends port found foundItem getExecution getWorkItem

theorem Asked.requested {run : CallRun} (asked : self.Asked w executionId workItemId outside run) :
    run.store.requested = w.requested ++ [executionId] := by
  obtain ⟨pullRequest, own, created⟩ := asked.created
  unfold PullRequestWorld.requested
  rw [created, List.map_append, List.map_singleton, own]

end PullRequestService

end Brain
