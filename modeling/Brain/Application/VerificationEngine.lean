import Brain.Application.ImpactAnalysis
import Brain.Domain.Verification

namespace Brain

structure VerificationOutcome where
  run : VerificationRun
  prReadiness : PRReadiness

/-- `runner n` is how the `n`-th command of a run answers, given the command and
the workspace. `search` is `re.search`, given the pattern and the text. -/
structure VerificationEngine where
  runner : Nat → String → Option String → RawDict
  codeGraph : CodeGraph := {}
  architectureRules : List ArchitectureRule := []
  projectCommands : List (CheckKind × String) := []
  search : String → String → Bool

/-- The arguments of `verify`. -/
structure VerifyRequest where
  executionId : ExecutionId
  workItemId : WorkItemId
  acceptanceCriteria : List String
  changedFiles : List String
  repositoryId : Option RepositoryId := none
  revision : Option String := none
  workspacePath : Option String := none
  persist : Bool := true

/-- A verification run repository, keyed by the id of the run. -/
abbrev VerificationRuns := Keyed VerificationRun.id

def VerificationRuns.saveRun (run : VerificationRun) (runs : VerificationRuns) : VerificationRuns := runs.upsert run

def VerificationRuns.listRunsForExecution (executionId : ExecutionId) (runs : VerificationRuns) :
    List VerificationRun :=
  runs.items.filter (·.executionId = executionId)

/-- `_exit_code`: a missing exit code is 0, one that is no number is 1. -/
def exitCode (result : RawDict) : Int := (parseInt ((result.lookup "exit_code").getD (.int 0)).text).getD 1

/-- `f"{step.name}: {step.output}"`. -/
def VerificationStep.issue (step : VerificationStep) : String := step.name ++ ": " ++ step.output

namespace VerificationEngine

def buildPlan (request : VerifyRequest) : VerificationPlan where
  executionId := request.executionId
  workItemId := request.workItemId
  metadata := [("acceptance_criteria", pyTexts request.acceptanceCriteria),
    ("changed_files", pyTexts request.changedFiles)]

def commandStep (kind : CheckKind) (command : String) (result : RawDict) : VerificationStep :=
  let printed := fun name => ((result.lookup name).getD (.str "")).text
  { kind
    name := kind.value
    command := some command
    status := if exitCode result = 0 then .pass else .fail
    output := printed "stdout" ++ printed "stderr"
    detail := [("exit_code", .int (exitCode result)), ("command", .str command)] }

def structuralStep (changedFiles expected : List String) : VerificationStep :=
  let missing := sortedSet (expected.filter fun e => e ∉ changedFiles)
  { kind := .structural
    name := "structural change analysis"
    status := if missing = [] then .pass else .fail
    output := if missing = [] then "" else "missing expected changes: " ++ ", ".intercalate missing
    detail := [("changed_files", pyTexts (changedFiles.insertionSort (· ≤ ·))),
      ("expected", pyTexts (sortedSet expected)), ("missing", pyTexts missing)] }

def testRelevanceReport (changedFiles expected : List String) : TestRelevanceReport :=
  let relevantTests := sortedSet (expected.filter (isTestPath ·))
  let modifiedTests := (changedFiles.filter (isTestPath ·)).insertionSort (· ≤ ·)
  { relevantTests, modifiedTests
    missingTests := sortedSet (relevantTests.filter fun path => path ∉ modifiedTests) }

def testRelevanceStep (changedFiles expected : List String) : VerificationStep :=
  let report := testRelevanceReport changedFiles expected
  { kind := .testRelevance
    name := "test relevance check"
    status := if report.missingTests = [] then .pass else .partially
    output := if report.missingTests = [] then ""
      else "relevant tests not touched: " ++ ", ".intercalate report.missingTests
    detail := report.modelDump }

/-- The run with its issues, its verdict and the feedback for a retry. -/
def aggregateVerdict (run : VerificationRun) (acceptanceCriteria changedFiles : List String) : VerificationRun :=
  let failedSteps := run.plan.steps.filter (·.status = .fail)
  let partialSteps := run.plan.steps.filter (·.status = .partially)
  let feedback := (failedSteps ++ partialSteps).map VerificationStep.issue
  { run with
    feedback
    issues := feedback ++ (if changedFiles = [] then ["no files changed by execution"] else []) ++
      (if acceptanceCriteria = [] then ["work item has no acceptance criteria to verify"] else [])
    verdict := if failedSteps ≠ [] ∨ changedFiles = [] then .fail
      else if partialSteps ≠ [] then .partially
      else if acceptanceCriteria = [] then .blocked
      else .pass }

def prReadiness (run : VerificationRun) : PRReadiness :=
  if run.verdict = .pass then
    { runId := run.id, verdict := run.verdict.value, prAllowed := true, reasons := ["all verification checks passed"] }
  else
    { runId := run.id, verdict := run.verdict.value, prAllowed := false
      reasons := if run.issues = [] then ["verdict is " ++ run.verdict.value] else run.issues }

variable (self : VerificationEngine)

def runCommandSteps (workspacePath : Option String) : List VerificationStep :=
  self.projectCommands.mapIdx fun n check => commandStep check.1 check.2 (self.runner n check.2 workspacePath)

def architectureStep (changedFiles : List String) : VerificationStep :=
  let violations := self.architectureRules.flatMap fun rule =>
    (changedFiles.filter (self.search rule.sourcePattern)).map fun path =>
      path ++ ": " ++ rule.name ++ " (" ++ rule.relation ++ ")"
  { kind := .architecture
    name := "architecture rule check"
    status := if violations = [] then .pass else .fail
    output := "; ".intercalate violations
    detail := [("violations", pyTexts violations)] }

/-- The files the impact analysis expects to be changed. -/
def expectedFiles (request : VerifyRequest) : List String :=
  match request.repositoryId, request.revision with
  | some repositoryId, some revision =>
    (ImpactAnalysisService.analyze self.codeGraph repositoryId revision []).relatedFiles
  | _, _ => []

def planSteps (request : VerifyRequest) : List VerificationStep :=
  let expected := self.expectedFiles request
  self.runCommandSteps request.workspacePath ++
    [structuralStep request.changedFiles expected, self.architectureStep request.changedFiles,
      testRelevanceStep request.changedFiles expected]

/-- The run that `verify` makes under the id `runId`. -/
def verificationRun (runId : VerificationId) (request : VerifyRequest) : VerificationRun :=
  let plan := { buildPlan request with steps := self.planSteps request }
  aggregateVerdict { id := runId, executionId := request.executionId, plan } request.acceptanceCriteria
    request.changedFiles

def verify (runId : VerificationId) (request : VerifyRequest) (runs : VerificationRuns) :
    VerificationOutcome × VerificationRuns :=
  let run := self.verificationRun runId request
  ({ run, prReadiness := prReadiness run }, if request.persist then VerificationRuns.saveRun run runs else runs)

end VerificationEngine

end Brain
