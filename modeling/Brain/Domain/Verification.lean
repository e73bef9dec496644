import Brain.Domain.Workflow

namespace Brain

abbrev VerificationId := Uuid

inductive VerificationVerdict
  | pass | partially | fail | blocked
  deriving DecidableEq

def VerificationVerdict.value : VerificationVerdict → String
  | .pass => "pass"
  | .partially => "partial"
  | .fail => "fail"
  | .blocked => "blocked"

/-- The evidence the pull request gate reads. -/
structure VerificationResult where
  id : VerificationId
  executionId : ExecutionId
  verdict : VerificationVerdict
  deriving DecidableEq

inductive CheckKind
  | unitTests | integrationTests | lint | format | typeCheck | build | structural | architecture | testRelevance
  deriving DecidableEq

def CheckKind.value : CheckKind → String
  | .unitTests => "unit_tests"
  | .integrationTests => "integration_tests"
  | .lint => "lint"
  | .format => "format"
  | .typeCheck => "type_check"
  | .build => "build"
  | .structural => "structural"
  | .architecture => "architecture"
  | .testRelevance => "test_relevance"

inductive CheckStatus
  | pending | pass | partially | fail | skipped | blocked
  deriving DecidableEq

structure VerificationStep where
  kind : CheckKind
  name : String
  command : Option String := none
  status : CheckStatus := .pending
  output : String := ""
  detail : RawDict := []

structure VerificationPlan where
  executionId : ExecutionId
  workItemId : WorkItemId
  steps : List VerificationStep := []
  metadata : RawDict := []

structure VerificationRun where
  id : VerificationId
  executionId : ExecutionId
  plan : VerificationPlan
  verdict : VerificationVerdict := .pass
  issues : List String := []
  feedback : List String := []
  prAllowed : Bool := false

structure PRReadiness where
  runId : VerificationId
  verdict : String
  prAllowed : Bool
  reasons : List String := []

structure ArchitectureRule where
  name : String
  sourcePattern : String
  targetPattern : String
  relation : String := "MUST_NOT_DEPEND_ON"

structure TestRelevanceReport where
  relevantTests : List String := []
  runTests : List String := []
  modifiedTests : List String := []
  addedTests : List String := []
  missingTests : List String := []

def pyTexts (texts : List String) : PyValue := .list (texts.map .str)

/-- `model_dump(mode="json")`. -/
def TestRelevanceReport.modelDump (report : TestRelevanceReport) : RawDict :=
  [("relevant_tests", pyTexts report.relevantTests), ("run_tests", pyTexts report.runTests),
    ("modified_tests", pyTexts report.modifiedTests), ("added_tests", pyTexts report.addedTests),
    ("missing_tests", pyTexts report.missingTests)]

end Brain
