import Brain.Domain.Workflow

namespace Brain

inductive RiskLevel
  | low | medium | high | critical
  deriving DecidableEq

def RiskLevel.value : RiskLevel → String
  | .low => "low"
  | .medium => "medium"
  | .high => "high"
  | .critical => "critical"

inductive PolicyAction
  | allow | deny | requireApproval
  deriving DecidableEq

structure PolicyRule where
  name : String
  riskLevels : List RiskLevel := []
  action : PolicyAction
  approvalType : Option ApprovalType := none
  permissions : Option ExecutionPermissions := none
  deriving DecidableEq

structure PolicySet where
  name : String
  rules : List PolicyRule := []

def PolicySet.rulesForRisk (policySet : PolicySet) (risk : RiskLevel) : List PolicyRule :=
  policySet.rules.filter fun rule => risk ∈ rule.riskLevels

/-- The policy set of `DefaultPolicyProvider`. -/
def defaultPolicySet : PolicySet where
  name := "default"
  rules := [{
    name := "high risk requires approval", riskLevels := [.high], action := .requireApproval
    approvalType := some .execution }]

structure RiskAssessment where
  risk : RiskLevel
  reasons : List String := []

structure PolicyEvaluation where
  permissions : ExecutionPermissions
  requiredApprovals : List ApprovalType := []
  allowed : Bool := true
  reasons : List String := []

/-- `search` is the `search` of a pattern compiled with `re.IGNORECASE`, given the
pattern and the text. -/
structure PolicyService where
  search : String → String → Bool

def highRiskPatterns : List String :=
  ["\\b(migrations?|alembic|schema change)\\b", "\\b(authentication|authn|login|oauth|sso)\\b",
    "\\b(authorization|authz|rbac|permissions?|role)\\b", "\\b(crypto|encryption|signature|cipher)\\b",
    "\\b(billing|payment|invoice|charge|stripe)\\b",
    "\\b(production|deploy|infrastructure|kubernetes|terraform)\\b",
    "\\b(secret|credential|token|api[_-]?key)\\b", "\\b(drop |truncate |delete |destructive)\\b"]

def mediumRiskPatterns : List String :=
  ["\\b(database|sql|query|model)\\b", "\\b(api|endpoint|http|rest)\\b", "\\b(cache|redis|queue|kafka)\\b"]

/-- `_merge_permissions`. -/
def ExecutionPermissions.merge (base override : ExecutionPermissions) : ExecutionPermissions where
  repositoryRead := base.repositoryRead || override.repositoryRead
  repositoryWrite := base.repositoryWrite || override.repositoryWrite
  shell := base.shell || override.shell
  network := base.network || override.network
  gitCommit := base.gitCommit || override.gitCommit
  gitPush := base.gitPush || override.gitPush
  createPullRequest := base.createPullRequest || override.createPullRequest
  mergePullRequest := base.mergePullRequest || override.mergePullRequest
  runContainers := base.runContainers || override.runContainers
  accessSecrets := base.accessSecrets || override.accessSecrets
  deploy := base.deploy || override.deploy

namespace PolicyService
variable (self : PolicyService)

def classifyRisk (workItem : Option WorkItem) (title description : String) : RiskAssessment :=
  let text := " ".intercalate
    [(workItem.map WorkItem.title).getD "", (workItem.map WorkItem.description).getD "", title, description]
  let found := fun patterns : List String => patterns.filter fun pattern => self.search pattern text
  if found highRiskPatterns ≠ [] then
    { risk := .high, reasons := (found highRiskPatterns).map ("high-risk signal: " ++ ·) }
  else if found mediumRiskPatterns ≠ [] then
    { risk := .medium, reasons := (found mediumRiskPatterns).map ("medium-risk signal: " ++ ·) }
  else { risk := .low }

/-- One turn of the loop over the rules. -/
def applyRule (rule : PolicyRule) (evaluation : PolicyEvaluation) : PolicyEvaluation where
  permissions := (rule.permissions.map evaluation.permissions.merge).getD evaluation.permissions
  requiredApprovals :=
    if rule.action = .requireApproval then evaluation.requiredApprovals ++ rule.approvalType.toList
    else evaluation.requiredApprovals
  allowed := evaluation.allowed && decide (rule.action ≠ .deny)
  reasons := evaluation.reasons ++ [rule.name]

def evaluate (policySet : PolicySet) (workItem : Option WorkItem) (title description : String := "") :
    PolicyEvaluation :=
  let assessment := self.classifyRisk workItem title description
  let evaluation := (policySet.rulesForRisk assessment.risk).foldl (fun evaluation rule => applyRule rule evaluation)
    { permissions := {} }
  if evaluation.reasons = [] then
    { evaluation with reasons := ["no policies matched risk " ++ assessment.risk.value] }
  else evaluation

section Rules
variable {self} {rules : List PolicyRule} {evaluation : PolicyEvaluation}

end Rules

end PolicyService

end Brain
