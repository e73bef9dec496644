import Brain.Domain.Workflow

namespace Brain

abbrev ObservationId := Uuid

inductive ObservationType
  | discovery | warning | conflict | implementationStatus | scopeChange | assumption | verificationFailure
  | verificationPass | blocker | dependencyDiscovered | architectureViolation | humanActionRequired
  deriving DecidableEq

def ObservationType.value : ObservationType → String
  | .discovery => "discovery"
  | .warning => "warning"
  | .conflict => "conflict"
  | .implementationStatus => "implementation_status"
  | .scopeChange => "scope_change"
  | .assumption => "assumption"
  | .verificationFailure => "verification_failure"
  | .verificationPass => "verification_pass"
  | .blocker => "blocker"
  | .dependencyDiscovered => "dependency_discovered"
  | .architectureViolation => "architecture_violation"
  | .humanActionRequired => "human_action_required"

inductive ObservationSeverity
  | info | warning | error
  deriving DecidableEq

inductive ObservationVisibility
  | internal | team | important
  deriving DecidableEq

inductive ObservationStatus
  | opened | acknowledged | resolved
  deriving DecidableEq

def ObservationStatus.value : ObservationStatus → String
  | .opened => "open"
  | .acknowledged => "acknowledged"
  | .resolved => "resolved"

structure Observation where
  id : ObservationId
  projectId : ProjectId
  workItemId : Option WorkItemId := none
  executionId : Option ExecutionId := none
  observationType : ObservationType
  severity : ObservationSeverity := .info
  visibility : ObservationVisibility := .internal
  status : ObservationStatus := .opened
  title : String
  body : String := ""
  requiresHumanAttention : Bool := false
  dedupKey : Option String := none
  acknowledgedAt : Option Time := none
  resolvedAt : Option Time := none
  deriving DecidableEq

namespace ObservationPolicy

def importantTypes : List ObservationType :=
  [.blocker, .humanActionRequired, .architectureViolation, .verificationFailure, .conflict]

def classify (observationType : ObservationType) : ObservationVisibility :=
  if observationType ∈ importantTypes then .important
  else if observationType ∈ [.warning, .scopeChange, .dependencyDiscovered, .implementationStatus] then .team
  else .internal

def severity (observationType : ObservationType) : ObservationSeverity :=
  if observationType ∈ importantTypes then .error
  else if observationType ∈ [.warning, .scopeChange, .dependencyDiscovered] then .warning
  else .info

def requiresHumanAttention (observationType : ObservationType) : Bool :=
  observationType ∈ [.humanActionRequired, .blocker]

end ObservationPolicy

end Brain
