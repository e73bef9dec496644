import Brain.Application.GraphProjection

namespace Brain

/-! ### Texts of members -/

/-- A `StrEnum`: members that their texts tell apart. -/
class StrEnum (α : Type) where
  members : List α
  value : α → String
  complete : ∀ a, a ∈ members
  distinct : (members.map value).Nodup

namespace StrEnum
variable {α : Type} [StrEnum α]

/-- `Enum(text)`, `none` where it raises. -/
def read (text : String) : Option α := members.find? fun a => value a = text

theorem read_value (a : α) : read (value a) = some a := by
  cases found : (read (value a) : Option α) with
  | none =>
    have missing := List.find?_eq_none.mp found a (complete a)
    simp at missing
  | some b =>
    have same : value b = value a := by simpa using List.find?_some found
    rw [List.inj_on_of_nodup_map distinct (complete b) (complete a) same]

theorem value_injective {a b : α} (same : value a = value b) : a = b :=
  List.inj_on_of_nodup_map distinct (complete a) (complete b) same

end StrEnum

instance : StrEnum WorkItemType where
  members := [.epic, .feature, .story, .task, .bug, .investigation, .refactoring, .verification, .documentation, .operations]
  value := WorkItemType.value
  complete a := by cases a <;> decide
  distinct := by decide

instance : StrEnum Priority where
  members := [.low, .medium, .high, .urgent, .critical]
  value
    | .low => "low"
    | .medium => "medium"
    | .high => "high"
    | .urgent => "urgent"
    | .critical => "critical"
  complete a := by cases a <;> decide
  distinct := by decide

instance : StrEnum HumanWorkStatus where
  members := [.new, .inProgress, .blocked, .done, .cancelled]
  value := HumanWorkStatus.value
  complete a := by cases a <;> decide
  distinct := by decide

instance : StrEnum ImplementationStatus where
  members := [.notStarted, .inProgress, .codeModified, .implemented, .implementedUnverified]
  value := ImplementationStatus.value
  complete a := by cases a <;> decide
  distinct := by decide

instance : StrEnum VerificationStatus where
  members := [.notVerified, .passed, .partially, .failed, .blocked]
  value
    | .notVerified => "not_verified"
    | .passed => "passed"
    | .partially => "partial"
    | .failed => "failed"
    | .blocked => "blocked"
  complete a := by cases a <;> decide
  distinct := by decide

inductive PullRequestStatus
  | notCreated | created | approved | merged | rejected
  deriving DecidableEq

instance : StrEnum PullRequestStatus where
  members := [.notCreated, .created, .approved, .merged, .rejected]
  value
    | .notCreated => "not_created"
    | .created => "created"
    | .approved => "approved"
    | .merged => "merged"
    | .rejected => "rejected"
  complete a := by cases a <;> decide
  distinct := by decide

inductive ProjectStatus
  | planned | active | paused | archived
  deriving DecidableEq

instance : StrEnum ProjectStatus where
  members := [.planned, .active, .paused, .archived]
  value
    | .planned => "planned"
    | .active => "active"
    | .paused => "paused"
    | .archived => "archived"
  complete a := by cases a <;> decide
  distinct := by decide

instance : StrEnum DocumentType where
  members := [.readme, .requirements, .architecture, .adr, .apiSpec, .general]
  value
    | .readme => "readme"
    | .requirements => "requirements"
    | .architecture => "architecture"
    | .adr => "adr"
    | .apiSpec => "api_spec"
    | .general => "general"
  complete a := by cases a <;> decide
  distinct := by decide

instance : StrEnum DocumentNodeType where
  members := [.section, .paragraph, .codeBlock, .table, .list, .frontMatter, .adrContext, .adrDecision, .adrAlternatives,
    .adrConsequences]
  value := DocumentNodeType.value
  complete a := by cases a <;> decide
  distinct := by decide

instance : StrEnum ExecutionStatus where
  members := [.requested, .started, .running, .completed, .failed, .cancelled, .blocked]
  value := ExecutionStatus.value
  complete a := by cases a <;> decide
  distinct := by decide

instance : StrEnum CommentKind where
  members := [.context, .feedback]
  value
    | .context => "context"
    | .feedback => "feedback"
  complete a := by cases a <;> decide
  distinct := by decide

instance : StrEnum WorkItemRelationType where
  members := [.parentOf, .blocks, .relatesTo, .precedes, .follows]
  value
    | .parentOf => "parent_of"
    | .blocks => "blocks"
    | .relatesTo => "relates_to"
    | .precedes => "precedes"
    | .follows => "follows"
  complete a := by cases a <;> decide
  distinct := by decide

/-! ### Entities with every field that is stored -/

structure ProjectRecord extends Project where
  status : ProjectStatus := .planned
  repositories : List RepositoryId := []
  deriving DecidableEq

structure AcceptanceCriterion where
  id : Uuid
  description : String
  satisfied : Bool := false
  deriving DecidableEq

structure Assignment where
  actorId : ActorId
  assignedAt : Time
  assignedBy : Option ActorId := none
  role : Option String := none
  deriving DecidableEq

structure WorkItemRecord extends WorkItem where
  assignment : Option Assignment := none
  acceptanceCriteria : List AcceptanceCriterion := []
  requirementRefs : List RequirementId := []
  implementationStatus : ImplementationStatus := .notStarted
  pullRequestStatus : PullRequestStatus := .notCreated
  deriving DecidableEq

/-- The reference is that of the source. -/
structure DocumentRecord extends Document where
  externalRef : Option ExternalReference := none
  externalRefs : List ExternalReference := []
  deriving DecidableEq

structure DocumentNodeRecord extends DocumentNode where
  codeRefs : List String := []
  requirementRefs : List RequirementId := []
  workItemRefs : List WorkItemId := []
  deriving DecidableEq

structure ExecutionRecord extends Execution where
  contextCapsuleId : Option Uuid := none
  startedAt : Time
  parentExecutionId : Option ExecutionId := none
  correlationId : Uuid
  deriving DecidableEq

structure CommentRecord extends Comment where
  authorId : Option ActorId := none
  createdAt : Time
  deriving DecidableEq

/-- An attachment whose size has its declared type. -/
structure AttachmentRecord where
  id : AttachmentId
  workItemId : WorkItemId
  fileName : String
  contentType : String := ""
  fileSize : Option Int := none
  downloadUrl : Option String := none
  contentIngested : Bool := false
  createdAt : Time
  externalRefs : List ExternalReference := []
  deriving DecidableEq

structure WorkItemRelationRecord extends WorkItemRelation where
  detectedAt : Time
  deriving DecidableEq

end Brain
