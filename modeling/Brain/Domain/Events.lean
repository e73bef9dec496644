import Brain.Domain.Documents
import Brain.Domain.Workflow
import Brain.Lib.Schema

namespace Brain

inductive EventType
  | projectCreated | repositoryRegistered | repositoryRevisionChanged | documentChanged
  | workItemCreated | workItemChanged | workItemAssigned | requirementChanged | executionRequested
  | executionStarted | executionCompleted | verificationRequested | verificationCompleted
  | pullRequestRequested | pullRequestCreated | pullRequestMerged | humanFeedbackReceived
  | knowledgeConflictDetected | observationCreated | observationAcknowledged | observationResolved
  | attachmentCreated | projectChanged
  deriving DecidableEq

def EventType.value : EventType → String
  | .projectCreated => "project_created"
  | .repositoryRegistered => "repository_registered"
  | .repositoryRevisionChanged => "repository_revision_changed"
  | .documentChanged => "document_changed"
  | .workItemCreated => "work_item_created"
  | .workItemChanged => "work_item_changed"
  | .workItemAssigned => "work_item_assigned"
  | .requirementChanged => "requirement_changed"
  | .executionRequested => "execution_requested"
  | .executionStarted => "execution_started"
  | .executionCompleted => "execution_completed"
  | .verificationRequested => "verification_requested"
  | .verificationCompleted => "verification_completed"
  | .pullRequestRequested => "pull_request_requested"
  | .pullRequestCreated => "pull_request_created"
  | .pullRequestMerged => "pull_request_merged"
  | .humanFeedbackReceived => "human_feedback_received"
  | .knowledgeConflictDetected => "knowledge_conflict_detected"
  | .observationCreated => "observation_created"
  | .observationAcknowledged => "observation_acknowledged"
  | .observationResolved => "observation_resolved"
  | .attachmentCreated => "attachment_created"
  | .projectChanged => "project_changed"

inductive FeedbackVerdict
  | approved | rejected | needsChanges | note
  deriving DecidableEq

/-- The payloads of the events the services here publish. `workItem` is the
dump of a `WorkItemCreated` or `WorkItemChanged` with the keys `changes`,
`snapshot` and `external_id` added, `providerFact` the untyped payload of a
work package without a canonical work item. -/
inductive EventPayload
  | workItem (workItem : WorkItem) (changes : List String) (snapshot : RawDict) (externalId : String)
  | workItemAssigned (workItemId : WorkItemId) (externalActorId : Option String)
  | providerFact (provider externalId subject status : String) (assignee : Option String)
      (changes : List String) (snapshot : RawDict)
  | humanFeedbackReceived (workItemId : Option WorkItemId) (author provider externalCommentId : String)
      (verdict : FeedbackVerdict) (feedback : String)
  | documentChanged (document : Document)

structure EventEnvelope where
  eventId : Uuid
  eventType : EventType
  projectId : Option ProjectId := none
  correlationId : Uuid
  source : String
  payload : EventPayload

/-- An `EventEnvelope` as it travels: its payload is a dictionary. -/
structure DictEnvelope where
  eventId : Uuid
  eventType : EventType
  projectId : Option ProjectId := none
  correlationId : Uuid
  causationId : Option Uuid := none
  source : String
  idempotencyKey : Option String := none
  payload : RawDict := []

def FeedbackVerdict.value : FeedbackVerdict → String
  | .approved => "approved"
  | .rejected => "rejected"
  | .needsChanges => "needs_changes"
  | .note => "note"

/-- What a field holds that is read by a validator of its own. -/
inductive Nested
  | uuid | datetime | project | repository | document | workItem | requirement | execution | executionResult
  | verificationResult
  deriving DecidableEq

/-- The annotation of a field. -/
inductive FieldType
  | str | int | bool | feedbackVerdict | externalReference
  | nested (content : Nested)
  | optional (type : FieldType)
  deriving DecidableEq

abbrev EventField := Schema.Field FieldType PyValue

/-- The part of pydantic the event classes rely on: `model_dump(mode="json")` of
what they hold, and `model_validate`, given by the dump of what it returns.
Reading undoes dumping. -/
structure Pydantic where
  dumpWorkItem : WorkItem → PyValue
  dumpDocument : Document → PyValue
  dumpDatetime : Time → PyValue
  load : Nested → PyValue → Option PyValue
  /-- The integer a float or a text stands for, if it stands for one. -/
  intOfFloat : String → Option Int
  intOfStr : String → Option Int
  /-- The truth value of what is not a `bool`. -/
  boolOf : PyValue → Option Bool
  load_uuid : ∀ id : Uuid, load .uuid (.str id.text) = some (.str id.text)
  load_datetime : ∀ time, load .datetime (dumpDatetime time) = some (dumpDatetime time)
  load_workItem : ∀ workItem, load .workItem (dumpWorkItem workItem) = some (dumpWorkItem workItem)
  load_document : ∀ document, load .document (dumpDocument document) = some (dumpDocument document)

/-! ### Dumps -/

def dumpOptional : Option String → PyValue
  | some s => .str s
  | none => .none

def dumpUuid (id : Uuid) : PyValue := .str id.text

def dumpOptionalUuid : Option Uuid → PyValue
  | some id => dumpUuid id
  | none => .none

/-- `ref.model_dump(mode="json")`. -/
def ExternalReference.dump (ref : ExternalReference) : PyValue :=
  .dict [("provider", .str ref.provider), ("external_id", .str ref.externalId),
    ("external_type", dumpOptional ref.externalType), ("url", dumpOptional ref.url),
    ("namespace", dumpOptional ref.space)]

/-! ### Validation -/

/-- A `str`, or a `str | None`. -/
def readText (nullable : Bool) : PyValue → Option PyValue
  | .str s => some (.str s)
  | .none => if nullable then some .none else none
  | _ => none

/-- The fields of `ExternalReference`, with whether they may be `None`. -/
def externalReferenceFields : List (Schema.Field Bool PyValue) :=
  [{ name := "provider", type := false }, { name := "external_id", type := false },
    { name := "external_type", type := true, default := some .none },
    { name := "url", type := true, default := some .none },
    { name := "namespace", type := true, default := some .none }]

namespace Pydantic
variable (pydantic : Pydantic)

def accepts : FieldType → PyValue → Option PyValue
  | .str, value => readText false value
  | .int, .int n => some (.int n)
  | .int, .bool b => some (.int (if b then 1 else 0))
  | .int, .float text => (pydantic.intOfFloat text).map .int
  | .int, .str s => (pydantic.intOfStr s).map .int
  | .int, _ => none
  | .bool, .bool b => some (.bool b)
  | .bool, value => (pydantic.boolOf value).map .bool
  | .feedbackVerdict, .str s =>
    if s ∈ [FeedbackVerdict.approved, .rejected, .needsChanges, .note].map FeedbackVerdict.value then some (.str s)
    else none
  | .feedbackVerdict, _ => none
  | .externalReference, .dict entries => (Schema.validate readText externalReferenceFields entries).map .dict
  | .externalReference, _ => none
  | .nested content, value => pydantic.load content value
  | .optional _, .none => some .none
  | .optional type, value => accepts type value

/-- Python's `==` on a field's value and what it was read to: an integral float
equals its integer. -/
def Alike (read value : PyValue) : Prop :=
  read = value ∨ read.eq value = true ∨ ∃ n text, read = .int n ∧ value = .float text ∧ pydantic.intOfFloat text = some n

end Pydantic

/-! ### The event classes -/

def required (name : String) (type : FieldType) : EventField := { name, type }

def defaulting (name : String) (type : FieldType) (value : PyValue) : EventField := { name, type, default := some value }

/-- `EVENT_TYPE_TO_MODEL`: every event type has a class, given by its fields.
`now` is the default of `assigned_at`. -/
def eventTypeToModel (now : PyValue) : EventType → List EventField
  | .projectCreated => [required "project" (.nested .project)]
  | .repositoryRegistered => [required "repository" (.nested .repository)]
  | .repositoryRevisionChanged =>
    [required "repository_id" (.nested .uuid), defaulting "old_revision" (.optional .str) .none,
      required "new_revision" .str]
  | .documentChanged => [required "document" (.nested .document)]
  | .workItemCreated | .workItemChanged => [required "work_item" (.nested .workItem)]
  | .workItemAssigned =>
    [required "work_item_id" (.nested .uuid), defaulting "actor_id" (.optional (.nested .uuid)) .none,
      defaulting "external_actor_id" (.optional .str) .none,
      defaulting "assigned_by" (.optional (.nested .uuid)) .none, defaulting "assigned_at" (.nested .datetime) now]
  | .requirementChanged => [required "requirement" (.nested .requirement)]
  | .executionRequested | .executionStarted => [required "execution" (.nested .execution)]
  | .executionCompleted =>
    [required "execution" (.nested .execution), defaulting "result" (.optional (.nested .executionResult)) .none]
  | .verificationRequested => [required "execution_id" (.nested .uuid), required "work_item_id" (.nested .uuid)]
  | .verificationCompleted => [required "verification" (.nested .verificationResult)]
  | .pullRequestRequested =>
    [required "project_id" (.nested .uuid), required "work_item_id" (.nested .uuid),
      required "repository_id" (.nested .uuid), required "base_revision" .str, required "head_revision" .str]
  | .pullRequestCreated =>
    [required "project_id" (.nested .uuid), required "work_item_id" (.nested .uuid),
      required "external_ref" .externalReference]
  | .pullRequestMerged =>
    [required "external_ref" .externalReference, defaulting "repository_id" (.optional (.nested .uuid)) .none]
  | .humanFeedbackReceived =>
    [defaulting "work_item_id" (.optional (.nested .uuid)) .none, defaulting "actor_id" (.optional (.nested .uuid)) .none,
      defaulting "external_actor_id" (.optional .str) .none, defaulting "author" .str (.str ""),
      defaulting "provider" .str (.str "openproject"), defaulting "external_comment_id" .str (.str ""),
      defaulting "verdict" .feedbackVerdict (.str "note"), defaulting "feedback" .str (.str "")]
  | .knowledgeConflictDetected =>
    [required "entity_id" (.nested .uuid), required "entity_type" .str, required "claim_a" .str,
      required "claim_b" .str, required "source_a" .str, required "source_b" .str]
  | .observationCreated =>
    [required "observation_id" (.nested .uuid), required "project_id" (.nested .uuid),
      required "observation_type" .str, required "title" .str, defaulting "body" .str (.str "")]
  | .observationAcknowledged | .observationResolved =>
    [required "observation_id" (.nested .uuid), required "project_id" (.nested .uuid)]
  | .attachmentCreated =>
    [required "external_id" .str, defaulting "file_name" .str (.str ""), defaulting "content_type" .str (.str ""),
      defaulting "file_size" (.optional .int) .none, defaulting "download_url" (.optional .str) .none,
      defaulting "work_item_id" (.optional .str) .none, defaulting "provider" .str (.str "openproject")]
  | .projectChanged =>
    [required "external_id" .str, defaulting "name" .str (.str ""), defaulting "identifier" .str (.str ""),
      defaulting "active" .bool (.bool true), defaulting "parent_id" (.optional .str) .none,
      defaulting "provider" .str (.str "openproject")]

/-- An instance of the class of `eventType`, by its dump. -/
structure CanonicalEvent where
  eventType : EventType
  fields : RawDict

def CanonicalEvent.toPayload (event : CanonicalEvent) : RawDict := event.fields

def eventToModel (pydantic : Pydantic) (now : PyValue) (envelope : DictEnvelope) : Option CanonicalEvent :=
  (Schema.validate pydantic.accepts (eventTypeToModel now envelope.eventType) envelope.payload).map fun fields =>
    { eventType := envelope.eventType, fields }

/-- `model_to_envelope`; `correlationId` and `eventId` are the ids it was given
or drew. -/
def modelToDictEnvelope (event : CanonicalEvent) (source : String) (projectId : Option ProjectId)
    (correlationId eventId : Uuid) : DictEnvelope :=
  { eventId, eventType := event.eventType, projectId, correlationId, source, payload := event.toPayload }

theorem eventTypeToModel_names (now : PyValue) (eventType : EventType) :
    ((eventTypeToModel now eventType).map Schema.Field.name).Nodup := by
  cases eventType <;> simp only [eventTypeToModel, List.map_cons, List.map_nil, required, defaulting] <;> decide

abbrev RequirementId := Uuid

inductive RequirementStatus
  | draft | proposed | approved | implemented | verified | superseded | rejected
  deriving DecidableEq

def RequirementStatus.value : RequirementStatus → String
  | .draft => "draft"
  | .proposed => "proposed"
  | .approved => "approved"
  | .implemented => "implemented"
  | .verified => "verified"
  | .superseded => "superseded"
  | .rejected => "rejected"

structure Requirement where
  id : RequirementId
  projectId : ProjectId
  key : Option String := none
  title : String
  description : String := ""
  status : RequirementStatus := .draft
  parentId : Option RequirementId := none
  deriving DecidableEq

/-- The objects pydantic builds from validated values. -/
structure Objects where
  uuid : PyValue → Uuid
  project : PyValue → Project
  repository : PyValue → Repository
  document : PyValue → Document
  workItem : PyValue → WorkItem
  requirement : PyValue → Requirement
  execution : PyValue → Execution

/-- The event classes that a handler asks for with `isinstance`. -/
inductive EventModel
  | projectCreated (project : Project)
  | repositoryRegistered (repository : Repository)
  | repositoryRevisionChanged (repositoryId : RepositoryId) (oldRevision : Option String) (newRevision : String)
  | documentChanged (document : Document)
  | workItemCreated (workItem : WorkItem)
  | workItemChanged (workItem : WorkItem)
  | requirementChanged (requirement : Requirement)
  | executionRequested (execution : Execution)
  | executionStarted (execution : Execution)
  | executionCompleted (execution : Execution)
  | other (eventType : EventType)

/-- A validated `str | None`. -/
def optionalText : PyValue → Option String
  | .str s => some s
  | _ => none

def CanonicalEvent.model (objects : Objects) (event : CanonicalEvent) : EventModel :=
  match event.eventType with
  | .projectCreated => .projectCreated (objects.project (pyGet event.fields "project"))
  | .repositoryRegistered => .repositoryRegistered (objects.repository (pyGet event.fields "repository"))
  | .repositoryRevisionChanged =>
    .repositoryRevisionChanged (objects.uuid (pyGet event.fields "repository_id"))
      (optionalText (pyGet event.fields "old_revision")) (pyGet event.fields "new_revision").text
  | .documentChanged => .documentChanged (objects.document (pyGet event.fields "document"))
  | .workItemCreated => .workItemCreated (objects.workItem (pyGet event.fields "work_item"))
  | .workItemChanged => .workItemChanged (objects.workItem (pyGet event.fields "work_item"))
  | .requirementChanged => .requirementChanged (objects.requirement (pyGet event.fields "requirement"))
  | .executionRequested => .executionRequested (objects.execution (pyGet event.fields "execution"))
  | .executionStarted => .executionStarted (objects.execution (pyGet event.fields "execution"))
  | .executionCompleted => .executionCompleted (objects.execution (pyGet event.fields "execution"))
  | eventType => .other eventType

/-- `event_to_model`, as the object the handlers look at. -/
def eventModel (pydantic : Pydantic) (objects : Objects) (now : PyValue) (envelope : DictEnvelope) : Option EventModel :=
  (eventToModel pydantic now envelope).map (CanonicalEvent.model objects)

end Brain
