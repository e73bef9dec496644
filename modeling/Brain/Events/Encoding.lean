import Brain.Domain.Events

namespace Brain

/-- The dictionary a typed payload of the ingestion services is sent as. -/
def EventPayload.dict (pydantic : Pydantic) (assignedAt : Time) : EventPayload → RawDict
  | .workItem item changes snapshot externalId =>
    [("work_item", pydantic.dumpWorkItem item), ("changes", .list (changes.map .str)), ("snapshot", .dict snapshot),
      ("external_id", .str externalId)]
  | .workItemAssigned workItemId externalActorId =>
    [("work_item_id", dumpUuid workItemId), ("actor_id", .none), ("external_actor_id", dumpOptional externalActorId),
      ("assigned_by", .none), ("assigned_at", pydantic.dumpDatetime assignedAt)]
  | .providerFact provider externalId subject status assignee changes snapshot =>
    [("provider", .str provider), ("external_id", .str externalId), ("subject", .str subject), ("status", .str status),
      ("assignee", dumpOptional assignee), ("changes", .list (changes.map .str)), ("snapshot", .dict snapshot)]
  | .humanFeedbackReceived workItemId author provider externalCommentId verdict feedback =>
    [("work_item_id", dumpOptionalUuid workItemId), ("actor_id", .none), ("external_actor_id", .none),
      ("author", .str author), ("provider", .str provider), ("external_comment_id", .str externalCommentId),
      ("verdict", .str verdict.value), ("feedback", .str feedback)]
  | .documentChanged document => [("document", pydantic.dumpDocument document)]

/-- What the services publish, one constructor for each place that builds an
envelope, with all that the payload depends on. -/
inductive Publication
  /-- `_handle_project` of the OpenProject webhook. -/
  | handleProject (externalId name identifier : String) (active : Bool) (parentId : Option String)
  /-- `_handle_attachment` of the OpenProject webhook. -/
  | handleAttachment (externalId fileName contentType : String) (fileSize downloadUrl : PyValue)
      (workItemId : Option String)
  | gitlabWebhook (ref : ExternalReference)
  /-- `DocumentIngestionService.ingest` and the documentation catalog sync. -/
  | documentChanged (document : Document)
  /-- `ObservationService._emit`, for a created, an acknowledged and a resolved observation. -/
  | observationCreated (observationId : Uuid) (projectId : ProjectId) (observationType title body : String)
  | observationAcknowledged (observationId : Uuid) (projectId : ProjectId)
  | observationResolved (observationId : Uuid) (projectId : ProjectId)
  /-- `WorkManagementSyncService.publish_work_item`. -/
  | publishWorkItem (workItem : WorkItem)
  /-- `emit_changed` of the XWiki sync. -/
  | emitChanged (externalId : String) (space since : Option String)
  /-- `OpenProjectIngestionService._build_work_item_envelope`. -/
  | buildWorkItemEnvelope (created : Bool) (workItem : WorkItem) (changes : List String) (snapshot : RawDict)
      (externalId : String)
  /-- The fallback of `ingest_work_item_snapshot` without a canonical work item. -/
  | providerFact (created : Bool) (provider externalId subject status : String) (assignee : Option String)
      (changes : List String) (snapshot : RawDict)
  | publishAssignment (workItemId : WorkItemId) (externalActorId : Option String) (assignedAt : Time)
  /-- `ingest_comment`, and `HumanFeedbackService._emit`. -/
  | humanFeedback (workItemId : Option WorkItemId) (author provider externalCommentId : String)
      (verdict : FeedbackVerdict) (feedback : String)
  /-- The three envelopes of `PullRequestService`. -/
  | createPullRequest (ref : ExternalReference) (executionId : ExecutionId) (workItemId : WorkItemId)
  | handleMerge (ref : ExternalReference)
  | applyMergeConsequences (ref : ExternalReference)

namespace Publication

def eventType : Publication → EventType
  | handleProject .. => .projectChanged
  | handleAttachment .. => .attachmentCreated
  | gitlabWebhook .. => .pullRequestMerged
  | documentChanged .. | emitChanged .. => .documentChanged
  | observationCreated .. => .observationCreated
  | observationAcknowledged .. => .observationAcknowledged
  | observationResolved .. => .observationResolved
  | publishWorkItem .. => .workItemChanged
  | buildWorkItemEnvelope created .. | providerFact created .. => if created then .workItemCreated else .workItemChanged
  | publishAssignment .. => .workItemAssigned
  | humanFeedback .. => .humanFeedbackReceived
  | createPullRequest .. => .pullRequestCreated
  | handleMerge .. => .pullRequestMerged
  | applyMergeConsequences .. => .repositoryRevisionChanged

def payload (pydantic : Pydantic) : Publication → RawDict
  | handleProject externalId name identifier active parentId =>
    [("provider", .str "openproject"), ("external_id", .str externalId), ("name", .str name),
      ("identifier", .str identifier), ("active", .bool active), ("parent_id", dumpOptional parentId)]
  | handleAttachment externalId fileName contentType fileSize downloadUrl workItemId =>
    [("provider", .str "openproject"), ("external_id", .str externalId), ("file_name", .str fileName),
      ("content_type", .str contentType), ("file_size", fileSize), ("download_url", downloadUrl),
      ("work_item_id", dumpOptional workItemId)]
  | gitlabWebhook ref => [("external_ref", ref.dump), ("repository_id", .none)]
  | documentChanged document => EventPayload.dict pydantic 0 (.documentChanged document)
  | observationCreated observationId projectId observationType title body =>
    [("observation_id", dumpUuid observationId), ("project_id", dumpUuid projectId),
      ("observation_type", .str observationType), ("title", .str title), ("body", .str body)]
  | observationAcknowledged observationId projectId | observationResolved observationId projectId =>
    [("observation_id", dumpUuid observationId), ("project_id", dumpUuid projectId)]
  | publishWorkItem workItem => [("work_item", pydantic.dumpWorkItem workItem)]
  | emitChanged externalId space since =>
    [("provider", .str "xwiki"), ("external_id", .str externalId), ("namespace", dumpOptional space),
      ("since", dumpOptional since)]
  | buildWorkItemEnvelope _ workItem changes snapshot externalId =>
    EventPayload.dict pydantic 0 (.workItem workItem changes snapshot externalId)
  | providerFact _ provider externalId subject status assignee changes snapshot =>
    EventPayload.dict pydantic 0 (.providerFact provider externalId subject status assignee changes snapshot)
  | publishAssignment workItemId externalActorId assignedAt =>
    EventPayload.dict pydantic assignedAt (.workItemAssigned workItemId externalActorId)
  | humanFeedback workItemId author provider externalCommentId verdict feedback =>
    EventPayload.dict pydantic 0
      (.humanFeedbackReceived workItemId author provider externalCommentId verdict feedback)
  | createPullRequest ref executionId workItemId =>
    [("external_id", .str ref.externalId), ("provider", .str ref.provider), ("execution_id", dumpUuid executionId),
      ("work_item_id", dumpUuid workItemId)]
  | handleMerge ref =>
    [("provider", .str ref.provider), ("external_id", .str ref.externalId),
      ("namespace", .str (ref.space.getD ""))]
  | applyMergeConsequences ref => [("external_ref", ref.dump)]

end Publication

variable (pydantic : Pydantic) (now : PyValue)

/-- The envelope a publication is sent in; `carrier` has its ids and its source. -/
def Publication.envelope (p : Publication) (carrier : DictEnvelope) : DictEnvelope :=
  { carrier with eventType := p.eventType, payload := p.payload pydantic }

/-- The decoder returns a model of the registered class, and encoding the model
again gives the fields of that class the values they had. -/
def Agrees (envelope : DictEnvelope) : Prop :=
  ∃ model, eventToModel pydantic now envelope = some model ∧ model.eventType = envelope.eventType ∧
    ∀ field ∈ eventTypeToModel now envelope.eventType, ∃ value value',
      envelope.payload.lookup field.name = some value ∧
      (modelToDictEnvelope model envelope.source envelope.projectId envelope.correlationId
        envelope.eventId).payload.lookup field.name = some value' ∧ pydantic.Alike value' value

/-- What pydantic takes for an `int | None` without changing it. -/
def FileSizeFits : PyValue → Prop
  | .none | .bool _ | .int _ => True
  | .float text => (pydantic.intOfFloat text).isSome = true
  | _ => False

/-- The publications whose payload has the shape of its class. -/
def Publication.Fits : Publication → Prop
  | handleAttachment _ _ _ fileSize downloadUrl _ =>
    FileSizeFits pydantic fileSize ∧ (downloadUrl = .none ∨ ∃ s, downloadUrl = .str s)
  | emitChanged .. | providerFact .. | createPullRequest .. | handleMerge .. | applyMergeConsequences .. => False
  | _ => True

variable {pydantic now}

/-- A field whose value is read, to one like it. -/
def FieldAgrees (pydantic : Pydantic) (payload : RawDict) (field : EventField) : Prop :=
  ∃ value value', payload.lookup field.name = some value ∧ pydantic.accepts field.type value = some value' ∧
    pydantic.Alike value' value

def AllAgree (pydantic : Pydantic) (payload : RawDict) (fields : List EventField) : Prop :=
  ∀ field ∈ fields, FieldAgrees pydantic payload field

theorem agrees_iff_fields (envelope : DictEnvelope) : Agrees pydantic now envelope ↔
    AllAgree pydantic envelope.payload (eventTypeToModel now envelope.eventType) := by
  have fields : _ ↔ AllAgree pydantic envelope.payload (eventTypeToModel now envelope.eventType) :=
    Schema.reads_alike_iff pydantic.Alike (eventTypeToModel_names now envelope.eventType)
  rw [← fields]
  constructor
  · rintro ⟨model, decoded, _, all⟩
    obtain ⟨fields, valid, rfl⟩ := Option.map_eq_some_iff.mp decoded
    exact ⟨fields, valid, all⟩
  · rintro ⟨fields, valid, all⟩
    exact ⟨⟨envelope.eventType, fields⟩, Option.map_eq_some_iff.mpr ⟨fields, valid, rfl⟩, rfl, all⟩

section Fields
variable {payload : RawDict} {name : String} {type : FieldType} {default : Option PyValue}

theorem fieldAgrees_same {value : PyValue} (found : payload.lookup name = some value)
    (accepted : pydantic.accepts type value = some value) : FieldAgrees pydantic payload ⟨name, type, default⟩ :=
  ⟨value, value, found, accepted, Or.inl rfl⟩

theorem not_fieldAgrees_missing (missing : payload.lookup name = none) :
    ¬ FieldAgrees pydantic payload ⟨name, type, default⟩ := by
  rintro ⟨value, value', found, _⟩
  rw [missing] at found
  cases found

theorem accepts_uuid (id : Uuid) : pydantic.accepts (.nested .uuid) (dumpUuid id) = some (dumpUuid id) :=
  pydantic.load_uuid id

theorem accepts_optionalUuid (id : Option Uuid) :
    pydantic.accepts (.optional (.nested .uuid)) (dumpOptionalUuid id) = some (dumpOptionalUuid id) := by
  cases id with
  | none => rfl
  | some id => exact pydantic.load_uuid id

theorem accepts_optionalStr (s : Option String) :
    pydantic.accepts (.optional .str) (dumpOptional s) = some (dumpOptional s) := by
  cases s <;> rfl

theorem accepts_verdict (verdict : FeedbackVerdict) :
    pydantic.accepts .feedbackVerdict (.str verdict.value) = some (.str verdict.value) := by
  cases verdict <;> exact if_pos (by decide)

theorem accepts_externalReference (ref : ExternalReference) :
    pydantic.accepts .externalReference ref.dump = some ref.dump := by
  obtain ⟨provider, externalId, externalType, url, space⟩ := ref
  cases externalType <;> cases url <;> cases space <;> rfl

end Fields

namespace AllAgree
variable {payload : RawDict} {name : String} {type : FieldType} {default : Option PyValue} {fields : List EventField}

theorem nil : AllAgree pydantic payload [] := List.forall_mem_nil _

theorem same {value : PyValue} (found : payload.lookup name = some value)
    (accepted : pydantic.accepts type value = some value) (rest : AllAgree pydantic payload fields) :
    AllAgree pydantic payload (⟨name, type, default⟩ :: fields) :=
  List.forall_mem_cons.mpr ⟨fieldAgrees_same found accepted, rest⟩

theorem missing (absent : payload.lookup name = none) :
    ¬ AllAgree pydantic payload (⟨name, type, default⟩ :: fields) :=
  fun all => not_fieldAgrees_missing absent (List.forall_mem_cons.mp all).1

end AllAgree

theorem fileSize_agrees_iff {fileSize : PyValue} :
    (∃ read, pydantic.accepts (.optional .int) fileSize = some read ∧ pydantic.Alike read fileSize) ↔
      FileSizeFits pydantic fileSize := by
  cases fileSize with
  | none => exact ⟨fun _ => trivial, fun _ => ⟨.none, rfl, Or.inl rfl⟩⟩
  | int n => exact ⟨fun _ => trivial, fun _ => ⟨.int n, rfl, Or.inl rfl⟩⟩
  | bool b =>
    refine ⟨fun _ => trivial, fun _ => ⟨.int (if b then 1 else 0), rfl, Or.inr (Or.inl ?_)⟩⟩
    cases b <;> rfl
  | float text =>
    constructor
    · rintro ⟨read, accepted, _⟩
      obtain ⟨n, stands, _⟩ := Option.map_eq_some_iff.mp accepted
      exact Option.isSome_iff_exists.mpr ⟨n, stands⟩
    · intro stands
      obtain ⟨n, stands⟩ := Option.isSome_iff_exists.mp stands
      refine ⟨.int n, Option.map_eq_some_iff.mpr ⟨n, stands, rfl⟩, Or.inr (Or.inr ⟨n, text, rfl, rfl, stands⟩)⟩
  | str s =>
    refine ⟨?_, False.elim⟩
    rintro ⟨read, accepted, alike⟩
    obtain ⟨n, _, rfl⟩ := Option.map_eq_some_iff.mp accepted
    rcases alike with same | equal | ⟨_, _, _, float, _⟩
    · cases same
    · cases equal
    · cases float
  | list items =>
    refine ⟨?_, False.elim⟩
    rintro ⟨read, accepted, _⟩
    cases accepted
  | dict entries =>
    refine ⟨?_, False.elim⟩
    rintro ⟨read, accepted, _⟩
    cases accepted

theorem downloadUrl_agrees_iff {downloadUrl : PyValue} :
    (∃ read, pydantic.accepts (.optional .str) downloadUrl = some read ∧ pydantic.Alike read downloadUrl) ↔
      (downloadUrl = .none ∨ ∃ s, downloadUrl = .str s) := by
  cases downloadUrl with
  | none => exact ⟨fun _ => Or.inl rfl, fun _ => ⟨.none, rfl, Or.inl rfl⟩⟩
  | str s => exact ⟨fun _ => Or.inr ⟨s, rfl⟩, fun _ => ⟨.str s, rfl, Or.inl rfl⟩⟩
  | _ =>
    constructor
    · rintro ⟨read, accepted, _⟩
      cases accepted
    · rintro (same | ⟨s, same⟩) <;> cases same

theorem handleAttachment_agrees_iff (externalId fileName contentType : String) (fileSize downloadUrl : PyValue)
    (workItemId : Option String) :
    AllAgree pydantic
        ((Publication.handleAttachment externalId fileName contentType fileSize downloadUrl workItemId).payload pydantic)
        (eventTypeToModel now .attachmentCreated) ↔
      FileSizeFits pydantic fileSize ∧ (downloadUrl = .none ∨ ∃ s, downloadUrl = .str s) := by
  rw [← fileSize_agrees_iff, ← downloadUrl_agrees_iff]
  constructor
  · intro all
    obtain ⟨value, read, found, accepted, alike⟩ := all (defaulting "file_size" (.optional .int) .none) (by simp [eventTypeToModel])
    obtain ⟨value', read', found', accepted', alike'⟩ :=
      all (defaulting "download_url" (.optional .str) .none) (by simp [eventTypeToModel])
    cases found
    cases found'
    exact ⟨⟨read, accepted, alike⟩, ⟨read', accepted', alike'⟩⟩
  · rintro ⟨⟨read, accepted, alike⟩, ⟨read', accepted', alike'⟩⟩
    refine AllAgree.same rfl rfl (.same rfl rfl (.same rfl rfl ?_))
    refine List.forall_mem_cons.mpr ⟨⟨fileSize, read, rfl, accepted, alike⟩, ?_⟩
    refine List.forall_mem_cons.mpr ⟨⟨downloadUrl, read', rfl, accepted', alike'⟩, ?_⟩
    exact AllAgree.same rfl (accepts_optionalStr _) (.same rfl rfl .nil)

/-- The payloads the services publish decode to what they were exactly where
their keys are those of the registered class, and the attachment's raw values
are of its types. -/
theorem publications_agree_iff (pydantic : Pydantic) (now : PyValue) (p : Publication) (carrier : DictEnvelope) :
    Agrees pydantic now (p.envelope pydantic carrier) ↔ p.Fits pydantic := by
  rw [agrees_iff_fields]
  cases p with
  | handleAttachment externalId fileName contentType fileSize downloadUrl workItemId =>
    exact handleAttachment_agrees_iff ..
  | handleProject externalId name identifier active parentId =>
    refine ⟨fun _ => trivial, fun _ => ?_⟩
    exact .same rfl rfl (.same rfl rfl (.same rfl rfl (.same rfl rfl (.same rfl (accepts_optionalStr _)
      (.same rfl rfl .nil)))))
  | gitlabWebhook ref =>
    refine ⟨fun _ => trivial, fun _ => ?_⟩
    exact .same rfl (accepts_externalReference ref) (.same rfl rfl .nil)
  | documentChanged document =>
    refine ⟨fun _ => trivial, fun _ => ?_⟩
    exact .same rfl (pydantic.load_document document) .nil
  | observationCreated observationId projectId observationType title body =>
    refine ⟨fun _ => trivial, fun _ => ?_⟩
    exact .same rfl (accepts_uuid _) (.same rfl (accepts_uuid _) (.same rfl rfl (.same rfl rfl (.same rfl rfl .nil))))
  | observationAcknowledged observationId projectId | observationResolved observationId projectId =>
    refine ⟨fun _ => trivial, fun _ => ?_⟩
    exact .same rfl (accepts_uuid _) (.same rfl (accepts_uuid _) .nil)
  | publishWorkItem workItem =>
    refine ⟨fun _ => trivial, fun _ => ?_⟩
    exact .same rfl (pydantic.load_workItem workItem) .nil
  | buildWorkItemEnvelope created workItem changes snapshot externalId =>
    refine ⟨fun _ => trivial, fun _ => ?_⟩
    cases created <;> exact .same rfl (pydantic.load_workItem workItem) .nil
  | publishAssignment workItemId externalActorId assignedAt =>
    refine ⟨fun _ => trivial, fun _ => ?_⟩
    exact .same rfl (accepts_uuid _) (.same rfl rfl (.same rfl (accepts_optionalStr _) (.same rfl rfl
      (.same rfl (pydantic.load_datetime assignedAt) .nil))))
  | humanFeedback workItemId author provider externalCommentId verdict feedback =>
    refine ⟨fun _ => trivial, fun _ => ?_⟩
    exact .same rfl (accepts_optionalUuid _) (.same rfl rfl (.same rfl rfl (.same rfl rfl (.same rfl rfl
      (.same rfl rfl (.same rfl (accepts_verdict verdict) (.same rfl rfl .nil)))))))
  -- The payloads built by hand lack a required field of their class.
  | emitChanged externalId space since => exact ⟨fun all => AllAgree.missing rfl all, False.elim⟩
  | providerFact created provider externalId subject status assignee changes snapshot =>
    cases created <;> exact ⟨fun all => AllAgree.missing rfl all, False.elim⟩
  | createPullRequest ref executionId workItemId => exact ⟨fun all => AllAgree.missing rfl all, False.elim⟩
  | handleMerge ref => exact ⟨fun all => AllAgree.missing rfl all, False.elim⟩
  | applyMergeConsequences ref => exact ⟨fun all => AllAgree.missing rfl all, False.elim⟩

theorem eventToModel_missing {envelope : DictEnvelope} {name : String} {type : FieldType} {fields : List EventField}
    (first : eventTypeToModel now envelope.eventType = ⟨name, type, none⟩ :: fields)
    (absent : envelope.payload.lookup name = none) : eventToModel pydantic now envelope = none := by
  unfold eventToModel
  rw [first, Schema.validate_eq_none (List.mem_cons_self ..) (by rw [Schema.read, absent]), Option.map_none]

theorem handleMerge_undecoded (ref : ExternalReference) (carrier : DictEnvelope) :
    eventToModel pydantic now ((Publication.handleMerge ref).envelope pydantic carrier) = none :=
  eventToModel_missing rfl rfl

def Pydantic.ofIds : Pydantic where
  dumpWorkItem workItem := .dict [("id", dumpUuid workItem.id)]
  dumpDocument document := .dict [("id", dumpUuid document.id)]
  dumpDatetime time := .int time
  load _ value := some value
  intOfFloat _ := none
  intOfStr := parseInt
  boolOf _ := none
  load_uuid _ := rfl
  load_datetime _ := rfl
  load_workItem _ := rfl
  load_document _ := rfl

def someCarrier : DictEnvelope :=
  { eventId := .v4 1, eventType := .pullRequestMerged, correlationId := .v4 2, source := "pull_request_service" }

/-- The merge of a GitLab merge request, as `handle_merge` publishes it. -/
theorem merge_event_undecoded :
    eventToModel Pydantic.ofIds .none ((Publication.handleMerge { provider := "gitlab", externalId := "7" }).envelope
      Pydantic.ofIds someCarrier) = none ∧
    ¬ Agrees Pydantic.ofIds .none ((Publication.handleMerge { provider := "gitlab", externalId := "7" }).envelope
      Pydantic.ofIds someCarrier) := by
  refine ⟨handleMerge_undecoded _ _, ?_⟩
  rintro ⟨model, decoded, _⟩
  rw [handleMerge_undecoded] at decoded
  cases decoded

end Brain
