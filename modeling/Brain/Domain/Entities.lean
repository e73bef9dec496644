import Brain.Domain.Python

namespace Brain

/-- A `uuid.UUID`. `uuid4` draws the next number of the process, so drawn ids
never repeat; `uuid5` is a function of the name it hashes. -/
inductive Uuid
  | v4 (n : Nat)
  | v5 (name : String)
  deriving DecidableEq, Inhabited

/-- The ids drawn before the counter reached `n`, and all hashed ids. -/
def Uuid.Below (n : Nat) : Uuid → Prop
  | .v4 k => k < n
  | .v5 _ => True

theorem Uuid.Below.mono {m n : Nat} {id : Uuid} (below : id.Below m) (le : m ≤ n) : id.Below n := by
  cases id with
  | v4 k => exact Nat.lt_of_lt_of_le below le
  | v5 name => trivial

theorem Uuid.Below.ne_fresh {n : Nat} {id : Uuid} (below : id.Below n) : id ≠ .v4 n := by
  rintro rfl
  exact Nat.lt_irrefl n below

theorem Uuid.fresh_below (n : Nat) : (Uuid.v4 n).Below (n + 1) := Nat.lt_succ_self n

/-- A text for `str(id)`, different for different ids. -/
def Uuid.text : Uuid → String
  | .v4 n => "uuid4-" ++ toString n
  | .v5 name => "uuid5-" ++ name

/-- The id that a text stands for, `none` where `uuid.UUID` raises. -/
def Uuid.read (text : String) : Option Uuid :=
  if "uuid5-".toList.isPrefixOf text.toList then some (.v5 (String.ofList (text.toList.drop 6)))
  else
    let id := Uuid.v4 (Nat.ofDigitChars 10 (text.toList.drop 6) 0)
    if id.text = text then some id else none

theorem Uuid.read_text (id : Uuid) : read id.text = some id := by
  cases id with
  | v4 n =>
    have digits : Nat.ofDigitChars 10 ((Uuid.v4 n).text.toList.drop 6) 0 = n := by
      simp [Uuid.text, Nat.toString_eq_repr, Nat.toList_repr, Nat.ofDigitChars_ten_toDigits]
    have other : "uuid5-".toList.isPrefixOf (Uuid.v4 n).text.toList = false := by simp [Uuid.text, List.isPrefixOf]
    rw [read, other, if_neg Bool.false_ne_true]
    simp only [digits, if_true]
  | v5 name => simp [read, Uuid.text]

theorem Uuid.text_injective {a b : Uuid} (same : a.text = b.text) : a = b := by
  have ids : some a = some b := by rw [← read_text a, same, read_text b]
  exact Option.some.inj ids

theorem Uuid.text_inj {a b : Uuid} : a.text = b.text ↔ a = b := ⟨text_injective, congrArg text⟩

abbrev ProjectId := Uuid
abbrev WorkItemId := Uuid
abbrev ActorId := Uuid
abbrev CommentId := Uuid
abbrev AttachmentId := Uuid
abbrev WorkItemRelationId := Uuid
abbrev DocumentId := Uuid
abbrev DocumentVersionId := Uuid
abbrev RepositoryId := Uuid

/-- A point in time in seconds. -/
abbrev Time := Nat

structure ExternalReference where
  provider : String
  externalId : String
  externalType : Option String := none
  url : Option String := none
  space : Option String := none
  deriving DecidableEq

/-- The test of every `find_by_external_ref`: without a type any type matches. -/
def ExternalReference.refersTo (ref : ExternalReference) (provider externalId : String)
    (externalType : Option String) : Bool :=
  ref.provider = provider && ref.externalId = externalId &&
    (externalType = none || ref.externalType = externalType)

/-- The reference the OpenProject services give to an entity they create. -/
def openProjectRef (externalId externalType : String) : ExternalReference :=
  { provider := "openproject", externalId, externalType := some externalType }

theorem openProjectRef_refersTo {x y externalType : String} :
    (openProjectRef x externalType).refersTo "openproject" y (some externalType) = true ↔ x = y := by
  unfold openProjectRef ExternalReference.refersTo
  simp

theorem openProjectRef_inj {x y externalType : String} :
    openProjectRef x externalType = openProjectRef y externalType ↔ x = y := by
  simp [openProjectRef]

inductive Priority
  | low | medium | high | urgent | critical
  deriving DecidableEq

inductive WorkItemType
  | epic | feature | story | task | bug | investigation | refactoring | verification
  | documentation | operations
  deriving DecidableEq

def WorkItemType.value : WorkItemType → String
  | .epic => "epic"
  | .feature => "feature"
  | .story => "story"
  | .task => "task"
  | .bug => "bug"
  | .investigation => "investigation"
  | .refactoring => "refactoring"
  | .verification => "verification"
  | .documentation => "documentation"
  | .operations => "operations"

inductive HumanWorkStatus
  | new | inProgress | blocked | done | cancelled
  deriving DecidableEq

def HumanWorkStatus.value : HumanWorkStatus → String
  | .new => "new"
  | .inProgress => "in_progress"
  | .blocked => "blocked"
  | .done => "done"
  | .cancelled => "cancelled"

inductive VerificationStatus
  | notVerified | passed | partially | failed | blocked
  deriving DecidableEq

structure Project where
  id : ProjectId
  name : String
  description : Option String := none
  parentId : Option ProjectId := none
  externalRefs : List ExternalReference := []
  deriving DecidableEq

inductive ActorType
  | human | agent | automation | system | ci
  deriving DecidableEq

structure Actor where
  id : ActorId
  actorType : ActorType
  displayName : String
  deriving DecidableEq

structure WorkItem where
  id : WorkItemId
  projectId : ProjectId
  type : WorkItemType := .task
  title : String
  description : String := ""
  priority : Option Priority := none
  parentId : Option WorkItemId := none
  assignee : Option ActorId := none
  externalRefs : List ExternalReference := []
  humanWorkStatus : HumanWorkStatus := .new
  verificationStatus : VerificationStatus := .notVerified
  deriving DecidableEq

inductive CommentKind
  | context | feedback
  deriving DecidableEq

structure Comment where
  id : CommentId
  workItemId : WorkItemId
  authorName : Option String := none
  text : String
  kind : CommentKind := .context
  externalRefs : List ExternalReference := []
  deriving DecidableEq

/-- `fileSize` holds any value: reconciliation copies the provider's value
without validating it. -/
structure Attachment where
  id : AttachmentId
  workItemId : WorkItemId
  fileName : String
  contentType : String := ""
  fileSize : PyValue := .none
  downloadUrl : Option String := none
  contentIngested : Bool := false
  externalRefs : List ExternalReference := []

inductive WorkItemRelationType
  | parentOf | blocks | relatesTo | precedes | follows
  deriving DecidableEq

structure WorkItemRelation where
  id : WorkItemRelationId
  sourceWorkItemId : WorkItemId
  targetWorkItemId : WorkItemId
  relationType : WorkItemRelationType
  externalRefs : List ExternalReference := []
  deriving DecidableEq

inductive SyncState
  | pending | synced | conflict | error
  deriving DecidableEq

structure IntegrationMapping where
  workItemId : WorkItemId
  provider : String
  externalId : String
  syncState : SyncState := .pending
  deriving DecidableEq

/-- The key `f"{work_item_id}:{provider}"` of the in-memory mapping table. -/
def IntegrationMapping.key (mapping : IntegrationMapping) : WorkItemId × String :=
  (mapping.workItemId, mapping.provider)

structure SyncConflict where
  workItemId : WorkItemId
  provider : String
  externalId : String
  providerField : String
  providerValue : String
  brainValue : String
  resolved : Bool := false
  deriving DecidableEq

inductive BootstrapStatus
  | connected | discovering | ingesting | buildingGraph | establishingBaseline | ready | liveSync
  | failed
  deriving DecidableEq

inductive BootstrapStage
  | discoverProjects | fetchWorkItems | resolveRelations | ingestComments | ingestAttachments
  | buildGraph | establishBaseline | complete
  deriving DecidableEq

structure ProviderBootstrapState where
  projectId : ProjectId
  provider : String
  status : BootstrapStatus := .connected
  stage : BootstrapStage := .discoverProjects
  lastPage : Nat := 0
  lastError : Option String := none
  completedAt : Option Time := none
  deriving DecidableEq

def ProviderBootstrapState.key (state : ProviderBootstrapState) : ProjectId × String :=
  (state.projectId, state.provider)

structure ProviderSyncWatermark where
  provider : String
  syncKey : String
  lastSyncedAt : Option Time := none
  lastExternalId : Option String := none
  bootstrapCompletedAt : Option Time := none
  deriving DecidableEq

def ProviderSyncWatermark.key (watermark : ProviderSyncWatermark) : String × String :=
  (watermark.provider, watermark.syncKey)

end Brain
