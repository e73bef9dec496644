import Brain.Domain.Entities

namespace Brain

def typeAliases : List (String × WorkItemType) :=
  [("epic", .epic), ("feature", .feature), ("story", .story), ("user story", .story),
    ("user_story", .story), ("task", .task), ("bug", .bug), ("defect", .bug),
    ("investigation", .investigation), ("refactoring", .refactoring),
    ("verification", .verification), ("documentation", .documentation),
    ("operations", .operations), ("milestone", .task), ("phase", .task)]

def statusAliases : List (String × HumanWorkStatus) :=
  [("new", .new), ("in specification", .inProgress), ("in progress", .inProgress),
    ("in development", .inProgress), ("in review", .inProgress), ("in test", .inProgress),
    ("blocked", .blocked), ("done", .done), ("closed", .done), ("rejected", .cancelled),
    ("cancelled", .cancelled), ("canceled", .cancelled)]

def priorityAliases : List (String × Priority) :=
  [("low", .low), ("normal", .medium), ("medium", .medium), ("high", .high), ("urgent", .urgent),
    ("immediate", .critical)]

/-- The lookup all mappings share: an empty name maps to nothing, others by
their stripped lower case. -/
def aliasOf {α : Type} (aliases : List (String × α)) (raw : String) : Option α :=
  if raw = "" then none else aliases.lookup (lower (strip raw))

def mapWorkItemType (raw : String) : WorkItemType := (aliasOf typeAliases raw).getD .task

def mapHumanWorkStatus (raw : String) : HumanWorkStatus := (aliasOf statusAliases raw).getD .new

def mapPriority (raw : String) : Option Priority := aliasOf priorityAliases raw

example : mapHumanWorkStatus " In Progress " = .inProgress := by decide

inductive SemanticChange
  | summaryChanged | descriptionChanged | assigneeChanged | stateChanged | priorityChanged
  | parentChanged
  deriving DecidableEq

def SemanticChange.value : SemanticChange → String
  | .summaryChanged => "summary_changed"
  | .descriptionChanged => "description_changed"
  | .assigneeChanged => "assignee_changed"
  | .stateChanged => "state_changed"
  | .priorityChanged => "priority_changed"
  | .parentChanged => "parent_changed"

theorem SemanticChange.value_injective : Function.Injective SemanticChange.value := by
  intro a b same
  cases a <;> cases b <;> first | rfl | exact absurd same (by decide)

structure OpenProjectWorkItemSnapshot where
  externalId : String
  summary : String := ""
  description : String := ""
  type : String := ""
  priority : String := ""
  state : String := ""
  closed : Bool := false
  projectId : Option String := none
  projectName : Option String := none
  assigneeId : Option String := none
  assigneeName : Option String := none
  parentId : Option Int := none
  attachments : List RawDict := []
  relations : List RawDict := []
  activitiesUrl : Option String := none
  createdAt : Option String := none
  updatedAt : Option String := none

def asDict : PyValue → RawDict
  | .dict entries => entries
  | _ => []

def optionalStr (value : PyValue) : Option String :=
  if value.isNone then none else some value.text

/-- The webhook action: `action` when it is a nonempty string, else the event
type under either of its older names. -/
def parseAction (body : RawDict) : String :=
  let fallback : String :=
    let eventType := (pyGet body "eventType").or (pyGet body "event_type")
    if eventType.truthy then eventType.text else ""
  match pyGet body "action" with
  | .str action => if action = "" then fallback else action
  | _ => fallback

def idFromHref (href : Option String) : Option Int :=
  match given href with
  | some href => parseInt (String.ofList (lastSegment '/' (stripRight (· = '/') href.toList)))
  | none => none

/-- The loop turn of `_normalize_attachments` for one element. -/
def normalizeAttachment : PyValue → Option RawDict
  | .dict item => some
    [("id", pyGet item "id"), ("file_name", pyGet item "fileName"),
      ("content_type", pyGet item "contentType"), ("file_size", pyGet item "fileSize"),
      ("download_url", pyGet (asDict (pyGet (asDict (pyGet item "_links")) "downloadLocation")) "href")]
  | _ => none

def normalizeAttachments : PyValue → List RawDict
  | .list elements => elements.filterMap normalizeAttachment
  | _ => []

/-- The loop turn of `_normalize_relations` for one element. -/
def normalizeRelation : PyValue → Option RawDict
  | .dict item => some
    [("id", pyGet item "id"), ("source_id", pyGet item "from"), ("target_id", pyGet item "to"),
      ("relation_type", pyGet item "type")]
  | _ => none

def normalizeRelations : PyValue → List RawDict
  | .list elements => elements.filterMap normalizeRelation
  | _ => []

/-- `value or []`. -/
def orEmptyList (value : PyValue) : PyValue := value.or (.list [])

/-- `str(value or "")`. -/
def textOrEmpty (value : PyValue) : String := if value.truthy then value.text else ""

def parseWorkItem (body : RawDict) : Option OpenProjectWorkItemSnapshot :=
  match pyGet body "work_package" with
  | .dict wp =>
    let embedded := asDict (pyGet wp "_embedded")
    let links := asDict (pyGet wp "_links")
    let externalId := textOrEmpty ((pyGet wp "id").or (pyGet wp "_id"))
    if externalId = "" then none
    else
      let type := asDict (pyGet embedded "type")
      let priority := asDict (pyGet embedded "priority")
      let status := asDict (pyGet embedded "status")
      let project := asDict (pyGet embedded "project")
      -- an absent assignee and an empty one read alike: every key is missing
      let assignee := asDict (pyGet embedded "assignee")
      let descriptionRaw := match pyGet wp "description" with
        | .dict description => textOrEmpty (pyGet description "raw")
        | _ => ""
      let attachments := asDict (pyGet embedded "attachments")
      let relations := asDict (pyGet embedded "relations")
      some
        { externalId
          summary := textOrEmpty (pyGet wp "subject")
          description := descriptionRaw
          type := textOrEmpty (pyGet type "name")
          priority := textOrEmpty (pyGet priority "name")
          state := textOrEmpty (pyGet status "name")
          closed := (pyGet status "isClosed").truthy
          projectId := optionalStr (pyGet project "id")
          projectName := optionalStr (pyGet project "name")
          assigneeId := optionalStr (pyGet assignee "id")
          assigneeName := optionalStr (pyGet assignee "name")
          parentId := idFromHref (optionalStr (pyGet (asDict (pyGet links "parent")) "href"))
          attachments := normalizeAttachments
            (orEmptyList (pyGet (asDict (pyGet attachments "_embedded")) "elements"))
          relations := normalizeRelations
            (orEmptyList (pyGet (asDict (pyGet relations "_embedded")) "elements"))
          activitiesUrl := optionalStr (pyGet (asDict (pyGet links "activities")) "href")
          createdAt := optionalStr (pyGet wp "createdAt")
          updatedAt := optionalStr (pyGet wp "updatedAt") }
  | _ => none

def diffSnapshots (previous : Option OpenProjectWorkItemSnapshot)
    (current : OpenProjectWorkItemSnapshot) : List SemanticChange :=
  match previous with
  | none => []
  | some previous =>
    (if previous.summary ≠ current.summary then [.summaryChanged] else []) ++
    (if previous.description ≠ current.description then [.descriptionChanged] else []) ++
    (if previous.assigneeId ≠ current.assigneeId then [.assigneeChanged] else []) ++
    (if previous.state ≠ current.state then [.stateChanged] else []) ++
    (if previous.priority ≠ current.priority then [.priorityChanged] else []) ++
    (if previous.parentId ≠ current.parentId then [.parentChanged] else [])

@[simp] theorem diffSnapshots_none (current : OpenProjectWorkItemSnapshot) :
    diffSnapshots none current = [] := rfl

@[simp] theorem diffSnapshots_self (s : OpenProjectWorkItemSnapshot) : diffSnapshots (some s) s = [] := by
  simp [diffSnapshots]

theorem mem_diffSnapshots_assignee {previous : Option OpenProjectWorkItemSnapshot}
    {current : OpenProjectWorkItemSnapshot} :
    .assigneeChanged ∈ diffSnapshots previous current ↔
      ∃ old, previous = some old ∧ old.assigneeId ≠ current.assigneeId := by
  cases previous with
  | none => simp
  | some old => simp [diffSnapshots]

theorem parseWorkItem_isSome {raw : PyValue} :
    (parseWorkItem [("work_package", raw)]).isSome ↔
      ∃ wp, raw = .dict wp ∧ textOrEmpty ((pyGet wp "id").or (pyGet wp "_id")) ≠ "" := by
  cases raw with
  | dict wp =>
    have body : pyGet [("work_package", .dict wp)] "work_package" = .dict wp := rfl
    unfold parseWorkItem
    rw [body]
    by_cases missing : textOrEmpty ((pyGet wp "id").or (pyGet wp "_id")) = ""
    · simp [missing]
    · simp [missing]
  | _ => simp [parseWorkItem, pyGet]

end Brain
