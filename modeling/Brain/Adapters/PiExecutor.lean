import Brain.Adapters.Ports

namespace Brain

/-- `model_dump(mode="json")`. -/
def ExecutionPermissions.modelDump (permissions : ExecutionPermissions) : RawDict :=
  [("repository_read", .bool permissions.repositoryRead), ("repository_write", .bool permissions.repositoryWrite),
    ("shell", .bool permissions.shell), ("network", .bool permissions.network), ("git_commit", .bool permissions.gitCommit),
    ("git_push", .bool permissions.gitPush), ("create_pull_request", .bool permissions.createPullRequest),
    ("merge_pull_request", .bool permissions.mergePullRequest), ("run_containers", .bool permissions.runContainers),
    ("access_secrets", .bool permissions.accessSecrets), ("deploy", .bool permissions.deploy)]

/-- The request with all fields that are sent to Pi. -/
structure PiRequest extends WorkspaceRequest where
  contextCapsuleId : Option Uuid := none
  permissions : ExecutionPermissions := {}

/-- The result with all fields that are read from Pi. -/
structure PiResult extends ExecutorResult where
  createdFiles : List String := []
  deletedFiles : List String := []
  commandsExecuted : List String := []
  testsExecuted : List String := []
  diff : Option String := none
  observations : List String := []
  deriving DecidableEq

/-- `ExecutionStatus(value)`, `none` where it raises `ValueError`. -/
def ExecutionStatus.ofValue (value : String) : Option ExecutionStatus :=
  [ExecutionStatus.requested, .started, .running, .completed, .failed, .cancelled, .blocked].find? (·.value = value)

/-- `type(value).__name__`. -/
def PyValue.typeName : PyValue → String
  | none => "NoneType"
  | bool _ => "bool"
  | int _ => "int"
  | float _ => "float"
  | str _ => "str"
  | list _ => "list"
  | dict _ => "dict"

/-- A Pi process: how its `round_trip` answers a payload. -/
structure PiExecutor where
  roundTrip : RawDict → Except PyException RawDict

namespace PiExecutor

def requestToPayload (request : PiRequest) : RawDict :=
  let optional := fun text : Option String => text.elim PyValue.none PyValue.str
  [("execution_id", .str request.executionId.text), ("workflow_id", .str request.workflowId.text),
    ("work_item_id", .str request.workItemId.text), ("repository_ref", .str request.repositoryRef),
    ("base_revision", .str request.baseRevision), ("base_branch", optional request.baseBranch),
    ("working_branch", optional request.workingBranch), ("worktree_path", optional request.worktreePath),
    ("workspace_path", optional request.workspacePath),
    ("context_capsule_id", optional (request.contextCapsuleId.map Uuid.text)),
    ("permissions", .dict request.permissions.modelDump),
    ("tools", .list (["brain_get_task", "brain_get_symbol_context", "brain_find_related_files", "brain_find_related_tests",
      "brain_get_requirement", "brain_get_architecture_constraints", "brain_search_project_knowledge",
      "brain_request_more_context"].map .str))]

/-- `_list`. -/
def textList : PyValue → List String
  | .list items => items.map PyValue.text
  | _ => []

/-- `_status_from`: a text that is no status counts as completed, and what is no
text has no `lower`. -/
def statusFrom : PyValue → Except PyException ExecutionStatus
  | .str value => .ok ((ExecutionStatus.ofValue (lower value)).getD .completed)
  | value => .error ⟨"AttributeError", "'" ++ value.typeName ++ "' object has no attribute 'lower'"⟩

/-- The validation of `diff: str | None`. -/
def diffFrom : PyValue → Except PyException (Option String)
  | .none => .ok none
  | .str diff => .ok (some diff)
  | _ => .error ⟨"ValidationError", "diff"⟩

def resultFromPayload (executionId : ExecutionId) (response : RawDict) : Except PyException PiResult := do
  let status ← statusFrom ((response.lookup "status").getD (.str "completed"))
  let diff ← diffFrom (pyGet response "diff")
  pure {
    executionId, status, diff
    modifiedFiles := textList (pyGet response "modified_files")
    createdFiles := textList (pyGet response "created_files")
    deletedFiles := textList (pyGet response "deleted_files")
    commandsExecuted := textList (pyGet response "commands_executed")
    testsExecuted := textList (pyGet response "tests_executed")
    observations := textList (pyGet response "observations")
    blockers := textList (pyGet response "blockers") }

def execute (self : PiExecutor) (request : PiRequest) : Except PyException PiResult :=
  match self.roundTrip (requestToPayload request) with
  | .error exc => .ok {
      executionId := request.executionId
      status := .failed
      blockers := ["pi transport failure: " ++ exc.message]
      observations := ["Pi execution failed; worker process stays alive"] }
  | .ok response => resultFromPayload request.executionId response

/-! ### Responses -/

/-- The response says that the execution completed. -/
def ReportsSuccess (response : RawDict) : Prop :=
  ∃ value, response.lookup "status" = some (.str value) ∧ lower value = ExecutionStatus.completed.value

/-- What became of an answer: a result, and success only where it was reported. -/
structure Isolates (answer : Except PyException RawDict) (outcome : Except PyException PiResult) : Prop where
  returns : ∃ result, outcome = .ok result
  reported : ∀ result, outcome = .ok result → result.status = .completed → ∃ response, answer = .ok response ∧ ReportsSuccess response

/-- The status is a text that names a status, and the diff is a text if there is one. -/
structure WellFormed (response : RawDict) : Prop where
  status : ∃ value, response.lookup "status" = some (.str value) ∧ (ExecutionStatus.ofValue (lower value)).isSome
  diff : response.lookup "diff" = none ∨ response.lookup "diff" = some .none ∨
    ∃ diff, response.lookup "diff" = some (.str diff)

theorem value_of_ofValue {value : String} {status : ExecutionStatus} (named : ExecutionStatus.ofValue value = some status) :
    status.value = value := by simpa using List.find?_some named

variable {response : RawDict}

theorem diffFrom_ok : (∃ diff, diffFrom (pyGet response "diff") = .ok diff) ↔
    response.lookup "diff" = none ∨ response.lookup "diff" = some .none ∨
      ∃ diff, response.lookup "diff" = some (.str diff) := by
  unfold pyGet
  cases response.lookup "diff" with
  | none => simp [diffFrom]
  | some value => cases value <;> simp [diffFrom]

theorem resultFromPayload_ok {executionId : ExecutionId} {result : PiResult}
    (decoded : resultFromPayload executionId response = .ok result) :
    statusFrom ((response.lookup "status").getD (.str "completed")) = .ok result.status ∧
      ∃ diff, diffFrom (pyGet response "diff") = .ok diff := by
  unfold resultFromPayload at decoded
  cases status : statusFrom ((response.lookup "status").getD (.str "completed")) with
  | error exc =>
    rw [status] at decoded
    cases decoded
  | ok status' =>
    rw [status] at decoded
    cases diff : diffFrom (pyGet response "diff") with
    | error exc =>
      rw [diff] at decoded
      cases decoded
    | ok diff' =>
      rw [diff] at decoded
      obtain rfl := Except.ok.inj decoded
      exact ⟨rfl, diff', rfl⟩

theorem resultFromPayload_of_wellFormed (executionId : ExecutionId) (wellFormed : WellFormed response) :
    ∃ result, resultFromPayload executionId response = .ok result := by
  obtain ⟨value, found, named⟩ := wellFormed.status
  obtain ⟨diff, valid⟩ := diffFrom_ok.mpr wellFormed.diff
  unfold resultFromPayload
  rw [found, valid]
  exact ⟨_, rfl⟩

theorem WellFormed.reportsSuccess (wellFormed : WellFormed response)
    (completed : statusFrom ((response.lookup "status").getD (.str "completed")) = .ok .completed) :
    ReportsSuccess response := by
  obtain ⟨value, found, named⟩ := wellFormed.status
  obtain ⟨status, isStatus⟩ := Option.isSome_iff_exists.mp named
  rw [found, Option.getD_some] at completed
  have same : (ExecutionStatus.ofValue (lower value)).getD .completed = .completed := Except.ok.inj completed
  rw [isStatus, Option.getD_some] at same
  exact ⟨value, found, by rw [← same, value_of_ofValue isStatus]⟩

theorem named_status {status : ExecutionStatus}
    (decoded : statusFrom ((response.lookup "status").getD (.str "completed")) = .ok status)
    (reported : status = .completed → ReportsSuccess response) :
    ∃ value, response.lookup "status" = some (.str value) ∧ (ExecutionStatus.ofValue (lower value)).isSome := by
  have completed : ExecutionStatus.ofValue ExecutionStatus.completed.value = some .completed := by decide
  cases found : response.lookup "status" with
  | none =>
    rw [found] at decoded
    have default : (ExecutionStatus.ofValue (lower "completed")).getD .completed = status := Except.ok.inj decoded
    have isCompleted : (ExecutionStatus.ofValue (lower "completed")).getD .completed = .completed := by decide
    obtain ⟨value, isText, _⟩ := reported (default.symm.trans isCompleted)
    rw [found] at isText
    cases isText
  | some value =>
    rw [found, Option.getD_some] at decoded
    cases value with
    | str value =>
      refine ⟨value, rfl, ?_⟩
      have isStatus : (ExecutionStatus.ofValue (lower value)).getD .completed = status := Except.ok.inj decoded
      cases named : ExecutionStatus.ofValue (lower value) with
      | some _ => rfl
      | none =>
        rw [named] at isStatus
        obtain ⟨value', isText, isLower⟩ := reported isStatus.symm
        obtain rfl := PyValue.str.inj (Option.some.inj (found.symm.trans isText))
        rw [isLower, completed] at named
        cases named
    | none => cases decoded
    | bool => cases decoded
    | int => cases decoded
    | float => cases decoded
    | list => cases decoded
    | dict => cases decoded

/-- An execution is isolated from its transport exactly where the response, if
there is one, names its status and has a valid diff. -/
theorem execute_isolates_iff (self : PiExecutor) (request : PiRequest) :
    Isolates (self.roundTrip (requestToPayload request)) (self.execute request) ↔
      ∀ response, self.roundTrip (requestToPayload request) = .ok response → WellFormed response := by
  unfold execute
  cases self.roundTrip (requestToPayload request) with
  | error exc =>
    refine iff_of_true ⟨⟨_, rfl⟩, ?_⟩ ?_
    · intro result same completed
      rw [← Except.ok.inj same] at completed
      cases completed
    · intro response same
      cases same
  | ok response =>
    constructor
    · intro isolates response' same
      obtain rfl := Except.ok.inj same
      obtain ⟨result, decoded⟩ := isolates.returns
      obtain ⟨status, diff⟩ := resultFromPayload_ok decoded
      refine ⟨named_status status ?_, diffFrom_ok.mp diff⟩
      intro completed
      obtain ⟨response', same, reports⟩ := isolates.reported result decoded completed
      exact Except.ok.inj same ▸ reports
    · intro wellFormed
      have valid := wellFormed response rfl
      refine ⟨resultFromPayload_of_wellFormed _ valid, ?_⟩
      intro result decoded completed
      obtain ⟨status, _⟩ := resultFromPayload_ok decoded
      rw [completed] at status
      exact ⟨response, rfl, valid.reportsSuccess status⟩

/-- A Pi process that answers with an empty object. -/
def emptyAnswer : PiExecutor where
  roundTrip := fun _ => .ok []

def someRequest : PiRequest where
  executionId := .v4 1
  workflowId := .v4 2
  workItemId := .v4 3
  repositoryRef := "repo"
  baseRevision := "HEAD"

/-- Nothing was reported, and the execution counts as completed. -/
theorem empty_answer_completes :
    ¬ Isolates (emptyAnswer.roundTrip (requestToPayload someRequest)) (emptyAnswer.execute someRequest) := by
  intro isolates
  obtain ⟨result, decoded⟩ := isolates.returns
  have status : statusFrom (.str "completed") = .ok result.status := (resultFromPayload_ok decoded).1
  have completed : statusFrom (.str "completed") = .ok .completed := rfl
  obtain ⟨response, answer, value, found, _⟩ :=
    isolates.reported result decoded (Except.ok.inj (status.symm.trans completed))
  obtain rfl := Except.ok.inj answer
  cases found

end PiExecutor

end Brain
