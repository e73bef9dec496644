import Brain.Adapters.Ports

namespace Brain

inductive ProviderSlot
  | workManagement | sourceControl | documentation
  deriving DecidableEq

def ProviderSlot.label : ProviderSlot → String
  | .workManagement => "work management"
  | .sourceControl => "source control"
  | .documentation => "documentation"

/-- A provider that can create projects or spaces, with what the references it
returns say of it. -/
structure ProvisioningPort where
  provider : String
  externalType : String

/-- The reference to what the provider created: its id and its namespace are the provider's. -/
def ProvisioningPort.reference (port : ProvisioningPort) (created : String × Option String) : ExternalReference :=
  { provider := port.provider, externalId := created.1, externalType := some port.externalType, space := created.2 }

/-- `isAlnum` is `str.isalnum` of one character. -/
structure ProjectProvisioningService where
  workManagement : Option ProvisioningPort
  sourceControl : Option ProvisioningPort
  documentation : Option ProvisioningPort
  isAlnum : Char → Bool

def ProjectProvisioningService.port (self : ProjectProvisioningService) : ProviderSlot → Option ProvisioningPort
  | .workManagement => self.workManagement
  | .sourceControl => self.sourceControl
  | .documentation => self.documentation

/-- How the create operations of the providers end in one call. -/
abbrev CreateAnswers := ProviderSlot → Except PyException (String × Option String)

/-- One call of a provider's create operation, with the stored project it was made for. -/
structure CreateCall where
  slot : ProviderSlot
  project : Project
  name : String
  description : Option String
  created : Option ExternalReference

/-- The project repository. `calls` records the create operations; no code reads it. -/
structure ProvisioningWorld where
  projects : Keyed Project.id := Keyed.empty
  calls : List CreateCall := []
  nextUuid : Nat := 0

structure ProvisioningResult where
  project : Project
  refsAdded : List ExternalReference := []
  details : List String := []

structure ExternalProjects where
  workManagement : Option String := none
  sourceControl : Option String := none
  documentation : Option String := none

/-- The comparison of `bootstrap` and `_persist_refs`. -/
def ExternalReference.sameProject (a b : ExternalReference) : Bool :=
  a.provider = b.provider && a.externalType = b.externalType && a.externalId = b.externalId

/-- `update` says whether `projects.update` raises, and what. -/
inductive ProvisioningCall
  | createCanonical (name : String) (description : Option String)
  | createConnected (name : String) (description : Option String) (answers : CreateAnswers) (update : Option PyException)
  | provision (projectId : ProjectId) (answers : CreateAnswers) (update : Option PyException)
  | bootstrap (projectId : ProjectId) (external : ExternalProjects) (update : Option PyException)

namespace ProjectProvisioningService
variable (self : ProjectProvisioningService)

def spaceName (projectName : String) : String :=
  let space := String.ofList ((strip projectName).toList.filter self.isAlnum)
  if space = "" then "Project" else space

/-- The arguments of the create operation: the description only where it takes one. -/
def createArguments (project : Project) : ProviderSlot → String × Option String
  | .workManagement | .sourceControl => (project.name, project.description.filter (· ≠ ""))
  | .documentation => (self.spaceName project.name, none)

def tryProvide (project : Project) (answers : CreateAnswers) (s : ProvisioningResult × List CreateCall)
    (slot : ProviderSlot) : ProvisioningResult × List CreateCall :=
  match self.port slot with
  | none => ({ s.1 with details := s.1.details ++ [slot.label ++ ": not configured, skipped"] }, s.2)
  | some port =>
    let arguments := self.createArguments project slot
    match answers slot with
    | .ok created =>
      let ref := port.reference created
      ({ s.1 with refsAdded := s.1.refsAdded ++ [ref], details := s.1.details ++ [slot.label ++ ": created " ++ ref.externalId] },
        s.2 ++ [⟨slot, project, arguments.1, arguments.2, some ref⟩])
    | .error exception =>
      let detail :=
        if exception.typeName = "NotImplementedError" then ": creation not supported by provider"
        else ": provisioning failed (" ++ exception.message ++ ")"
      ({ s.1 with details := s.1.details ++ [slot.label ++ detail] },
        s.2 ++ [⟨slot, project, arguments.1, arguments.2, none⟩])

/-- The loop of `_persist_refs`. -/
def merge (merged : List ExternalReference) (ref : ExternalReference) : List ExternalReference :=
  if merged.any (·.sameProject ref) then merged else merged ++ [ref]

/-- `_persist_refs`. An update that raises leaves the stored project as it is: only
a database raises here, and its rows are no shared objects. -/
def persistRefs (update : Option PyException) (result : ProvisioningResult) (w : ProvisioningWorld) :
    Except PyException ProvisioningResult × ProvisioningWorld :=
  if result.refsAdded = [] then (.ok result, w)
  else
    match update with
    | some exception => (.error exception, w)
    | none =>
      let stored := { result.project with externalRefs := result.refsAdded.foldl merge result.project.externalRefs }
      (.ok { result with project := stored }, { w with projects := w.projects.upsert stored })

def notFound (projectId : ProjectId) : PyException := ⟨"ValueError", "project " ++ projectId.text ++ " not found"⟩

def slots : List ProviderSlot := [.workManagement, .sourceControl, .documentation]

def provision (projectId : ProjectId) (answers : CreateAnswers) (update : Option PyException) (w : ProvisioningWorld) :
    Except PyException ProvisioningResult × ProvisioningWorld :=
  match w.projects.get projectId with
  | none => (.error (notFound projectId), w)
  | some project =>
    let provided := slots.foldl (self.tryProvide project answers) ({ project }, [])
    persistRefs update provided.1 { w with calls := w.calls ++ provided.2 }

/-- `create_canonical`, with the new project in place of the repository's answer. -/
def createCanonical (name : String) (description : Option String) (w : ProvisioningWorld) : Project × ProvisioningWorld :=
  let project : Project := { id := .v4 w.nextUuid, name, description }
  (project, { w with projects := w.projects.upsert project, nextUuid := w.nextUuid + 1 })

def createConnected (name : String) (description : Option String) (answers : CreateAnswers) (update : Option PyException)
    (w : ProvisioningWorld) : Except PyException ProvisioningResult × ProvisioningWorld :=
  let (project, w) := createCanonical name description w
  self.provision project.id answers update w

/-- One candidate of `bootstrap`. -/
def link (result : ProvisioningResult) : String × Option String × String → ProvisioningResult
  | (provider, externalId, externalType) =>
    match externalId.filter (· ≠ "") with
    | none => result
    | some externalId =>
      let ref : ExternalReference := { provider, externalId, externalType := some externalType }
      if result.project.externalRefs.any (·.sameProject ref) then
        { result with details := result.details ++ [provider ++ ": already linked (" ++ externalId ++ ")"] }
      else
        { project := { result.project with externalRefs := result.project.externalRefs ++ [ref] }
          refsAdded := result.refsAdded ++ [ref]
          details := result.details ++ [provider ++ ": linked existing " ++ externalId] }

def bootstrap (projectId : ProjectId) (external : ExternalProjects) (update : Option PyException) (w : ProvisioningWorld) :
    Except PyException ProvisioningResult × ProvisioningWorld :=
  match w.projects.get projectId with
  | none => (.error (notFound projectId), w)
  | some project =>
    let candidates := [("openproject", external.workManagement, "project"), ("gitlab", external.sourceControl, "project"),
      ("xwiki", external.documentation, "space")]
    persistRefs update (candidates.foldl link { project }) w

/-- The world after a call; what it returns does not matter to the next one. -/
def step (w : ProvisioningWorld) : ProvisioningCall → Option ProvisioningWorld
  | .createCanonical name description => some (createCanonical name description w).2
  | .createConnected name description answers update => some (self.createConnected name description answers update w).2
  | .provision projectId answers update => some (self.provision projectId answers update w).2
  | .bootstrap projectId external update => some (bootstrap projectId external update w).2

end ProjectProvisioningService

end Brain
