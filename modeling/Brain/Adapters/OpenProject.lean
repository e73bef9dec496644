import Brain.Application.OpenProjectParser

namespace Brain

structure ProviderProject where
  externalId : String
  name : String
  identifier : String := ""
  description : String := ""
  active : Bool := true
  parentExternalId : Option String := none

structure ProviderActivity where
  externalId : String
  authorName : String := ""
  text : String := ""
  createdAt : Option String := none

/-- What the API of the provider holds while a service runs. -/
structure OpenProjectTransport where
  projects : List RawDict := []
  projectWorkPackages : String → List PyValue := fun _ => []
  updatedWorkPackages : Time → Option String → List PyValue := fun _ _ => []
  workPackage : String → PyValue := fun _ => .none
  activities : String → List RawDict := fun _ => []

structure OpenProjectAdapter where
  transport : OpenProjectTransport

/-- The elements of a list endpoint at the positions from `offset` on, counted from 1. -/
def endpointPage {α : Type} (offset pageSize : Nat) (elements : List α) : List α :=
  (elements.drop (offset - 1)).take pageSize

/-- `parse_work_item({"work_package": raw})`. -/
def parseRaw (raw : PyValue) : Option OpenProjectWorkItemSnapshot := parseWorkItem [("work_package", raw)]

/-- Nested objects are read as `raw.get(name) or {}`. -/
def providerProject (raw : RawDict) : ProviderProject :=
  let parent := asDict (pyGet (asDict (pyGet raw "_embedded")) "parent")
  { externalId := textOrEmpty (pyGet raw "id")
    name := textOrEmpty (pyGet raw "name")
    identifier := textOrEmpty (pyGet raw "identifier")
    description := textOrEmpty (pyGet raw "description")
    active := ((raw.lookup "active").getD (.bool true)).truthy
    parentExternalId := optionalStr (pyGet parent "id") }

def providerActivity (raw : RawDict) : ProviderActivity :=
  let embedded := asDict (pyGet raw "_embedded")
  let comment := asDict (pyGet embedded "comment")
  { externalId := textOrEmpty (pyGet raw "id")
    authorName := textOrEmpty (pyGet (asDict (pyGet embedded "author")) "name")
    text := textOrEmpty ((pyGet comment "raw").or (pyGet comment "html"))
    createdAt := given (some (textOrEmpty (pyGet raw "createdAt"))) }

namespace OpenProjectAdapter
variable (self : OpenProjectAdapter)

def listProjects : List ProviderProject := self.transport.projects.map providerProject

def listWorkPackages (projectExternalId : String) (offset pageSize : Nat) : List OpenProjectWorkItemSnapshot :=
  (endpointPage offset pageSize (self.transport.projectWorkPackages projectExternalId)).filterMap parseRaw

def listChangedWorkPackages (since : Time) (offset pageSize : Nat) (projectExternalId : Option String) :
    List OpenProjectWorkItemSnapshot :=
  (endpointPage offset pageSize (self.transport.updatedWorkPackages since projectExternalId)).filterMap parseRaw

def getWorkPackageSnapshot (externalId : String) : Option OpenProjectWorkItemSnapshot :=
  parseRaw (self.transport.workPackage externalId)

def listActivities (workPackageExternalId : String) : List ProviderActivity :=
  (self.transport.activities workPackageExternalId).map providerActivity

end OpenProjectAdapter

end Brain
