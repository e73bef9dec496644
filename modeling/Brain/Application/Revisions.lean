import Brain.Adapters.Ports
import Brain.Domain.CodeIntelligence

namespace Brain
open Calls

inductive FileCategory
  | source | test | documentation | manifest | configuration | deployment | schema | unknown
  deriving DecidableEq

def manifestNames : List String :=
  ["pyproject.toml", "requirements.txt", "requirements-dev.txt", "setup.py", "setup.cfg", "package.json",
    "package-lock.json", "yarn.lock", "pnpm-lock.yaml", "go.mod", "go.sum", "Cargo.toml", "Cargo.lock", "Gemfile",
    "Gemfile.lock", "pom.xml", "build.gradle", "gradle.properties", "composer.json", "Dockerfile"]

def deploymentNames : List String :=
  ["docker-compose.yml", "docker-compose.yaml", "compose.yml", "compose.yaml", "docker-compose.override.yml"]

def ciNames : List String :=
  [".gitlab-ci.yml", ".gitlab-ci.yaml", "Jenkinsfile", ".travis.yml", ".circleci/config.yml", "azure-pipelines.yml"]

def docExtensions : List String := [".md", ".markdown", ".rst", ".adoc", ".txt"]

def sourceExtensions : List String :=
  [".py", ".js", ".ts", ".tsx", ".jsx", ".go", ".rs", ".java", ".kt", ".kts", ".c", ".h", ".cpp", ".hpp", ".cs", ".rb",
    ".php", ".swift", ".scala", ".sh", ".bash", ".sql"]

def schemaExtensions : List String := [".sql", ".proto", ".graphql"]

def configExtensions : List String := [".json", ".yaml", ".yml", ".toml", ".ini", ".cfg", ".conf"]

/-- `text.endswith(endings)`. -/
def textEnds (text : String) (endings : List String) : Bool :=
  endings.any fun ending => ending.toList.isSuffixOf text.toList

def isTest (path : String) (parts : List String) : Bool :=
  let name := String.ofList (lastSegment '/' path.toList)
  parts.any ["test", "tests", "spec", "specs", "__tests__"].contains ||
    "test_".toList.isPrefixOf name.toList || textEnds name ["_test.py"] || textEnds name ["_test.go"]

def isDocumentation (path lowerName : String) (parts : List String) : Bool :=
  parts.any ["docs", "doc", "documentation"].contains || textEnds path docExtensions ||
    ["readme", "readme.md", "changelog", "changelog.md", "contributing"].contains lowerName

def classifyFile (path : String) : FileCategory :=
  let normalized := String.ofList (forwardSlashes path)
  let lowerName := lower (String.ofList (lastSegment '/' normalized.toList))
  let parts := (normalized.toList.splitOn '/').map fun part => lower (String.ofList part)
  if manifestNames.contains lowerName || textEnds lowerName [".toml"] then .manifest
  else if deploymentNames.contains lowerName || ciNames.contains lowerName || lowerName = "dockerfile" then .deployment
  else if parts.contains ".github" || parts.contains ".gitlab" then .deployment
  else if isTest normalized parts then .test
  else if isDocumentation normalized lowerName parts then .documentation
  else if textEnds normalized schemaExtensions then .schema
  else if textEnds normalized sourceExtensions then .source
  else if textEnds normalized configExtensions then .configuration
  else .unknown

structure RepositorySnapshot where
  repositoryId : RepositoryId
  revision : String
  deriving DecidableEq

structure ChangedFile where
  path : String
  category : FileCategory
  changeType : String := "modified"
  deriving DecidableEq

structure RepositoryChangeSet where
  id : Uuid
  repositoryId : RepositoryId
  oldRevision : Option String := none
  newRevision : String
  detectedAt : Time
  files : List ChangedFile := []
  deriving DecidableEq

def classifyChangedFiles (paths : List String) : List ChangedFile :=
  paths.map fun path => { path, category := classifyFile path }

/-- What the handler awaits. -/
inductive RevisionSite
  | repositoryGet | listChangedFiles | saveChangeSet | repositoryUpdate
  deriving DecidableEq

structure RevisionWorld where
  repositories : Keyed Repository.id := Keyed.empty
  changeSets : List RepositoryChangeSet := []
  nextUuid : Nat := 0

abbrev RevisionOutside := Calls.Outside RevisionSite PyException
abbrev RevisionRaised := Calls.Raised RevisionSite PyException

namespace RevisionWorld

def saveChangeSet (changeSet : RepositoryChangeSet) (w : RevisionWorld) : RevisionWorld :=
  { w with changeSets := w.changeSets ++ [changeSet] }

def listChangeSets (w : RevisionWorld) (repositoryId : RepositoryId) : List RepositoryChangeSet :=
  w.changeSets.filter (·.repositoryId = repositoryId)

def updateRepository (repository : Repository) (w : RevisionWorld) : RevisionWorld :=
  { w with repositories := w.repositories.upsert repository }

def drawUuid : Calls.Prog RevisionSite PyException RevisionWorld Uuid :=
  internal fun w => (.v4 w.nextUuid, { w with nextUuid := w.nextUuid + 1 })

end RevisionWorld

/-- The handler with its source control and what `event_to_model` rests on. -/
structure IncrementalRevisionHandler where
  listChangedFiles : Repository → String → String → List String
  pydantic : Pydantic
  objects : Objects
  now : PyValue

def IncrementalRevisionHandler.handle (self : IncrementalRevisionHandler) (event : DictEnvelope) :
    Calls.Prog RevisionSite PyException RevisionWorld Unit :=
  match eventModel self.pydantic self.objects self.now event with
  | some (.repositoryRevisionChanged repositoryId oldRevision newRevision) => do
    let found ← query .repositoryGet (·.repositories.get repositoryId)
    match found with
    | none => pure ()
    | some repository => do
      let changed ← query .listChangedFiles
        (fun _ => self.listChangedFiles repository (oldRevision.getD "") newRevision)
      let id ← RevisionWorld.drawUuid
      let detectedAt ← Calls.now
      let changeSet : RepositoryChangeSet :=
        { id, repositoryId, oldRevision, newRevision, detectedAt, files := classifyChangedFiles changed }
      command .saveChangeSet (RevisionWorld.saveChangeSet changeSet)
      command .repositoryUpdate
        (RevisionWorld.updateRepository { repository with currentRevision := some newRevision })
  | _ => pure ()

end Brain
