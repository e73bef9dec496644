import Brain.Adapters.MarkdownParser
import Brain.Application.Topology

namespace Brain

def pyprojectDeps : List (String × ComponentType) :=
  [("fastapi", .backendService), ("flask", .backendService), ("django", .backendService), ("uvicorn", .backendService),
    ("celery", .worker), ("rq", .worker), ("click", .cli), ("typer", .cli)]

/-- `_KNOWN_RESOURCES`: the type and the name of the resource of a package. -/
def knownResources : List (String × ResourceType × String) :=
  [("psycopg", .postgresql, "PostgreSQL"), ("psycopg2", .postgresql, "PostgreSQL"), ("asyncpg", .postgresql, "PostgreSQL"),
    ("redis", .redis, "Redis"), ("kafka-python", .kafka, "Kafka"), ("aiokafka", .kafka, "Kafka"), ("boto3", .s3, "S3/MinIO")]

/-! ### The patterns -/

/-- `[a-zA-Z0-9_.-]`. -/
def isNameChar (c : Char) : Bool := c.isAlphanum || c = '_' || c = '.' || c = '-'

/-- What follows a literal at the front of a text. -/
def afterLiteral (literal cs : List Char) : Option (List Char) :=
  if literal.isPrefixOf cs then some (cs.drop literal.length) else none

/-- `\s*=\s*`. -/
def afterEquals (cs : List Char) : Option (List Char) :=
  (afterLiteral ['='] (cs.dropWhile isSpace)).map (List.dropWhile isSpace)

/-- `["']([^"']+)["']`. -/
def quotedText : List Char → Option (List Char)
  | quote :: cs =>
    let text := cs.takeWhile fun c => !isQuote c
    if isQuote quote && text ≠ [] && text.length < cs.length then some text else none
  | [] => none

/-- `^dependencies\s*=\s*\[(.*)\]$` on a line. -/
def inlineArray (line : List Char) : Option (List Char) := do
  let rest ← afterLiteral "dependencies".toList line
  let rest ← afterEquals rest
  let rest ← afterLiteral ['['] rest
  if rest.getLast? = some ']' then some rest.dropLast else none

/-- `^([a-zA-Z0-9_.-]+)\s*=\s*["'][^"']+["']` on a line. -/
def poetryKey (line : List Char) : Option (List Char) := do
  let key := line.takeWhile isNameChar
  if key = [] then none
  let rest ← afterEquals (line.drop key.length)
  let _ ← quotedText rest
  some key

def entryName (entry : String) : Option String :=
  let candidate := (strip entry).toList
  let unquoted := if candidate.head?.any isQuote then candidate.drop 1 else candidate
  let name := unquoted.takeWhile isNameChar
  if name = [] then none else some (lower (String.ofList name))

/-- The first `(?m)^name\s*=\s*["']([^"']+)["']`, given the character before the text. -/
def nameLine (before : Char) (cs : List Char) : Option (List Char) :=
  let here := if before = '\n' then
      (afterLiteral "name".toList cs).bind fun rest => (afterEquals rest).bind quotedText
    else none
  match cs with
  | [] => none
  | c :: cs => here.or (nameLine c cs)

def projectName (content : String) : Option String := (nameLine '\n' content.toList).map String.ofList

example : projectName "[project]\nname = 'shop'\n" = some "shop" := by decide +kernel

/-- The packages that `_pyproject_dependencies` finds on one line. -/
def linePackages (line : String) : List String :=
  let stripped := strip line
  if stripped = "" then []
  else match inlineArray stripped.toList with
    | some inner => (inner.splitOn ',').filterMap fun entry => entryName (String.ofList entry)
    | none =>
      match poetryKey stripped.toList with
      | some key =>
        let key := lower (String.ofList key)
        if ["python", "requires-python", "name", "version", "description"].any fun word => word.toList.isPrefixOf key.toList
        then [] else [key]
      | none => []

def pyprojectDependencies (content : String) : List String := (splitlines content).flatMap linePackages

example : pyprojectDependencies "dependencies = [\"Redis>=5,<6\", 'rq']\nclick = \"^8\"" = ["redis", "rq", "click"] := by
  decide +kernel

def requirementsProjectName (content : String) : Option String :=
  (splitlines content).findSome? fun line =>
    let stripped := (strip line).toList
    let name := stripped.takeWhile isNameChar
    if stripped = [] ∨ stripped.head? = some '#' ∨ name = [] then none else some (String.ofList name)

/-- `"name"\s*:\s*"([^"]+)"` at the front of a text. -/
def packageNameHere (cs : List Char) : Option (List Char) := do
  let rest ← afterLiteral "\"name\"".toList cs
  let rest ← afterLiteral [':'] (rest.dropWhile isSpace)
  let rest ← afterLiteral ['"'] (rest.dropWhile isSpace)
  let text := rest.takeWhile (· ≠ '"')
  if text ≠ [] ∧ text.length < rest.length then some text else none

def packageName (content : String) : Option String := (content.toList.tails.findSome? packageNameHere).map String.ofList

def packageType (content : String) : ComponentType :=
  if ["\"react\"", "\"vue\"", "\"@angular", "\"next\""].any (textContains (lowered content)) then .frontendApplication
  else .backendService

/-! ### The detector -/

/-- `_evidence`. -/
def manifestEvidence (now : Time) (revision path : String) : KnowledgeEvidence where
  sourceType := "manifest"
  sourceId := some path
  discoveryMethod := .manifestAnalysis
  origin := .discovered
  observedAt := now
  confidence := .high
  commitSha := some revision
  revisionScope := some { commitSha := some revision, sourcePath := some path }

/-- When and of what a detector records. -/
structure ManifestRun where
  now : Time
  repositoryId : RepositoryId
  revision : String

namespace ManifestTopologyDetector
variable (run : ManifestRun)

def component (name : String) (type : ComponentType) (path : String) : ComponentCandidate where
  name := name
  componentType := type
  repositoryId := run.repositoryId
  revision := run.revision
  sourcePaths := [path]
  provenance := manifestEvidence run.now run.revision path

def resource (name : String) (type : ResourceType) (path : String) : ResourceCandidate where
  name := name
  resourceType := type
  repositoryId := run.repositoryId
  revision := run.revision
  sourcePaths := [path]
  provenance := manifestEvidence run.now run.revision path

def dependency (source target : String) : DependencyCandidate where
  source := source
  target := target
  repositoryId := run.repositoryId
  revision := run.revision
  sourcePaths := ["pyproject.toml"]
  provenance := manifestEvidence run.now run.revision "pyproject.toml"

def addComponent (candidate : ComponentCandidate) (topology : DiscoveredTopology) : DiscoveredTopology :=
  { topology with components := topology.components ++ [candidate] }

/-- The turn of the loop for one package of `pyproject.toml`. -/
def addPackage (name : Option String) (topology : DiscoveredTopology) (dep : String) : DiscoveredTopology :=
  match pyprojectDeps.lookup dep with
  | some type =>
    let componentName := name.getD dep
    if topology.components.any (·.name = componentName) then topology
    else addComponent (component run componentName type "pyproject.toml") topology
  | none =>
    match knownResources.lookup dep with
    | some (type, resourceName) =>
      let topology := if topology.resources.any (·.name = resourceName) then topology
        else { topology with resources := topology.resources ++ [resource run resourceName type "pyproject.toml"] }
      match name with
      | some name => { topology with dependencies := topology.dependencies ++ [dependency run name resourceName] }
      | none => topology
    | none => topology

/-- What is recorded of a `pyproject.toml` with these packages. -/
def addPyproject (name : Option String) (deps : List String) (topology : DiscoveredTopology) : DiscoveredTopology :=
  deps.foldl (addPackage run name)
    (match name with
    | some name => addComponent (component run name .backendService "pyproject.toml") topology
    | none => topology)

def addRequirements (files : SnapshotFiles) (topology : DiscoveredTopology) : DiscoveredTopology :=
  match files.lookup "requirements.txt" with
  | some requirements =>
    if given (files.lookup "pyproject.toml") ≠ none then topology
    else match requirementsProjectName requirements with
      | some name => addComponent (component run name .backendService "requirements.txt") topology
      | none => topology
  | none => topology

def addPackageJson (files : SnapshotFiles) (topology : DiscoveredTopology) : DiscoveredTopology :=
  match files.lookup "package.json" with
  | some packageJson =>
    match packageName packageJson with
    | some name => addComponent (component run name (packageType packageJson) "package.json") topology
    | none => topology
  | none => topology

/-- `detect`, where `dependencies` reads the packages of a `pyproject.toml`. -/
def detectBy (dependencies : String → List String) (files : SnapshotFiles) : DiscoveredTopology :=
  let topology : DiscoveredTopology := { repositoryId := run.repositoryId, revision := run.revision }
  let topology := match files.lookup "pyproject.toml" with
    | some pyproject => addPyproject run (projectName pyproject) (dependencies pyproject) topology
    | none => topology
  addPackageJson run files (addRequirements run files topology)

def detect (files : SnapshotFiles) : DiscoveredTopology := detectBy run pyprojectDependencies files

end ManifestTopologyDetector

end Brain
