import Brain.Adapters.ManifestDetector
import Brain.Lib.Readers

namespace Brain

def composeServiceTypes : List (String × ComponentType) :=
  [("worker", .worker), ("migrate", .worker), ("cron", .worker), ("api", .backendService), ("app", .backendService),
    ("backend", .backendService), ("server", .backendService), ("web", .frontendApplication),
    ("frontend", .frontendApplication)]

/-- `_RESOURCE_IMAGES`: the type and the name of the resource of an image. -/
def resourceImages : List (String × ResourceType × String) :=
  [("postgres", .postgresql, "PostgreSQL"), ("postgresql", .postgresql, "PostgreSQL"), ("mysql", .postgresql, "PostgreSQL"),
    ("redis", .redis, "Redis"), ("kafka", .kafka, "Kafka"), ("redpanda", .kafka, "Kafka"), ("minio", .minio, "MinIO"),
    ("minio/minio", .minio, "MinIO")]

def defaultComposeResources : List (String × ResourceType × String) :=
  [("database", .postgresql, "PostgreSQL"), ("postgres", .postgresql, "PostgreSQL"), ("redis", .redis, "Redis"),
    ("cache", .redis, "Redis"), ("kafka", .kafka, "Kafka"), ("broker", .messageBroker, "MessageBroker"),
    ("minio", .minio, "MinIO"), ("storage", .s3, "S3/MinIO"), ("object-storage", .s3, "S3/MinIO")]

/-- `_evidence`. -/
def deploymentEvidence (now : Time) (revision path : String) (confidence : KnowledgeConfidence) : KnowledgeEvidence where
  sourceType := "deployment"
  sourceId := some path
  discoveryMethod := .manifestAnalysis
  origin := .discovered
  observedAt := now
  confidence := confidence
  commitSha := some revision
  revisionScope := some { commitSha := some revision, sourcePath := some path }

/-- `str(spec.get("image", ""))`. -/
def composeImage (spec : RawDict) : String := ((spec.lookup "image").getD (.str "")).text

/-- `image.split("/")[-1].split(":")[0]`. -/
def imageKey (image : String) : String :=
  String.ofList ((lastSegment '/' image.toList).takeWhile (· ≠ ':'))

def composeDependencies (spec : RawDict) : List String :=
  match pyGet spec "depends_on" with
  | .list items => items.map PyValue.text
  | .dict entries => entries.map Prod.fst
  | _ => []

/-- A loop over `data["services"].items()` that passes over what is no mapping. -/
def forServices {β : Type} (services : RawDict) (turn : β → String → RawDict → β) (start : β) : β :=
  services.foldl (fun state service =>
    match service.2 with
    | .dict spec => turn state service.1 spec
    | _ => state) start

def canonicalTarget (serviceName : String) (spec : RawDict) : String :=
  match defaultComposeResources.lookup (lower serviceName) with
  | some (_, name) => name
  | none =>
    match resourceImages.lookup (imageKey (lower (composeImage spec))) with
    | some (_, name) => name
    | none => serviceName

/-! ### Terraform blocks -/

/-- `["']?`. -/
def dropQuote (cs : List Char) : List Char := if cs.head?.any isQuote then cs.drop 1 else cs

/-- `\s+["']?([a-zA-Z0-9_.-]+)["']?`: the label and what follows it. -/
def spacedLabel (cs : List Char) : Option (List Char × List Char) :=
  let opened := dropQuote (cs.dropWhile isSpace)
  let label := opened.takeWhile isNameChar
  if cs.head?.any isSpace && label ≠ [] then some (label, dropQuote (opened.drop label.length)) else none

/-- `(resource|module)`. -/
def blockWord (cs : List Char) : Option (String × List Char) :=
  ((afterLiteral "resource".toList cs).map ("resource", ·)).or ((afterLiteral "module".toList cs).map ("module", ·))

/-- The three groups of the pattern of a block's header. -/
structure TerraformHeader where
  kind : String
  label : List Char
  name : List Char
  deriving DecidableEq

/-- `(?m)^\s*(resource|module)\s+["']?([a-zA-Z0-9_.-]+)["']?\s+["']?([a-zA-Z0-9_.-]+)["']?\s*\{` at
the front of a text, given the character before it: the groups and what follows the brace. -/
def terraformHeader (before : Char) (cs : List Char) : Option (TerraformHeader × List Char) :=
  if before = '\n' then do
    let (kind, rest) ← blockWord (cs.dropWhile isSpace)
    let (label, rest) ← spacedLabel rest
    let (name, rest) ← spacedLabel rest
    (afterLiteral ['{'] (rest.dropWhile isSpace)).map ({ kind, label, name }, ·)
  else none

/-- `safeLoad` is `yaml.safe_load`, with nothing where it raises `YAMLError`; the keys
of a mapping are kept by their text. `isWord` is what `\w` matches. -/
structure DeploymentTopologyDetector where
  safeLoad : String → Option PyValue
  isWord : Char → Bool

/-- What all candidates of a file are recorded with. -/
structure DeploymentFile where
  now : Time
  repositoryId : RepositoryId
  revision : String
  path : String

namespace DeploymentTopologyDetector

def composeType (name : String) (spec : RawDict) : ComponentType :=
  match composeServiceTypes.lookup (lower name) with
  | some type => type
  | none =>
    ((composeServiceTypes.find? fun entry => textContains (lowered (composeImage spec)) entry.1).map Prod.snd).getD
      .backendService

def serviceComponent (file : DeploymentFile) (name : String) (spec : RawDict) : ComponentCandidate where
  name := name
  componentType := composeType name spec
  repositoryId := file.repositoryId
  revision := file.revision
  sourcePaths := [file.path]
  provenance := deploymentEvidence file.now file.revision file.path .high

def serviceDependency (file : DeploymentFile) (source target : String) : DependencyCandidate where
  source := source
  target := target
  repositoryId := file.repositoryId
  revision := file.revision
  sourcePaths := [file.path]
  provenance := deploymentEvidence file.now file.revision file.path .medium

/-- The turn of the first loop for a service that is a mapping. -/
def addService (file : DeploymentFile) (topology : DiscoveredTopology) (name : String) (spec : RawDict) :
    DiscoveredTopology :=
  { topology with
    components := topology.components ++ [serviceComponent file name spec]
    dependencies := topology.dependencies ++ (composeDependencies spec).map fun dependency =>
      serviceDependency file name (canonicalTarget dependency spec) }

def addResource (file : DeploymentFile) (confidence : KnowledgeConfidence) (type : ResourceType) (name : String)
    (topology : DiscoveredTopology) : DiscoveredTopology :=
  if topology.resources.any (·.name = name) then topology
  else
    { topology with
      resources := topology.resources ++
        [{ name := name, resourceType := type, repositoryId := file.repositoryId, revision := file.revision,
           sourcePaths := [file.path],
           provenance := deploymentEvidence file.now file.revision file.path confidence }] }

/-- The turn of the second loop for a service that is a mapping. -/
def addImageResource (file : DeploymentFile) (topology : DiscoveredTopology) (spec : RawDict) : DiscoveredTopology :=
  match resourceImages.lookup (lower (imageKey (composeImage spec))) with
  | some (type, name) => addResource file .high type name topology
  | none => topology

def compose (detector : DeploymentTopologyDetector) (file : DeploymentFile) (content : String)
    (topology : DiscoveredTopology) : DiscoveredTopology :=
  match detector.safeLoad content with
  | some (.dict data) =>
    match pyGet data "services" with
    | .dict services =>
      let topology := forServices services (addService file) topology
      forServices services (fun topology _ spec => addImageResource file topology spec) topology
    | _ => topology
  | _ => topology

/-- `\bengine\s*=\s*["']([^"']+)["']` at the front of a text, given the character before it. -/
def engineAt (detector : DeploymentTopologyDetector) (before : Option Char) (cs : List Char) : Option (List Char) :=
  if before.any detector.isWord then none
  else ((afterLiteral "engine".toList cs).bind afterEquals).bind quotedText

/-- The entry of a header, given what follows its brace. -/
def terraformBlock (detector : DeploymentTopologyDetector) (header : TerraformHeader) (rest : List Char) :
    String × String × RawDict :=
  let engine := Readers.firstMatch detector.engineAt none (rest.take 2000)
  (header.kind, String.ofList header.label,
    ("name", .str (String.ofList header.name)) ::
      (engine.map fun engine => ("engine", PyValue.str (String.ofList engine))).toList)

def terraformBlocks (detector : DeploymentTopologyDetector) (content : String) : List (String × String × RawDict) :=
  (Readers.allMatches terraformHeader '\n' 0 content.toList).map fun (header, rest) => detector.terraformBlock header rest

/-- The resource that `_record_terraform_resource` adds. -/
def terraformResource (resourceType engine : String) : Option (ResourceType × String) :=
  let names (part : String) := textContains (lowered resourceType) part
  let runs (part : String) := textContains (lowered engine) part
  if names "postgres" || names "mysql" || names "rds" || runs "postgres" || runs "mysql" then some (.postgresql, "PostgreSQL")
  else if names "redis" || names "elasticache" || runs "redis" then some (.redis, "Redis")
  else if names "kafka" || names "msk" || runs "kafka" then some (.kafka, "Kafka")
  else if names "s3" || names "bucket" then some (.s3, "S3/MinIO")
  else none

/-- The resource that `_record_module` adds. -/
def moduleResource (source : String) : Option (ResourceType × String) :=
  let names (part : String) := textContains (lowered source) part
  if names "postgres" || names "mysql" then some (.postgresql, "PostgreSQL")
  else if names "redis" then some (.redis, "Redis")
  else if names "kafka" then some (.kafka, "Kafka")
  else if names "s3" || names "bucket" then some (.s3, "S3/MinIO")
  else none

/-- `_add_resource` for a resource there is. -/
def addFound (file : DeploymentFile) (topology : DiscoveredTopology) : Option (ResourceType × String) → DiscoveredTopology
  | some (type, name) => addResource file .medium type name topology
  | none => topology

def recordTerraformResource (file : DeploymentFile) (resourceType engine : String) (topology : DiscoveredTopology) :
    DiscoveredTopology :=
  addFound file topology (terraformResource resourceType engine)

def recordModule (file : DeploymentFile) (body : RawDict) (topology : DiscoveredTopology) : DiscoveredTopology :=
  addFound file topology (moduleResource ((body.lookup "source").getD (.str "")).text)

/-- `_terraform` of a file that is no `.tf.json`. -/
def terraform (detector : DeploymentTopologyDetector) (file : DeploymentFile) (content : String)
    (topology : DiscoveredTopology) : DiscoveredTopology :=
  (detector.terraformBlocks content).foldl (fun topology (kind, label, body) =>
    if kind = "resource" then
      recordTerraformResource file label ((body.lookup "engine").getD (.str "")).text topology
    else if kind = "module" then recordModule file body topology
    else topology) topology

end DeploymentTopologyDetector

end Brain
