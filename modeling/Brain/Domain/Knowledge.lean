import Brain.Domain.Entities

namespace Brain

inductive KnowledgeOrigin
  | declared | discovered | observed | inferred
  deriving DecidableEq

def KnowledgeOrigin.value : KnowledgeOrigin → String
  | .declared => "declared"
  | .discovered => "discovered"
  | .observed => "observed"
  | .inferred => "inferred"

inductive DiscoveryMethod
  | humanDeclared | catalogImport | documentParse | astStaticAnalysis | manifestAnalysis | llmInference
  | runtimeTrace | testObservation | gitHistory
  deriving DecidableEq

inductive KnowledgeConfidence
  | veryLow | low | medium | high | veryHigh
  deriving DecidableEq

/-- `score()`, in hundredths. -/
def KnowledgeConfidence.score : KnowledgeConfidence → Nat
  | .veryLow => 10
  | .low => 30
  | .medium => 50
  | .high => 80
  | .veryHigh => 95

structure RevisionScope where
  repositoryId : Option RepositoryId := none
  branch : Option String := none
  commitSha : Option String := none
  sourcePath : Option String := none
  contentHash : Option String := none
  validFrom : Option Time := none
  validTo : Option Time := none
  deriving DecidableEq

structure KnowledgeEvidence where
  sourceType : String
  sourceId : Option String := none
  discoveryMethod : DiscoveryMethod := .llmInference
  origin : KnowledgeOrigin := .inferred
  observedAt : Time
  confidence : KnowledgeConfidence := .medium
  commitSha : Option String := none
  revisionScope : Option RevisionScope := none
  deriving DecidableEq

inductive ComponentType
  | backendService | frontendApplication | library | worker | cli | dataPipeline | embeddedFirmware
  | infrastructureModule
  deriving DecidableEq

def ComponentType.value : ComponentType → String
  | .backendService => "backend_service"
  | .frontendApplication => "frontend_application"
  | .library => "library"
  | .worker => "worker"
  | .cli => "cli"
  | .dataPipeline => "data_pipeline"
  | .embeddedFirmware => "embedded_firmware"
  | .infrastructureModule => "infrastructure_module"

inductive InterfaceType
  | rest | graphql | grpc | messageTopic | pythonPublic | databaseContract | cli
  deriving DecidableEq

def InterfaceType.value : InterfaceType → String
  | .rest => "rest"
  | .graphql => "graphql"
  | .grpc => "grpc"
  | .messageTopic => "message_topic"
  | .pythonPublic => "python_public"
  | .databaseContract => "database_contract"
  | .cli => "cli"

inductive ResourceType
  | postgresql | redis | kafka | s3 | minio | kubernetes | filesystem | messageBroker | externalService
  deriving DecidableEq

def ResourceType.value : ResourceType → String
  | .postgresql => "postgresql"
  | .redis => "redis"
  | .kafka => "kafka"
  | .s3 => "s3"
  | .minio => "minio"
  | .kubernetes => "kubernetes"
  | .filesystem => "filesystem"
  | .messageBroker => "message_broker"
  | .externalService => "external_service"

structure System where
  id : Uuid
  projectId : ProjectId
  domainId : Option Uuid := none
  name : String
  description : Option String := none
  componentIds : List Uuid := []
  externalRefs : List ExternalReference := []
  deriving DecidableEq

structure SoftwareComponent where
  id : Uuid
  projectId : ProjectId
  name : String
  componentType : ComponentType := .library
  repositoryIds : List RepositoryId := []
  owner : Option ActorId := none
  lifecycle : Option String := none
  provenance : List KnowledgeEvidence := []
  externalRefs : List ExternalReference := []
  deriving DecidableEq

structure Interface where
  id : Uuid
  componentId : Uuid
  type : InterfaceType := .rest
  name : String
  schemaRef : Option String := none
  externalRefs : List ExternalReference := []
  deriving DecidableEq

structure Resource where
  id : Uuid
  projectId : ProjectId
  name : String
  resourceType : ResourceType := .externalService
  externalRefs : List ExternalReference := []
  provenance : List KnowledgeEvidence := []
  deriving DecidableEq

end Brain
