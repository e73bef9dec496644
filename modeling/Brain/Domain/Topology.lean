import Brain.Domain.Knowledge
import Brain.Lib.Contest
import Brain.Lib.Writers

namespace Brain

inductive CandidateKind
  | component | interface | resource | dependency
  deriving DecidableEq

structure ComponentCandidate where
  name : String
  componentType : ComponentType := .library
  repositoryId : RepositoryId
  revision : String
  sourcePaths : List String := []
  provenance : KnowledgeEvidence
  deriving DecidableEq

structure InterfaceCandidate where
  name : String
  interfaceType : InterfaceType := .rest
  componentName : String
  schemaRef : Option String := none
  repositoryId : RepositoryId
  revision : String
  sourcePaths : List String := []
  provenance : KnowledgeEvidence
  deriving DecidableEq

structure ResourceCandidate where
  name : String
  resourceType : ResourceType := .externalService
  repositoryId : RepositoryId
  revision : String
  sourcePaths : List String := []
  provenance : KnowledgeEvidence
  deriving DecidableEq

structure DependencyCandidate where
  source : String
  target : String
  relation : String := "DEPENDS_ON"
  projectId : Option ProjectId := none
  repositoryId : RepositoryId
  revision : String
  sourcePaths : List String := []
  provenance : KnowledgeEvidence
  deriving DecidableEq

structure DiscoveredTopology where
  repositoryId : RepositoryId
  revision : String
  components : List ComponentCandidate := []
  interfaces : List InterfaceCandidate := []
  resources : List ResourceCandidate := []
  dependencies : List DependencyCandidate := []
  deriving DecidableEq

def InterfaceCandidate.identity (i : InterfaceCandidate) : String × String := (i.componentName, i.name)

def DependencyCandidate.identity (d : DependencyCandidate) : String × String × String := (d.source, d.relation, d.target)

namespace DiscoveredTopology

def mergeComponents (existing incoming : List ComponentCandidate) : List ComponentCandidate :=
  incoming.foldl (FirstWriter.enter ComponentCandidate.name) existing

def mergeInterfaces (existing incoming : List InterfaceCandidate) : List InterfaceCandidate :=
  incoming.foldl (FirstWriter.enter InterfaceCandidate.identity) existing

def mergeResources (existing incoming : List ResourceCandidate) : List ResourceCandidate :=
  incoming.foldl (FirstWriter.enter ResourceCandidate.name) existing

def mergeDependencies (existing incoming : List DependencyCandidate) : List DependencyCandidate :=
  incoming.foldl (FirstWriter.enter DependencyCandidate.identity) existing

def merge (topology other : DiscoveredTopology) : DiscoveredTopology :=
  { topology with
    components := mergeComponents topology.components other.components
    interfaces := mergeInterfaces topology.interfaces other.interfaces
    resources := mergeResources topology.resources other.resources
    dependencies := mergeDependencies topology.dependencies other.dependencies }

end DiscoveredTopology

structure TopologyClaim where
  entityKind : CandidateKind
  entityName : String
  attributeName : String := "component_type"
  value : String
  repositoryId : RepositoryId
  revision : String
  origin : String := "discovered"
  confidence : KnowledgeConfidence := .medium
  provenance : KnowledgeEvidence
  deriving DecidableEq

namespace TopologyClaim

def key (claim : TopologyClaim) : CandidateKind × String := (claim.entityKind, claim.entityName)

/-- Lower rank wins. -/
def sortRank (claim : TopologyClaim) : Nat :=
  match claim.origin with
  | "declared" => 0
  | "observed" => 1
  | "discovered" => 2
  | "inferred" => 3
  | _ => 4

def beats (candidate current : TopologyClaim) : Bool :=
  if candidate.sortRank ≠ current.sortRank then decide (candidate.sortRank < current.sortRank)
  else decide (candidate.confidence.score > current.confidence.score)

theorem beats_ranks : Contest.Ranks beats where
  irrefl claim := by simp [beats]
  withstands {a b c} wins withstood := by
    unfold beats at *
    split_ifs at * <;> simp only [decide_eq_true_eq, decide_eq_false_iff_not] at * <;> omega

end TopologyClaim

namespace ComponentCandidate

def claim (component : ComponentCandidate) : TopologyClaim :=
  { entityKind := .component
    entityName := component.name
    attributeName := "component_type"
    value := component.componentType.value
    repositoryId := component.repositoryId
    revision := component.revision
    origin := component.provenance.origin.value
    confidence := component.provenance.confidence
    provenance := component.provenance }

end ComponentCandidate

namespace InterfaceCandidate

def claim (interface : InterfaceCandidate) : TopologyClaim :=
  { entityKind := .interface
    entityName := interface.componentName ++ ":" ++ interface.name
    attributeName := "interface_type"
    value := interface.interfaceType.value
    repositoryId := interface.repositoryId
    revision := interface.revision
    origin := interface.provenance.origin.value
    confidence := interface.provenance.confidence
    provenance := interface.provenance }

end InterfaceCandidate

namespace ResourceCandidate

def claim (resource : ResourceCandidate) : TopologyClaim :=
  { entityKind := .resource
    entityName := resource.name
    attributeName := "resource_type"
    value := resource.resourceType.value
    repositoryId := resource.repositoryId
    revision := resource.revision
    origin := resource.provenance.origin.value
    confidence := resource.provenance.confidence
    provenance := resource.provenance }

end ResourceCandidate

namespace TopologyReconciler

def claims (topology : DiscoveredTopology) : List TopologyClaim :=
  topology.components.map ComponentCandidate.claim ++ topology.interfaces.map InterfaceCandidate.claim ++
    topology.resources.map ResourceCandidate.claim

/-- The winning claim of each entity. -/
def best (claims : List TopologyClaim) : Keyed TopologyClaim.key :=
  Contest.champions TopologyClaim.key TopologyClaim.beats claims

/-- `winners`, which has the value of each entry of `best`. -/
def reconcile (claims : List TopologyClaim) (key : CandidateKind × String) : Option String :=
  ((best claims).get key).map TopologyClaim.value

end TopologyReconciler

end Brain
