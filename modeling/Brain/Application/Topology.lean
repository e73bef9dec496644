import Brain.Domain.Topology

namespace Brain

/-- The contents of a revision by path. -/
abbrev SnapshotFiles := List (String × String)

def KnowledgeEvidence.undated (evidence : KnowledgeEvidence) : KnowledgeEvidence := { evidence with observedAt := 0 }

namespace DiscoveredTopology

/-- The candidates without the times of their evidence. -/
def undated (topology : DiscoveredTopology) : DiscoveredTopology :=
  { topology with
    components := topology.components.map fun c => { c with provenance := c.provenance.undated }
    interfaces := topology.interfaces.map fun i => { i with provenance := i.provenance.undated }
    resources := topology.resources.map fun r => { r with provenance := r.provenance.undated }
    dependencies := topology.dependencies.map fun d => { d with provenance := d.provenance.undated } }

end DiscoveredTopology

/-- A detector reads the files and the component names found so far; the clock
only dates its evidence. -/
structure Detector where
  detect : Time → RepositoryId → String → SnapshotFiles → List String → DiscoveredTopology
  stable : ∀ now later repositoryId revision files componentNames,
    (detect now repositoryId revision files componentNames).undated =
      (detect later repositoryId revision files componentNames).undated

abbrev TopologyDiscoveryPort := Time → RepositoryId → String → SnapshotFiles → DiscoveredTopology

/-- A pass of each detector, merged in order. -/
def discoverAll (detectors : List Detector) : TopologyDiscoveryPort := fun now repositoryId revision snapshotFiles =>
  detectors.foldl (fun topology detector =>
    topology.merge (detector.detect now repositoryId revision snapshotFiles
      (topology.components.map ComponentCandidate.name))) { repositoryId, revision }

structure TopologyDiscoverer where
  manifest : Detector
  deployment : Detector
  api : Detector
  resources : Detector

namespace TopologyDiscoverer

def discover (discoverer : TopologyDiscoverer) : TopologyDiscoveryPort := fun now repositoryId revision snapshotFiles =>
  let topology : DiscoveredTopology := { repositoryId, revision }
  let topology := topology.merge (discoverer.manifest.detect now repositoryId revision snapshotFiles
    (topology.components.map ComponentCandidate.name))
  let topology := topology.merge (discoverer.deployment.detect now repositoryId revision snapshotFiles
    (topology.components.map ComponentCandidate.name))
  let topology := topology.merge (discoverer.api.detect now repositoryId revision snapshotFiles
    (topology.components.map ComponentCandidate.name))
  topology.merge (discoverer.resources.detect now repositoryId revision snapshotFiles
    (topology.components.map ComponentCandidate.name))

theorem discover_eq (discoverer : TopologyDiscoverer) :
    discoverer.discover =
      discoverAll [discoverer.manifest, discoverer.deployment, discoverer.api, discoverer.resources] := rfl

end TopologyDiscoverer

/-- `InMemorySoftwareCatalogRepository`, with the ids drawn so far. -/
structure SoftwareCatalog where
  systems : Keyed System.id := Keyed.empty
  components : Keyed SoftwareComponent.id := Keyed.empty
  interfaces : Keyed Interface.id := Keyed.empty
  resources : Keyed Resource.id := Keyed.empty
  claims : List TopologyClaim := []
  dependencies : List DependencyCandidate := []
  nextUuid : Nat := 0

namespace SoftwareCatalog

def upsertSystem (catalog : SoftwareCatalog) (system : System) : SoftwareCatalog :=
  { catalog with systems := catalog.systems.upsert system }

def upsertComponent (catalog : SoftwareCatalog) (component : SoftwareComponent) : SoftwareCatalog :=
  { catalog with components := catalog.components.upsert component }

def upsertInterface (catalog : SoftwareCatalog) (interface : Interface) : SoftwareCatalog :=
  { catalog with interfaces := catalog.interfaces.upsert interface }

def upsertResource (catalog : SoftwareCatalog) (resource : Resource) : SoftwareCatalog :=
  { catalog with resources := catalog.resources.upsert resource }

def saveClaims (catalog : SoftwareCatalog) (claims : List TopologyClaim) : SoftwareCatalog :=
  { catalog with claims := catalog.claims ++ claims }

def saveDependencies (catalog : SoftwareCatalog) (dependencies : List DependencyCandidate) : SoftwareCatalog :=
  { catalog with dependencies := catalog.dependencies ++ dependencies }

def listClaims (catalog : SoftwareCatalog) (repositoryId : RepositoryId) : List TopologyClaim :=
  catalog.claims.filter fun c => c.repositoryId = repositoryId

def listSystems (catalog : SoftwareCatalog) (projectId : ProjectId) : List System :=
  catalog.systems.items.filter fun s => s.projectId = projectId

def listComponents (catalog : SoftwareCatalog) (projectId : ProjectId) : List SoftwareComponent :=
  catalog.components.items.filter fun c => c.projectId = projectId

def listInterfaces (catalog : SoftwareCatalog) (projectId : ProjectId) : List Interface :=
  catalog.interfaces.items.filter fun i => i.componentId ∈ (catalog.listComponents projectId).map SoftwareComponent.id

def listResources (catalog : SoftwareCatalog) (projectId : ProjectId) : List Resource :=
  catalog.resources.items.filter fun r => r.projectId = projectId

def listDependencies (catalog : SoftwareCatalog) (_projectId : ProjectId) (componentName : String) : List String :=
  (catalog.dependencies.filter fun dep => dep.source = componentName).map DependencyCandidate.target

end SoftwareCatalog

structure TopologyDiscoveryResult where
  topology : DiscoveredTopology
  claims : List TopologyClaim := []
  systems : List System := []
  components : List SoftwareComponent := []
  interfaces : List Interface := []
  resources : List Resource := []

/-- Entries built with the next ids. -/
def numbered {α β : Type} (next : Nat) (build : Uuid → α → β) (as : List α) : List β :=
  (as.zipIdx next).map fun (a, n) => build (.v4 n) a

structure TopologyDiscoveryService where
  discoverer : TopologyDiscoveryPort

namespace TopologyDiscoveryService

def component (projectId : ProjectId) (id : Uuid) (c : ComponentCandidate) : SoftwareComponent :=
  { id, projectId, name := c.name, componentType := c.componentType, repositoryIds := [c.repositoryId],
    provenance := [c.provenance] }

def resource (projectId : ProjectId) (id : Uuid) (r : ResourceCandidate) : Resource :=
  { id, projectId, name := r.name, resourceType := r.resourceType, provenance := [r.provenance] }

def systems (next : Nat) (projectId : ProjectId) (components : List SoftwareComponent) : List System :=
  if components = [] then []
  else [{ id := .v4 next, projectId, name := "default", componentIds := components.map SoftwareComponent.id }]

/-- `_interface_type`, whose argument is an `InterfaceType` already. -/
def interfaceType (value : InterfaceType) : InterfaceType := value

def interface (id : Uuid) : SoftwareComponent × InterfaceCandidate → Interface
  | (component, candidate) =>
    { id, componentId := component.id, type := interfaceType candidate.interfaceType, name := candidate.name,
      schemaRef := candidate.schemaRef }

/-- The component that a name leads to in `by_name`. -/
def byName (components : List SoftwareComponent) (name : String) : Option SoftwareComponent :=
  LastWriter.last SoftwareComponent.name components name

def interfaces (next : Nat) (components : List SoftwareComponent) (topology : DiscoveredTopology) : List Interface :=
  numbered next interface (topology.interfaces.filterMap fun candidate =>
    (byName components candidate.componentName).map fun component => (component, candidate))

def discoverAndPersist (service : TopologyDiscoveryService) (projectId : ProjectId) (repositoryId : RepositoryId)
    (revision : String) (snapshotFiles : SnapshotFiles) (now : Time) (catalog : SoftwareCatalog) :
    TopologyDiscoveryResult × SoftwareCatalog :=
  let topology := service.discoverer now repositoryId revision snapshotFiles
  let claims := TopologyReconciler.claims topology
  let catalog := catalog.saveClaims claims
  let dependencies := topology.dependencies.map fun dependency => { dependency with projectId := some projectId }
  let topology := { topology with dependencies }
  let catalog := catalog.saveDependencies dependencies
  let next := catalog.nextUuid
  let components := numbered next (component projectId) topology.components
  let next := next + components.length
  let systems := systems next projectId components
  let next := next + systems.length
  let interfaces := interfaces next components topology
  let next := next + interfaces.length
  let resources := numbered next (resource projectId) topology.resources
  let next := next + resources.length
  let catalog := systems.foldl SoftwareCatalog.upsertSystem catalog
  let catalog := components.foldl SoftwareCatalog.upsertComponent catalog
  let catalog := interfaces.foldl SoftwareCatalog.upsertInterface catalog
  let catalog := resources.foldl SoftwareCatalog.upsertResource catalog
  ({ topology, claims, systems, components, interfaces, resources }, { catalog with nextUuid := next })

end TopologyDiscoveryService

end Brain
