import Brain.Topology.Reconciliation

namespace Brain

/-! ### Catalogs up to ids and times -/

namespace SoftwareComponent

/-- The component without its id and the times of its evidence. -/
def anonymous (c : SoftwareComponent) : SoftwareComponent :=
  { c with id := default, provenance := c.provenance.map KnowledgeEvidence.undated }

end SoftwareComponent

namespace Resource

def anonymous (r : Resource) : Resource :=
  { r with id := default, provenance := r.provenance.map KnowledgeEvidence.undated }

end Resource

def TopologyClaim.undated (claim : TopologyClaim) : TopologyClaim := { claim with provenance := claim.provenance.undated }

def DependencyCandidate.undated (d : DependencyCandidate) : DependencyCandidate :=
  { d with provenance := d.provenance.undated }

namespace SoftwareCatalog

def component (catalog : SoftwareCatalog) (id : Uuid) : Option SoftwareComponent :=
  (catalog.components.get id).map SoftwareComponent.anonymous

def systemView (catalog : SoftwareCatalog) (s : System) : System × List (Option SoftwareComponent) :=
  ({ s with id := default, componentIds := [] }, s.componentIds.map catalog.component)

def interfaceView (catalog : SoftwareCatalog) (i : Interface) : Interface × Option SoftwareComponent :=
  ({ i with id := default, componentId := default }, catalog.component i.componentId)

/-- The catalogs hold the same entries as often, up to ids and times. -/
structure Same (left right : SoftwareCatalog) : Prop where
  systems : (left.systems.items.map left.systemView).Perm (right.systems.items.map right.systemView)
  components : (left.components.items.map SoftwareComponent.anonymous).Perm
    (right.components.items.map SoftwareComponent.anonymous)
  interfaces : (left.interfaces.items.map left.interfaceView).Perm (right.interfaces.items.map right.interfaceView)
  resources : (left.resources.items.map Resource.anonymous).Perm (right.resources.items.map Resource.anonymous)
  claims : (left.claims.map TopologyClaim.undated).Perm (right.claims.map TopologyClaim.undated)
  dependencies : (left.dependencies.map DependencyCandidate.undated).Perm
    (right.dependencies.map DependencyCandidate.undated)

theorem Same.refl (catalog : SoftwareCatalog) : Same catalog catalog :=
  ⟨.refl _, .refl _, .refl _, .refl _, .refl _, .refl _⟩

structure Issued (catalog : SoftwareCatalog) : Prop where
  systems : ∀ s ∈ catalog.systems.items, s.id.Below catalog.nextUuid
  components : ∀ c ∈ catalog.components.items, c.id.Below catalog.nextUuid
  interfaces : ∀ i ∈ catalog.interfaces.items, i.id.Below catalog.nextUuid
  resources : ∀ r ∈ catalog.resources.items, r.id.Below catalog.nextUuid

/-- The name of an interface's component and its own. -/
def interfaceIdentity (catalog : SoftwareCatalog) (i : Interface) : Option String × String :=
  ((catalog.components.get i.componentId).map SoftwareComponent.name, i.name)

/-- The catalog `after` has what `before` has and one of everything that was
discovered. An interface belongs to a discovered component. -/
structure HasOnce (projectId : ProjectId) (found : DiscoveredTopology) (before after : SoftwareCatalog) : Prop where
  components : ∃ added, after.components.items = before.components.items ++ added ∧
    added.map SoftwareComponent.name = found.components.map ComponentCandidate.name ∧
    (added.map SoftwareComponent.name).Nodup
  systems : ∃ added, after.systems.items = before.systems.items ++ added ∧
    added.map (fun s => (s.projectId, s.name)) = if found.components = [] then [] else [(projectId, "default")]
  interfaces : ∃ added, after.interfaces.items = before.interfaces.items ++ added ∧
    added.map after.interfaceIdentity =
      (found.interfaces.filter fun i => i.componentName ∈ found.components.map ComponentCandidate.name).map
        (fun i => (some i.componentName, i.name)) ∧
    (added.map after.interfaceIdentity).Nodup
  resources : ∃ added, after.resources.items = before.resources.items ++ added ∧
    added.map Resource.name = found.resources.map ResourceCandidate.name ∧ (added.map Resource.name).Nodup
  claims : (after.claims.map TopologyClaim.undated).Perm
    ((before.claims ++ TopologyReconciler.claims found).map TopologyClaim.undated)
  dependencies : (after.dependencies.map DependencyCandidate.undated).Perm
    ((before.dependencies ++ found.dependencies.map fun d : DependencyCandidate => { d with projectId := some projectId }).map
      DependencyCandidate.undated)

end SoftwareCatalog

/-! ### What is discovered again -/

namespace DiscoveredTopology
variable {x y : DiscoveredTopology}

theorem undated_merge (topology other : DiscoveredTopology) :
    (topology.merge other).undated = topology.undated.merge other.undated := by
  simp only [undated, merge, mergeComponents, mergeInterfaces, mergeResources, mergeDependencies]
  congr 1
  · apply FirstWriter.map_foldl
    exact fun _ => rfl
  · apply FirstWriter.map_foldl
    exact fun _ => rfl
  · apply FirstWriter.map_foldl
    exact fun _ => rfl
  · apply FirstWriter.map_foldl
    exact fun _ => rfl

theorem names_undated (topology : DiscoveredTopology) :
    topology.undated.components.map ComponentCandidate.name = topology.components.map ComponentCandidate.name := by
  rw [undated, List.map_map]
  rfl

theorem claims_undated (topology : DiscoveredTopology) :
    (TopologyReconciler.claims topology).map TopologyClaim.undated = TopologyReconciler.claims topology.undated := by
  simp only [TopologyReconciler.claims, undated, List.map_append, List.map_map]
  rfl

def Nothing (topology : DiscoveredTopology) : Prop :=
  TopologyReconciler.claims topology = [] ∧ topology.dependencies = []

theorem nothing_iff : x.Nothing ↔ x.components = [] ∧ x.interfaces = [] ∧ x.resources = [] ∧ x.dependencies = [] := by
  simp [Nothing, TopologyReconciler.claims, and_assoc]

theorem nothing_of_undated (same : x.undated = y.undated) (nothing : x.Nothing) : y.Nothing := by
  have claims : (TopologyReconciler.claims x).map TopologyClaim.undated =
      (TopologyReconciler.claims y).map TopologyClaim.undated := by
    rw [claims_undated, claims_undated, same]
  have dependencies : x.undated.dependencies = y.undated.dependencies := by rw [same]
  obtain ⟨noClaims, noDependencies⟩ := nothing
  rw [noClaims] at claims
  simp only [undated, noDependencies] at dependencies
  exact ⟨List.map_eq_nil_iff.mp claims.symm, List.map_eq_nil_iff.mp dependencies.symm⟩

end DiscoveredTopology

theorem discoverAll_stable (detectors : List Detector) (now later : Time) (repositoryId : RepositoryId)
    (revision : String) (snapshotFiles : SnapshotFiles) :
    (discoverAll detectors now repositoryId revision snapshotFiles).undated =
      (discoverAll detectors later repositoryId revision snapshotFiles).undated := by
  have run : ∀ x y : DiscoveredTopology, x.undated = y.undated →
      (detectors.foldl (fun topology detector => topology.merge (detector.detect now repositoryId revision snapshotFiles
        (topology.components.map ComponentCandidate.name))) x).undated =
      (detectors.foldl (fun topology detector => topology.merge (detector.detect later repositoryId revision snapshotFiles
        (topology.components.map ComponentCandidate.name))) y).undated := by
    induction detectors with
    | nil => exact fun x y same => same
    | cons detector detectors ih =>
      intro x y same
      have names : x.components.map ComponentCandidate.name = y.components.map ComponentCandidate.name := by
        rw [← x.names_undated, same, y.names_undated]
      apply ih
      rw [DiscoveredTopology.undated_merge, DiscoveredTopology.undated_merge, same, names]
      exact congrArg _ (detector.stable now later repositoryId revision snapshotFiles _)
  exact run _ _ rfl

/-! ### Runs -/

namespace TopologyDiscoveryService
open SoftwareCatalog
variable {detectors : List Detector} {projectId : ProjectId} {repositoryId : RepositoryId} {revision : String}
  {snapshotFiles : SnapshotFiles} {now : Time} {catalog : SoftwareCatalog}

def runs (service : TopologyDiscoveryService) (projectId : ProjectId) (repositoryId : RepositoryId) (revision : String)
    (snapshotFiles : SnapshotFiles) (times : List Time) (catalog : SoftwareCatalog) : SoftwareCatalog :=
  times.foldl (fun catalog now =>
    (service.discoverAndPersist projectId repositoryId revision snapshotFiles now catalog).2) catalog

theorem items_foldl_numbered {α β : Type} {build : Uuid → α → β} {key : β → Uuid} {table : Keyed key} {m next : Nat}
    {as : List α} (isId : ∀ id a, key (build id a) = id) (below : ∀ b ∈ table.items, (key b).Below m) (le : m ≤ next) :
    ((numbered next build as).foldl Keyed.upsert table).items = table.items ++ numbered next build as := by
  refine Keyed.items_foldl_upsert_fresh (fun b member old stored => ?_) (nodup_numbered isId)
  exact (below_numbered isId member).2 (key old) ((below old stored).mono le)

theorem map_byName (components : List SoftwareComponent) (candidates : List InterfaceCandidate) :
    (candidates.filterMap fun candidate =>
      (byName components candidate.componentName).map fun component => (component, candidate)).map
        (fun pair => (some pair.1.name, pair.2.name)) =
      (candidates.filter fun i => i.componentName ∈ components.map SoftwareComponent.name).map
        (fun i => (some i.componentName, i.name)) := by
  induction candidates with
  | nil => rfl
  | cons candidate candidates ih =>
    rw [List.filterMap_cons, List.filter_cons]
    by_cases named : candidate.componentName ∈ components.map SoftwareComponent.name
    · obtain ⟨c, listed, isName⟩ := List.mem_map.mp named
      obtain ⟨component, found⟩ := LastWriter.exists_last SoftwareComponent.name listed
      rw [isName] at found
      have sameName := (LastWriter.last_eq_some found).2
      simp only [byName, found, named, Option.map_some, decide_true, if_true, List.map_cons, sameName] at ih ⊢
      rw [ih]
    · have missing : byName components candidate.componentName = none := by
        cases found : byName components candidate.componentName with
        | none => rfl
        | some component =>
          obtain ⟨listed, sameName⟩ := LastWriter.last_eq_some found
          exact absurd (sameName ▸ List.mem_map_of_mem listed) named
      simp only [missing, named, Option.map_none, decide_false, Bool.false_eq_true, if_false]
      exact ih

section Run
variable (projectId) (service : TopologyDiscoveryService) {topology : DiscoveredTopology}
  (isFound : service.discoverer now repositoryId revision snapshotFiles = topology) (issued : catalog.Issued)
include isFound issued

theorem components_run :
    let run := service.discoverAndPersist projectId repositoryId revision snapshotFiles now catalog
    run.2.components.items = catalog.components.items ++ run.1.components ∧
      run.1.components.map SoftwareComponent.name = topology.components.map ComponentCandidate.name := by
  intro run
  subst isFound
  constructor
  · rw [show run.2 = _ from discoverAndPersist_catalog ..]
    exact items_foldl_numbered (fun _ _ => rfl) issued.components (Nat.le_refl _)
  · exact map_numbered fun _ _ _ => rfl

theorem systems_run :
    let run := service.discoverAndPersist projectId repositoryId revision snapshotFiles now catalog
    run.2.systems.items = catalog.systems.items ++ run.1.systems ∧
      run.1.systems.map (fun s => (s.projectId, s.name)) =
        if topology.components = [] then [] else [(projectId, "default")] := by
  intro run
  have names := (components_run projectId service isFound issued).2
  have systemsOf : run.1.systems = systems (catalog.nextUuid + run.1.components.length) projectId run.1.components := rfl
  have none : run.1.components = [] ↔ topology.components = [] := by
    rw [← List.map_eq_nil_iff (f := SoftwareComponent.name), names, List.map_eq_nil_iff]
  have written : run.2.systems = run.1.systems.foldl Keyed.upsert catalog.systems := by
    rw [show run.2 = _ from discoverAndPersist_catalog ..]
  rw [written, systemsOf]
  by_cases empty : topology.components = []
  · simp only [systems, none.mpr empty, empty, if_true]
    exact ⟨(List.append_nil _).symm, rfl⟩
  · simp only [systems, mt none.mp empty, empty, if_false]
    refine ⟨Keyed.items_upsert_fresh fun s stored => ?_, rfl⟩
    exact ((issued.systems s stored).mono (Nat.le_add_right _ _)).ne_fresh

theorem interfaces_run (identities : (topology.interfaces.map InterfaceCandidate.identity).Nodup) :
    let run := service.discoverAndPersist projectId repositoryId revision snapshotFiles now catalog
    run.2.interfaces.items = catalog.interfaces.items ++ run.1.interfaces ∧
      run.1.interfaces.map run.2.interfaceIdentity =
        (topology.interfaces.filter fun i => i.componentName ∈ topology.components.map ComponentCandidate.name).map
          (fun i => (some i.componentName, i.name)) ∧
      (run.1.interfaces.map run.2.interfaceIdentity).Nodup := by
  intro run
  obtain ⟨stored, names⟩ := components_run projectId service isFound issued
  have identified : run.1.interfaces.map run.2.interfaceIdentity =
      (topology.interfaces.filter fun i => i.componentName ∈ topology.components.map ComponentCandidate.name).map
        (fun i => (some i.componentName, i.name)) := by
    rw [← names, ← map_byName]
    subst isFound
    refine map_numbered fun pair member id => ?_
    obtain ⟨candidate, _, paired⟩ := List.mem_filterMap.mp member
    obtain ⟨component, found, rfl⟩ := Option.map_eq_some_iff.mp paired
    have listed : component ∈ run.2.components.items := by
      rw [stored]
      exact List.mem_append_right _ (LastWriter.last_eq_some found).1
    have got : run.2.components.get component.id = some component := Keyed.get_eq_some.mpr ⟨listed, rfl⟩
    simp only [interfaceIdentity, interface, got, Option.map_some]
  refine ⟨?_, identified, ?_⟩
  · have later : catalog.nextUuid ≤ catalog.nextUuid + run.1.components.length + run.1.systems.length := by omega
    rw [show run.2 = _ from discoverAndPersist_catalog ..]
    exact items_foldl_numbered (fun _ _ => rfl) issued.interfaces later
  · rw [identified]
    refine List.Nodup.map_on (fun i member j member' same => ?_) ((List.Nodup.of_map _ identities).filter _)
    obtain ⟨sameComponent, sameName⟩ := Prod.mk.inj same
    exact List.inj_on_of_nodup_map identities (List.mem_of_mem_filter member) (List.mem_of_mem_filter member')
      (Prod.ext (Option.some.inj sameComponent) sameName)

theorem resources_run :
    let run := service.discoverAndPersist projectId repositoryId revision snapshotFiles now catalog
    run.2.resources.items = catalog.resources.items ++ run.1.resources ∧
      run.1.resources.map Resource.name = topology.resources.map ResourceCandidate.name := by
  intro run
  subst isFound
  constructor
  · have later : catalog.nextUuid ≤
        catalog.nextUuid + run.1.components.length + run.1.systems.length + run.1.interfaces.length := by omega
    rw [show run.2 = _ from discoverAndPersist_catalog ..]
    exact items_foldl_numbered (fun _ _ => rfl) issued.resources later
  · exact map_numbered fun _ _ _ => rfl

end Run

theorem hasOnce_run (detectors : List Detector) (issued : catalog.Issued) :
    HasOnce projectId (discoverAll detectors now repositoryId revision snapshotFiles) catalog
      (discoverAndPersist { discoverer := discoverAll detectors } projectId repositoryId revision snapshotFiles now
        catalog).2 := by
  have discovered : Firsts (passes detectors now repositoryId revision snapshotFiles)
      (discoverAll detectors now repositoryId revision snapshotFiles) := discoverAll_firsts detectors
  have written := discoverAndPersist_catalog { discoverer := discoverAll detectors } projectId repositoryId revision
    snapshotFiles now catalog
  obtain ⟨components, componentNames⟩ := components_run projectId { discoverer := discoverAll detectors }
    rfl issued
  refine ⟨⟨_, components, componentNames, ?_⟩, ⟨_, systems_run _ _ rfl issued⟩, ⟨_, interfaces_run _ _ rfl issued ?_⟩,
    ⟨_, (resources_run _ _ rfl issued).1, (resources_run _ _ rfl issued).2, ?_⟩, ?_, ?_⟩
  · rw [componentNames, discovered.components]
    exact FirstWriter.nodup_firsts _
  · rw [discovered.interfaces]
    exact FirstWriter.nodup_firsts _
  · rw [(resources_run _ _ rfl issued).2, discovered.resources]
    exact FirstWriter.nodup_firsts _
  · rw [written]
    exact .refl _
  · rw [written]
    exact .refl _

theorem run_of_nothing {service : TopologyDiscoveryService}
    (nothing : (service.discoverer now repositoryId revision snapshotFiles).Nothing) :
    (service.discoverAndPersist projectId repositoryId revision snapshotFiles now catalog).2 = catalog := by
  obtain ⟨components, interfaces, resources, dependencies⟩ := DiscoveredTopology.nothing_iff.mp nothing
  simp [discoverAndPersist, TopologyReconciler.claims, components, interfaces, resources, dependencies, numbered, systems,
    TopologyDiscoveryService.interfaces, SoftwareCatalog.saveClaims, SoftwareCatalog.saveDependencies]

theorem runs_of_nothing (nothing : (discoverAll detectors now repositoryId revision snapshotFiles).Nothing)
    (times : List Time) :
    runs { discoverer := discoverAll detectors } projectId repositoryId revision snapshotFiles times catalog =
      catalog := by
  induction times with
  | nil => rfl
  | cons later times ih =>
    have again := DiscoveredTopology.nothing_of_undated
      (discoverAll_stable detectors now later repositoryId revision snapshotFiles) nothing
    rw [runs, List.foldl_cons, run_of_nothing again]
    exact ih

theorem length_runs (detectors : List Detector) (projectId : ProjectId) (repositoryId : RepositoryId) (revision : String)
    (snapshotFiles : SnapshotFiles) (now : Time) (times : List Time) (catalog : SoftwareCatalog) :
    let found := discoverAll detectors now repositoryId revision snapshotFiles
    let after := runs { discoverer := discoverAll detectors } projectId repositoryId revision snapshotFiles times catalog
    after.claims.length = catalog.claims.length + times.length * (TopologyReconciler.claims found).length ∧
      after.dependencies.length = catalog.dependencies.length + times.length * found.dependencies.length := by
  induction times generalizing catalog with
  | nil => simp [runs]
  | cons later times ih =>
    have stable := discoverAll_stable detectors later now repositoryId revision snapshotFiles
    have claims : (TopologyReconciler.claims (discoverAll detectors later repositoryId revision snapshotFiles)).length =
        (TopologyReconciler.claims (discoverAll detectors now repositoryId revision snapshotFiles)).length := by
      rw [← List.length_map (f := TopologyClaim.undated), DiscoveredTopology.claims_undated, stable,
        ← DiscoveredTopology.claims_undated, List.length_map]
    have dependencies : (discoverAll detectors later repositoryId revision snapshotFiles).dependencies.length =
        (discoverAll detectors now repositoryId revision snapshotFiles).dependencies.length := by
      have lengths := congrArg (fun topology => topology.dependencies.length) stable
      simpa only [DiscoveredTopology.undated, List.length_map] using lengths
    have first := discoverAndPersist_catalog { discoverer := discoverAll detectors } projectId repositoryId revision
      snapshotFiles later catalog
    obtain ⟨claimsAfter, dependenciesAfter⟩ := ih (discoverAndPersist { discoverer := discoverAll detectors } projectId
      repositoryId revision snapshotFiles later catalog).2
    refine ⟨claimsAfter.trans ?_, dependenciesAfter.trans ?_⟩
    · have saved : (discoverAndPersist { discoverer := discoverAll detectors } projectId repositoryId revision
          snapshotFiles later catalog).2.claims.length = catalog.claims.length + (TopologyReconciler.claims
            (discoverAll detectors later repositoryId revision snapshotFiles)).length := by
        rw [first]
        exact List.length_append
      rw [saved, claims, List.length_cons, Nat.succ_mul]
      omega
    · have saved : (discoverAndPersist { discoverer := discoverAll detectors } projectId repositoryId revision
          snapshotFiles later catalog).2.dependencies.length = catalog.dependencies.length +
            (discoverAll detectors later repositoryId revision snapshotFiles).dependencies.length := by
        rw [first]
        simp [discoverAndPersist]
      rw [saved, dependencies, List.length_cons, Nat.succ_mul]
      omega

/-- One run leaves one of everything discovered beside what was there. More
runs leave the same only if nothing was discovered: each draws new ids and
appends its claims and dependencies. -/
theorem runs_same_iff (detectors : List Detector) (projectId : ProjectId) (repositoryId : RepositoryId)
    (revision : String) (snapshotFiles : SnapshotFiles) (now : Time) (rest : List Time) (catalog : SoftwareCatalog)
    (issued : catalog.Issued) :
    let found := discoverAll detectors now repositoryId revision snapshotFiles
    let after := fun times =>
      runs { discoverer := discoverAll detectors } projectId repositoryId revision snapshotFiles times catalog
    Same (after (now :: rest)) (after [now]) ∧ HasOnce projectId found catalog (after (now :: rest)) ↔
      rest = [] ∨ found.Nothing := by
  intro found after
  have lengths := fun times => length_runs detectors projectId repositoryId revision snapshotFiles now times catalog
  have claimsOf : ∀ times, (after times).claims.length =
      catalog.claims.length + times.length * (TopologyReconciler.claims found).length := fun times => (lengths times).1
  have dependenciesOf : ∀ times, (after times).dependencies.length =
      catalog.dependencies.length + times.length * found.dependencies.length := fun times => (lengths times).2
  constructor
  · rintro ⟨same, _⟩
    by_cases more : rest = []
    · exact Or.inl more
    · right
      have times : rest.length ≠ 0 := mt List.length_eq_zero_iff.mp more
      have claims := same.claims.length_eq
      rw [List.length_map, List.length_map, claimsOf, claimsOf, List.length_cons, List.length_singleton,
        Nat.succ_mul] at claims
      have noClaims : rest.length * (TopologyReconciler.claims found).length = 0 := by omega
      have dependencies := same.dependencies.length_eq
      rw [List.length_map, List.length_map, dependenciesOf, dependenciesOf, List.length_cons, List.length_singleton,
        Nat.succ_mul] at dependencies
      have noDependencies : rest.length * found.dependencies.length = 0 := by omega
      exact ⟨List.length_eq_zero_iff.mp ((Nat.mul_eq_zero.mp noClaims).resolve_left times),
        List.length_eq_zero_iff.mp ((Nat.mul_eq_zero.mp noDependencies).resolve_left times)⟩
  · rintro (rfl | nothing)
    · exact ⟨Same.refl _, hasOnce_run detectors issued⟩
    · have unchanged : ∀ times, after times = catalog := runs_of_nothing nothing
      have once : HasOnce projectId found catalog (after [now]) := hasOnce_run detectors issued
      rw [unchanged] at once
      rw [unchanged, unchanged]
      exact ⟨Same.refl _, once⟩

/-- A `pyproject.toml` with a name and a dependency that is a resource. -/
def authManifest : Detector where
  detect now repositoryId revision _ _ :=
    let evidence : KnowledgeEvidence :=
      { sourceType := "manifest", sourceId := some "pyproject.toml", discoveryMethod := .manifestAnalysis,
        origin := .discovered, observedAt := now, confidence := .high, commitSha := some revision,
        revisionScope := some { commitSha := some revision, sourcePath := some "pyproject.toml" } }
    { repositoryId, revision
      components := [{ name := "auth", componentType := .backendService, repositoryId, revision,
                       sourcePaths := ["pyproject.toml"], provenance := evidence }]
      resources := [{ name := "PostgreSQL", resourceType := .postgresql, repositoryId, revision,
                      sourcePaths := ["pyproject.toml"], provenance := evidence }]
      dependencies := [{ source := "auth", target := "PostgreSQL", repositoryId, revision,
                         sourcePaths := ["pyproject.toml"], provenance := evidence }] }
  stable _ _ _ _ _ _ := rfl

def authFiles : SnapshotFiles := [("pyproject.toml", "name = \"auth\"\ndependencies = [\"asyncpg\"]")]

/-- A catalog with a component of another repository of the project. -/
def gatewayCatalog : SoftwareCatalog :=
  { components := Keyed.empty.upsert
      { id := .v4 3, projectId := .v4 0, name := "gateway", repositoryIds := [.v4 2] }
    nextUuid := 4 }

theorem gatewayCatalog_issued : gatewayCatalog.Issued := by
  refine ⟨by simp [gatewayCatalog], ?_, by simp [gatewayCatalog], by simp [gatewayCatalog]⟩
  intro c stored
  obtain rfl := List.mem_singleton.mp stored
  exact Uuid.fresh_below 3

theorem one_run_has_once :
    Same (runs { discoverer := discoverAll [authManifest] } (.v4 0) (.v4 1) "abc" authFiles [5] gatewayCatalog)
        (runs { discoverer := discoverAll [authManifest] } (.v4 0) (.v4 1) "abc" authFiles [5] gatewayCatalog) ∧
      HasOnce (.v4 0) (discoverAll [authManifest] 5 (.v4 1) "abc" authFiles) gatewayCatalog
        (runs { discoverer := discoverAll [authManifest] } (.v4 0) (.v4 1) "abc" authFiles [5] gatewayCatalog) :=
  (runs_same_iff [authManifest] (.v4 0) (.v4 1) "abc" authFiles 5 [] gatewayCatalog gatewayCatalog_issued).2 (Or.inl rfl)

/-- After a second run of the same revision the catalog lists the component twice. -/
theorem second_run_repeats :
    ((runs { discoverer := discoverAll [authManifest] } (.v4 0) (.v4 1) "abc" authFiles [5, 6]
        gatewayCatalog).listComponents (.v4 0)).map SoftwareComponent.name = ["gateway", "auth", "auth"] ∧
      ¬ Same (runs { discoverer := discoverAll [authManifest] } (.v4 0) (.v4 1) "abc" authFiles [5, 6] gatewayCatalog)
        (runs { discoverer := discoverAll [authManifest] } (.v4 0) (.v4 1) "abc" authFiles [5] gatewayCatalog) := by
  refine ⟨by decide, fun same => ?_⟩
  exact absurd same.components.length_eq (by decide)

end TopologyDiscoveryService

end Brain

namespace Brain
open FirstWriter

/-! ### Merging -/

/-- A merged list keeps what was there, and takes from the incoming list the
first entry of every identity that was not. -/
structure Merges {α κ : Type} [DecidableEq κ] (identity : α → κ) (existing incoming merged : List α) : Prop where
  occurs : ∀ k, k ∈ merged.map identity ↔ k ∈ existing.map identity ∨ k ∈ incoming.map identity
  entries : ∃ added, merged = existing ++ added ∧ added.Sublist incoming ∧ (added.map identity).Nodup ∧
    ∀ a ∈ added, identity a ∉ existing.map identity ∧ first identity incoming (identity a) = some a

theorem merges_foldl {α κ : Type} [DecidableEq κ] (identity : α → κ) (existing incoming : List α) :
    Merges identity existing incoming (incoming.foldl (enter identity) existing) := by
  obtain ⟨added, whole, listed, nodup, new⟩ := @foldl_added _ _ _ identity existing incoming
  refine ⟨fun _ => mem_keys_foldl, added, whole, listed, nodup, ?_⟩
  intro a member
  refine ⟨new a member, ?_⟩
  -- the identity of `a` leads to `a` in the merged list, and to nothing in `existing`
  have found : first identity (incoming.foldl (enter identity) existing) (identity a) = some a := by
    rw [whole, first_append, first_eq_none.mpr (new a member), Option.none_or]
    exact first_of_mem nodup member
  rwa [first_foldl, first_eq_none.mpr (new a member), Option.none_or] at found

namespace DiscoveredTopology

structure MergeOf (topology other merged : DiscoveredTopology) : Prop where
  components : Merges ComponentCandidate.name topology.components other.components merged.components
  interfaces : Merges InterfaceCandidate.identity topology.interfaces other.interfaces merged.interfaces
  resources : Merges ResourceCandidate.name topology.resources other.resources merged.resources
  dependencies : Merges DependencyCandidate.identity topology.dependencies other.dependencies merged.dependencies

theorem merge_mergeOf (topology other : DiscoveredTopology) : MergeOf topology other (topology.merge other) :=
  ⟨merges_foldl _ _ _, merges_foldl _ _ _, merges_foldl _ _ _, merges_foldl _ _ _⟩

theorem merge_twice (topology other : DiscoveredTopology) : (topology.merge other).merge other = topology.merge other := by
  simp only [merge, mergeComponents, mergeInterfaces, mergeResources, mergeDependencies, foldl_twice]

theorem merge_assoc (topology other third : DiscoveredTopology) :
    (topology.merge other).merge third = topology.merge (other.merge third) := by
  simp only [merge, mergeComponents, mergeInterfaces, mergeResources, mergeDependencies, foldl_assoc]

end DiscoveredTopology

/-! ### Reconciling -/

theorem TopologyClaim.beats_weak : Contest.Weak TopologyClaim.beats where
  toRanks := beats_ranks
  unranked {a b c} loses loses' := by
    unfold beats at *
    split_ifs at * <;> simp only [decide_eq_false_iff_not] at * <;> omega

namespace TopologyReconciler

def Unbeaten (claims : List TopologyClaim) (claim : TopologyClaim) : Prop :=
  Contest.Unbeaten TopologyClaim.key TopologyClaim.beats claims claim

instance (claims : List TopologyClaim) (claim : TopologyClaim) : Decidable (Unbeaten claims claim) := by
  unfold Unbeaten
  infer_instance

/-- Of two claims of one entity one beats the other. -/
def Untied (claims : List TopologyClaim) : Prop := Contest.Untied TopologyClaim.key TopologyClaim.beats claims

structure Reconciles (claims : List TopologyClaim) (winners : CandidateKind × String → Option String) : Prop where
  occurs : ∀ key, (winners key).isSome ↔ key ∈ claims.map TopologyClaim.key
  first : ∀ key, winners key =
    (claims.find? fun claim => claim.key = key ∧ Unbeaten claims claim).map TopologyClaim.value

theorem reconcile_reconciles (claims : List TopologyClaim) : Reconciles claims (reconcile claims) := by
  have decided : Contest.Decided TopologyClaim.beats (best claims) claims :=
    Contest.champions_decided TopologyClaim.beats_ranks claims
  refine ⟨?_, ?_⟩
  · intro key
    rw [reconcile, Option.isSome_map, List.mem_map]
    constructor
    · intro found
      obtain ⟨claim, isBest⟩ := Option.isSome_iff_exists.mp found
      exact ⟨claim, decided.listed key claim isBest⟩
    · rintro ⟨claim, member, rfl⟩
      obtain ⟨winner, isBest⟩ := decided.entered claim member
      rw [isBest]
      rfl
  · intro key
    have champion : (best claims).get key = claims.find? fun claim => claim.key = key ∧ Unbeaten claims claim :=
      Contest.get_champions TopologyClaim.beats_weak claims key
    rw [reconcile, champion]

theorem reconcile_perm {claims permuted : List TopologyClaim} (perm : claims.Perm permuted) (untied : Untied claims) :
    reconcile claims = reconcile permuted := by
  funext key
  exact congrArg (Option.map TopologyClaim.value)
    (Contest.get_champions_perm TopologyClaim.beats_ranks perm untied key)

end TopologyReconciler

open TopologyReconciler

/-- Merging is idempotent and associative and loses no identity, and
reconciliation selects the first claim that is unbeaten. -/
theorem topology_laws :
    (∀ topology other : DiscoveredTopology, (topology.merge other).merge other = topology.merge other) ∧
    (∀ topology other third : DiscoveredTopology,
      (topology.merge other).merge third = topology.merge (other.merge third)) ∧
    (∀ topology other : DiscoveredTopology, topology.MergeOf other (topology.merge other)) ∧
    (∀ claims, Reconciles claims (reconcile claims)) ∧
    ∀ claims permuted : List TopologyClaim, claims.Perm permuted → Untied claims → reconcile claims = reconcile permuted :=
  ⟨DiscoveredTopology.merge_twice, DiscoveredTopology.merge_assoc, DiscoveredTopology.merge_mergeOf,
    reconcile_reconciles, fun _ _ => reconcile_perm⟩

end Brain
