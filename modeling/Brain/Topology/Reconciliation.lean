import Brain.Application.Topology

namespace Brain

/-! ### Numbered entries -/

section Numbered
variable {α β γ : Type} {build : Uuid → α → β} {next : Nat} {as : List α}

theorem map_numbered {f : β → γ} {g : α → γ} (same : ∀ a ∈ as, ∀ id, f (build id a) = g a) :
    (numbered next build as).map f = as.map g := by
  have firsts : (as.zipIdx next).map Prod.fst = as := List.zipIdx_map_fst next as
  calc (numbered next build as).map f = (as.zipIdx next).map fun a => g a.1 := by
        rw [numbered, List.map_map]
        exact List.map_congr_left fun a member => same a.1 (List.fst_mem_of_mem_zipIdx member) (.v4 a.2)
    _ = ((as.zipIdx next).map Prod.fst).map g := (List.map_map ..).symm
    _ = as.map g := by rw [firsts]

theorem length_numbered : (numbered next build as).length = as.length := by
  rw [numbered, List.length_map, List.length_zipIdx]

theorem mem_numbered {b : β} (member : b ∈ numbered next build as) :
    ∃ n, ∃ a ∈ as, next ≤ n ∧ n < next + as.length ∧ build (.v4 n) a = b := by
  obtain ⟨⟨a, n⟩, listed, isBuilt⟩ := List.mem_map.mp member
  obtain ⟨low, high, atIndex⟩ := List.mem_zipIdx listed
  exact ⟨n, a, atIndex ▸ List.getElem_mem _, low, high, isBuilt⟩

theorem nodup_numbered {key : β → Uuid} (isId : ∀ id a, key (build id a) = id) :
    ((numbered next build as).map key).Nodup := by
  have ids : (numbered next build as).map key = (List.range' next as.length).map Uuid.v4 := by
    rw [numbered, List.map_map, ← List.zipIdx_map_snd next as, List.map_map]
    exact List.map_congr_left fun a _ => isId _ _
  rw [ids]
  exact List.Nodup.map (fun _ _ same => Uuid.v4.inj same) List.nodup_range'

theorem below_numbered {key : β → Uuid} (isId : ∀ id a, key (build id a) = id) {b : β}
    (member : b ∈ numbered next build as) :
    (key b).Below (next + (numbered next build as).length) ∧ ∀ old : Uuid, old.Below next → old ≠ key b := by
  obtain ⟨n, a, _, low, high, rfl⟩ := mem_numbered member
  rw [isId, length_numbered]
  exact ⟨high, fun old below => (below.mono low).ne_fresh⟩

end Numbered

/-! ### What the passes leave -/

def passesFrom (now : Time) (repositoryId : RepositoryId) (revision : String) (snapshotFiles : SnapshotFiles) :
    DiscoveredTopology → List Detector → List DiscoveredTopology
  | _, [] => []
  | topology, detector :: detectors =>
    let pass := detector.detect now repositoryId revision snapshotFiles
      (topology.components.map ComponentCandidate.name)
    pass :: passesFrom now repositoryId revision snapshotFiles (topology.merge pass) detectors

def passes (detectors : List Detector) (now : Time) (repositoryId : RepositoryId) (revision : String)
    (snapshotFiles : SnapshotFiles) : List DiscoveredTopology :=
  passesFrom now repositoryId revision snapshotFiles { repositoryId, revision } detectors

section Passes
variable {now : Time} {repositoryId : RepositoryId} {revision : String} {snapshotFiles : SnapshotFiles}

theorem discoverAll_eq (detectors : List Detector) :
    discoverAll detectors now repositoryId revision snapshotFiles =
      (passes detectors now repositoryId revision snapshotFiles).foldl DiscoveredTopology.merge
        { repositoryId, revision } := by
  unfold discoverAll passes
  generalize ({ repositoryId, revision } : DiscoveredTopology) = topology
  induction detectors generalizing topology with
  | nil => rfl
  | cons detector detectors ih => exact ih _

theorem foldl_merge {α κ : Type} [DecidableEq κ] {kind : DiscoveredTopology → List α} {identity : α → κ}
    (enters : ∀ topology other, kind (DiscoveredTopology.merge topology other) =
      (kind other).foldl (FirstWriter.enter identity) (kind topology))
    (passes : List DiscoveredTopology) (topology : DiscoveredTopology) :
    kind (passes.foldl DiscoveredTopology.merge topology) =
      (passes.flatMap kind).foldl (FirstWriter.enter identity) (kind topology) := by
  induction passes generalizing topology with
  | nil => rfl
  | cons pass passes ih => rw [List.foldl_cons, ih, enters, List.flatMap_cons, List.foldl_append]

structure Firsts (passes : List DiscoveredTopology) (topology : DiscoveredTopology) : Prop where
  components : topology.components =
    FirstWriter.firsts ComponentCandidate.name (passes.flatMap DiscoveredTopology.components)
  interfaces : topology.interfaces =
    FirstWriter.firsts InterfaceCandidate.identity (passes.flatMap DiscoveredTopology.interfaces)
  resources : topology.resources =
    FirstWriter.firsts ResourceCandidate.name (passes.flatMap DiscoveredTopology.resources)
  dependencies : topology.dependencies =
    FirstWriter.firsts DependencyCandidate.identity (passes.flatMap DiscoveredTopology.dependencies)

theorem discoverAll_firsts (detectors : List Detector) :
    Firsts (passes detectors now repositoryId revision snapshotFiles)
      (discoverAll detectors now repositoryId revision snapshotFiles) := by
  rw [discoverAll_eq]
  exact ⟨foldl_merge (fun _ _ => rfl) _ _, foldl_merge (fun _ _ => rfl) _ _, foldl_merge (fun _ _ => rfl) _ _,
    foldl_merge (fun _ _ => rfl) _ _⟩

end Passes

/-! ### What a run leaves in the catalog -/

namespace SoftwareCatalog
variable (catalog : SoftwareCatalog)

theorem foldl_upsertSystem (systems : List System) :
    systems.foldl upsertSystem catalog = { catalog with systems := systems.foldl Keyed.upsert catalog.systems } := by
  induction systems generalizing catalog with
  | nil => rfl
  | cons system systems ih => exact ih _

theorem foldl_upsertComponent (components : List SoftwareComponent) :
    components.foldl upsertComponent catalog =
      { catalog with components := components.foldl Keyed.upsert catalog.components } := by
  induction components generalizing catalog with
  | nil => rfl
  | cons component components ih => exact ih _

theorem foldl_upsertInterface (interfaces : List Interface) :
    interfaces.foldl upsertInterface catalog =
      { catalog with interfaces := interfaces.foldl Keyed.upsert catalog.interfaces } := by
  induction interfaces generalizing catalog with
  | nil => rfl
  | cons interface interfaces ih => exact ih _

theorem foldl_upsertResource (resources : List Resource) :
    resources.foldl upsertResource catalog =
      { catalog with resources := resources.foldl Keyed.upsert catalog.resources } := by
  induction resources generalizing catalog with
  | nil => rfl
  | cons resource resources ih => exact ih _

end SoftwareCatalog

namespace TopologyDiscoveryService
variable (service : TopologyDiscoveryService) (projectId : ProjectId) (repositoryId : RepositoryId) (revision : String)
  (snapshotFiles : SnapshotFiles) (now : Time) (catalog : SoftwareCatalog)

theorem discoverAndPersist_catalog :
    (service.discoverAndPersist projectId repositoryId revision snapshotFiles now catalog).2 =
      let result := (service.discoverAndPersist projectId repositoryId revision snapshotFiles now catalog).1
      { systems := result.systems.foldl Keyed.upsert catalog.systems
        components := result.components.foldl Keyed.upsert catalog.components
        interfaces := result.interfaces.foldl Keyed.upsert catalog.interfaces
        resources := result.resources.foldl Keyed.upsert catalog.resources
        claims := catalog.claims ++ result.claims
        dependencies := catalog.dependencies ++ result.topology.dependencies
        nextUuid := catalog.nextUuid + result.components.length + result.systems.length + result.interfaces.length +
          result.resources.length } := by
  simp only [discoverAndPersist, SoftwareCatalog.foldl_upsertSystem, SoftwareCatalog.foldl_upsertComponent,
    SoftwareCatalog.foldl_upsertInterface, SoftwareCatalog.foldl_upsertResource]
  rfl

end TopologyDiscoveryService

open FirstWriter

/-! ### What reconciliation selects -/

namespace TopologyClaim

/-- The claims state the same value with the same origin and confidence. -/
def States (claim other : TopologyClaim) : Prop :=
  claim.value = other.value ∧ claim.origin = other.origin ∧ claim.confidence = other.confidence

instance (claim other : TopologyClaim) : Decidable (claim.States other) := by unfold States; infer_instance

end TopologyClaim

namespace TopologyReconciler
variable {claims : List TopologyClaim} {key : CandidateKind × String} {value : String}

/-- `reconcile` selects the value, which a claim makes that no claim of the entity beats. -/
def Selects (claims : List TopologyClaim) (key : CandidateKind × String) (value : String) : Prop :=
  reconcile claims key = some value ∧
    ∃ winner ∈ claims, winner.key = key ∧ winner.value = value ∧ ∀ other ∈ claims, other.key = key → ¬ other.beats winner

variable {claim : TopologyClaim}

theorem exists_selects (member : claim ∈ claims) :
    ∃ winner ∈ claims, winner.key = claim.key ∧ Selects claims claim.key winner.value := by
  have decided : Contest.Decided TopologyClaim.beats (best claims) claims :=
    Contest.champions_decided TopologyClaim.beats_ranks claims
  obtain ⟨winner, found⟩ := decided.entered claim member
  obtain ⟨listed, isKey⟩ := decided.listed _ winner found
  refine ⟨winner, listed, isKey, ?_, winner, listed, isKey, rfl, ?_⟩
  · exact congrArg (Option.map TopologyClaim.value) found
  · intro other inClaims sameKey
    simp [decided.unbeaten _ winner found other inClaims sameKey]

theorem selects_of_agree (member : claim ∈ claims)
    (agree : ∀ other ∈ claims, other.key = claim.key → other.value = claim.value) :
    Selects claims claim.key claim.value := by
  obtain ⟨winner, listed, isKey, selected⟩ := exists_selects member
  rwa [agree winner listed isKey] at selected

theorem mem_claims {topology : DiscoveredTopology} :
    claim ∈ TopologyReconciler.claims topology ↔ (∃ c ∈ topology.components, c.claim = claim) ∨
      (∃ i ∈ topology.interfaces, i.claim = claim) ∨ ∃ r ∈ topology.resources, r.claim = claim := by
  simp only [TopologyReconciler.claims, List.mem_append, List.mem_map, or_assoc]

end TopologyReconciler

open TopologyReconciler

/-! ### Disagreement -/

section Disagreement
variable {passes : List DiscoveredTopology} {topology : DiscoveredTopology}

def allClaims (passes : List DiscoveredTopology) : List TopologyClaim := passes.flatMap claims

/-- Candidates of one entity state the same. -/
def Agree (passes : List DiscoveredTopology) : Prop :=
  ∀ claim ∈ allClaims passes, ∀ other ∈ allClaims passes, claim.key = other.key → claim.States other

instance (passes : List DiscoveredTopology) : Decidable (Agree passes) := by unfold Agree; infer_instance

/-- The name in an interface's claim tells its component and its own name. -/
def Unambiguous (passes : List DiscoveredTopology) : Prop :=
  ∀ i ∈ passes.flatMap DiscoveredTopology.interfaces, ∀ j ∈ passes.flatMap DiscoveredTopology.interfaces,
    i.claim.entityName = j.claim.entityName → i.identity = j.identity

/-- Every candidate is among the saved claims, and what is persisted has the
value that reconciliation selects from them. -/
structure Preserved (passes : List DiscoveredTopology) (before : SoftwareCatalog) (result : TopologyDiscoveryResult)
    (after : SoftwareCatalog) : Prop where
  saved : after.claims = before.claims ++ result.claims
  claimed : ∀ candidate ∈ allClaims passes, ∃ claim ∈ result.claims, claim.key = candidate.key ∧ claim.States candidate
  components : ∀ c ∈ result.components, c ∈ after.components.items ∧
    Selects result.claims (.component, c.name) c.componentType.value
  interfaces : ∀ i ∈ result.interfaces, i ∈ after.interfaces.items ∧ ∃ c ∈ result.components, c.id = i.componentId ∧
    Selects result.claims (.interface, c.name ++ ":" ++ i.name) i.type.value
  resources : ∀ r ∈ result.resources, r ∈ after.resources.items ∧
    Selects result.claims (.resource, r.name) r.resourceType.value

variable {claim : TopologyClaim}

theorem mem_allClaims :
    claim ∈ allClaims passes ↔ (∃ c ∈ passes.flatMap DiscoveredTopology.components, c.claim = claim) ∨
      (∃ i ∈ passes.flatMap DiscoveredTopology.interfaces, i.claim = claim) ∨
      ∃ r ∈ passes.flatMap DiscoveredTopology.resources, r.claim = claim := by
  simp only [allClaims, List.mem_flatMap, mem_claims]
  constructor
  · rintro ⟨pass, member, ⟨c, listed, isClaim⟩ | ⟨i, listed, isClaim⟩ | ⟨r, listed, isClaim⟩⟩
    · exact Or.inl ⟨c, ⟨pass, member, listed⟩, isClaim⟩
    · exact Or.inr (Or.inl ⟨i, ⟨pass, member, listed⟩, isClaim⟩)
    · exact Or.inr (Or.inr ⟨r, ⟨pass, member, listed⟩, isClaim⟩)
  · rintro (⟨c, ⟨pass, member, listed⟩, isClaim⟩ | ⟨i, ⟨pass, member, listed⟩, isClaim⟩ | ⟨r, ⟨pass, member, listed⟩, isClaim⟩)
    · exact ⟨pass, member, Or.inl ⟨c, listed, isClaim⟩⟩
    · exact ⟨pass, member, Or.inr (Or.inl ⟨i, listed, isClaim⟩)⟩
    · exact ⟨pass, member, Or.inr (Or.inr ⟨r, listed, isClaim⟩)⟩

theorem mem_allClaims_of_mem (discovered : Firsts passes topology) (member : claim ∈ claims topology)
    : claim ∈ allClaims passes := by
  rw [mem_claims, discovered.components, discovered.interfaces, discovered.resources] at member
  rw [mem_allClaims]
  rcases member with ⟨c, listed, isClaim⟩ | ⟨i, listed, isClaim⟩ | ⟨r, listed, isClaim⟩
  · exact Or.inl ⟨c, mem_of_mem_firsts listed, isClaim⟩
  · exact Or.inr (Or.inl ⟨i, mem_of_mem_firsts listed, isClaim⟩)
  · exact Or.inr (Or.inr ⟨r, mem_of_mem_firsts listed, isClaim⟩)

theorem exists_saved (discovered : Firsts passes topology) {candidate : TopologyClaim}
    (member : candidate ∈ allClaims passes) : ∃ claim ∈ claims topology, claim.key = candidate.key := by
  have taken : ∀ {α κ : Type} [DecidableEq κ] (identity : α → κ) {as : List α} {a : α}, a ∈ as →
      ∃ b ∈ firsts identity as, identity b = identity a := by
    intro α κ _ identity as a listed
    obtain ⟨b, found⟩ := exists_first (List.mem_map_of_mem (f := identity) listed)
    obtain ⟨_, same⟩ := first_eq_some found
    exact ⟨b, mem_firsts.mpr (same ▸ found), same⟩
  simp only [mem_claims, discovered.components, discovered.interfaces, discovered.resources]
  rcases mem_allClaims.mp member with ⟨c, listed, rfl⟩ | ⟨i, listed, rfl⟩ | ⟨r, listed, rfl⟩
  · obtain ⟨first, isFirst, same⟩ := taken ComponentCandidate.name listed
    exact ⟨first.claim, Or.inl ⟨first, isFirst, rfl⟩, congrArg (Prod.mk CandidateKind.component) same⟩
  · obtain ⟨first, isFirst, same⟩ := taken InterfaceCandidate.identity listed
    obtain ⟨sameComponent, sameName⟩ := Prod.mk.inj same
    refine ⟨first.claim, Or.inr (Or.inl ⟨first, isFirst, rfl⟩), ?_⟩
    simp only [TopologyClaim.key, InterfaceCandidate.claim, sameComponent, sameName]
  · obtain ⟨first, isFirst, same⟩ := taken ResourceCandidate.name listed
    exact ⟨first.claim, Or.inr (Or.inr ⟨first, isFirst, rfl⟩), congrArg (Prod.mk CandidateKind.resource) same⟩

theorem claims_injective (discovered : Firsts passes topology) (unambiguous : Unambiguous passes)
    {other : TopologyClaim} (member : claim ∈ claims topology) (member' : other ∈ claims topology)
    (same : claim.key = other.key) : claim = other := by
  rw [mem_claims, discovered.components, discovered.interfaces, discovered.resources] at member member'
  obtain ⟨sameKind, sameName⟩ := Prod.mk.inj same
  rcases member with ⟨c, listed, rfl⟩ | ⟨i, listed, rfl⟩ | ⟨r, listed, rfl⟩
  · rcases member' with ⟨d, listed', rfl⟩ | ⟨j, _, rfl⟩ | ⟨s, _, rfl⟩
    · rw [List.inj_on_of_nodup_map (nodup_firsts _) listed listed' sameName]
    · cases sameKind
    · cases sameKind
  · rcases member' with ⟨d, _, rfl⟩ | ⟨j, listed', rfl⟩ | ⟨s, _, rfl⟩
    · cases sameKind
    · have identity := unambiguous i (mem_of_mem_firsts listed) j (mem_of_mem_firsts listed') sameName
      rw [List.inj_on_of_nodup_map (nodup_firsts _) listed listed' identity]
    · cases sameKind
  · rcases member' with ⟨d, _, rfl⟩ | ⟨j, _, rfl⟩ | ⟨s, listed', rfl⟩
    · cases sameKind
    · cases sameKind
    · rw [List.inj_on_of_nodup_map (nodup_firsts _) listed listed' sameName]

end Disagreement

namespace TopologyDiscoveryService
variable {service : TopologyDiscoveryService} {projectId : ProjectId} {repositoryId : RepositoryId} {revision : String}
  {snapshotFiles : SnapshotFiles} {now : Time} {catalog : SoftwareCatalog} {found : List DiscoveredTopology}

theorem mem_byName {components : List SoftwareComponent} {name : String} {component : SoftwareComponent}
    (isNamed : byName components name = some component) : component ∈ components ∧ component.name = name :=
  LastWriter.last_eq_some isNamed

theorem mem_interfaces {next : Nat} {components : List SoftwareComponent} {topology : DiscoveredTopology}
    {i : Interface} (member : i ∈ interfaces next components topology) :
    ∃ candidate ∈ topology.interfaces, ∃ c ∈ components, c.name = candidate.componentName ∧ c.id = i.componentId ∧
      candidate.name = i.name ∧ candidate.interfaceType = i.type := by
  obtain ⟨_, ⟨c, candidate⟩, listed, _, _, rfl⟩ := mem_numbered member
  obtain ⟨source, inTopology, paired⟩ := List.mem_filterMap.mp listed
  obtain ⟨component, isNamed, same⟩ := Option.map_eq_some_iff.mp paired
  obtain ⟨rfl, rfl⟩ := Prod.mk.inj same
  obtain ⟨stored, isName⟩ := mem_byName isNamed
  exact ⟨source, inTopology, component, stored, isName, rfl, rfl, rfl⟩

theorem preserved_of_agree (discovered : Firsts found (service.discoverer now repositoryId revision snapshotFiles))
    (agree : Agree found) :
    let run := service.discoverAndPersist projectId repositoryId revision snapshotFiles now catalog
    Preserved found catalog run.1 run.2 := by
  intro run
  have claims : run.1.claims = TopologyReconciler.claims (service.discoverer now repositoryId revision snapshotFiles) := rfl
  have after : run.2 = _ := service.discoverAndPersist_catalog projectId repositoryId revision snapshotFiles now catalog
  -- all saved claims of an entity state what its candidates state
  have selects : ∀ claim ∈ run.1.claims, Selects run.1.claims claim.key claim.value := by
    intro claim member
    refine selects_of_agree member fun other inClaims sameKey => ?_
    rw [claims] at member inClaims
    exact (agree other (mem_allClaims_of_mem discovered inClaims) claim (mem_allClaims_of_mem discovered member) sameKey).1
  refine ⟨by rw [after], ?_, ?_, ?_, ?_⟩
  · intro candidate member
    obtain ⟨claim, saved, sameKey⟩ := exists_saved discovered member
    exact ⟨claim, saved, sameKey, agree claim (mem_allClaims_of_mem discovered saved) candidate member sameKey⟩
  · intro c member
    obtain ⟨_, candidate, listed, _, _, rfl⟩ := mem_numbered member
    refine ⟨?_, selects candidate.claim (mem_claims.mpr (Or.inl ⟨candidate, listed, rfl⟩))⟩
    rw [after]
    exact Keyed.stored_foldl_upsert (nodup_numbered fun _ _ => rfl) member
  · intro i member
    obtain ⟨candidate, listed, c, inComponents, isComponent, isId, isName, isType⟩ := mem_interfaces member
    refine ⟨?_, c, inComponents, isId, ?_⟩
    · rw [after]
      exact Keyed.stored_foldl_upsert (nodup_numbered fun _ _ => rfl) member
    · rw [isComponent, ← isName, ← isType]
      exact selects candidate.claim (mem_claims.mpr (Or.inr (Or.inl ⟨candidate, listed, rfl⟩)))
  · intro r member
    obtain ⟨_, candidate, listed, _, _, rfl⟩ := mem_numbered member
    refine ⟨?_, selects candidate.claim (mem_claims.mpr (Or.inr (Or.inr ⟨candidate, listed, rfl⟩)))⟩
    rw [after]
    exact Keyed.stored_foldl_upsert (nodup_numbered fun _ _ => rfl) member

theorem agree_of_preserved (discovered : Firsts found (service.discoverer now repositoryId revision snapshotFiles))
    (unambiguous : Unambiguous found)
    (preserved : let run := service.discoverAndPersist projectId repositoryId revision snapshotFiles now catalog
      Preserved found catalog run.1 run.2) : Agree found := by
  intro claim member other member' same
  obtain ⟨saved, inSaved, sameKey, stated⟩ := preserved.claimed claim member
  obtain ⟨saved', inSaved', sameKey', stated'⟩ := preserved.claimed other member'
  obtain rfl := claims_injective discovered unambiguous inSaved inSaved' (sameKey.trans (same.trans sameKey'.symm))
  exact ⟨stated.1.symm.trans stated'.1, stated.2.1.symm.trans stated'.2.1, stated.2.2.symm.trans stated'.2.2⟩

/-- What the manifest detector finds in a `pyproject.toml` and a `package.json`. -/
def manifestPass (packageName : String) : Detector where
  detect now repositoryId revision _ _ :=
    let evidence path : KnowledgeEvidence :=
      { sourceType := "manifest", sourceId := some path, discoveryMethod := .manifestAnalysis, origin := .discovered,
        observedAt := now, confidence := .high, commitSha := some revision,
        revisionScope := some { commitSha := some revision, sourcePath := some path } }
    { repositoryId, revision
      components :=
        [{ name := "auth", componentType := .backendService, repositoryId, revision, sourcePaths := ["pyproject.toml"],
           provenance := evidence "pyproject.toml" },
         { name := packageName, componentType := .frontendApplication, repositoryId, revision,
           sourcePaths := ["package.json"], provenance := evidence "package.json" }] }
  stable _ _ _ _ _ _ := rfl

def manifests (packageName : String) : SnapshotFiles :=
  [("pyproject.toml", "name = \"auth\""),
    ("package.json", "\x7b\"name\": \"" ++ packageName ++ "\", \"dependencies\": \x7b\"react\": \"18\"\x7d\x7d")]

end TopologyDiscoveryService

end Brain
