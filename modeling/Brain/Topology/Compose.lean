import Brain.Adapters.DeploymentDetector
import Brain.Parsing.Text
import Mathlib.Data.List.Nodup

namespace Brain

theorem flatMap_map_eq_iff {α β γ : Type} {as : List α} {listing : α → List β} {f g : α → β → γ} :
    (as.flatMap fun a => (listing a).map (f a)) = (as.flatMap fun a => (listing a).map (g a)) ↔
      ∀ a ∈ as, ∀ b ∈ listing a, f a b = g a b := by
  induction as with
  | nil => simp
  | cons a as ih =>
    rw [List.flatMap_cons, List.flatMap_cons, List.forall_mem_cons, ← ih, ← List.map_inj_left]
    constructor
    · intro same
      exact List.append_inj same (by rw [List.length_map, List.length_map])
    · rintro ⟨first, rest⟩
      rw [first, rest]

/-! ### The services of a document -/

/-- The services that the detector reads: those whose specification is a mapping. -/
def serviceSpecs (services : RawDict) : List (String × RawDict) :=
  services.filterMap fun service =>
    match service.2 with
    | .dict spec => some (service.1, spec)
    | _ => none

def imageResource (spec : RawDict) : Option String :=
  (resourceImages.lookup (lower (imageKey (composeImage spec)))).map (·.2)

def ownResource (services : RawDict) (name : String) : Option String :=
  ((serviceSpecs services).lookup name).bind imageResource

/-- A compose document as the detector loads it, with its services by distinct names. -/
structure ComposeDocument (detector : DeploymentTopologyDetector) where
  file : DeploymentFile
  content : String
  data : RawDict
  services : RawDict
  loaded : detector.safeLoad content = some (.dict data)
  listed : pyGet data "services" = .dict services
  distinct : (services.map Prod.fst).Nodup

namespace DeploymentTopologyDetector
variable {file : DeploymentFile} {topology : DiscoveredTopology} {services : RawDict}

theorem forServices_eq {β : Type} (turn : β → String → RawDict → β) (start : β) :
    forServices services turn start =
      (serviceSpecs services).foldl (fun state service => turn state service.1 service.2) start := by
  unfold forServices
  induction services generalizing start with
  | nil => rfl
  | cons service services ih =>
    obtain ⟨name, spec⟩ := service
    cases spec <;> exact ih _

theorem foldl_addService (specs : List (String × RawDict)) (topology : DiscoveredTopology) :
    specs.foldl (fun topology service => addService file topology service.1 service.2) topology =
      { topology with
        components := topology.components ++ specs.map fun service => serviceComponent file service.1 service.2
        dependencies := topology.dependencies ++ specs.flatMap fun service =>
          (composeDependencies service.2).map fun dependency =>
            serviceDependency file service.1 (canonicalTarget dependency service.2) } := by
  induction specs generalizing topology with
  | nil => simp
  | cons service specs ih =>
    rw [List.foldl_cons, ih]
    simp only [addService, List.append_assoc, List.map_cons, List.flatMap_cons, List.singleton_append]

theorem addImageResource_others (spec : RawDict) :
    (addImageResource file topology spec).components = topology.components ∧
      (addImageResource file topology spec).dependencies = topology.dependencies := by
  unfold addImageResource addResource
  split
  · split <;> exact ⟨rfl, rfl⟩
  · exact ⟨rfl, rfl⟩

theorem mem_addImageResource {spec : RawDict} {name : String} :
    name ∈ (addImageResource file topology spec).resources.map (·.name) ↔
      name ∈ topology.resources.map (·.name) ∨ imageResource spec = some name := by
  unfold addImageResource imageResource addResource
  split
  · rename_i type resource found
    rw [found, Option.map_some, Option.some.injEq]
    split
    · rename_i known
      constructor
      · exact .inl
      · rintro (earlier | rfl)
        · exact earlier
        · obtain ⟨other, member, same⟩ := List.any_eq_true.mp known
          exact List.mem_map.mpr ⟨other, member, of_decide_eq_true same⟩
    · rw [List.map_append, List.mem_append, List.map_singleton, List.mem_singleton, eq_comm (a := name)]
  · rename_i unknown
    rw [unknown]
    simp

theorem foldl_addImageResource_components (specs : List (String × RawDict)) (topology : DiscoveredTopology) :
    (specs.foldl (fun topology service => addImageResource file topology service.2) topology).components =
      topology.components := by
  induction specs generalizing topology with
  | nil => rfl
  | cons service specs ih => rw [List.foldl_cons, ih, (addImageResource_others service.2).1]

theorem foldl_addImageResource_dependencies (specs : List (String × RawDict)) (topology : DiscoveredTopology) :
    (specs.foldl (fun topology service => addImageResource file topology service.2) topology).dependencies =
      topology.dependencies := by
  induction specs generalizing topology with
  | nil => rfl
  | cons service specs ih => rw [List.foldl_cons, ih, (addImageResource_others service.2).2]

theorem mem_foldl_addImageResource {specs : List (String × RawDict)} {topology : DiscoveredTopology} {name : String} :
    name ∈ (specs.foldl (fun topology service => addImageResource file topology service.2) topology).resources.map (·.name) ↔
      name ∈ topology.resources.map (·.name) ∨ ∃ service ∈ specs, imageResource service.2 = some name := by
  induction specs generalizing topology with
  | nil => simp
  | cons service specs ih =>
    rw [List.foldl_cons, ih, mem_addImageResource, or_assoc]
    simp only [List.mem_cons, exists_eq_or_imp]

end DeploymentTopologyDetector

namespace ComposeDocument
variable {detector : DeploymentTopologyDetector} (document : ComposeDocument detector) (topology : DiscoveredTopology)

def discovered : DiscoveredTopology := detector.compose document.file document.content topology

theorem discovered_eq :
    document.discovered topology =
      (serviceSpecs document.services).foldl
        (fun topology service => DeploymentTopologyDetector.addImageResource document.file topology service.2)
        ((serviceSpecs document.services).foldl
          (fun topology service => DeploymentTopologyDetector.addService document.file topology service.1 service.2)
          topology) := by
  rw [discovered, DeploymentTopologyDetector.compose, document.loaded]
  simp only [document.listed]
  rw [DeploymentTopologyDetector.forServices_eq, DeploymentTopologyDetector.forServices_eq]

theorem dependencies_discovered :
    (document.discovered topology).dependencies =
      topology.dependencies ++ (serviceSpecs document.services).flatMap fun service =>
        (composeDependencies service.2).map fun dependency =>
          DeploymentTopologyDetector.serviceDependency document.file service.1 (canonicalTarget dependency service.2) := by
  rw [discovered_eq, DeploymentTopologyDetector.foldl_addImageResource_dependencies,
    DeploymentTopologyDetector.foldl_addService]

theorem mem_components_discovered {name : String} (service : name ∈ (serviceSpecs document.services).map Prod.fst) :
    name ∈ (document.discovered topology).components.map (·.name) := by
  rw [discovered_eq, DeploymentTopologyDetector.foldl_addImageResource_components,
    DeploymentTopologyDetector.foldl_addService, List.map_append, List.map_map]
  exact List.mem_append_right _ service

theorem mem_resources_discovered {name : String} {service : String × RawDict}
    (member : service ∈ serviceSpecs document.services) (yields : imageResource service.2 = some name) :
    name ∈ (document.discovered topology).resources.map (·.name) := by
  rw [discovered_eq, DeploymentTopologyDetector.mem_foldl_addImageResource]
  exact .inr ⟨service, member, yields⟩

/-- The name that a dependency has among the candidates: the resource that the
service's own image yields, or the component. -/
def discoveredName (dependency : String) : String := (ownResource document.services dependency).getD dependency

structure PointsToDiscovered : Prop where
  targets : (document.discovered topology).dependencies =
    topology.dependencies ++ (serviceSpecs document.services).flatMap fun service =>
      (composeDependencies service.2).map fun dependency =>
        DeploymentTopologyDetector.serviceDependency document.file service.1 (document.discoveredName dependency)
  named : ∀ service ∈ serviceSpecs document.services, ∀ dependency ∈ composeDependencies service.2,
    dependency ∈ (serviceSpecs document.services).map Prod.fst →
    canonicalTarget dependency service.2 ∈
      (document.discovered topology).components.map (·.name) ++ (document.discovered topology).resources.map (·.name)

/-- For each dependency the table of service names and the image of the depending
service say what the own image of the dependency says. -/
structure ImagesAgree : Prop where
  listed : ∀ service ∈ serviceSpecs document.services, ∀ dependency ∈ composeDependencies service.2,
    ∀ resource, defaultComposeResources.lookup (lower dependency) = some resource →
      ownResource document.services dependency = some resource.2 ∨
        ownResource document.services dependency = none ∧ dependency = resource.2
  depending : ∀ service ∈ serviceSpecs document.services, ∀ dependency ∈ composeDependencies service.2,
    defaultComposeResources.lookup (lower dependency) = none → ∀ name, imageResource service.2 = some name →
      ownResource document.services dependency = some name ∨
        ownResource document.services dependency = none ∧ dependency = name
  plain : ∀ service ∈ serviceSpecs document.services, ∀ dependency ∈ composeDependencies service.2,
    defaultComposeResources.lookup (lower dependency) = none → imageResource service.2 = none →
      ∀ name, ownResource document.services dependency = some name → dependency = name

theorem imageKey_lower (image : String) : imageKey (lower image) = lower (imageKey image) := by
  have slash : ∀ c, lowerChar c = '/' ↔ c = '/' := fun c => lowerChar_eq_mark (.inl (by decide))
  have colon : ((fun c => decide (c ≠ ':')) ∘ lowerChar) = fun c => decide (c ≠ ':') := by
    funext c
    exact decide_eq_decide.mpr (not_congr (lowerChar_eq_mark (.inl (by decide))))
  rw [imageKey, imageKey, lower, lower, String.toList_ofList, String.toList_ofList, lastSegment_map slash,
    List.takeWhile_map, colon]

theorem canonicalTarget_eq (dependency : String) (spec : RawDict) :
    canonicalTarget dependency spec =
      ((defaultComposeResources.lookup (lower dependency)).map (·.2)).getD ((imageResource spec).getD dependency) := by
  rw [canonicalTarget, imageKey_lower, imageResource]
  cases defaultComposeResources.lookup (lower dependency) with
  | some resource => rfl
  | none => cases resourceImages.lookup (lower (imageKey (composeImage spec))) <;> rfl

theorem discoveredName_eq_iff {dependency name : String} :
    name = document.discoveredName dependency ↔
      ownResource document.services dependency = some name ∨
        ownResource document.services dependency = none ∧ dependency = name := by
  rw [discoveredName]
  cases ownResource document.services dependency with
  | some own => simp [eq_comm]
  | none => simp [eq_comm]

theorem imagesAgree_iff :
    document.ImagesAgree ↔
      ∀ service ∈ serviceSpecs document.services, ∀ dependency ∈ composeDependencies service.2,
        canonicalTarget dependency service.2 = document.discoveredName dependency := by
  constructor
  · intro agree service member dependency depends
    rw [canonicalTarget_eq, discoveredName_eq_iff]
    cases inTable : defaultComposeResources.lookup (lower dependency) with
    | some resource => exact agree.listed service member dependency depends resource inTable
    | none =>
      cases ofImage : imageResource service.2 with
      | some name => exact agree.depending service member dependency depends inTable name ofImage
      | none =>
        cases own : ownResource document.services dependency with
        | none => exact .inr ⟨rfl, rfl⟩
        | some name =>
          left
          rw [agree.plain service member dependency depends inTable ofImage name own]
          rfl
  · intro same
    constructor
    · intro service member dependency depends resource inTable
      have target := same service member dependency depends
      rw [canonicalTarget_eq, inTable] at target
      exact document.discoveredName_eq_iff.mp target
    · intro service member dependency depends outside name ofImage
      have target := same service member dependency depends
      rw [canonicalTarget_eq, outside, ofImage] at target
      exact document.discoveredName_eq_iff.mp target
    · intro service member dependency depends outside noImage name own
      have target := same service member dependency depends
      rw [canonicalTarget_eq, outside, noImage, discoveredName, own] at target
      exact target

/-- The edges point to what is discovered exactly where the names and the images agree. -/
theorem pointsToDiscovered_iff : document.PointsToDiscovered topology ↔ document.ImagesAgree := by
  rw [imagesAgree_iff]
  have edges := @flatMap_map_eq_iff _ _ _ (serviceSpecs document.services) (fun service => composeDependencies service.2)
    (fun service dependency =>
      DeploymentTopologyDetector.serviceDependency document.file service.1 (canonicalTarget dependency service.2))
    (fun service dependency =>
      DeploymentTopologyDetector.serviceDependency document.file service.1 (document.discoveredName dependency))
  constructor
  · intro points service member dependency depends
    have listed := points.targets
    rw [dependencies_discovered, List.append_cancel_left_eq, edges] at listed
    exact congrArg DependencyCandidate.target (listed service member dependency depends)
  · intro same
    constructor
    · rw [dependencies_discovered, List.append_cancel_left_eq, edges]
      intro service member dependency depends
      rw [same service member dependency depends]
    · intro service member dependency depends isService
      rw [same service member dependency depends, List.mem_append, discoveredName]
      cases own : ownResource document.services dependency with
      | none => exact .inl (document.mem_components_discovered topology isService)
      | some name =>
        right
        obtain ⟨spec, found, yields⟩ := Option.bind_eq_some_iff.mp own
        obtain ⟨before, after, split, _⟩ := List.lookup_eq_some_iff.mp found
        have member : (dependency, spec) ∈ serviceSpecs document.services := by
          rw [split]
          exact List.mem_append_right _ (List.mem_cons_self ..)
        exact document.mem_resources_discovered topology member yields

/-- A service that depends on a database which is not named as one. -/
def shopText : String :=
  "services:\n  api:\n    image: shop\n    depends_on: [db]\n  db:\n    image: postgres:16\n"

def shopServices : RawDict :=
  [("api", .dict [("image", .str "shop"), ("depends_on", .list [.str "db"])]), ("db", .dict [("image", .str "postgres:16")])]

def shopDetector : DeploymentTopologyDetector where
  safeLoad text := if text = shopText then some (.dict [("services", .dict shopServices)]) else none
  isWord c := c.isAlphanum || c = '_'

def shop : ComposeDocument shopDetector where
  file := { now := 0, repositoryId := .v4 1, revision := "r1", path := "compose.yml" }
  content := shopText
  data := [("services", .dict shopServices)]
  services := shopServices
  loaded := rfl
  listed := rfl
  distinct := by decide

/-- The edge points to `db`, but what is discovered from the image of `db` is PostgreSQL. -/
theorem own_image_ignored :
    ¬ ∀ (detector : DeploymentTopologyDetector) (document : ComposeDocument detector) (topology : DiscoveredTopology),
      document.PointsToDiscovered topology := by
  intro points
  have targets := congrArg (List.map DependencyCandidate.target)
    (points shopDetector shop { repositoryId := .v4 1, revision := "r1" }).targets
  have found : ((shop.discovered { repositoryId := .v4 1, revision := "r1" }).dependencies.map (·.target)) = ["db"] := by
    decide
  rw [found] at targets
  exact absurd targets (by decide)

end ComposeDocument

end Brain
