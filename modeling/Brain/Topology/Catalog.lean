import Brain.Application.Topology

namespace Brain

inductive CatalogWrite
  | upsertSystem (system : System)
  | upsertComponent (component : SoftwareComponent)
  | upsertInterface (interface : Interface)
  | upsertResource (resource : Resource)
  | saveClaims (claims : List TopologyClaim)
  | saveDependencies (dependencies : List DependencyCandidate)

namespace CatalogWrite

def systems : CatalogWrite → List System
  | upsertSystem system => [system]
  | _ => []

def components : CatalogWrite → List SoftwareComponent
  | upsertComponent component => [component]
  | _ => []

def interfaces : CatalogWrite → List Interface
  | upsertInterface interface => [interface]
  | _ => []

def resources : CatalogWrite → List Resource
  | upsertResource resource => [resource]
  | _ => []

def claims : CatalogWrite → List TopologyClaim
  | saveClaims claims => claims
  | _ => []

def dependencies : CatalogWrite → List DependencyCandidate
  | saveDependencies dependencies => dependencies
  | _ => []

end CatalogWrite

namespace SoftwareCatalog

def write (catalog : SoftwareCatalog) : CatalogWrite → SoftwareCatalog
  | .upsertSystem system => catalog.upsertSystem system
  | .upsertComponent component => catalog.upsertComponent component
  | .upsertInterface interface => catalog.upsertInterface interface
  | .upsertResource resource => catalog.upsertResource resource
  | .saveClaims claims => catalog.saveClaims claims
  | .saveDependencies dependencies => catalog.saveDependencies dependencies

def ofWrites (writes : List CatalogWrite) : SoftwareCatalog := writes.foldl write {}

/-! ### What each table holds -/

theorem part_ofWrites {τ α : Type} (part : SoftwareCatalog → τ) (entries : CatalogWrite → List α) (put : τ → α → τ)
    (moves : ∀ catalog w, part (catalog.write w) = (entries w).foldl put (part catalog)) (writes : List CatalogWrite) :
    part (ofWrites writes) = (writes.flatMap entries).foldl put (part {}) := by
  unfold ofWrites
  generalize ({} : SoftwareCatalog) = catalog
  induction writes generalizing catalog with
  | nil => rfl
  | cons w writes ih => rw [List.foldl_cons, ih, moves, List.flatMap_cons, List.foldl_append]

theorem log_ofWrites {α : Type} (part : SoftwareCatalog → List α) (entries : CatalogWrite → List α)
    (moves : ∀ catalog w, part (catalog.write w) = part catalog ++ entries w) (writes : List CatalogWrite) :
    part (ofWrites writes) = part {} ++ writes.flatMap entries := by
  unfold ofWrites
  generalize ({} : SoftwareCatalog) = catalog
  induction writes generalizing catalog with
  | nil => exact (List.append_nil _).symm
  | cons w writes ih => rw [List.foldl_cons, ih, moves, List.flatMap_cons, List.append_assoc]

theorem mem_table_iff {α : Type} {key : α → Uuid} (table : SoftwareCatalog → Keyed key) (entries : CatalogWrite → List α)
    (empty : table {} = Keyed.empty) (moves : ∀ catalog w, table (catalog.write w) = (entries w).foldl Keyed.upsert (table catalog))
    (writes : List CatalogWrite) {a : α} :
    a ∈ (table (ofWrites writes)).items ↔ LastWriter.last key (writes.flatMap entries) (key a) = some a := by
  rw [part_ofWrites table entries Keyed.upsert moves, empty]
  have read := Keyed.laws.get_foldl (writes.flatMap entries) (Keyed.empty : Keyed key) (key a)
  have nothing : (Keyed.empty : Keyed key).get (key a) = none := rfl
  rw [nothing, Option.or_none] at read
  rw [← read, Keyed.get_eq_some]
  exact (and_iff_left rfl).symm

section Tables
variable (writes : List CatalogWrite)

theorem mem_systems {s : System} :
    s ∈ (ofWrites writes).systems.items ↔ LastWriter.last System.id (writes.flatMap CatalogWrite.systems) s.id = some s :=
  mem_table_iff SoftwareCatalog.systems CatalogWrite.systems rfl (fun _ w => by cases w <;> rfl) writes

theorem mem_components {c : SoftwareComponent} : c ∈ (ofWrites writes).components.items ↔
    LastWriter.last SoftwareComponent.id (writes.flatMap CatalogWrite.components) c.id = some c :=
  mem_table_iff SoftwareCatalog.components CatalogWrite.components rfl (fun _ w => by cases w <;> rfl) writes

theorem mem_interfaces {i : Interface} : i ∈ (ofWrites writes).interfaces.items ↔
    LastWriter.last Interface.id (writes.flatMap CatalogWrite.interfaces) i.id = some i :=
  mem_table_iff SoftwareCatalog.interfaces CatalogWrite.interfaces rfl (fun _ w => by cases w <;> rfl) writes

theorem mem_resources {r : Resource} : r ∈ (ofWrites writes).resources.items ↔
    LastWriter.last Resource.id (writes.flatMap CatalogWrite.resources) r.id = some r :=
  mem_table_iff SoftwareCatalog.resources CatalogWrite.resources rfl (fun _ w => by cases w <;> rfl) writes

theorem claims_ofWrites : (ofWrites writes).claims = writes.flatMap CatalogWrite.claims :=
  log_ofWrites SoftwareCatalog.claims CatalogWrite.claims
    (fun _ w => by cases w <;> first | rfl | exact (List.append_nil _).symm) writes

theorem dependencies_ofWrites : (ofWrites writes).dependencies = writes.flatMap CatalogWrite.dependencies :=
  log_ofWrites SoftwareCatalog.dependencies CatalogWrite.dependencies
    (fun _ w => by cases w <;> first | rfl | exact (List.append_nil _).symm) writes

end Tables

/-! ### What the queries of a project return -/

def ComponentOf (writes : List CatalogWrite) (project : ProjectId) (c : SoftwareComponent) : Prop :=
  LastWriter.last SoftwareComponent.id (writes.flatMap CatalogWrite.components) c.id = some c ∧ c.projectId = project

/-- Each query for a project returns what was last written for it, and all of it;
the dependencies of a component are those written for the project under its name,
and a write of dependencies of other projects leaves them as they are. -/
structure ScopedQueries (writes : List CatalogWrite) (project : ProjectId) (name : String) : Prop where
  systems : ∀ s, s ∈ (ofWrites writes).listSystems project ↔
    LastWriter.last System.id (writes.flatMap CatalogWrite.systems) s.id = some s ∧ s.projectId = project
  components : ∀ c, c ∈ (ofWrites writes).listComponents project ↔ ComponentOf writes project c
  interfaces : ∀ i, i ∈ (ofWrites writes).listInterfaces project ↔
    LastWriter.last Interface.id (writes.flatMap CatalogWrite.interfaces) i.id = some i ∧
      ∃ c, ComponentOf writes project c ∧ c.id = i.componentId
  resources : ∀ r, r ∈ (ofWrites writes).listResources project ↔
    LastWriter.last Resource.id (writes.flatMap CatalogWrite.resources) r.id = some r ∧ r.projectId = project
  claims : ∀ repository, (ofWrites writes).listClaims repository =
    (writes.flatMap CatalogWrite.claims).filter fun c => c.repositoryId = repository
  dependencies : (ofWrites writes).listDependencies project name =
    ((writes.flatMap CatalogWrite.dependencies).filter fun d => d.projectId = some project ∧ d.source = name).map
      DependencyCandidate.target
  undisturbed : ∀ before w after, writes = before ++ w :: after →
    (∀ d ∈ w.dependencies, d.projectId ≠ some project) →
      (ofWrites writes).listDependencies project name = (ofWrites (before ++ after)).listDependencies project name

section Queries
variable (writes : List CatalogWrite) (project : ProjectId)

theorem mem_listComponents {c : SoftwareComponent} :
    c ∈ (ofWrites writes).listComponents project ↔ ComponentOf writes project c := by
  rw [listComponents, List.mem_filter, mem_components, decide_eq_true_iff]
  rfl

theorem mem_listInterfaces {i : Interface} : i ∈ (ofWrites writes).listInterfaces project ↔
    LastWriter.last Interface.id (writes.flatMap CatalogWrite.interfaces) i.id = some i ∧
      ∃ c, ComponentOf writes project c ∧ c.id = i.componentId := by
  rw [listInterfaces, List.mem_filter, mem_interfaces, decide_eq_true_iff, List.mem_map]
  simp only [mem_listComponents]

theorem listDependencies_ofWrites (name : String) : (ofWrites writes).listDependencies project name =
    ((writes.flatMap CatalogWrite.dependencies).filter fun d => d.source = name).map DependencyCandidate.target := by
  rw [listDependencies, dependencies_ofWrites]

theorem listDependencies_without {name : String} {before after : List CatalogWrite} {w : CatalogWrite}
    (none : ∀ d ∈ w.dependencies, d.source ≠ name) :
    (ofWrites (before ++ w :: after)).listDependencies project name =
      (ofWrites (before ++ after)).listDependencies project name := by
  have nothing : (w.dependencies.filter fun d => d.source = name) = [] :=
    List.filter_eq_nil_iff.mpr fun d written => by simpa using none d written
  simp only [listDependencies_ofWrites, List.flatMap_append, List.flatMap_cons, List.filter_append, nothing,
    List.nil_append]

/-- The queries keep to the project exactly when all that was written under the
component's name was written for it: `list_dependencies` drops the project. -/
theorem scopedQueries_iff (name : String) : ScopedQueries writes project name ↔
    ∀ d ∈ writes.flatMap CatalogWrite.dependencies, d.source = name → d.projectId = some project := by
  constructor
  · intro queries d written named
    have count := congrArg List.length queries.dependencies
    rw [listDependencies_ofWrites, List.length_map, List.length_map] at count
    have inside : ((writes.flatMap CatalogWrite.dependencies).filter fun d => d.projectId = some project ∧ d.source = name) =
        ((writes.flatMap CatalogWrite.dependencies).filter fun d => d.source = name).filter
          fun d => d.projectId = some project := by
      rw [List.filter_filter]
      simp only [Bool.decide_and]
    rw [inside] at count
    have all := List.length_filter_eq_length_iff.mp count.symm d
      (List.mem_filter.mpr ⟨written, decide_eq_true named⟩)
    exact of_decide_eq_true all
  · intro own
    exact {
      systems := fun s => by rw [listSystems, List.mem_filter, mem_systems, decide_eq_true_iff]
      components := fun c => mem_listComponents writes project
      interfaces := fun i => mem_listInterfaces writes project
      resources := fun r => by rw [listResources, List.mem_filter, mem_resources, decide_eq_true_iff]
      claims := fun repository => by rw [listClaims, claims_ofWrites]
      dependencies := by
        rw [listDependencies_ofWrites]
        congr 1
        refine List.filter_congr fun d written => decide_eq_decide.mpr ?_
        exact ⟨fun named => ⟨own d written named, named⟩, fun both => both.2⟩
      undisturbed := fun before w after split foreign => by
        subst split
        refine listDependencies_without project fun d written named => foreign d written (own d ?_ named)
        exact List.mem_flatMap.mpr ⟨w, List.mem_append_right _ List.mem_cons_self, written⟩ }

end Queries

/-- A second project's component has the name of one of the first. -/
theorem dependency_of_other_project : ¬ ∀ writes project name, ScopedQueries writes project name := by
  intro queries
  have listed := (queries [.saveDependencies [{
    source := "api", target := "billing-db", projectId := some (.v4 2), repositoryId := .v4 3, revision := "r1",
    provenance := { sourceType := "manifest", observedAt := 0 } }]] (.v4 1) "api").dependencies
  exact absurd listed (by decide)

end SoftwareCatalog

end Brain
