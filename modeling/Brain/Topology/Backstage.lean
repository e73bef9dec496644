import Brain.Application.Observations
import Brain.Domain.Knowledge

namespace Brain

/-- What `reconcile` reports, by what the text of each report is made of. -/
inductive CatalogDifference
  | undiscovered (name : String)
  | typeDiffers (name : String) (declared discovered : ComponentType)
  | dependency (source target : String)
  deriving DecidableEq

namespace CatalogDifference

def text : CatalogDifference → String
  | undiscovered name => "component '" ++ name ++ "' declared in Backstage but not discovered by the brain"
  | typeDiffers name declared discovered =>
    "component '" ++ name ++ "' type differs: declared " ++ declared.value ++ " vs discovered " ++ discovered.value
  | dependency source target => source ++ " -> " ++ target

def about : CatalogDifference → String
  | undiscovered name | typeDiffers name _ _ => name
  | dependency source _ => source

def dedupKey (projectId : ProjectId) : CatalogDifference → String
  | dependency source target => "backstage-dependency:" ++ projectId.text ++ ":" ++ (dependency source target).text
  | conflict => "backstage-conflict:" ++ projectId.text ++ ":" ++ .ofList (conflict.text.toList.take 100)

def create (projectId : ProjectId) (d : CatalogDifference) : CreateObservation where
  projectId := projectId
  observationType := match d with
    | dependency .. => .dependencyDiscovered
    | _ => .conflict
  title := match d with
    | dependency .. => "Dependency not covered by discovery"
    | _ => "Catalog conflict"
  body := d.text
  dedupKey := some (d.dedupKey projectId)

end CatalogDifference

namespace Journal

/-- `ObservationService.create` where no other call comes between. -/
def create (s : Journal) (args : CreateObservation) : ObservationId × Journal :=
  match args.dedupKey.bind s.findByDedupKey with
  | some existing => (existing.id, s)
  | none =>
    let observation := args.observation (.v4 s.nextUuid)
    (observation.id, {
      observations := s.observations.upsert observation
      published := s.published ++ [ObservationService.emitted .observationCreated observation]
      nextUuid := s.nextUuid + 1 })

def Issued (s : Journal) : Prop := ∀ o ∈ s.observations.items, o.id.Below s.nextUuid

end Journal

structure BackstageReconciliationResult where
  checkedComponents : Nat
  conflicts : List CatalogDifference
  dependenciesDiscovered : List CatalogDifference
  observationsCreated : List ObservationId

namespace BackstageReconciliationService
variable (projectId : ProjectId) (declared discovered : Keyed SoftwareComponent.name)

def conflict (component : SoftwareComponent) : Option CatalogDifference :=
  match discovered.get component.name with
  | none => some (.undiscovered component.name)
  | some other =>
    if component.componentType ≠ other.componentType then
      some (.typeDiffers component.name component.componentType other.componentType)
    else none

/-- On agreement the declared lifecycle goes to the catalog. -/
def refresh (catalog : Keyed SoftwareComponent.name) (component : SoftwareComponent) : Keyed SoftwareComponent.name :=
  match discovered.get component.name with
  | some other =>
    if component.componentType ≠ other.componentType then catalog
    else catalog.upsert { other with lifecycle := component.lifecycle }
  | none => catalog

/-- An edge is reported if neither of its ends is declared. -/
def unseen (edge : String × String) : Bool := (declared.get edge.1).isNone && (declared.get edge.2).isNone

def createAll : List CatalogDifference → Journal → List ObservationId × Journal
  | [], s => ([], s)
  | d :: ds, s =>
    let (id, s) := s.create (d.create projectId)
    let (ids, s) := createAll ds s
    (id :: ids, s)

def reconcile (dependencies : List (String × String)) (s : Journal) :
    BackstageReconciliationResult × Keyed SoftwareComponent.name × Journal :=
  let conflicts := declared.items.filterMap (conflict discovered)
  let dependenciesDiscovered := (dependencies.filter (unseen declared)).map fun edge => .dependency edge.1 edge.2
  let (observationsCreated, s) := createAll projectId (conflicts ++ dependenciesDiscovered) s
  ({ checkedComponents := declared.items.length, conflicts, dependenciesDiscovered, observationsCreated },
    declared.items.foldl (refresh discovered) discovered, s)

/-- All differences of the catalogs are reported and nothing else, where `found` are
the edges that discovery found; each has an observation of its own, and another run
reports and creates the same. -/
structure ReportsExactly (dependencies found : List (String × String)) (s : Journal)
    (r : BackstageReconciliationResult × Keyed SoftwareComponent.name × Journal) : Prop where
  conflicts : r.1.conflicts.map CatalogDifference.about = (declared.items.filter fun component =>
    (discovered.get component.name).all fun other => other.componentType ≠ component.componentType).map SoftwareComponent.name
  edges : r.1.dependenciesDiscovered = (dependencies.filter fun edge => edge ∉ found).map fun edge => .dependency edge.1 edge.2
  observed : ∃ idOf : CatalogDifference → ObservationId,
    r.1.observationsCreated = (r.1.conflicts ++ r.1.dependenciesDiscovered).map idOf ∧
      (∀ d ∈ r.1.conflicts ++ r.1.dependenciesDiscovered, ∃ o ∈ r.2.2.observations.items, o.id = idOf d ∧ o.body = d.text) ∧
      ∀ d ∈ r.1.conflicts ++ r.1.dependenciesDiscovered, ∀ d' ∈ r.1.conflicts ++ r.1.dependenciesDiscovered, idOf d = idOf d' → d = d'
  again : (reconcile projectId declared r.2.1 dependencies r.2.2).1 = r.1 ∧
    (reconcile projectId declared r.2.1 dependencies r.2.2).2.2 = r.2.2

end BackstageReconciliationService

/-! ### Creating observations -/

namespace Journal
variable {s : Journal} {args : CreateObservation} {key : String}

theorem find_key {o : Observation} (found : s.findByDedupKey key = some o) : o ∈ s.observations.items ∧ o.dedupKey = some key :=
  ⟨List.mem_of_find?_eq_some found, by simpa using List.find?_some found⟩

theorem create_finds (issued : s.Issued) (keyed : args.dedupKey = some key) :
    (s.create args).2.Issued ∧ (∀ k o, s.findByDedupKey k = some o → (s.create args).2.findByDedupKey k = some o) ∧
      ((s.create args).2.findByDedupKey key).map Observation.id = some (s.create args).1 ∧
      ∀ k o, (s.create args).2.findByDedupKey k = some o → s.findByDedupKey k = some o ∨ k = key ∧ o.body = args.body := by
  unfold create
  rw [keyed, Option.bind_some]
  cases known : s.findByDedupKey key with
  | some existing => exact ⟨issued, fun _ _ found => found, congrArg (Option.map Observation.id) known, fun _ _ found => Or.inl found⟩
  | none =>
    have find : ∀ k published, findByDedupKey ⟨s.observations.upsert (args.observation (.v4 s.nextUuid)), published, s.nextUuid + 1⟩ k =
        (s.findByDedupKey k).or (if key = k then some (args.observation (.v4 s.nextUuid)) else none) := by
      intro k published
      unfold findByDedupKey
      rw [Keyed.items_upsert_fresh fun o stored => (issued o stored).ne_fresh, List.find?_append]
      congr 1
      by_cases same : key = k <;> simp [CreateObservation.observation, keyed, same]
    refine ⟨fun o stored => ?_, fun k o found => ?_, ?_, fun k o found => ?_⟩
    · rcases Keyed.mem_upsert.mp stored with rfl | ⟨old, _⟩
      · exact Uuid.fresh_below _
      · exact (issued o old).mono (Nat.le_succ _)
    · rw [find, found, Option.some_or]
    · rw [find, known, Option.none_or, if_pos rfl]
      rfl
    · rw [find] at found
      refine (Option.or_eq_some_iff.mp found).imp_right fun new => ?_
      obtain ⟨same, isNew⟩ := Option.ite_none_right_eq_some.mp new.2
      exact ⟨same.symm, congrArg Observation.body (Option.some.inj isNew).symm⟩

end Journal

namespace BackstageReconciliationService
variable {projectId : ProjectId} {declared discovered : Keyed SoftwareComponent.name} {s : Journal} {ds : List CatalogDifference}

def idOf (projectId : ProjectId) (s : Journal) (d : CatalogDifference) : Option ObservationId :=
  (s.findByDedupKey (d.dedupKey projectId)).map Observation.id

theorem createAll_finds (issued : s.Issued) : (createAll projectId ds s).2.Issued ∧
    (∀ k o, s.findByDedupKey k = some o → (createAll projectId ds s).2.findByDedupKey k = some o) ∧
    (createAll projectId ds s).1.map some = ds.map (idOf projectId (createAll projectId ds s).2) ∧
    ∀ k o, (createAll projectId ds s).2.findByDedupKey k = some o →
      s.findByDedupKey k = some o ∨ ∃ d ∈ ds, d.dedupKey projectId = k ∧ o.body = d.text := by
  induction ds generalizing s with
  | nil => exact ⟨issued, fun _ _ found => found, rfl, fun _ _ found => Or.inl found⟩
  | cons d ds ih =>
    have keyed : (d.create projectId).dedupKey = some (d.dedupKey projectId) := rfl
    obtain ⟨issued', stays, here, origin⟩ := Journal.create_finds issued keyed
    obtain ⟨issuedEnd, staysEnd, ids, originEnd⟩ := ih issued'
    obtain ⟨o, found, isId⟩ := Option.map_eq_some_iff.mp here
    have isFirst : idOf projectId (createAll projectId ds (s.create (d.create projectId)).2).2 d = some o.id := by
      rw [idOf, staysEnd _ _ found, Option.map_some]
    refine ⟨issuedEnd, fun k o known => staysEnd k o (stays k o known), ?_, fun k o found => ?_⟩
    · rw [createAll, List.map_cons, List.map_cons, isFirst, isId, ids]
    · rcases originEnd k o found with before | ⟨d', listed, rest⟩
      · exact (origin k o before).imp_right fun new => ⟨d, List.mem_cons_self, new.1.symm, new.2⟩
      · exact Or.inr ⟨d', List.mem_cons_of_mem _ listed, rest⟩

theorem createAll_known (known : ∀ d ∈ ds, (idOf projectId s d).isSome) :
    (createAll projectId ds s).2 = s ∧ (createAll projectId ds s).1.map some = ds.map (idOf projectId s) := by
  induction ds with
  | nil => exact ⟨rfl, rfl⟩
  | cons d ds ih =>
    obtain ⟨o, found⟩ := Option.isSome_iff_exists.mp (Option.isSome_map.symm.trans (known d List.mem_cons_self))
    have same : s.create (d.create projectId) = (o.id, s) := by
      unfold Journal.create
      rw [show (d.create projectId).dedupKey.bind s.findByDedupKey = some o from found]
    obtain ⟨unchanged, ids⟩ := ih fun d member => known d (List.mem_cons_of_mem _ member)
    rw [createAll, same]
    exact ⟨unchanged, by rw [List.map_cons, List.map_cons, ids, idOf, found, Option.map_some]⟩

theorem createAll_again (issued : s.Issued) :
    createAll projectId ds (createAll projectId ds s).2 = createAll projectId ds s := by
  obtain ⟨_, _, ids, _⟩ := @createAll_finds projectId s ds issued
  have known := @createAll_known projectId (createAll projectId ds s).2 ds fun d member => by
    obtain ⟨id, _, isId⟩ := List.mem_map.mp (ids ▸ List.mem_map_of_mem member)
    rw [← isId]
    rfl
  exact Prod.ext (List.map_injective_iff.mpr (fun _ _ => Option.some.inj) (known.2.trans ids.symm)) known.1

/-- Each difference has an observation of its own exactly when keys tell differences
apart, and what was found under the key of one told that difference already. -/
theorem observed_iff (issued : s.Issued) :
    (∃ id : CatalogDifference → ObservationId, (createAll projectId ds s).1 = ds.map id ∧
      (∀ d ∈ ds, ∃ o ∈ (createAll projectId ds s).2.observations.items, o.id = id d ∧ o.body = d.text) ∧
      ∀ d ∈ ds, ∀ d' ∈ ds, id d = id d' → d = d') ↔
    (∀ d ∈ ds, ∀ d' ∈ ds, d.dedupKey projectId = d'.dedupKey projectId → d = d') ∧
      ∀ d ∈ ds, ∀ o ∈ s.findByDedupKey (d.dedupKey projectId), o.body = d.text := by
  obtain ⟨_, stays, ids, origin⟩ := @createAll_finds projectId s ds issued
  constructor
  · rintro ⟨id, created, observed, apart⟩
    have isId : ∀ d ∈ ds, some (id d) = idOf projectId (createAll projectId ds s).2 d := by
      rw [created, List.map_map] at ids
      exact List.map_inj_left.mp ids
    refine ⟨fun d member d' member' same => ?_, fun d member o found => ?_⟩
    · refine apart d member d' member' (Option.some.inj ?_)
      rw [isId d member, isId d' member', idOf, idOf, same]
    · obtain ⟨other, stored, isOther, body⟩ := observed d member
      have later := stays _ _ found
      have own : id d = o.id := Option.some.inj ((isId d member).trans (by rw [idOf, later, Option.map_some]))
      rw [← body, Keyed.key_injective _ stored (Journal.find_key later).1 (isOther.trans own)]
  · rintro ⟨apart, earlier⟩
    have found : ∀ d ∈ ds, ∃ o, (createAll projectId ds s).2.findByDedupKey (d.dedupKey projectId) = some o ∧ o.body = d.text := by
      intro d member
      obtain ⟨i, _, isSome⟩ := List.mem_map.mp (ids ▸ List.mem_map_of_mem member)
      obtain ⟨o, isFound, _⟩ := Option.map_eq_some_iff.mp isSome.symm
      refine ⟨o, isFound, ?_⟩
      rcases origin _ o isFound with before | ⟨d', member', same, body⟩
      · exact earlier d member o before
      · rw [body, apart d' member' d member same]
    refine ⟨fun d => (idOf projectId (createAll projectId ds s).2 d).getD default, ?_, fun d member => ?_,
      fun d member d' member' same => ?_⟩
    · refine List.map_injective_iff.mpr (fun _ _ => Option.some.inj) (ids.trans ?_)
      rw [List.map_map]
      refine List.map_congr_left fun d member => ?_
      obtain ⟨o, isFound, _⟩ := found d member
      simp [idOf, isFound]
    · obtain ⟨o, isFound, body⟩ := found d member
      exact ⟨o, (Journal.find_key isFound).1, by simp [idOf, isFound], body⟩
    · obtain ⟨o, isFound, _⟩ := found d member
      obtain ⟨o', isFound', _⟩ := found d' member'
      have sameId : o.id = o'.id := by simpa [idOf, isFound, isFound'] using same
      have stored := Journal.find_key isFound
      have stored' := Journal.find_key isFound'
      rw [Keyed.key_injective _ stored.1 stored'.1 sameId, stored'.2] at stored
      exact apart d member d' member' (Option.some.inj stored.2).symm

theorem get_refresh (components : List SoftwareComponent) (name : String) :
    ((components.foldl (refresh discovered) discovered).get name).map SoftwareComponent.componentType =
      (discovered.get name).map SoftwareComponent.componentType := by
  have kept : ∀ catalog : Keyed SoftwareComponent.name,
      (catalog.get name).map SoftwareComponent.componentType = (discovered.get name).map SoftwareComponent.componentType →
        ((components.foldl (refresh discovered) catalog).get name).map SoftwareComponent.componentType =
          (discovered.get name).map SoftwareComponent.componentType := by
    induction components with
    | nil => exact fun _ same => same
    | cons component components ih =>
      intro catalog same
      refine ih _ ?_
      unfold refresh
      split
      · rename_i other isOther
        split
        · exact same
        · rw [Keyed.get_upsert]
          split
          · rename_i isName
            rw [isName, show other.name = component.name from (Keyed.get_eq_some.mp isOther).2, isOther]
            rfl
          · exact same
      · exact same
  exact kept discovered rfl

theorem conflict_congr {catalog : Keyed SoftwareComponent.name} {component : SoftwareComponent}
    (same : (catalog.get component.name).map SoftwareComponent.componentType =
      (discovered.get component.name).map SoftwareComponent.componentType) : conflict catalog component = conflict discovered component := by
  unfold conflict
  cases here : catalog.get component.name <;> cases there : discovered.get component.name <;> simp_all

theorem map_about_conflicts (components : List SoftwareComponent) :
    (components.filterMap (conflict discovered)).map CatalogDifference.about = (components.filter fun component =>
      (discovered.get component.name).all fun other => other.componentType ≠ component.componentType).map SoftwareComponent.name := by
  induction components with
  | nil => rfl
  | cons component components ih =>
    cases here : discovered.get component.name with
    | none => simpa [conflict, here, CatalogDifference.about] using ih
    | some other =>
      by_cases same : component.componentType = other.componentType
      · simpa [conflict, here, same] using ih
      · simpa [conflict, here, same, Ne.symm same, CatalogDifference.about] using ih

def differences (declared discovered : Keyed SoftwareComponent.name) (dependencies : List (String × String)) :
    List CatalogDifference :=
  declared.items.filterMap (conflict discovered) ++ (dependencies.filter (unseen declared)).map fun edge => .dependency edge.1 edge.2

/-- An edge has no declared end exactly when it was not found, no two differences have
one key, and an earlier observation under the key of a difference tells that difference. -/
structure ToldApart (projectId : ProjectId) (declared discovered : Keyed SoftwareComponent.name)
    (dependencies found : List (String × String)) (s : Journal) : Prop where
  edges : ∀ edge ∈ dependencies, unseen declared edge = true ↔ edge ∉ found
  apart : ∀ d ∈ differences declared discovered dependencies, ∀ d' ∈ differences declared discovered dependencies,
    d.dedupKey projectId = d'.dedupKey projectId → d = d'
  earlier : ∀ d ∈ differences declared discovered dependencies, ∀ o ∈ s.findByDedupKey (d.dedupKey projectId), o.body = d.text

end BackstageReconciliationService

end Brain
