import Brain.Application.OpenProjectBootstrap
import Brain.Projection.Hierarchy

namespace Brain
open Calls

/-- The project is found under the external id. -/
def Project.Mirrors (p : Project) (x : String) : Prop :=
  p.externalRefs.any (fun ref => ref.refersTo "openproject" x (some "project")) = true

def World.canonical (w : World) (x : String) : Option Project := w.findProject "openproject" x (some "project")

structure BootstrapTarget where
  externalId : String
  projectId : ProjectId

section
variable (b : BootstrapTarget)

/-- The project that a bootstrap rewrites for an external id. -/
def World.ownerOf (w : World) (x : String) : Option Project := w.projectFor x (if x = b.externalId then some b.projectId else none)

/-- A project stands for one provider project at most, and the other way round; the
target's is the one that owns the bootstrap. -/
structure World.Mapped (w : World) : Prop where
  single : ∀ p ∈ w.projects.items, ∀ x y, p.Mirrors x → p.Mirrors y → x = y
  unique : ∀ p ∈ w.projects.items, ∀ q ∈ w.projects.items, ∀ x, p.Mirrors x → q.Mirrors x → p = q
  known : ∃ p ∈ w.projects.items, p.id = b.projectId
  target : ∀ p ∈ w.projects.items, ∀ x, p.Mirrors x → (p.id = b.projectId ↔ x = b.externalId)
  issued : ∀ p ∈ w.projects.items, p.id.Below w.nextUuid ∧ ∀ a ∈ p.parentId, a.Below w.nextUuid

/-- The states between runs: bootstraps of lists without repetition, none of whose
calls fails, and anything that leaves the projects alone, from a state without
provider projects. -/
inductive World.Bootstrapped : World → Prop
  | start {w : World} (known : ∃ p ∈ w.projects.items, p.id = b.projectId) (none : ∀ p ∈ w.projects.items, ∀ x, ¬ p.Mirrors x)
      (issued : ∀ p ∈ w.projects.items, p.id.Below w.nextUuid ∧ ∀ a ∈ p.parentId, a.Below w.nextUuid) : Bootstrapped w
  | ingest {w : World} (before : Bootstrapped w) (projects : List ProviderProject)
      (distinct : (projects.map ProviderProject.externalId).Nodup) (o : Outside) (clean : o.Clean) (n : Nat) :
      Bootstrapped (OpenProjectProjectBootstrapService.ingestProjects projects b.externalId b.projectId o n w).store
  | aside {w t : World} (before : Bootstrapped w) (same : t.projects = w.projects) (le : w.nextUuid ≤ t.nextUuid) : Bootstrapped t

def ParentsMirrored (projects : List ProviderProject) (w : World) : Prop :=
  ∀ s ∈ projects, ∃ c, w.canonical s.externalId = some c ∧
    match given s.parentExternalId with
    | none => c.parentId = none
    | some x => x ∈ projects.map ProviderProject.externalId → ∃ d, w.canonical x = some d ∧ c.parentId = some d.id

/-- No listed project has a parent to lose, and each parent that is listed is listed
before its child, or was known before, or is the child's parent already. -/
def ParentsSettled (projects : List ProviderProject) (w : World) : Prop :=
  ∀ before s after, projects = before ++ s :: after →
    match given s.parentExternalId with
    | none => ∀ c ∈ w.ownerOf b s.externalId, c.parentId = none
    | some x => x ∈ projects.map ProviderProject.externalId →
        x ∈ before.map ProviderProject.externalId ∨ (w.canonical x).isSome ∨
          ∃ c ∈ w.ownerOf b s.externalId, ∃ d ∈ w.ownerOf b x, c.parentId = some d.id

/-- `c` is put in place of what stood for `s`. -/
structure ProjectPlaced (s : ProviderProject) (c : Project) (w t : World) : Prop where
  projects : ∀ p, p ∈ t.projects.items ↔ p = c ∨ p ∈ w.projects.items ∧ p.id ≠ c.id
  nextUuid : w.nextUuid ≤ t.nextUuid
  mirrors : ∀ x, c.Mirrors x ↔ x = s.externalId
  id : match w.ownerOf b s.externalId with
    | none => c.id = .v4 w.nextUuid ∧ t.nextUuid = w.nextUuid + 1
    | some old => c.id = old.id
  parent : c.parentId = (w.parentFor s.parentExternalId).or ((w.ownerOf b s.externalId).bind Project.parentId)

inductive ProjectsPlaced : List ProviderProject → World → World → Prop
  | nil (w : World) : ProjectsPlaced [] w w
  | cons {s : ProviderProject} {c : Project} {projects : List ProviderProject} {w u t : World}
      (placed : ProjectPlaced b s c w u) (rest : ProjectsPlaced projects u t) : ProjectsPlaced (s :: projects) w t

end

section
variable {b : BootstrapTarget} {w t u v : World} {s : ProviderProject} {c : Project} {x : String}

namespace World.Mapped

theorem canonical_eq_some (mapped : w.Mapped b) {p : Project} :
    w.canonical x = some p ↔ p ∈ w.projects.items ∧ p.Mirrors x := by
  have found : ∀ q, w.canonical x = some q → q ∈ w.projects.items ∧ q.Mirrors x := by
    intro q isFound
    have passes := List.find?_some isFound
    exact ⟨List.mem_of_find?_eq_some isFound, passes⟩
  refine ⟨found p, fun ⟨stored, mirrors⟩ => ?_⟩
  cases search : w.canonical x with
  | none => exact absurd mirrors (List.find?_eq_none.mp search p stored)
  | some q => rw [mapped.unique q (found q search).1 p stored x (found q search).2 mirrors]

theorem ownerOf_eq_some (mapped : w.Mapped b) {p : Project} : w.ownerOf b x = some p ↔
    p ∈ w.projects.items ∧ (p.Mirrors x ∨ x = b.externalId ∧ p.id = b.projectId) := by
  obtain ⟨own, stored, isOwn⟩ := mapped.known
  by_cases same : x = b.externalId
  · have got : w.projects.get b.projectId = some own := Keyed.get_eq_some.mpr ⟨stored, isOwn⟩
    rw [World.ownerOf, World.projectFor, if_pos same, Option.bind_some, got, Option.some_or, Option.some_inj]
    constructor
    · rintro rfl
      exact ⟨stored, Or.inr ⟨same, isOwn⟩⟩
    · rintro ⟨listed, mirrors | ⟨_, isTarget⟩⟩
      · exact w.projects.key_injective stored listed (isOwn.trans ((mapped.target p listed x mirrors).mpr same).symm)
      · exact w.projects.key_injective stored listed (isOwn.trans isTarget.symm)
  · rw [World.ownerOf, World.projectFor, if_neg same]
    refine mapped.canonical_eq_some.trans (and_congr_right fun _ => ⟨Or.inl, fun either => either.resolve_right fun both => same both.1⟩)

theorem only (mapped : w.Mapped b) {p : Project} {y : String} (owner : w.ownerOf b x = some p)
    (mirrors : p.Mirrors y) : y = x := by
  obtain ⟨stored, own | ⟨rfl, isTarget⟩⟩ := mapped.ownerOf_eq_some.mp owner
  · exact mapped.single p stored y x mirrors own
  · exact (mapped.target p stored y mirrors).mp isTarget

end World.Mapped

namespace ProjectPlaced

theorem stays (placed : ProjectPlaced b s c w t) (mapped : w.Mapped b) (other : x ≠ s.externalId)
    {p : Project} (stored : p ∈ w.projects.items) (stands : p.Mirrors x ∨ x = b.externalId ∧ p.id = b.projectId) : p.id ≠ c.id := by
  intro same
  have id := placed.id
  cases owner : w.ownerOf b s.externalId with
  | none =>
    rw [owner] at id
    exact (mapped.issued p stored).1.ne_fresh (same.trans id.1)
  | some old =>
    rw [owner] at id
    have isOld := w.projects.key_injective stored (mapped.ownerOf_eq_some.mp owner).1 (same.trans id)
    subst isOld
    rcases stands with mirrors | ⟨rfl, isTarget⟩
    · exact other (mapped.only owner mirrors)
    · rcases (mapped.ownerOf_eq_some.mp owner).2 with mirrors | both
      · exact other ((mapped.target p stored _ mirrors).mp isTarget).symm
      · exact other both.1.symm

theorem canonical_self (placed : ProjectPlaced b s c w t) (mapped : t.Mapped b) :
    t.canonical s.externalId = some c :=
  mapped.canonical_eq_some.mpr ⟨(placed.projects c).mpr (Or.inl rfl), (placed.mirrors _).mpr rfl⟩

theorem id_owner (placed : ProjectPlaced b s c w t) {old : Project} (owner : w.ownerOf b s.externalId = some old) :
    c.id = old.id := by
  have id := placed.id
  rwa [owner] at id

theorem id_target (placed : ProjectPlaced b s c w t) (mapped : w.Mapped b) :
    c.id = b.projectId ↔ s.externalId = b.externalId := by
  obtain ⟨own, stored, isOwn⟩ := mapped.known
  constructor
  · intro isTarget
    by_contra other
    exact placed.stays mapped (Ne.symm other) stored (Or.inr ⟨rfl, isOwn⟩) (isOwn.trans isTarget.symm)
  · intro isTarget
    exact (placed.id_owner (mapped.ownerOf_eq_some.mpr ⟨stored, Or.inr ⟨isTarget, isOwn⟩⟩)).trans isOwn

theorem mapped (placed : ProjectPlaced b s c w t) (mapped : w.Mapped b) : t.Mapped b where
  single p stored x y left right := by
    rcases (placed.projects p).mp stored with rfl | ⟨old, _⟩
    · exact ((placed.mirrors x).mp left).trans ((placed.mirrors y).mp right).symm
    · exact mapped.single p old x y left right
  unique p first q second x left right := by
    have replaced : ∀ q ∈ w.projects.items, c.Mirrors x → q.Mirrors x → q.id = c.id := by
      intro q stored new old
      rw [(placed.mirrors x).mp new] at old
      exact (placed.id_owner (mapped.ownerOf_eq_some.mpr ⟨stored, Or.inl old⟩)).symm
    rcases (placed.projects p).mp first with rfl | ⟨oldP, otherP⟩ <;> rcases (placed.projects q).mp second with rfl | ⟨oldQ, otherQ⟩
    · rfl
    · exact absurd (replaced q oldQ left right) otherQ
    · exact absurd (replaced p oldP right left) otherP
    · exact mapped.unique p oldP q oldQ x left right
  known := by
    obtain ⟨own, stored, isOwn⟩ := mapped.known
    by_cases same : own.id = c.id
    · exact ⟨c, (placed.projects c).mpr (Or.inl rfl), same.symm.trans isOwn⟩
    · exact ⟨own, (placed.projects own).mpr (Or.inr ⟨stored, same⟩), isOwn⟩
  target p stored x mirrors := by
    rcases (placed.projects p).mp stored with rfl | ⟨old, _⟩
    · rw [placed.id_target mapped, (placed.mirrors x).mp mirrors]
    · exact mapped.target p old x mirrors
  issued p stored := by
    rcases (placed.projects p).mp stored with rfl | ⟨old, _⟩
    · have parents : ∀ a ∈ p.parentId, a.Below w.nextUuid := by
        intro a given
        rw [placed.parent, Option.mem_def] at given
        rcases Option.or_eq_some_iff.mp given with found | ⟨_, kept⟩
        · obtain ⟨parent, listed, rfl⟩ := parentFor_stored found
          exact (mapped.issued parent listed).1
        · obtain ⟨old, owner, hasParent⟩ := Option.bind_eq_some_iff.mp kept
          exact (mapped.issued old (mapped.ownerOf_eq_some.mp owner).1).2 a hasParent
      refine ⟨?_, fun a given => (parents a given).mono placed.nextUuid⟩
      have id := placed.id
      cases owner : w.ownerOf b s.externalId with
      | none =>
        rw [owner] at id
        rw [id.1, id.2]
        exact Uuid.fresh_below _
      | some old =>
        rw [placed.id_owner owner]
        exact (mapped.issued old (mapped.ownerOf_eq_some.mp owner).1).1.mono placed.nextUuid
    · exact ⟨(mapped.issued p old).1.mono placed.nextUuid, fun a given => ((mapped.issued p old).2 a given).mono placed.nextUuid⟩

theorem owner_other (placed : ProjectPlaced b s c w t) (mapped : w.Mapped b) (other : x ≠ s.externalId) :
    t.ownerOf b x = w.ownerOf b x := by
  ext p
  rw [(placed.mapped mapped).ownerOf_eq_some, mapped.ownerOf_eq_some, placed.projects]
  constructor
  · rintro ⟨rfl | ⟨stored, _⟩, stands⟩
    · rcases stands with mirrors | ⟨rfl, isTarget⟩
      · exact absurd ((placed.mirrors x).mp mirrors) other
      · exact absurd ((placed.id_target mapped).mp isTarget).symm other
    · exact ⟨stored, stands⟩
  · exact fun ⟨stored, stands⟩ => ⟨Or.inr ⟨stored, placed.stays mapped other stored stands⟩, stands⟩

theorem canonical_other (placed : ProjectPlaced b s c w t) (mapped : w.Mapped b) (other : x ≠ s.externalId) :
    t.canonical x = w.canonical x := by
  ext p
  rw [(placed.mapped mapped).canonical_eq_some, mapped.canonical_eq_some, placed.projects]
  constructor
  · rintro ⟨rfl | ⟨stored, _⟩, mirrors⟩
    · exact absurd ((placed.mirrors x).mp mirrors) other
    · exact ⟨stored, mirrors⟩
  · exact fun ⟨stored, mirrors⟩ => ⟨Or.inr ⟨stored, placed.stays mapped other stored (Or.inl mirrors)⟩, mirrors⟩

end ProjectPlaced

theorem World.Mapped.owner_of_canonical (mapped : w.Mapped b) {p : Project} (found : w.canonical x = some p) :
    w.ownerOf b x = some p :=
  mapped.ownerOf_eq_some.mpr ((mapped.canonical_eq_some.mp found).imp_right Or.inl)

namespace ProjectsPlaced
variable {projects before after : List ProviderProject}

theorem mapped (placing : ProjectsPlaced b projects w t) (mapped : w.Mapped b) : t.Mapped b := by
  induction placing with
  | nil => exact mapped
  | cons placed _ ih => exact ih (placed.mapped mapped)

theorem unlisted (placing : ProjectsPlaced b projects w t) (mapped : w.Mapped b)
    (absent : x ∉ projects.map ProviderProject.externalId) :
    t.ownerOf b x = w.ownerOf b x ∧ t.canonical x = w.canonical x := by
  induction placing with
  | nil => exact ⟨rfl, rfl⟩
  | cons placed _ ih =>
    rw [List.map_cons, List.mem_cons, not_or] at absent
    obtain ⟨owner, canonical⟩ := ih (placed.mapped mapped) absent.2
    exact ⟨owner.trans (placed.owner_other mapped absent.1), canonical.trans (placed.canonical_other mapped absent.1)⟩

theorem split (placing : ProjectsPlaced b (before ++ s :: after) w t) :
    ∃ u c v, ProjectsPlaced b before w u ∧ ProjectPlaced b s c u v ∧ ProjectsPlaced b after v t := by
  induction before generalizing w with
  | nil =>
    cases placing with
    | cons placed rest => exact ⟨w, _, _, .nil w, placed, rest⟩
  | cons first before ih =>
    cases placing with
    | cons placed rest =>
      obtain ⟨u, c, v, early, here, late⟩ := ih rest
      exact ⟨u, c, v, .cons placed early, here, late⟩

theorem owner_id (placing : ProjectsPlaced b projects w t) (mapped : w.Mapped b) {d : Project}
    (found : t.ownerOf b x = some d) :
    match w.ownerOf b x with
    | none => ¬ d.id.Below w.nextUuid
    | some old => d.id = old.id := by
  induction placing with
  | nil => rw [found]
  | @cons s c projects w u t placed _ ih =>
    have later := ih (placed.mapped mapped) found
    by_cases same : x = s.externalId
    · subst same
      rw [(placed.mapped mapped).owner_of_canonical (placed.canonical_self (placed.mapped mapped))] at later
      have id := placed.id
      cases owner : w.ownerOf b s.externalId with
      | none =>
        rw [owner] at id
        exact fun below => below.ne_fresh (later.trans id.1)
      | some old => exact later.trans (placed.id_owner owner)
    · rw [placed.owner_other mapped same] at later
      cases owner : w.ownerOf b x with
      | none =>
        rw [owner] at later
        exact fun below => later (below.mono placed.nextUuid)
      | some old =>
        rw [owner] at later
        exact later

theorem canonical_listed (placing : ProjectsPlaced b projects w t) (mapped : w.Mapped b)
    (known : x ∈ projects.map ProviderProject.externalId ∨ (w.canonical x).isSome) : (t.canonical x).isSome := by
  induction placing with
  | nil => exact known.resolve_left (by simp)
  | @cons s c projects w u t placed _ ih =>
    refine ih (placed.mapped mapped) ?_
    by_cases same : x = s.externalId
    · subst same
      rw [placed.canonical_self (placed.mapped mapped)]
      exact Or.inr rfl
    · rw [placed.canonical_other mapped same]
      exact known.imp_left fun listed => (List.mem_cons.mp listed).resolve_left same

theorem parent_iff (early : ProjectsPlaced b before w u) (placed : ProjectPlaced b s c u t)
    (late : ProjectsPlaced b after t v) (whole : ProjectsPlaced b projects w v) (mapped : w.Mapped b)
    (first : s.externalId ∉ before.map ProviderProject.externalId) {d : Project} (found : v.canonical x = some d)
    (names : given s.parentExternalId = some x) :
    c.parentId = some d.id ↔ x ∈ before.map ProviderProject.externalId ∨ (w.canonical x).isSome ∨
      ∃ c ∈ w.ownerOf b s.externalId, ∃ d ∈ w.ownerOf b x, c.parentId = some d.id := by
  have mappedThen := early.mapped mapped
  have onwards : ProjectsPlaced b (s :: after) u v := .cons placed late
  have owner := (onwards.mapped mappedThen).owner_of_canonical found
  have parent := placed.parent
  rw [World.parentFor, names, Option.bind_some, (early.unlisted mapped first).1] at parent
  change c.parentId = ((u.canonical x).map Project.id).or _ at parent
  cases known : u.canonical x with
  | some e =>
    have same := onwards.owner_id mappedThen owner
    rw [mappedThen.owner_of_canonical known] at same
    rw [known] at parent
    have found' : c.parentId = some d.id := parent.trans (congrArg some same.symm)
    refine ⟨fun _ => ?_, fun _ => found'⟩
    by_cases listed : x ∈ before.map ProviderProject.externalId
    · exact Or.inl listed
    · rw [← (early.unlisted mapped listed).2, known]
      exact Or.inr (Or.inl rfl)
  | none =>
    have unknown : ¬ (x ∈ before.map ProviderProject.externalId ∨ (w.canonical x).isSome) := by
      intro either
      have listed := early.canonical_listed mapped either
      rw [known] at listed
      cases listed
    rw [not_or] at unknown
    rw [known, Option.map_none, Option.none_or] at parent
    rw [or_iff_right unknown.1, or_iff_right unknown.2, parent, Option.bind_eq_some_iff]
    have id := whole.owner_id mapped owner
    refine exists_congr fun old => and_congr_right fun stands => ?_
    have stored := (mapped.ownerOf_eq_some.mp stands).1
    cases other : w.ownerOf b x with
    | none =>
      rw [other] at id
      refine ⟨fun hasParent => absurd ((mapped.issued old stored).2 _ hasParent) id, ?_⟩
      rintro ⟨_, ⟨⟩, _⟩
    | some d' =>
      rw [other] at id
      rw [id]
      exact ⟨fun hasParent => ⟨d', rfl, hasParent⟩, fun ⟨_, same, hasParent⟩ => Option.some.inj same ▸ hasParent⟩

theorem mirrored_iff (placing : ProjectsPlaced b projects w t) (mapped : w.Mapped b)
    (distinct : (projects.map ProviderProject.externalId).Nodup) :
    ParentsMirrored projects t ↔ ParentsSettled b projects w := by
  have splits : ParentsMirrored projects t ↔ ∀ before s after, projects = before ++ s :: after →
      ∃ c, t.canonical s.externalId = some c ∧
        match given s.parentExternalId with
        | none => c.parentId = none
        | some x => x ∈ projects.map ProviderProject.externalId → ∃ d, t.canonical x = some d ∧ c.parentId = some d.id := by
    refine ⟨fun mirrored before s after split => mirrored s (by simp [split]), fun all s member => ?_⟩
    obtain ⟨before, after, split⟩ := List.append_of_mem member
    exact all before s after split
  rw [splits]
  refine forall_congr' fun before => forall_congr' fun s => forall_congr' fun after => forall_congr' fun split => ?_
  rw [split, List.map_append, List.map_cons, List.nodup_middle, List.nodup_cons, List.mem_append, not_or] at distinct
  obtain ⟨u, c, v, early, placed, late⟩ := (split ▸ placing).split
  have mappedThen := placed.mapped (early.mapped mapped)
  have isPlaced : t.canonical s.externalId = some c :=
    (late.unlisted mappedThen distinct.1.2).2.trans (placed.canonical_self mappedThen)
  rw [isPlaced]
  cases names : given s.parentExternalId with
  | none =>
    have parent := placed.parent
    rw [World.parentFor, names, Option.bind_none, Option.none_or, (early.unlisted mapped distinct.1.1).1] at parent
    constructor
    · rintro ⟨_, ⟨⟩, isNone⟩ old owner
      exact Option.bind_eq_none_iff.mp (parent.symm.trans isNone) old owner
    · exact fun isNone => ⟨c, rfl, parent.trans (Option.bind_eq_none_iff.mpr isNone)⟩
  | some x =>
    constructor
    · rintro ⟨_, ⟨⟩, hasParent⟩ listed
      obtain ⟨d, found, same⟩ := hasParent listed
      exact (parent_iff early placed late placing mapped distinct.1.1 found names).mp same
    · refine fun settled => ⟨c, rfl, fun listed => ?_⟩
      obtain ⟨d, found⟩ := Option.isSome_iff_exists.mp (placing.canonical_listed mapped (Or.inl listed))
      exact ⟨d, found, (parent_iff early placed late placing mapped distinct.1.1 found names).mpr (settled listed)⟩

end ProjectsPlaced

theorem mirrors_append {refs : List ExternalReference} {x y : String} :
    (refs ++ [openProjectRef y "project"]).any (fun ref => ref.refersTo "openproject" x (some "project")) = true ↔
      refs.any (fun ref => ref.refersTo "openproject" x (some "project")) = true ∨ y = x := by
  rw [List.any_append, Bool.or_eq_true, List.any_cons, List.any_nil, Bool.or_false, openProjectRef_refersTo]

theorem upsertProject_places {o : Outside} (clean : o.Clean) (s : ProviderProject) (mapped : w.Mapped b) :
    Returns o (upsertProject s.externalId s.name s.description s.parentExternalId (if s.externalId = b.externalId then some b.projectId else none))
      w (fun c t => ProjectPlaced b s c w t) := by
  refine (upsertProject_upserts clean s.externalId s.name s.description s.parentExternalId _).mono ?_
  rintro (_ | c) t reached
  · exact reached
  obtain ⟨upserted, origin⟩ := reached
  change match w.ownerOf b s.externalId with
    | none => _
    | some old => _ at origin
  cases owner : w.ownerOf b s.externalId with
  | none =>
    rw [owner] at origin
    obtain ⟨id, drawn, parent, refs⟩ := origin
    refine ⟨upserted.projects, upserted.nextUuid, fun x => ?_, by rw [owner]; exact ⟨id, drawn⟩, by rw [owner, parent]; simp⟩
    rw [Project.Mirrors, refs, ← List.nil_append [_], mirrors_append]
    simp [eq_comm]
  | some old =>
    rw [owner] at origin
    obtain ⟨_, id, parent, refs⟩ := origin
    refine ⟨upserted.projects, upserted.nextUuid, fun x => ?_, by rw [owner]; exact id, by rw [owner, parent]; rfl⟩
    rw [Project.Mirrors, refs]
    split
    · rename_i held
      refine ⟨mapped.only owner, fun same => List.any_eq_true.mpr ⟨_, List.contains_iff_mem.mp held, ?_⟩⟩
      exact openProjectRef_refersTo.mpr same.symm
    · rw [mirrors_append]
      exact ⟨fun either => either.elim (mapped.only owner) Eq.symm, fun same => Or.inr same.symm⟩

theorem ingestProjects_places {o : Outside} (clean : o.Clean) (projects : List ProviderProject) (n : Nat)
    (mapped : w.Mapped b) : ProjectsPlaced b projects w
      (OpenProjectProjectBootstrapService.ingestProjects projects b.externalId b.projectId o n w).store := by
  have loop : Returns o (forEach (OpenProjectProjectBootstrapService.ingestProject b.externalId b.projectId) projects) w
      (fun _ t => ProjectsPlaced b projects w t) := by
    induction projects generalizing w with
    | nil => exact Meets.pure (.nil w)
    | cons s projects ih =>
      refine Meets.seq (byResult (fun _ u => ∃ c, ProjectPlaced b s c w u) fun _ _ => False)
        (Meets.seq _ (upsertProject_places clean s mapped) (fun c _ placed => Meets.pure ⟨c, placed⟩) (fun _ _ stopped => stopped.elim))
        ?_ (fun _ _ stopped => stopped.elim)
      rintro _ u ⟨c, placed⟩
      refine (ih (placed.mapped mapped)).mono ?_
      rintro (_ | _) t reached
      · exact reached
      · exact .cons placed reached
  have ends : Returns o (OpenProjectProjectBootstrapService.ingestProjects projects b.externalId b.projectId) w
      (fun _ t => ProjectsPlaced b projects w t) :=
    Meets.seq _ loop (fun _ _ placing => Meets.pure placing) (fun _ _ stopped => stopped.elim)
  have ended := ends n
  generalize OpenProjectProjectBootstrapService.ingestProjects projects b.externalId b.projectId o n w = run at ended ⊢
  obtain ⟨_ | _, _, t⟩ := run
  · exact ended.elim
  · exact ended

theorem World.Bootstrapped.mapped (bootstrapped : w.Bootstrapped b) : w.Mapped b := by
  induction bootstrapped with
  | start known none issued =>
    exact ⟨fun p stored x _ mirrors => absurd mirrors (none p stored x), fun p stored _ _ x mirrors => absurd mirrors (none p stored x),
      known, fun p stored x mirrors => absurd mirrors (none p stored x), issued⟩
  | ingest _ projects _ o clean n ih => exact (ingestProjects_places clean projects n ih).mapped ih
  | aside _ same le ih =>
    obtain ⟨single, unique, known, own, issued⟩ := ih
    rw [← same] at single unique known own issued
    exact ⟨single, unique, known, own, fun p stored => ⟨(issued p stored).1.mono le, fun a given => ((issued p stored).2 a given).mono le⟩⟩

/-- After a bootstrap the listed projects have their provider parents exactly when
these were settled before it. -/
theorem parents_mirrored_iff (bootstrapped : w.Bootstrapped b) (projects : List ProviderProject)
    (distinct : (projects.map ProviderProject.externalId).Nodup) (o : Outside) (clean : o.Clean) (n : Nat) :
    ParentsMirrored projects (OpenProjectProjectBootstrapService.ingestProjects projects b.externalId b.projectId o n w).store ↔
      ParentsSettled b projects w :=
  (ingestProjects_places clean projects n bootstrapped.mapped).mirrored_iff bootstrapped.mapped distinct

end

theorem World.oneProject_bootstrapped : World.oneProject.Bootstrapped ⟨"10", .v5 "project"⟩ := by
  have only : ∀ p ∈ World.oneProject.projects.items, p = { id := .v5 "project", name := "Project" } := fun p stored =>
    List.mem_singleton.mp stored
  refine .start ⟨_, List.mem_singleton.mpr rfl, rfl⟩ (fun p stored x mirrors => ?_) (fun p stored => ?_)
  · rw [only p stored] at mirrors
    cases mirrors
  · rw [only p stored]
    exact ⟨trivial, fun a none => nomatch none⟩

theorem parent_listed_first :
    let projects : List ProviderProject := [{ externalId := "10", name := "Parent" }, { externalId := "11", name := "Child", parentExternalId := some "10" }]
    ParentsMirrored projects (OpenProjectProjectBootstrapService.ingestProjects projects "10" (.v5 "project") Outside.clean 0 World.oneProject).store ↔
      ParentsSettled ⟨"10", .v5 "project"⟩ projects World.oneProject :=
  parents_mirrored_iff World.oneProject_bootstrapped _ (by decide) Outside.clean Outside.clean_clean 0

theorem child_listed_first : ¬ ∀ b w projects n, World.Bootstrapped b w →
    (projects.map ProviderProject.externalId).Nodup →
      ParentsMirrored projects (OpenProjectProjectBootstrapService.ingestProjects projects b.externalId b.projectId Outside.clean n w).store := by
  intro mirrored
  let projects : List ProviderProject :=
    [{ externalId := "11", name := "Child", parentExternalId := some "10" }, { externalId := "10", name := "Parent" }]
  obtain ⟨c, found, hasParent⟩ := mirrored ⟨"10", .v5 "project"⟩ World.oneProject projects 0 World.oneProject_bootstrapped (by decide) _
    List.mem_cons_self
  obtain ⟨d, -, isParent⟩ := hasParent (by decide)
  have orphan : ((OpenProjectProjectBootstrapService.ingestProjects projects "10" (.v5 "project") Outside.clean 0
      World.oneProject).store.canonical "11").map Project.parentId = some none := by decide +kernel
  rw [found, Option.map_some, isParent] at orphan
  cases orphan

end Brain
