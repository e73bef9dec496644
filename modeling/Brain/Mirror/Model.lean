import Brain.Ingestion.Frames
import Mathlib.Data.Set.Insert
import Mathlib.Logic.Function.Basic
import Mathlib.Logic.Relation

namespace Brain

/-- What a canonical work item says, apart from the ids drawn for it. -/
structure Content where
  projectId : ProjectId
  type : WorkItemType
  title : String
  description : String
  priority : Option Priority
  assignee : Option ActorId
  humanWorkStatus : HumanWorkStatus
  verificationStatus : VerificationStatus
  deriving DecidableEq

def WorkItem.content (item : WorkItem) : Content :=
  { projectId := item.projectId, type := item.type, title := item.title, description := item.description
    priority := item.priority, assignee := item.assignee, humanWorkStatus := item.humanWorkStatus
    verificationStatus := item.verificationStatus }

def Content.new (projectId : ProjectId) (s : OpenProjectWorkItemSnapshot) : Content :=
  (newWorkItem default s projectId).content

def Content.apply (s : OpenProjectWorkItemSnapshot) (c : Content) : Content :=
  { c with
    title := strOr s.summary c.title
    description := strOr s.description c.description
    type := mapWorkItemType s.type
    humanWorkStatus := mapHumanWorkStatus s.state
    priority := mapPriority s.priority
    assignee := (snapshotActor s).or c.assignee }

/-- What the brain holds for the work packages of the provider, in the
provider's own names: no drawn id occurs in it. -/
@[ext] structure Mirror where
  item : String → Option Content
  parent : String → Option String
  relation : Set (String × String × WorkItemRelationType)

namespace Mirror

def Knows (m : Mirror) (x : String) : Prop := (m.item x).isSome = true

instance (m : Mirror) (x : String) : Decidable (m.Knows x) := inferInstanceAs (Decidable (_ = true))

/-- A work item for the work package of `s`, unless there is one. -/
def create (projectId : ProjectId) (s : OpenProjectWorkItemSnapshot) (m : Mirror) : Mirror :=
  let content := (m.item s.externalId).getD (Content.new projectId s)
  { m with item := Function.update m.item s.externalId (some content) }

def apply (s : OpenProjectWorkItemSnapshot) (m : Mirror) : Mirror :=
  { m with item := Function.update m.item s.externalId ((m.item s.externalId).map (Content.apply s)) }

/-- The parent `s` names, when both work packages are known and differ. -/
def resolveParent (s : OpenProjectWorkItemSnapshot) (m : Mirror) : Mirror :=
  match parentExternalId s with
  | none => m
  | some p =>
    if m.Knows s.externalId ∧ m.Knows p ∧ p ≠ s.externalId then
      { m with parent := Function.update m.parent s.externalId (some p) }
    else m

/-- The relation a raw relation of `s` names in the provider's own names. -/
def namedRelation (s : OpenProjectWorkItemSnapshot) (raw : RawDict) :
    Option (String × String × WorkItemRelationType) :=
  (rawRelation s raw).map fun (source, target, relationType) =>
    (source.getD s.externalId, target, relationType)

/-- Both ends of a relation are known and differ. -/
def Resolvable (m : Mirror) (e : String × String × WorkItemRelationType) : Prop :=
  m.Knows e.1 ∧ m.Knows e.2.1 ∧ e.2.1 ≠ e.1

instance (m : Mirror) (e : String × String × WorkItemRelationType) : Decidable (m.Resolvable e) :=
  inferInstanceAs (Decidable (_ ∧ _ ∧ _))

def addRelation (e : String × String × WorkItemRelationType) (m : Mirror) : Mirror :=
  { m with relation := insert e m.relation }

def resolveRelation (s : OpenProjectWorkItemSnapshot) (raw : RawDict) (m : Mirror) : Mirror :=
  match namedRelation s raw with
  | none => m
  | some e => if m.Resolvable e then m.addRelation e else m

def resolveRelations (s : OpenProjectWorkItemSnapshot) (m : Mirror) : Mirror :=
  s.relations.foldl (fun m raw => m.resolveRelation s raw) m

/-- What ingesting `s` into a project does to the mirror. -/
def ingest (projectId : ProjectId) (s : OpenProjectWorkItemSnapshot) (m : Mirror) : Mirror :=
  (((m.create projectId s).apply s).resolveParent s).resolveRelations s

/-- What the second pass over `s` does to the mirror. -/
def resolve (s : OpenProjectWorkItemSnapshot) (m : Mirror) : Mirror :=
  if m.Knows s.externalId then (m.resolveParent s).resolveRelations s else m

/-- One write of an import of `batch`. -/
def Step (projectId : ProjectId) (batch : List OpenProjectWorkItemSnapshot) (m m' : Mirror) : Prop :=
  ∃ s ∈ batch, m' = m.create projectId s ∨ m' = m.apply s ∨ m' = m.resolveParent s ∨
    ∃ raw ∈ s.relations, m' = m.resolveRelation s raw

/-- Any number of writes of an import of `batch`, in any order. -/
abbrev Reach (projectId : ProjectId) (batch : List OpenProjectWorkItemSnapshot) : Mirror → Mirror → Prop :=
  Relation.ReflTransGen (Step projectId batch)

variable {m : Mirror} {s : OpenProjectWorkItemSnapshot}

theorem create_of_knows (projectId : ProjectId) (knows : m.Knows s.externalId) : m.create projectId s = m := by
  obtain ⟨content, found⟩ := Option.isSome_iff_exists.mp knows
  simp only [create, found, Option.getD_some]
  rw [← found, Function.update_eq_self]

theorem create_of_unknown (projectId : ProjectId) (unknown : m.item s.externalId = none) : m.create projectId s =
      { m with item := Function.update m.item s.externalId (some (Content.new projectId s)) } := by
  simp only [create, unknown, Option.getD_none]

@[simp] theorem knows_create {projectId : ProjectId} {x : String} :
    (m.create projectId s).Knows x ↔ x = s.externalId ∨ m.Knows x := by
  by_cases same : x = s.externalId
  · simp [Knows, create, same]
  · simp [Knows, create, same]

@[simp] theorem knows_apply {x : String} : (m.apply s).Knows x ↔ m.Knows x := by
  by_cases same : x = s.externalId
  · simp [Knows, apply, same]
  · simp [Knows, apply, same]

@[simp] theorem item_resolveParent (m : Mirror) (s : OpenProjectWorkItemSnapshot) :
    (m.resolveParent s).item = m.item := by
  unfold resolveParent
  split
  · rfl
  · split <;> rfl

@[simp] theorem relation_resolveParent (m : Mirror) (s : OpenProjectWorkItemSnapshot) :
    (m.resolveParent s).relation = m.relation := by
  unfold resolveParent
  split
  · rfl
  · split <;> rfl

@[simp] theorem item_resolveRelation (m : Mirror) (s : OpenProjectWorkItemSnapshot) (raw : RawDict) :
    (m.resolveRelation s raw).item = m.item := by
  unfold resolveRelation
  split
  · rfl
  · split <;> rfl

@[simp] theorem parent_resolveRelation (m : Mirror) (s : OpenProjectWorkItemSnapshot) (raw : RawDict) :
    (m.resolveRelation s raw).parent = m.parent := by
  unfold resolveRelation
  split
  · rfl
  · split <;> rfl

theorem knows_congr {m' : Mirror} (items : m'.item = m.item) {x : String} : m'.Knows x ↔ m.Knows x := by
  simp only [Knows, items]

section Reach
variable {projectId : ProjectId} {batch : List OpenProjectWorkItemSnapshot} {s : OpenProjectWorkItemSnapshot}
  {m m' : Mirror}

theorem Reach.mono {larger : List OpenProjectWorkItemSnapshot} (reach : Reach projectId batch m m')
    (sub : batch ⊆ larger) : Reach projectId larger m m' := by
  refine Relation.ReflTransGen.mono ?_ _ _ reach
  rintro _ _ ⟨s, member, write⟩
  exact ⟨s, sub member, write⟩

theorem Reach.create (member : s ∈ batch) (reach : Reach projectId batch m m') :
    Reach projectId batch m (m'.create projectId s) :=
  reach.tail ⟨s, member, Or.inl rfl⟩

theorem Reach.apply (member : s ∈ batch) (reach : Reach projectId batch m m') :
    Reach projectId batch m (m'.apply s) :=
  reach.tail ⟨s, member, Or.inr (Or.inl rfl)⟩

theorem Reach.resolveParent (member : s ∈ batch) (reach : Reach projectId batch m m') :
    Reach projectId batch m (m'.resolveParent s) :=
  reach.tail ⟨s, member, Or.inr (Or.inr (Or.inl rfl))⟩

theorem Reach.resolveSome (member : s ∈ batch) (reach : Reach projectId batch m m') {raws : List RawDict}
    (listed : raws ⊆ s.relations) :
    Reach projectId batch m (raws.foldl (fun m raw => m.resolveRelation s raw) m') := by
  induction raws generalizing m' with
  | nil => exact reach
  | cons raw raws ih =>
    have head : raw ∈ s.relations := listed (List.mem_cons_self ..)
    exact ih (reach.tail ⟨s, member, Or.inr (Or.inr (Or.inr ⟨raw, head, rfl⟩))⟩)
      (fun other later => listed (List.mem_cons_of_mem _ later))

theorem Reach.resolveRelations (member : s ∈ batch) (reach : Reach projectId batch m m') :
    Reach projectId batch m (m'.resolveRelations s) :=
  reach.resolveSome member (List.Subset.refl _)

theorem Reach.ingest (member : s ∈ batch) (reach : Reach projectId batch m m') :
    Reach projectId batch m (m'.ingest projectId s) :=
  (((reach.create member).apply member).resolveParent member).resolveRelations member

theorem Reach.resolve (member : s ∈ batch) (reach : Reach projectId batch m m') :
    Reach projectId batch m (m'.resolve s) := by
  unfold Mirror.resolve
  split
  · exact (reach.resolveParent member).resolveRelations member
  · exact reach

theorem Reach.knows (reach : Reach projectId batch m m') {x : String} (known : m.Knows x) : m'.Knows x := by
  induction reach with
  | refl => exact known
  | tail _ step ih =>
    obtain ⟨s, _, rfl | rfl | rfl | ⟨raw, _, rfl⟩⟩ := step
    · exact knows_create.mpr (Or.inr ih)
    · exact knows_apply.mpr ih
    · exact (knows_congr (item_resolveParent _ s)).mpr ih
    · exact (knows_congr (item_resolveRelation _ s raw)).mpr ih

theorem Reach.knows_only (reach : Reach projectId batch m m') {x : String} (known : m'.Knows x) :
    m.Knows x ∨ ∃ s ∈ batch, s.externalId = x := by
  induction reach with
  | refl => exact Or.inl known
  | tail _ step ih =>
    obtain ⟨s, member, rfl | rfl | rfl | ⟨raw, _, rfl⟩⟩ := step
    · rcases knows_create.mp known with same | old
      · exact Or.inr ⟨s, member, same.symm⟩
      · exact ih old
    · exact ih (knows_apply.mp known)
    · exact ih ((knows_congr (item_resolveParent _ s)).mp known)
    · exact ih ((knows_congr (item_resolveRelation _ s raw)).mp known)

end Reach

end Mirror

end Brain
