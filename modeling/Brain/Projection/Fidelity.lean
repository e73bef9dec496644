import Brain.Ingestion.Identity
import Brain.Projection.Hierarchy

namespace Brain
open Calls

/-! ### Canonical edges -/

def WorkItemRelation.edge (row : WorkItemRelation) : GraphRelation :=
  { subjectId := row.sourceWorkItemId, relationType := mapGraphRelation row.relationType, objectId := row.targetWorkItemId }

def WorkItem.edges (item : WorkItem) : List GraphRelation :=
  (item.parentId.toList.map fun parent => { subjectId := item.id, relationType := .parentOf, objectId := parent }) ++
    item.assignee.toList.map fun assignee => { subjectId := item.id, relationType := .assignedTo, objectId := assignee }

def World.canonicalEdges (w : World) (item : WorkItem) : List GraphRelation :=
  item.edges ++ (w.relations.items.filter (fun row => row.sourceWorkItemId = item.id)).map WorkItemRelation.edge

/-- At every node of a work item the graph has exactly the canonical edges. -/
def World.Faithful (w : World) : Prop :=
  ∀ item ∈ w.workItems.items, ∀ relation, relation ∈ w.workEdges item.id ↔ relation ∈ w.canonicalEdges item

def World.CanonicalEdge (w : World) (relation : GraphRelation) : Prop :=
  (∃ item ∈ w.workItems.items, relation ∈ item.edges) ∨ ∃ row ∈ w.relations.items, relation = row.edge

variable {item : WorkItem} {relation : GraphRelation}

theorem WorkItem.mem_edges : relation ∈ item.edges ↔
    (∃ parent, item.parentId = some parent ∧ relation = { subjectId := item.id, relationType := .parentOf, objectId := parent }) ∨
      ∃ assignee, item.assignee = some assignee ∧
        relation = { subjectId := item.id, relationType := .assignedTo, objectId := assignee } := by
  simp [WorkItem.edges, eq_comm]

theorem WorkItem.edges_subject (listed : relation ∈ item.edges) : relation.subjectId = item.id := by
  rcases mem_edges.mp listed with ⟨_, _, rfl⟩ | ⟨_, _, rfl⟩
  · rfl
  · rfl

theorem mem_canonicalEdges {w : World} (stored : item ∈ w.workItems.items) :
    relation ∈ w.canonicalEdges item ↔ w.CanonicalEdge relation ∧ relation.subjectId = item.id := by
  simp only [World.canonicalEdges, List.mem_append, List.mem_map, List.mem_filter, decide_eq_true_eq]
  constructor
  · rintro (own | ⟨row, ⟨listed, source⟩, rfl⟩)
    · exact ⟨Or.inl ⟨item, stored, own⟩, WorkItem.edges_subject own⟩
    · exact ⟨Or.inr ⟨row, listed, rfl⟩, source⟩
  · rintro ⟨⟨other, listed, own⟩ | ⟨row, listed, rfl⟩, subject⟩
    · have same : other = item := w.workItems.key_injective listed stored ((WorkItem.edges_subject own).symm.trans subject)
      exact Or.inl (same ▸ own)
    · exact Or.inr ⟨row, ⟨listed, subject⟩, rfl⟩

theorem mem_subgraphRelations {rows : List WorkItemRelation} :
    relation ∈ subgraphRelations item rows ∧ relation.relationType.isWorkEdge = true ↔
      relation ∈ item.edges ∨ ∃ row ∈ rows, relation = row.edge := by
  have drawn : relation ∈ subgraphRelations item rows ↔
      relation = { subjectId := item.id, relationType := .partOf, objectId := item.projectId } ∨
        relation ∈ item.edges ∨ ∃ row ∈ rows, relation = row.edge := by
    simp only [subgraphRelations, WorkItem.edges, List.mem_append, List.mem_cons, List.mem_map]
    constructor
    · rintro (((project | parent) | ⟨row, listed, rfl⟩) | assignee)
      · exact Or.inl project
      · exact Or.inr (Or.inl (Or.inl parent))
      · exact Or.inr (Or.inr ⟨row, listed, rfl⟩)
      · exact Or.inr (Or.inl (Or.inr assignee))
    · rintro (project | (parent | assignee) | ⟨row, listed, rfl⟩)
      · exact Or.inl (Or.inl (Or.inl project))
      · exact Or.inl (Or.inl (Or.inr parent))
      · exact Or.inr assignee
      · exact Or.inl (Or.inr ⟨row, listed, rfl⟩)
  have work : (relation ∈ item.edges ∨ ∃ row ∈ rows, relation = row.edge) → relation.relationType.isWorkEdge = true := by
    rintro (own | ⟨row, _, rfl⟩)
    · rcases WorkItem.mem_edges.mp own with ⟨_, _, rfl⟩ | ⟨_, _, rfl⟩
      · rfl
      · rfl
    · cases kind : row.relationType <;> simp [WorkItemRelation.edge, mapGraphRelation, RelationType.isWorkEdge, kind]
  rw [drawn]
  constructor
  · rintro ⟨rfl | rest, isWork⟩
    · cases isWork
    · exact rest
  · exact fun rest => ⟨Or.inr rest, work rest⟩

/-- The edges that a projection of the work item of `s` would draw. -/
def World.Pending (w : World) (s : OpenProjectWorkItemSnapshot) (relation : GraphRelation) : Prop :=
  ∃ item, w.package s.externalId = some item ∧ (relation ∈ item.edges ∨
    ∃ row ∈ w.relations.items, (row.sourceWorkItemId = item.id ∨ row.targetWorkItemId = item.id) ∧ relation = row.edge)

structure Traced (w : World) : Prop where
  canonical : ∀ id, w.Holds id → ∀ relation ∈ w.workEdges id, w.CanonicalEdge relation ∧ relation.subjectId = id
  drawn : ∀ id, ∀ relation ∈ w.workEdges id, id.Below w.nextUuid
  issued : Issued w
  rows : ∀ row ∈ w.relations.items, row.id.Below w.nextUuid ∧ w.Holds row.sourceWorkItemId
  projects : ∀ project ∈ w.projects.items, ∀ id, id = project.id ∨ project.parentId = some id →
    id.Below w.nextUuid ∧ ¬ w.Holds id

/-- Every canonical edge is drawn. -/
def World.Complete (w : World) : Prop := ∀ relation, w.CanonicalEdge relation → relation ∈ w.workEdges relation.subjectId

/-- Every canonical edge is drawn, or will be by the projection of `s`. -/
def World.Behind (w : World) (s : OpenProjectWorkItemSnapshot) : Prop :=
  ∀ relation, w.CanonicalEdge relation → relation ∈ w.workEdges relation.subjectId ∨ w.Pending s relation

section
variable {w t : World} {s : OpenProjectWorkItemSnapshot} {item : WorkItem} {ingesting : Bool}

theorem Traced.faithful (traced : Traced w) (complete : w.Complete) : w.Faithful := by
  intro item stored relation
  rw [mem_canonicalEdges stored]
  constructor
  · exact fun listed => traced.canonical item.id ⟨item, stored, rfl⟩ relation listed
  · rintro ⟨canonical, subject⟩
    have listed := complete relation canonical
    rwa [subject] at listed

theorem World.Complete.behind (complete : w.Complete) : w.Behind s := fun relation canonical =>
  Or.inl (complete relation canonical)

/-! ### Steps that stay apart -/

section
variable (beside : Apart w t)
include beside

theorem Apart.holds (id : WorkItemId) : t.Holds id ↔ w.Holds id := by
  unfold World.Holds
  rw [beside.workItems]

theorem Apart.canonicalEdge (relation : GraphRelation) : t.CanonicalEdge relation ↔ w.CanonicalEdge relation := by
  unfold World.CanonicalEdge
  rw [beside.workItems, beside.relations]

theorem Apart.complete (complete : w.Complete) : t.Complete := by
  intro relation canonical
  rw [beside.edges]
  exact complete relation ((beside.canonicalEdge relation).mp canonical)

theorem Apart.behind (behind : w.Behind s) : t.Behind s := by
  intro relation canonical
  rw [beside.edges]
  refine (behind relation ((beside.canonicalEdge relation).mp canonical)).imp_right ?_
  rintro ⟨item, own, pending⟩
  refine ⟨item, (beside.package _).trans own, ?_⟩
  rwa [beside.relations]

theorem Traced.apart (traced : Traced w) : Traced t where
  canonical id holds relation listed := by
    rw [beside.edges] at listed
    rw [beside.canonicalEdge]
    exact traced.canonical id ((beside.holds id).mp holds) relation listed
  drawn id relation listed := by
    rw [beside.edges] at listed
    exact (traced.drawn id relation listed).mono beside.nextUuid
  issued := beside.issued traced.issued
  rows row stored := by
    rw [beside.relations] at stored
    rw [beside.holds]
    exact ⟨(traced.rows row stored).1.mono beside.nextUuid, (traced.rows row stored).2⟩
  projects project stored id isId := by
    rw [beside.projects] at stored
    rw [beside.holds]
    exact ⟨(traced.projects project stored id isId).1.mono beside.nextUuid, (traced.projects project stored id isId).2⟩

end

/-! ### What a snapshot changes -/

/-- The work item and the parent that resolving `s` gives it. -/
def World.adoption (w : World) (s : OpenProjectWorkItemSnapshot) : Option (WorkItemId × WorkItemId) :=
  match w.packageId s.externalId, (parentExternalId s).bind w.packageId with
  | some child, some parent => if parent = child then none else some (child, parent)
  | _, _ => none

/-- Resolving `s` replaces no parent by another one. -/
def KeepsParent (w : World) (s : OpenProjectWorkItemSnapshot) : Prop :=
  ∀ item ∈ w.workItems.items, ∀ parent, w.adoption s = some (item.id, parent) → ∀ a, item.parentId = some a → a = parent

/-- Ingesting `s` replaces no assignee by another one. -/
def KeepsAssignee (w : World) (s : OpenProjectWorkItemSnapshot) : Prop :=
  ∀ item ∈ w.workItems.items, w.packageId s.externalId = some item.id → ∀ a b, item.assignee = some a →
    snapshotActor s = some b → a = b

/-- A new relation that `s` names is one of its own work item. -/
def OwnRelations (w : World) (s : OpenProjectWorkItemSnapshot) : Prop :=
  ∀ raw ∈ s.relations, ∀ x y mapped source target, rawRelation s raw = some (some x, y, mapped) →
    w.packageId x = some source → w.packageId y = some target → source = target ∨
      w.packageId s.externalId = some source ∨ w.packageId s.externalId = some target ∨
      ∃ row ∈ w.relations.items, row.sourceWorkItemId = source ∧ row.targetWorkItemId = target ∧ row.relationType = mapped

def SameParent (w : World) (s s' : OpenProjectWorkItemSnapshot) : Prop :=
  ∀ child parent parent', w.adoption s = some (child, parent) → w.adoption s' = some (child, parent') → parent = parent'

theorem SameParent.refl (w : World) (s : OpenProjectWorkItemSnapshot) : SameParent w s s := by
  intro child parent parent' first second
  rw [first] at second
  cases second
  rfl

theorem adoption_congr (same : ∀ x, t.packageId x = w.packageId x) (s : OpenProjectWorkItemSnapshot) :
    t.adoption s = w.adoption s := by
  have names : t.packageId = w.packageId := funext same
  unfold World.adoption
  rw [names]

theorem adoption_eq_some {child parent : WorkItemId} (adopts : w.adoption s = some (child, parent)) :
    w.packageId s.externalId = some child := by
  unfold World.adoption at adopts
  split at adopts
  · rename_i own _ found _
    split at adopts
    · cases adopts
    · cases adopts
      exact found
  · cases adopts

theorem adoption_of_found {parent : WorkItem} {x : String} (own : w.package s.externalId = some item)
    (names : parentExternalId s = some x) (found : w.package x = some parent) (other : parent.id ≠ item.id) :
    w.adoption s = some (item.id, parent.id) := by
  simp [World.adoption, World.packageId, own, names, found, other]

theorem packageId_own (own : w.package s.externalId = some item) : w.packageId s.externalId = some item.id := by
  simp [World.packageId, own]

/-! ### Writes -/

variable {rewritten : WorkItem}

theorem mem_putStored {entry : WorkItem} :
    entry ∈ (World.putWorkItem rewritten w).workItems.items ↔ entry = rewritten ∨ entry ∈ w.workItems.items ∧ entry.id ≠ rewritten.id :=
  Keyed.mem_upsert

theorem holds_putStored (stored : item ∈ w.workItems.items) (sameId : item.id = rewritten.id) (id : WorkItemId) :
    (World.putWorkItem rewritten w).Holds id ↔ w.Holds id := by
  constructor
  · rintro ⟨entry, member, rfl⟩
    rcases mem_putStored.mp member with rfl | ⟨old, _⟩
    · exact ⟨item, stored, sameId⟩
    · exact ⟨entry, old, rfl⟩
  · rintro ⟨entry, member, rfl⟩
    by_cases same : entry.id = rewritten.id
    · exact ⟨rewritten, mem_putStored.mpr (Or.inl rfl), same.symm⟩
    · exact ⟨entry, mem_putStored.mpr (Or.inr ⟨member, same⟩), rfl⟩

theorem Traced.rewrite (traced : Traced w) (behind : w.Behind s) (own : w.package s.externalId = some item)
    (sameId : item.id = rewritten.id) (sameRefs : item.externalRefs = rewritten.externalRefs)
    (edges : ∀ relation ∈ item.edges, relation ∈ rewritten.edges) :
    Traced (World.putWorkItem rewritten w) ∧ (World.putWorkItem rewritten w).Behind s := by
  have stored := package_stored own
  have isOwn : ∀ entry ∈ w.workItems.items, entry.id = rewritten.id → entry = item := fun entry listed same =>
    w.workItems.key_injective listed stored (same.trans sameId.symm)
  have stays : ∀ relation, w.CanonicalEdge relation → (World.putWorkItem rewritten w).CanonicalEdge relation := by
    rintro relation (⟨entry, listed, drawn⟩ | row)
    · refine Or.inl ?_
      by_cases same : entry.id = rewritten.id
      · have equal := isOwn entry listed same
        subst equal
        exact ⟨rewritten, mem_putStored.mpr (Or.inl rfl), edges relation drawn⟩
      · exact ⟨entry, mem_putStored.mpr (Or.inr ⟨listed, same⟩), drawn⟩
    · exact Or.inr row
  have ownAfter := package_putOld own sameId sameRefs
  constructor
  · constructor
    · intro id holds relation listed
      have before := traced.canonical id ((holds_putStored stored sameId id).mp holds) relation listed
      exact ⟨stays relation before.1, before.2⟩
    · exact traced.drawn
    · intro entry member
      rcases mem_putStored.mp member with rfl | ⟨old, _⟩
      · have below := traced.issued item stored
        rwa [sameId] at below
      · exact traced.issued entry old
    · intro row listed
      rw [holds_putStored stored sameId]
      exact traced.rows row listed
    · intro project listed id isId
      rw [holds_putStored stored sameId]
      exact traced.projects project listed id isId
  · have later : ∀ relation, w.Pending s relation → (World.putWorkItem rewritten w).Pending s relation := by
      rintro relation ⟨entry, found, pending⟩
      rw [own] at found
      cases found
      refine ⟨rewritten, ownAfter, pending.imp (edges relation) ?_⟩
      rintro ⟨row, listed, isEnd, isEdge⟩
      rw [sameId] at isEnd
      exact ⟨row, listed, isEnd, isEdge⟩
    rintro relation (⟨entry, member, drawn⟩ | row)
    · rcases mem_putStored.mp member with rfl | ⟨old, _⟩
      · exact Or.inr ⟨entry, ownAfter, Or.inl drawn⟩
      · exact (behind relation (Or.inl ⟨entry, old, drawn⟩)).imp_right (later relation)
    · exact (behind relation (Or.inr row)).imp_right (later relation)

theorem Traced.create {created : WorkItem} (traced : Traced w) (behind : w.Behind s) (absent : w.package s.externalId = none)
    (isNew : created.id = .v4 w.nextUuid) (bare : created.edges = []) :
    Traced (World.putWorkItem created { w with nextUuid := w.nextUuid + 1 }) ∧
      (World.putWorkItem created { w with nextUuid := w.nextUuid + 1 }).Behind s := by
  have member : ∀ entry, entry ∈ (World.putWorkItem created { w with nextUuid := w.nextUuid + 1 }).workItems.items ↔
      entry = created ∨ entry ∈ w.workItems.items := by
    intro entry
    refine mem_putStored.trans (or_congr_right ⟨And.left, fun old => ⟨old, ?_⟩⟩)
    rw [isNew]
    exact (traced.issued entry old).ne_fresh
  have holds : ∀ id, (World.putWorkItem created { w with nextUuid := w.nextUuid + 1 }).Holds id ↔ id = created.id ∨ w.Holds id := by
    intro id
    unfold World.Holds
    simp only [member, or_and_right, exists_or, exists_eq_left, eq_comm (a := id)]
  have edges : ∀ relation, (World.putWorkItem created { w with nextUuid := w.nextUuid + 1 }).CanonicalEdge relation ↔
      w.CanonicalEdge relation := by
    intro relation
    refine or_congr_left ?_
    simp only [member, or_and_right, exists_or, exists_eq_left, bare, List.not_mem_nil, false_or]
  constructor
  · constructor
    · intro id isHeld relation listed
      rw [edges]
      rcases (holds id).mp isHeld with rfl | old
      · have below := traced.drawn created.id relation listed
        exact absurd isNew below.ne_fresh
      · exact traced.canonical id old relation listed
    · exact fun id relation listed => (traced.drawn id relation listed).mono (Nat.le_succ _)
    · intro entry listed
      rcases (member entry).mp listed with rfl | old
      · rw [isNew]
        exact Uuid.fresh_below _
      · exact (traced.issued entry old).mono (Nat.le_succ _)
    · intro row listed
      have before := traced.rows row listed
      exact ⟨before.1.mono (Nat.le_succ _), (holds _).mpr (Or.inr before.2)⟩
    · intro project listed id isId
      obtain ⟨below, unheld⟩ := traced.projects project listed id isId
      refine ⟨below.mono (Nat.le_succ _), fun isHeld => ?_⟩
      rcases (holds id).mp isHeld with rfl | old
      · exact below.ne_fresh isNew
      · exact unheld old
  · intro relation canonical
    rcases behind relation ((edges relation).mp canonical) with drawn | ⟨item, own, _⟩
    · exact Or.inl drawn
    · rw [absent] at own
      cases own

variable {relation : WorkItemRelation}

theorem mem_createRelation {row : WorkItemRelation} (fresh : ∀ old ∈ w.relations.items, old.id ≠ relation.id) :
    row ∈ (World.createRelation relation w).relations.items ↔ row ∈ w.relations.items ∨
      (row = relation ∧ ¬ ∃ old ∈ w.relations.items, World.sameTriple old relation = true) := by
  unfold World.createRelation
  by_cases known : w.relations.items.any (World.sameTriple · relation) = true
  · rw [if_pos known]
    have exists' : ∃ old ∈ w.relations.items, World.sameTriple old relation = true := List.any_eq_true.mp known
    simp [exists']
  · rw [if_neg known]
    have missing : ¬ ∃ old ∈ w.relations.items, World.sameTriple old relation = true := fun found => known (List.any_eq_true.mpr found)
    refine Keyed.mem_upsert.trans ?_
    constructor
    · rintro (rfl | ⟨old, _⟩)
      · exact Or.inr ⟨rfl, missing⟩
      · exact Or.inl old
    · rintro (old | ⟨rfl, _⟩)
      · exact Or.inr ⟨old, fresh row old⟩
      · exact Or.inl rfl

theorem sameTriple_iff {row : WorkItemRelation} : World.sameTriple row relation = true ↔
    row.sourceWorkItemId = relation.sourceWorkItemId ∧ row.targetWorkItemId = relation.targetWorkItemId ∧
      row.relationType = relation.relationType := by
  simp [World.sameTriple, and_assoc]

theorem Traced.relate (traced : Traced w) (behind : w.Behind s) (own : w.package s.externalId = some item)
    (isNew : relation.id = .v4 w.nextUuid) (holds : w.Holds relation.sourceWorkItemId)
    (ends : relation.sourceWorkItemId = item.id ∨ relation.targetWorkItemId = item.id ∨
      ∃ row ∈ w.relations.items, World.sameTriple row relation = true) :
    Traced (World.createRelation relation { w with nextUuid := w.nextUuid + 1 }) ∧
      (World.createRelation relation { w with nextUuid := w.nextUuid + 1 }).Behind s := by
  have fresh : ∀ old ∈ w.relations.items, old.id ≠ relation.id := by
    intro old listed same
    exact (traced.rows old listed).1.ne_fresh (same.trans isNew)
  obtain ⟨graph, projects, advanced⟩ := createRelation_rest relation { w with nextUuid := w.nextUuid + 1 }
  have items : (World.createRelation relation { w with nextUuid := w.nextUuid + 1 }).workItems = w.workItems :=
    createRelation_workItems
  have member : ∀ row, row ∈ (World.createRelation relation { w with nextUuid := w.nextUuid + 1 }).relations.items ↔
      row ∈ w.relations.items ∨ (row = relation ∧ ¬ ∃ old ∈ w.relations.items, World.sameTriple old relation = true) :=
    fun row => mem_createRelation (w := { w with nextUuid := w.nextUuid + 1 }) fresh
  have sameEdges : KeepsEdges w (World.createRelation relation { w with nextUuid := w.nextUuid + 1 }) :=
    KeepsEdges.of_graph graph
  have after := package_congr items s.externalId
  generalize World.createRelation relation { w with nextUuid := w.nextUuid + 1 } = u at *
  have held : ∀ id, u.Holds id ↔ w.Holds id := fun id => by simp only [World.Holds, items]
  have stays : ∀ edge, w.CanonicalEdge edge → u.CanonicalEdge edge := by
    rintro edge (⟨entry, listed, drawn⟩ | ⟨row, listed, isEdge⟩)
    · exact Or.inl ⟨entry, by rwa [items], drawn⟩
    · exact Or.inr ⟨row, (member row).mpr (Or.inl listed), isEdge⟩
  constructor
  · constructor
    · intro id isHeld edge listed
      rw [sameEdges] at listed
      have before := traced.canonical id ((held id).mp isHeld) edge listed
      exact ⟨stays edge before.1, before.2⟩
    · intro id edge listed
      rw [sameEdges] at listed
      exact (traced.drawn id edge listed).mono (advanced ▸ Nat.le_succ _)
    · intro entry listed
      rw [items] at listed
      exact (traced.issued entry listed).mono (advanced ▸ Nat.le_succ _)
    · intro row listed
      rw [held, advanced]
      rcases (member row).mp listed with old | ⟨rfl, _⟩
      · exact ⟨(traced.rows row old).1.mono (Nat.le_succ _), (traced.rows row old).2⟩
      · rw [isNew]
        exact ⟨Uuid.fresh_below _, holds⟩
    · intro project listed id isId
      rw [projects] at listed
      rw [held]
      have before := traced.projects project listed id isId
      exact ⟨before.1.mono (advanced ▸ Nat.le_succ _), before.2⟩
  · have later : ∀ edge, w.CanonicalEdge edge → edge ∈ u.workEdges edge.subjectId ∨ u.Pending s edge := by
      intro edge canonical
      rw [sameEdges]
      refine (behind edge canonical).imp_right ?_
      rintro ⟨entry, found, pending⟩
      refine ⟨entry, after.trans found, pending.imp_right ?_⟩
      rintro ⟨row, listed, rest⟩
      exact ⟨row, (member row).mpr (Or.inl listed), rest⟩
    rintro edge (⟨entry, listed, drawn⟩ | ⟨row, listed, rfl⟩)
    · rw [items] at listed
      exact later edge (Or.inl ⟨entry, listed, drawn⟩)
    · rcases (member row).mp listed with old | ⟨rfl, unknown⟩
      · exact later row.edge (Or.inr ⟨row, old, rfl⟩)
      · have isEnd : row.sourceWorkItemId = item.id ∨ row.targetWorkItemId = item.id := by
          rcases ends with isSource | isTarget | known
          · exact Or.inl isSource
          · exact Or.inr isTarget
          · exact absurd known unknown
        exact Or.inr ⟨item, after.trans own, Or.inr ⟨row, listed, isEnd, rfl⟩⟩

theorem Traced.project (traced : Traced w) (behind : w.Behind s) (own : w.package s.externalId = some item)
    (projected : Projected item w t) : Traced t ∧ t.Complete := by
  obtain ⟨entities, rfl⟩ := projected
  have stored := package_stored own
  have edges : ∀ id relation, relation ∈ (World.upsertRelations (subgraphRelations item (w.listRelationsByWorkItem item.id))
      (World.upsertEntities entities w)).workEdges id ↔ relation ∈ w.workEdges id ∨
        (relation.subjectId = id ∧ (relation ∈ item.edges ∨ ∃ row ∈ w.listRelationsByWorkItem item.id, relation = row.edge)) := by
    intro id relation
    rw [workEdges_upsertRelations, ← mem_subgraphRelations]
    have noted : (World.upsertEntities entities w).workEdges id = w.workEdges id := rfl
    simp only [List.mem_append, List.mem_filter, noted, Bool.and_eq_true, decide_eq_true_eq]
    exact or_congr_right ⟨fun ⟨listed, subject, work⟩ => ⟨subject, listed, work⟩, fun ⟨subject, listed, work⟩ => ⟨listed, subject, work⟩⟩
  have canonical : ∀ relation, (relation ∈ item.edges ∨ ∃ row ∈ w.listRelationsByWorkItem item.id, relation = row.edge) →
      w.CanonicalEdge relation := by
    rintro relation (ofOwn | ⟨row, listed, rfl⟩)
    · exact Or.inl ⟨item, stored, ofOwn⟩
    · exact Or.inr ⟨row, (List.mem_filter.mp listed).1, rfl⟩
  constructor
  · constructor
    · intro id holds relation listed
      rcases (edges id relation).mp listed with old | ⟨subject, new⟩
      · exact traced.canonical id holds relation old
      · exact ⟨canonical relation new, subject⟩
    · intro id relation listed
      rcases (edges id relation).mp listed with old | ⟨rfl, new⟩
      · exact traced.drawn id relation old
      · have holds : w.Holds relation.subjectId := by
          rcases new with ofOwn | ⟨row, isRow, rfl⟩
          · exact ⟨item, stored, (WorkItem.edges_subject ofOwn).symm⟩
          · exact (traced.rows row (List.mem_filter.mp isRow).1).2
        obtain ⟨entry, listed, same⟩ := holds
        rw [← same]
        exact traced.issued entry listed
    · exact traced.issued
    · exact traced.rows
    · exact traced.projects
  · intro relation isCanonical
    rw [edges]
    rcases behind relation isCanonical with drawn | ⟨entry, found, pending⟩
    · exact Or.inl drawn
    · rw [own] at found
      cases found
      refine Or.inr ⟨rfl, pending.imp_right ?_⟩
      rintro ⟨row, listed, isEnd, rfl⟩
      exact ⟨row, List.mem_filter.mpr ⟨listed, by simpa using isEnd⟩, rfl⟩

/-! ### The conditions along the writes -/

theorem packageId_create {created : WorkItem} (issued : Issued w) (absent : w.package s.externalId = none)
    (isNew : created.id = .v4 w.nextUuid) (refs : created.externalRefs = [openProjectRef s.externalId "work_package"]) :
    (World.putWorkItem created { w with nextUuid := w.nextUuid + 1 }).packageId s.externalId = some created.id ∧
      ∀ entry ∈ (World.putWorkItem created { w with nextUuid := w.nextUuid + 1 }).workItems.items,
        entry.id = created.id → entry = created := by
  constructor
  · have found := package_putNew (w := { w with nextUuid := w.nextUuid + 1 }) absent refs
    simp [World.packageId, found]
  · intro entry member same
    rcases mem_putStored.mp member with rfl | ⟨old, _⟩
    · rfl
    · exact absurd (same.trans isNew) (issued entry old).ne_fresh

theorem packageId_congr (items : t.workItems = w.workItems) (x : String) : t.packageId x = w.packageId x :=
  congrArg (Option.map WorkItem.id) (package_congr items x)

theorem KeepsParent.write {s' : OpenProjectWorkItemSnapshot} (keeps : KeepsParent w s') (issued : Issued w)
    (same : SameParent w s s') (only : ingesting = true → s' = s) (write : CanonicalWrite s ingesting w t) : KeepsParent t s' := by
  have unchanged : t.workItems = w.workItems → KeepsParent t s' := by
    intro items entry listed parent adopts
    rw [items] at listed
    rw [adoption_congr (packageId_congr items)] at adopts
    exact keeps entry listed parent adopts
  have rewritten : ∀ item rewritten : WorkItem, item ∈ w.workItems.items → t = World.putWorkItem rewritten w →
      item.id = rewritten.id → item.externalRefs = rewritten.externalRefs →
      (∀ parent, w.adoption s' = some (item.id, parent) → ∀ a, rewritten.parentId = some a → a = parent) → KeepsParent t s' := by
    rintro item rewritten stored rfl sameId sameRefs ofOwn entry listed parent adopts
    rw [adoption_congr (packageId_putStored stored sameId sameRefs)] at adopts
    rcases mem_putStored.mp listed with rfl | ⟨old, _⟩
    · rw [← sameId] at adopts
      exact ofOwn parent adopts
    · exact keeps entry old parent adopts
  cases write with
  | apart apart => exact unchanged apart.workItems
  | create projectId ingests absent =>
    rw [only ingests]
    intro entry listed parent adopts a hasParent
    obtain ⟨found, isOnly⟩ := @packageId_create _ _ (newWorkItem (.v4 w.nextUuid) s projectId) issued absent rfl rfl
    have named := adoption_eq_some adopts
    rw [found, Option.some.injEq] at named
    rw [isOnly entry listed named.symm] at hasParent
    cases hasParent
  | @apply item _ own =>
    have kept := keeps item (package_stored own)
    exact rewritten item _ (package_stored own) rfl rfl rfl kept
  | @adopt item parent x own names found other =>
    refine rewritten item _ (package_stored own) rfl rfl rfl ?_
    rintro parent' adopts a ⟨⟩
    exact same item.id parent.id parent' (adoption_of_found own names found other) adopts
  | relate _ _ _ _ _ _ _ _ _ => exact unchanged createRelation_workItems
  | project _ projected =>
    obtain ⟨entities, rfl⟩ := projected
    exact unchanged rfl

theorem KeepsAssignee.write (keeps : KeepsAssignee w s) (issued : Issued w) (write : CanonicalWrite s ingesting w t) :
    KeepsAssignee t s := by
  have unchanged : t.workItems = w.workItems → KeepsAssignee t s := by
    intro items entry listed named
    rw [items] at listed
    rw [packageId_congr items] at named
    exact keeps entry listed named
  have rewritten : ∀ item rewritten : WorkItem, item ∈ w.workItems.items → t = World.putWorkItem rewritten w →
      item.id = rewritten.id → item.externalRefs = rewritten.externalRefs →
      (∀ a b, rewritten.assignee = some a → snapshotActor s = some b → a = b) → KeepsAssignee t s := by
    rintro item rewritten stored rfl sameId sameRefs ofOwn entry listed named
    rw [packageId_putStored stored sameId sameRefs] at named
    rcases mem_putStored.mp listed with rfl | ⟨old, _⟩
    · exact ofOwn
    · exact keeps entry old named
  cases write with
  | apart apart => exact unchanged apart.workItems
  | create projectId _ absent =>
    intro entry listed named a b hasAssignee
    obtain ⟨found, isOnly⟩ := @packageId_create _ _ (newWorkItem (.v4 w.nextUuid) s projectId) issued absent rfl rfl
    rw [found, Option.some.injEq] at named
    rw [isOnly entry listed named.symm] at hasAssignee
    cases hasAssignee
  | @apply item _ own =>
    refine rewritten item _ (package_stored own) rfl rfl rfl ?_
    intro a b hasAssignee isActor
    have applied : (snapshotActor s).or item.assignee = some a := hasAssignee
    rw [isActor, Option.some_or, Option.some.injEq] at applied
    exact applied.symm
  | @adopt item _ _ own _ _ _ =>
    refine rewritten item _ (package_stored own) rfl rfl rfl ?_
    exact keeps item (package_stored own) (packageId_own own)
  | relate _ _ _ _ _ _ _ _ _ => exact unchanged createRelation_workItems
  | project _ projected =>
    obtain ⟨entities, rfl⟩ := projected
    exact unchanged rfl

theorem CanonicalWrite.relations (write : CanonicalWrite s ingesting w t) (rows : ∀ row ∈ w.relations.items, row.id.Below w.nextUuid) :
    ∀ row ∈ w.relations.items, row ∈ t.relations.items := by
  intro row listed
  cases write with
  | apart apart => rwa [apart.relations]
  | @relate _ _ _ _ _ _ relation _ _ _ _ _ _ _ _ isNew =>
    have fresh : ∀ old ∈ w.relations.items, old.id ≠ relation.id := fun old stored same =>
      (rows old stored).ne_fresh (same.trans isNew)
    exact (mem_createRelation (w := { w with nextUuid := w.nextUuid + 1 }) fresh).mpr (Or.inl listed)
  | project _ projected =>
    obtain ⟨entities, rfl⟩ := projected
    exact listed
  | create _ _ _ => exact listed
  | apply _ _ => exact listed
  | adopt _ _ _ _ => exact listed

theorem OwnRelations.write {s' : OpenProjectWorkItemSnapshot} (own : OwnRelations w s') (traced : Traced w)
    (only : ingesting = true → s' = s) (write : CanonicalWrite s ingesting w t) : OwnRelations t s' := by
  intro raw listed x y mapped source target names isSource isTarget
  have kept := write.relations fun row stored => (traced.rows row stored).1
  rcases write.packageId traced.issued x with sameX | ⟨ingests, rfl, _⟩
  · rcases write.packageId traced.issued y with sameY | ⟨ingests, rfl, _⟩
    · rw [sameX] at isSource
      rw [sameY] at isTarget
      rcases own raw listed x y mapped source target names isSource isTarget with equal | isOwn | isOwn | ⟨row, stored, isRow⟩
      · exact Or.inl equal
      · rcases write.packageId traced.issued s'.externalId with same | ⟨_, _, absent⟩
        · exact Or.inr (Or.inl (same.trans isOwn))
        · rw [absent] at isOwn
          cases isOwn
      · rcases write.packageId traced.issued s'.externalId with same | ⟨_, _, absent⟩
        · exact Or.inr (Or.inr (Or.inl (same.trans isOwn)))
        · rw [absent] at isOwn
          cases isOwn
      · exact Or.inr (Or.inr (Or.inr ⟨row, kept row stored, isRow⟩))
    · rw [only ingests]
      exact Or.inr (Or.inr (Or.inl isTarget))
  · rw [only ingests]
    exact Or.inr (Or.inl isSource)

structure Carried (snapshots : List OpenProjectWorkItemSnapshot) (w : World) : Prop where
  traced : Traced w
  parents : ∀ s ∈ snapshots, KeepsParent w s
  relations : ∀ s ∈ snapshots, OwnRelations w s
  agree : ∀ s ∈ snapshots, ∀ s' ∈ snapshots, SameParent w s s'

theorem CanonicalWrite.traced (write : CanonicalWrite s ingesting w t) (traced : Traced w) (behind : w.Behind s)
    (parents : KeepsParent w s) (relations : OwnRelations w s) (assignee : ingesting = true → KeepsAssignee w s) :
    Traced t ∧ t.Behind s := by
  cases write with
  | apart apart => exact ⟨traced.apart apart, apart.behind behind⟩
  | create projectId _ absent => exact traced.create behind absent rfl rfl
  | @apply item ingests own =>
    refine traced.rewrite behind own rfl rfl ?_
    intro relation listed
    rcases WorkItem.mem_edges.mp listed with ⟨parent, hasParent, rfl⟩ | ⟨a, hasAssignee, rfl⟩
    · exact WorkItem.mem_edges.mpr (Or.inl ⟨parent, hasParent, rfl⟩)
    · refine WorkItem.mem_edges.mpr (Or.inr ⟨a, ?_, rfl⟩)
      have same := assignee ingests item (package_stored own) (packageId_own own) a
      show (snapshotActor s).or item.assignee = some a
      cases isActor : snapshotActor s with
      | none => exact hasAssignee
      | some b => rw [same b hasAssignee isActor]; rfl
  | @adopt item parent x own names found other =>
    refine traced.rewrite behind own rfl rfl ?_
    intro relation listed
    rcases WorkItem.mem_edges.mp listed with ⟨a, hasParent, rfl⟩ | ⟨a, hasAssignee, rfl⟩
    · have same := parents item (package_stored own) parent.id (adoption_of_found own names found other) a hasParent
      subst same
      exact WorkItem.mem_edges.mpr (Or.inl ⟨parent.id, rfl, rfl⟩)
    · exact WorkItem.mem_edges.mpr (Or.inr ⟨a, hasAssignee, rfl⟩)
  | @relate item target raw sourceName targetName mapped relation own listed names isSource isTarget isEnd other isType isNew =>
    cases sourceName with
    | none =>
      have source : relation.sourceWorkItemId = item.id := (Option.some.inj isSource).symm
      exact traced.relate behind own isNew (source ▸ ⟨item, package_stored own, rfl⟩) (Or.inl source)
    | some x =>
      obtain ⟨entry, found, same⟩ := Option.map_eq_some_iff.mp isSource
      refine traced.relate behind own isNew ⟨entry, package_stored found, same⟩ ?_
      have sourceId : w.packageId x = some relation.sourceWorkItemId := isSource
      have targetId : w.packageId targetName = some relation.targetWorkItemId := by simp [World.packageId, isTarget, isEnd]
      have ownId := packageId_own own
      rcases relations raw listed x targetName mapped _ _ names sourceId targetId with equal | isOwn | isOwn | ⟨row, stored, triple⟩
      · exact absurd (isEnd.symm.trans equal.symm) other
      · exact Or.inl (Option.some.inj (isOwn.symm.trans ownId))
      · exact Or.inr (Or.inl (Option.some.inj (isOwn.symm.trans ownId)))
      · refine Or.inr (Or.inr ⟨row, stored, sameTriple_iff.mpr ?_⟩)
        rwa [isType]
  | project own projected =>
    have drawn := traced.project behind own projected
    exact ⟨drawn.1, drawn.2.behind⟩

variable {snapshots : List OpenProjectWorkItemSnapshot}

theorem Carried.write (carried : Carried snapshots w) (behind : w.Behind s) (listed : s ∈ snapshots)
    (only : ingesting = true → snapshots = [s] ∧ KeepsAssignee w s)
    (write : CanonicalWrite s ingesting w t) :
    Carried snapshots t ∧ t.Behind s ∧ (ingesting = true → snapshots = [s] ∧ KeepsAssignee t s) := by
  obtain ⟨traced, later⟩ := write.traced carried.traced behind (carried.parents s listed) (carried.relations s listed)
    fun ingests => (only ingests).2
  have isOnly : ∀ s' ∈ snapshots, ingesting = true → s' = s := by
    intro s' listed' ingests
    rw [(only ingests).1] at listed'
    exact List.mem_singleton.mp listed'
  refine ⟨⟨traced, ?_, ?_, ?_⟩, later, ?_⟩
  · intro s' listed'
    exact (carried.parents s' listed').write carried.traced.issued (carried.agree s listed s' listed') (isOnly s' listed') write
  · exact fun s' listed' => (carried.relations s' listed').write carried.traced (isOnly s' listed') write
  · intro s' listed' s'' listed''
    by_cases ingests : ingesting = true
    · rw [isOnly s' listed' ingests, isOnly s'' listed'' ingests]
      exact SameParent.refl t s
    · have same : ∀ x, t.packageId x = w.packageId x := fun x =>
        (write.packageId carried.traced.issued x).resolve_right fun created => ingests created.1
      intro child parent parent' first second
      rw [adoption_congr same] at first second
      exact carried.agree s' listed' s'' listed'' child parent parent' first second
  · exact fun ingests => ⟨(only ingests).1, (only ingests).2.write carried.traced.issued write⟩

theorem Carried.writes (carried : Carried snapshots w) (behind : w.Behind s) (listed : s ∈ snapshots)
    (only : ingesting = true → snapshots = [s] ∧ KeepsAssignee w s)
    (writes : CanonicalWrites s ingesting w t) : Carried snapshots t ∧ t.Behind s := by
  have all : Carried snapshots t ∧ t.Behind s ∧ (ingesting = true → snapshots = [s] ∧ KeepsAssignee t s) := by
    induction writes with
    | refl => exact ⟨carried, behind, only⟩
    | tail _ write ih => exact ih.1.write ih.2.1 listed ih.2.2 write
  exact ⟨all.1, all.2.1⟩

theorem Carried.finishes (carried : Carried snapshots w) (complete : w.Complete) (listed : s ∈ snapshots)
    (only : ingesting = true → snapshots = [s] ∧ KeepsAssignee w s)
    (finishes : Finishes s ingesting w t) : t.Complete := by
  obtain ⟨u, v, item, writes, own, projected, apart⟩ := finishes
  obtain ⟨before, behind⟩ := carried.writes complete.behind listed only writes
  exact apart.complete (before.traced.project behind own projected).2

theorem Traced.upsert {project : Project} (traced : Traced w) (complete : w.Complete) (upserted : Upserted project w t)
    (own : project.id.Below t.nextUuid ∧ ¬ w.Holds project.id)
    (parent : ∀ a, project.parentId = some a → a.Below w.nextUuid ∧ ¬ w.Holds a) : Traced t ∧ t.Complete := by
  have held : ∀ id, t.Holds id ↔ w.Holds id := fun id => by simp only [World.Holds, upserted.workItems]
  have edges : ∀ relation, t.CanonicalEdge relation ↔ w.CanonicalEdge relation := fun relation => by
    simp only [World.CanonicalEdge, upserted.workItems, upserted.relations]
  constructor
  · constructor
    · intro id holds relation listed
      rw [edges]
      rw [held] at holds
      rw [upserted.edges] at listed
      rcases List.mem_append.mp listed with old | new
      · exact traced.canonical id holds relation old
      · split at new
        · rename_i isParent
          exact absurd holds (parent id isParent).2
        · cases new
    · intro id relation listed
      rw [upserted.edges] at listed
      rcases List.mem_append.mp listed with old | new
      · exact (traced.drawn id relation old).mono upserted.nextUuid
      · split at new
        · rename_i isParent
          exact (parent id isParent).1.mono upserted.nextUuid
        · cases new
    · intro entry listed
      rw [upserted.workItems] at listed
      exact (traced.issued entry listed).mono upserted.nextUuid
    · intro row listed
      rw [upserted.relations] at listed
      rw [held]
      exact ⟨(traced.rows row listed).1.mono upserted.nextUuid, (traced.rows row listed).2⟩
    · intro other listed id isId
      rw [held]
      rcases (upserted.projects other).mp listed with rfl | ⟨old, _⟩
      · rcases isId with rfl | isParent
        · exact own
        · exact ⟨(parent id isParent).1.mono upserted.nextUuid, (parent id isParent).2⟩
      · have before := traced.projects other old id isId
        exact ⟨before.1.mono upserted.nextUuid, before.2⟩
  · intro relation canonical
    rw [upserted.edges]
    exact List.mem_append_left _ (complete relation ((edges relation).mp canonical))

end

/-! ### Runs -/

/-- The call fails nowhere, replaces no assignee and no parent, and its
snapshots relate their own work item only. -/
def Steady (w : World) (call : Call) : Prop :=
  match call.op with
  | .upsertProject .. => call.outside.Clean
  | .ingest s options => call.outside.Clean ∧ (w.resolvedProject s options.projectId = none ∨
      KeepsAssignee w s ∧ KeepsParent w s ∧ OwnRelations w s)
  | .resolveRelationships snapshots => call.outside.Clean ∧ (∀ s ∈ snapshots, KeepsParent w s ∧ OwnRelations w s) ∧
      ∀ s ∈ snapshots, ∀ s' ∈ snapshots, SameParent w s s'
  | .ingestComment _ => True

theorem projectionReturns_of_clean {o : Outside} (clean : o.Clean) : ProjectionReturns o := fun n site _ => clean n site

namespace OpenProjectIngestionService
variable (self : OpenProjectIngestionService)

variable {w : World}

theorem upsertProject_traced {o : Outside} (clean : o.Clean) (externalId name description : String)
    (parentExternalId : Option String) (projectId : Option ProjectId) (traced : Traced w) (complete : w.Complete) :
    Returns o (upsertProject externalId name description parentExternalId projectId) w (fun _ t => Traced t ∧ t.Complete) := by
  refine (upsertProject_upserts clean externalId name description parentExternalId projectId).mono ?_
  intro r t reached
  cases r with
  | error _ => exact reached.elim
  | ok project =>
    obtain ⟨upserted, origin⟩ := reached
    have found : ∀ a, w.parentFor parentExternalId = some a → a.Below w.nextUuid ∧ ¬ w.Holds a := by
      intro a isParent
      obtain ⟨parent, listed, rfl⟩ := parentFor_stored isParent
      exact traced.projects parent listed parent.id (Or.inl rfl)
    cases existing : w.projectFor externalId projectId with
    | none =>
      rw [existing] at origin
      obtain ⟨isNew, advanced, parent, -⟩ := origin
      refine traced.upsert complete upserted ⟨?_, ?_⟩ (fun a isParent => found a (parent ▸ isParent))
      · rw [isNew, advanced]
        exact Uuid.fresh_below _
      · rintro ⟨entry, listed, same⟩
        exact (traced.issued entry listed).ne_fresh (same.trans isNew)
    | some old =>
      rw [existing] at origin
      obtain ⟨stored, sameId, parent, -⟩ := origin
      have ownId := traced.projects old stored old.id (Or.inl rfl)
      refine traced.upsert complete upserted ?_ ?_
      · rw [sameId]
        exact ⟨ownId.1.mono upserted.nextUuid, ownId.2⟩
      · intro a isParent
        rw [parent] at isParent
        rcases Option.or_eq_some_iff.mp isParent with isFound | ⟨_, kept⟩
        · exact found a isFound
        · exact traced.projects old stored a (Or.inr kept)

theorem ingest_traced {o : Outside} {s : OpenProjectWorkItemSnapshot} {options : IngestOptions} (clean : o.Clean)
    (sound : Sound w) (traced : Traced w) (complete : w.Complete)
    (steady : w.resolvedProject s options.projectId = none ∨ KeepsAssignee w s ∧ KeepsParent w s ∧ OwnRelations w s) :
    Returns o (self.ingestWorkItemSnapshot s options) w (fun _ t => Traced t ∧ t.Complete) := by
  have noRaise : ∀ e, ¬ o.Raises e := fun e => Outside.not_raises_of_returns fun n => clean n e.site
  rcases steady with unresolved | ⟨assignee, parent, relations⟩
  · refine (Meets.and (self.ingestWorkItemSnapshot_ingested options sound)
      (self.ingestWorkItemSnapshot_unresolved options unresolved)).mono ?_
    rintro r t ⟨⟨_, raises⟩, apart⟩
    cases r with
    | ok _ => exact ⟨traced.apart apart, apart.complete complete⟩
    | error e => exact noRaise e (raises e rfl)
  · have carried : Carried [s] w := by
      refine ⟨traced, ?_, ?_, ?_⟩
      · exact fun s' listed => List.mem_singleton.mp listed ▸ parent
      · exact fun s' listed => List.mem_singleton.mp listed ▸ relations
      · intro s' listed s'' listed'
        rw [List.mem_singleton.mp listed, List.mem_singleton.mp listed']
        exact SameParent.refl w s
    have listed : s ∈ [s] := List.mem_singleton.mpr rfl
    refine (Meets.and (self.ingestWorkItemSnapshot_ingested options sound) (self.ingestWorkItemSnapshot_finishes options)).mono ?_
    rintro r t ⟨⟨_, raises⟩, finished⟩
    cases r with
    | error e => exact noRaise e (raises e rfl)
    | ok _ =>
      have after := carried.writes complete.behind listed (fun _ => ⟨rfl, assignee⟩) finished.1
      rcases finished.2 (projectionReturns_of_clean clean) with finishes | apart
      · exact ⟨after.1.traced, carried.finishes complete listed (fun _ => ⟨rfl, assignee⟩) finishes⟩
      · exact ⟨after.1.traced, apart.complete complete⟩

theorem resolveRelationships_traced {o : Outside} {snapshots : List OpenProjectWorkItemSnapshot} (clean : o.Clean)
    (sound : Sound w) (carried : Carried snapshots w) (complete : w.Complete) :
    Meets o (resolveRelationships snapshots) w (fun _ t => Traced t ∧ t.Complete) := by
  refine (Meets.forEach (fun t => Sound t ∧ Carried snapshots t ∧ t.Complete) ⟨sound, carried, complete⟩ ?_).mono
    fun _ _ kept => ⟨kept.2.1.traced, kept.2.2⟩
  rintro s listed t ⟨soundHere, here, drawn⟩
  have only : false = true → snapshots = [s] ∧ KeepsAssignee t s := fun ingests => nomatch ingests
  refine (Meets.and (resolveRelationshipsOf_refines (.v4 0) soundHere) resolveRelationshipsOf_finishes).mono ?_
  rintro r u ⟨refines, finished⟩
  cases r with
  | error e => exact absurd refines.2.1 (Outside.not_raises_of_returns fun n => clean n e.site)
  | ok _ =>
    have after := here.writes drawn.behind listed only finished.1
    refine ⟨(refines.1.sound soundHere).1, after.1, ?_⟩
    rcases finished.2 (projectionReturns_of_clean clean) with finishes | apart
    · exact here.finishes drawn listed only finishes
    · exact apart.complete drawn

theorem ended_traced (call : Call) (sound : Sound w) (traced : Traced w) (complete : w.Complete) (steady : Steady w call) :
    Traced (self.ended call w).store ∧ (self.ended call w).store.Complete := by
  obtain ⟨outside, op⟩ := call
  unfold ended
  cases op with
  | upsertProject externalId name description parentExternalId projectId =>
    have upserts : Returns outside (Op.run self (.upsertProject externalId name description parentExternalId projectId)) w
        (fun _ t => Traced t ∧ t.Complete) :=
      Meets.seq _ (upsertProject_traced steady externalId name description parentExternalId projectId traced complete)
        (fun _ _ kept => Meets.pure kept) (fun _ _ stopped => stopped.elim)
    exact upserts.store (fun _ _ kept => kept) 0
  | ingest s options =>
    have ingests : Returns outside (Op.run self (.ingest s options)) w (fun _ t => Traced t ∧ t.Complete) :=
      Meets.seq _ (self.ingest_traced steady.1 sound traced complete steady.2) (fun _ _ kept => Meets.pure kept)
        (fun _ _ stopped => stopped.elim)
    exact ingests.store (fun _ _ kept => kept) 0
  | resolveRelationships snapshots =>
    obtain ⟨clean, each, agree⟩ := steady
    have carried : Carried snapshots w := ⟨traced, fun s listed => (each s listed).1, fun s listed => (each s listed).2, agree⟩
    exact resolveRelationships_traced clean sound carried complete 0
  | ingestComment arguments =>
    have comments : Meets outside (Op.run self (.ingestComment arguments)) w (fun _ t => Apart w t) := by
      refine Meets.seq _ (ingestComment_apart arguments outside w) ?_ (fun _ _ stays => stays.store)
      exact fun _ _ stays => Meets.pure stays
    have apart := comments 0
    exact ⟨traced.apart apart, apart.complete complete⟩

theorem after_traced (history : List Call) (sound : Sound w) (traced : Traced w) (complete : w.Complete)
    (steady : self.Along Steady history w) : Traced (self.after history w) ∧ (self.after history w).Complete := by
  induction history generalizing w with
  | nil => exact ⟨traced, complete⟩
  | cons call history ih =>
    have next := self.ended_traced call sound traced complete steady.1
    exact ih (self.ended_sound call sound).1 next.1 next.2 steady.2

/-- The graph stays the projection of the canonical state along every history
that replaces no assignee and no parent. -/
theorem graph_faithful (history : List Call) (projects : Keyed Project.id) (nextUuid : Nat)
    (below : ∀ project ∈ projects.items, ∀ id, id = project.id ∨ project.parentId = some id → id.Below nextUuid)
    (steady : self.Along Steady history (World.start projects nextUuid)) :
    (self.after history (World.start projects nextUuid)).Faithful := by
  have unheld : ∀ id, ¬ (World.start projects nextUuid).Holds id := by
    rintro id ⟨item, stored, _⟩
    cases stored
  have traced : Traced (World.start projects nextUuid) := by
    constructor
    · exact fun id holds => absurd holds (unheld id)
    · intro id relation listed
      cases listed
    · intro item stored
      cases stored
    · intro row stored
      cases stored
    · exact fun project stored id isId => ⟨below project stored id isId, unheld id⟩
  have complete : (World.start projects nextUuid).Complete := by
    rintro relation (⟨item, stored, _⟩ | ⟨row, stored, _⟩)
    · cases stored
    · cases stored
  have reached := self.after_traced history (Sound.start projects nextUuid) traced complete steady
  exact reached.1.faithful reached.2

theorem graph_faithful_twice :
    let options : IngestOptions := { mode := .live, source := "webhook" }
    let assigned := Call.undisturbed (.ingest { externalId := "1", summary := "One", assigneeId := some "7" } options)
    (after {} [assigned, assigned] World.oneProject).Faithful := by
  intro options assigned
  have steady : ∀ w : World, (∀ item ∈ w.workItems.items, item.assignee = none ∨ item.assignee = some (userActorId "7")) →
      Steady w assigned := by
    intro w assignees
    refine ⟨Outside.clean_clean, Or.inr ⟨?_, ?_, ?_⟩⟩
    · intro item stored _ a b hasAssignee isActor
      rcases assignees item stored with unassigned | same
      · rw [unassigned] at hasAssignee
        cases hasAssignee
      · exact Option.some.inj ((hasAssignee.symm.trans same).trans isActor)
    · intro item _ parent adopts
      have orphan : w.adoption { externalId := "1", summary := "One", assigneeId := some "7" } = none := by
        unfold World.adoption
        cases w.packageId "1" <;> rfl
      rw [orphan] at adopts
      cases adopts
    · intro raw listed
      cases listed
  refine graph_faithful {} [assigned, assigned] _ 0 ?_ ⟨steady _ (fun _ stored => nomatch stored), steady _ ?_, trivial⟩
  · intro project stored id isId
    rw [List.mem_singleton.mp stored] at isId
    rcases isId with rfl | isParent
    · trivial
    · cases isParent
  · decide +kernel

/-- A reassigned work item keeps the edge to its former assignee. -/
theorem former_assignee_remains :
    let options : IngestOptions := { mode := .live, source := "webhook" }
    let assignedTo (user : String) := Call.undisturbed
      (.ingest { externalId := "1", summary := "One", assigneeId := some user } options)
    ¬ (after {} [assignedTo "7", assignedTo "8"] World.oneProject).Faithful := by
  intro options assignedTo faithful
  have stale : ∃ item ∈ (after {} [assignedTo "7", assignedTo "8"] World.oneProject).workItems.items,
      ∃ relation ∈ (after {} [assignedTo "7", assignedTo "8"] World.oneProject).workEdges item.id,
        relation ∉ (after {} [assignedTo "7", assignedTo "8"] World.oneProject).canonicalEdges item := by
    decide +kernel
  obtain ⟨item, stored, relation, listed, former⟩ := stale
  exact former ((faithful item stored relation).mp listed)

end OpenProjectIngestionService

end Brain
