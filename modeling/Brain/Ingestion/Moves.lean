import Brain.Mirror.Writes

namespace Brain
open Calls

/-- The stores an ingestion of a work item reads or leaves alone until it saves
the snapshot. -/
def World.outer (w : World) : World :=
  { projects := w.projects, comments := w.comments, conflicts := w.conflicts, snapshots := w.snapshots
    bootstrapStates := w.bootstrapStates, watermarks := w.watermarks, fetched := w.fetched }

/-- The work items by id and reference. -/
def World.identities (w : World) : List (Uuid × List ExternalReference) :=
  Brain.identities WorkItem.externalRefs w.workItems

/-- No entity is lost or changes its id. -/
structure Persists (w t : World) : Prop where
  workItems : w.identities ⊆ t.identities
  attachments : identities Attachment.externalRefs w.attachments ⊆ identities Attachment.externalRefs t.attachments
  comments : w.comments.items ⊆ t.comments.items
  relations : w.relations.items ⊆ t.relations.items

theorem Persists.refl (w : World) : Persists w w :=
  ⟨fun _ => id, fun _ => id, fun _ => id, fun _ => id⟩

variable {w : World}

theorem Persists.trans {u v : World} (first : Persists u v) (second : Persists v w) : Persists u w :=
  ⟨fun _ member => second.workItems (first.workItems member),
    fun _ member => second.attachments (first.attachments member),
    fun _ member => second.comments (first.comments member),
    fun _ member => second.relations (first.relations member)⟩

variable {t : World}

theorem Holds_persists (persists : Persists w t) {id : WorkItemId} (holds : w.Holds id) : t.Holds id := by
  obtain ⟨item, member, rfl⟩ := holds
  have listed : (item.id, item.externalRefs) ∈ w.identities := List.mem_map.mpr ⟨item, member, rfl⟩
  obtain ⟨item', stored, same⟩ := List.mem_map.mp (persists.workItems listed)
  exact ⟨item', stored, congrArg Prod.fst same⟩

/-- A step towards the canonical state of a snapshot: it keeps the invariant and
all entities, and publishes nothing but document events. -/
structure Moves (w t : World) : Prop where
  outer : t.outer = w.outer
  published : ∃ events, t.published = w.published ++ events ∧ DocumentEventsOnly events
  nextUuid : w.nextUuid ≤ t.nextUuid
  sound : Sound w → Sound t ∧ Persists w t

/-- A step that creates no work item. -/
structure Reworks (w t : World) : Prop extends Moves w t where
  same : t.identities = w.identities
  mappings : t.mappings = w.mappings

theorem Moves.refl (w : World) : Moves w w :=
  ⟨rfl, ⟨[], by simp, by simp [DocumentEventsOnly]⟩, Nat.le_refl _, fun sound => ⟨sound, Persists.refl w⟩⟩

theorem Moves.trans {u v : World} (first : Moves u v) (second : Moves v w) : Moves u w := by
  obtain ⟨early, atFirst, earlyDocuments⟩ := first.published
  obtain ⟨late, atSecond, lateDocuments⟩ := second.published
  refine ⟨second.outer.trans first.outer, ⟨early ++ late, ?_, ?_⟩, Nat.le_trans first.nextUuid second.nextUuid, ?_⟩
  · rw [atSecond, atFirst, List.append_assoc]
  · intro e member
    rcases List.mem_append.mp member with old | new
    · exact earlyDocuments e old
    · exact lateDocuments e new
  · intro sound
    have between := first.sound sound
    have after := second.sound between.1
    exact ⟨after.1, between.2.trans after.2⟩

instance : IsPreorder World Moves where
  refl := Moves.refl
  trans _ _ _ := Moves.trans

instance : IsPreorder World Reworks where
  refl w := ⟨Moves.refl w, rfl, rfl⟩
  trans _ _ _ first second := ⟨first.toMoves.trans second.toMoves, second.same.trans first.same,
    second.mappings.trans first.mappings⟩

def Mapped (w : World) : Prop :=
  ∀ item ∈ w.workItems.items, ∃ mapping ∈ w.mappings.items, mapping.workItemId = item.id

theorem Reworks.mapped (reworks : Reworks w t) (mapped : Mapped w) : Mapped t := by
  intro item member
  have listed : (item.id, item.externalRefs) ∈ t.identities := List.mem_map.mpr ⟨item, member, rfl⟩
  rw [reworks.same] at listed
  obtain ⟨old, stored, same⟩ := List.mem_map.mp listed
  simp only [Prod.mk.injEq] at same
  rw [reworks.mappings, ← same.1]
  exact mapped old stored

theorem mapped_create {item : WorkItem} {mapping : IntegrationMapping} (mapped : Mapped w)
    (unused : ∀ old ∈ w.workItems.items, old.id ≠ item.id) (same : mapping.workItemId = item.id) :
    Mapped (World.saveMapping mapping (World.putWorkItem item w)) := by
  intro other member
  rcases Keyed.mem_upsert.mp member with rfl | ⟨old, _⟩
  · exact ⟨mapping, Keyed.mem_upsert_self _ _, same⟩
  · obtain ⟨kept, stored, ofOld⟩ := mapped other old
    refine ⟨kept, Keyed.mem_upsert.mpr (Or.inr ⟨stored, ?_⟩), ofOld⟩
    intro clash
    have sameItem : kept.workItemId = mapping.workItemId := congrArg Prod.fst clash
    exact unused other old (ofOld.symm.trans (sameItem.trans same))

namespace Moves
variable {w t : World} (moves : Moves w t)
include moves

theorem projects : t.projects = w.projects := by have same := congrArg World.projects moves.outer; exact same
theorem comments : t.comments = w.comments := by have same := congrArg World.comments moves.outer; exact same
theorem snapshots : t.snapshots = w.snapshots := by have same := congrArg World.snapshots moves.outer; exact same

end Moves

theorem Tends.sound (tends : Tends w t) (sound : Sound w) : Sound t where
  workItems := tends.1.workItems ▸ sound.workItems.later tends.1.nextUuid
  attachments := (tends.2 sound.attachments).1
  comments := tends.1.comments ▸ sound.comments.later tends.1.nextUuid
  parents := by
    unfold World.Holds
    rw [tends.1.workItems]
    exact sound.parents
  ends := by
    unfold World.Holds
    rw [tends.1.workItems, tends.1.relations]
    exact sound.ends
  triples := tends.1.relations ▸ sound.triples
  relationIds r member := (sound.relationIds r (tends.1.relations ▸ member)).mono tends.1.nextUuid
  mappings := by
    unfold World.MapsTo
    rw [tends.1.workItems, tends.1.mappings]
    exact sound.mappings

theorem Tends.reworks (tends : Tends w t) : Reworks w t where
  outer := by
    have same := congrArg World.outer tends.1.core
    exact same
  published := tends.1.published
  nextUuid := tends.1.nextUuid
  sound sound := by
    refine ⟨tends.sound sound, ?_, (tends.2 sound.attachments).2, ?_, ?_⟩
    · simp only [World.identities, tends.1.workItems, List.Subset.refl]
    · simp only [tends.1.comments, List.Subset.refl]
    · simp only [tends.1.relations, List.Subset.refl]
  same := by simp only [World.identities, tends.1.workItems]
  mappings := tends.1.mappings

theorem Aside.mirror (aside : Aside w t) : t.mirror = w.mirror :=
  mirror_congr aside.workItems aside.relations

theorem package_congr (items : t.workItems = w.workItems) (x : String) : t.package x = w.package x := by
  simp only [World.package, World.findWorkItem, items]

theorem Aside.package (aside : Aside w t) (x : String) : t.package x = w.package x :=
  package_congr aside.workItems x

theorem putWorkItem_reworks {item old : WorkItem} {x : String} (found : w.package x = some old)
    (revises : Revises old item) (parent : Sound w → ∀ p, item.parentId = some p → w.Holds p) : Reworks w (World.putWorkItem item w) := by
  have stored : old ∈ w.workItems.items := List.mem_of_find?_eq_some found
  have same : (World.putWorkItem item w).identities = w.identities :=
    identities_rewrite stored revises.id revises.refs
  refine ⟨⟨rfl, ⟨[], by simp [World.putWorkItem], by simp [DocumentEventsOnly]⟩, Nat.le_refl _, ?_⟩, same, rfl⟩
  intro sound
  exact ⟨sound.rewrite found revises (parent sound), same ▸ List.Subset.refl _, fun _ => id, fun _ => id,
    fun _ => id⟩

theorem saveMapping_moves {mapping : IntegrationMapping} (mapsTo : w.MapsTo mapping) :
    Moves w (World.saveMapping mapping w) := by
  refine ⟨rfl, ⟨[], by simp [World.saveMapping], by simp [DocumentEventsOnly]⟩, Nat.le_refl _, ?_⟩
  intro sound
  refine ⟨{ sound with mappings := ?_ }, fun _ => id, fun _ => id, fun _ => id, fun _ => id⟩
  intro other member
  rcases Keyed.mem_upsert.mp member with rfl | ⟨old, _⟩
  · exact mapsTo
  · exact sound.mappings other old

theorem createRelation_workItems {r : WorkItemRelation} : (World.createRelation r w).workItems = w.workItems := by
  unfold World.createRelation
  split <;> rfl

theorem createRelation_reworks {r : WorkItemRelation} (below : r.id.Below w.nextUuid)
    (source : w.Holds r.sourceWorkItemId) (target : w.Holds r.targetWorkItemId)
    (unused : ∀ old ∈ w.relations.items, old.id ≠ r.id) : Reworks w (World.createRelation r w) := by
  have kept : (World.createRelation r w).outer = w.outer ∧ (World.createRelation r w).published = w.published ∧
      (World.createRelation r w).nextUuid = w.nextUuid ∧ (World.createRelation r w).mappings = w.mappings ∧
      (World.createRelation r w).attachments = w.attachments ∧
      (World.createRelation r w).comments = w.comments ∧
      w.relations.items ⊆ (World.createRelation r w).relations.items := by
    unfold World.createRelation
    split
    · exact ⟨rfl, rfl, rfl, rfl, rfl, rfl, fun _ => id⟩
    · exact ⟨rfl, rfl, rfl, rfl, rfl, rfl, fun old member => Keyed.mem_upsert.mpr (Or.inr ⟨member, unused old member⟩)⟩
  obtain ⟨outer, published, nextUuid, mappings, attachments, comments, relations⟩ := kept
  have same : (World.createRelation r w).identities = w.identities := by
    simp only [World.identities, createRelation_workItems]
  refine ⟨⟨outer, ⟨[], by simp [published], by simp [DocumentEventsOnly]⟩, Nat.le_of_eq nextUuid.symm, ?_⟩,
    same, mappings⟩
  intro sound
  exact ⟨sound.createRelation below source target unused, same ▸ List.Subset.refl _,
    attachments ▸ List.Subset.refl _, comments ▸ List.Subset.refl _, relations⟩

end Brain
