import Brain.Ingestion.Outcome

namespace Brain
open Calls

namespace KnowledgeGraph

def outgoing (graph : KnowledgeGraph) (id : Uuid) : List GraphRelation :=
  ((graph.relationsOut.get id).map Prod.snd).getD []

theorem outgoing_upsertRelation (graph : KnowledgeGraph) (relation : GraphRelation) (id : Uuid) :
    (graph.upsertRelation relation).outgoing id =
      graph.outgoing id ++ if relation.subjectId = id then [relation] else [] := by
  unfold outgoing upsertRelation appendUnder
  rw [Keyed.get_upsert]
  by_cases same : id = relation.subjectId
  · rw [if_pos same, if_pos same.symm, same]
    rfl
  · rw [if_neg same, if_neg (Ne.symm same), List.append_nil]

theorem outgoing_upsertRelations (graph : KnowledgeGraph) (relations : List GraphRelation) (id : Uuid) :
    (graph.upsertRelations relations).outgoing id =
      graph.outgoing id ++ relations.filter (fun relation => relation.subjectId = id) := by
  unfold upsertRelations
  induction relations generalizing graph with
  | nil => simp
  | cons relation relations ih =>
    rw [List.foldl_cons, ih, outgoing_upsertRelation, List.append_assoc]
    by_cases same : relation.subjectId = id
    · simp [same]
    · simp [same]

end KnowledgeGraph

def RelationType.isWorkEdge : RelationType → Bool
  | .assignedTo | .parentOf | .blocks | .relatesTo | .precedes | .follows => true
  | _ => false

def World.workEdges (w : World) (id : Uuid) : List GraphRelation :=
  (w.graph.outgoing id).filter (·.relationType.isWorkEdge)

theorem workEdges_upsertRelations (w : World) (relations : List GraphRelation) (id : Uuid) :
    (World.upsertRelations relations w).workEdges id =
      w.workEdges id ++ relations.filter (fun relation => relation.subjectId = id && relation.relationType.isWorkEdge) := by
  unfold World.workEdges World.upsertRelations
  rw [KnowledgeGraph.outgoing_upsertRelations, List.filter_append, List.filter_filter]
  simp only [Bool.and_comm]

/-- The step from `w` to `t` leaves those edges alone. -/
def KeepsEdges (w t : World) : Prop := ∀ id, t.workEdges id = w.workEdges id

instance : IsPreorder World KeepsEdges where
  refl _ _ := rfl
  trans _ _ _ first second id := (second id).trans (first id)

theorem KeepsEdges.of_graph {w t : World} (same : t.graph = w.graph) : KeepsEdges w t := by
  intro id
  simp only [World.workEdges, same]

theorem KeepsEdges.other {w : World} {relation : GraphRelation} (other : relation.relationType.isWorkEdge = false) :
    KeepsEdges w (World.upsertRelations [relation] w) := by
  intro id
  simp [workEdges_upsertRelations, other]

theorem Filed.keepsEdges {w t : World} (filed : Filed w t) : KeepsEdges w t := by
  have same := congrArg World.graph filed.unfiled
  exact KeepsEdges.of_graph same

variable {S : Site → Prop}

theorem newUuid_keepsEdges : Within KeepsEdges S newUuid :=
  newUuid_filed.mono (fun _ _ => Filed.keepsEdges) (fun _ => id)

theorem upsertAttachmentEdges_keepsEdges (attachment : Attachment) :
    Within KeepsEdges S (upsertAttachmentEdges attachment) := by
  refine Within.swallow (S := fun _ => True) (Within.bind ?_ fun _ => ?_)
  · exact Within.command (fun _ _ => rfl) trivial
  · exact Within.command (fun _ => KeepsEdges.other rfl) trivial

theorem resolveAssignee_keepsEdges (snapshot : OpenProjectWorkItemSnapshot) :
    Within KeepsEdges (fun _ => True) (resolveAssignee snapshot) := by
  unfold resolveAssignee
  split
  · exact Within.pure _
  · refine Within.bind (Within.query trivial) fun _ => ?_
    split
    · exact Within.pure _
    · exact Within.bind (Within.command (fun _ _ => rfl) trivial) fun _ => Within.pure _

namespace OpenProjectIngestionService
variable (self : OpenProjectIngestionService)

theorem ingestAttachmentContent_keepsEdges (attachment : Attachment) (projectId : ProjectId) :
    Within KeepsEdges (fun _ => True) (self.ingestAttachmentContent attachment projectId) := by
  unfold ingestAttachmentContent
  split
  · refine Within.bind (Within.attempt (Within.query trivial)) fun content => ?_
    split
    · exact Within.pure _
    · refine Within.bind ?_ fun _ => Within.command (fun _ _ => rfl) trivial
      exact (DocumentIngestionService.ingest_filed _ _ _ _ _ _).mono (fun _ _ => Filed.keepsEdges) fun _ _ => trivial
  · exact Within.pure _

theorem reconcileAttachment_keepsEdges (raw : RawDict) (workItem : WorkItem) (externalId : String) :
    Within KeepsEdges (fun _ => True) (self.reconcileAttachment raw workItem externalId) := by
  refine Within.bind (Within.query trivial) fun existing => ?_
  split
  · dsimp only
    split
    · exact Within.command (fun _ _ => rfl) trivial
    · exact Within.pure _
  · refine Within.bind newUuid_keepsEdges fun id => Within.bind (Within.command (fun _ _ => rfl) trivial) fun _ => ?_
    split
    · exact Within.bind (self.ingestAttachmentContent_keepsEdges _ _) fun _ => upsertAttachmentEdges_keepsEdges _
    · exact upsertAttachmentEdges_keepsEdges _

theorem reconcileAttachments_keepsEdges (workItem : WorkItem) (snapshot : OpenProjectWorkItemSnapshot) :
    Within KeepsEdges (fun _ => True) (self.reconcileAttachments workItem snapshot) := by
  refine Within.tally fun raw _ => ?_
  dsimp only
  split
  · exact Within.pure _
  · exact Within.bind (self.reconcileAttachment_keepsEdges _ _ _) fun _ => Within.pure _

end OpenProjectIngestionService

/-- The step from `w` to `t` touches no project, work item, relation, watermark
or fetched work package, and none of those edges. -/
structure Apart (w t : World) : Prop where
  projects : t.projects = w.projects
  workItems : t.workItems = w.workItems
  relations : t.relations = w.relations
  watermarks : t.watermarks = w.watermarks
  fetched : t.fetched = w.fetched
  edges : KeepsEdges w t
  nextUuid : w.nextUuid ≤ t.nextUuid

instance : IsPreorder World Apart where
  refl w := ⟨rfl, rfl, rfl, rfl, rfl, refl_of KeepsEdges w, Nat.le_refl _⟩
  trans _ _ _ first second := ⟨second.projects.trans first.projects, second.workItems.trans first.workItems,
    second.relations.trans first.relations, second.watermarks.trans first.watermarks,
    second.fetched.trans first.fetched, trans_of KeepsEdges first.edges second.edges,
    Nat.le_trans first.nextUuid second.nextUuid⟩

theorem Aside.apart {w t : World} (aside : Aside w t) (edges : KeepsEdges w t) : Apart w t := by
  have fetched := congrArg World.fetched aside.core
  exact ⟨aside.projects, aside.workItems, aside.relations, aside.watermarks, fetched, edges, aside.nextUuid⟩

theorem Drawn.apart {w t : World} (drawn : Drawn w t) : Apart w t :=
  drawn.beside.1.apart drawn.filed.keepsEdges

theorem newUuid_apart : Within Apart S newUuid :=
  newUuid_drawn.mono (fun _ _ => Drawn.apart) (fun _ => id)

theorem modelToEnvelope_apart (eventType : EventType) (payload : EventPayload) (source : String)
    (projectId : Option ProjectId) (correlationId : Option Uuid) :
    Within Apart S (modelToEnvelope eventType payload source projectId correlationId) := by
  refine Within.bind ?_ fun _ => Within.bind newUuid_apart fun _ => Within.pure _
  cases correlationId with
  | none => exact newUuid_apart
  | some id => exact Within.pure _

theorem publish_apart {site : Site} (event : EventEnvelope) (listed : S site) :
    Within Apart S (command site (World.publish event) : Prog Unit) :=
  Within.command (fun _ => ⟨rfl, rfl, rfl, rfl, rfl, fun _ => rfl, Nat.le_refl _⟩) listed

end Brain

namespace Brain
open Calls

def Projected (item : WorkItem) (w t : World) : Prop :=
  ∃ entities, t = World.upsertRelations (subgraphRelations item (w.listRelationsByWorkItem item.id))
    (World.upsertEntities entities w)

/-- One write that resolving `s` can make, or ingesting it when `ingesting`. -/
inductive CanonicalWrite (s : OpenProjectWorkItemSnapshot) (ingesting : Bool) : World → World → Prop
  | apart {w t : World} (apart : Apart w t) : CanonicalWrite s ingesting w t
  | create {w : World} (projectId : ProjectId) (ingests : ingesting = true) (absent : w.package s.externalId = none) :
      CanonicalWrite s ingesting w
        (World.putWorkItem (newWorkItem (.v4 w.nextUuid) s projectId) { w with nextUuid := w.nextUuid + 1 })
  | apply {w : World} {item : WorkItem} (ingests : ingesting = true) (own : w.package s.externalId = some item) :
      CanonicalWrite s ingesting w (World.putWorkItem (appliedSnapshot item s (snapshotActor s)) w)
  | adopt {w : World} {item parent : WorkItem} {x : String} (own : w.package s.externalId = some item)
      (names : parentExternalId s = some x) (found : w.package x = some parent) (other : parent.id ≠ item.id) :
      CanonicalWrite s ingesting w (World.putWorkItem { item with parentId := some parent.id } w)
  | relate {w : World} {item target : WorkItem} {raw : RawDict} {sourceName : Option String} {targetName : String}
      {mapped : WorkItemRelationType} {relation : WorkItemRelation} (own : w.package s.externalId = some item)
      (listed : raw ∈ s.relations) (names : rawRelation s raw = some (sourceName, targetName, mapped))
      (isSource : (match sourceName with
        | none => some item.id
        | some x => (w.package x).map WorkItem.id) = some relation.sourceWorkItemId)
      (isTarget : w.package targetName = some target) (isEnd : relation.targetWorkItemId = target.id)
      (other : target.id ≠ relation.sourceWorkItemId) (isType : relation.relationType = mapped)
      (fresh : relation.id = .v4 w.nextUuid) :
      CanonicalWrite s ingesting w (World.createRelation relation { w with nextUuid := w.nextUuid + 1 })
  | project {w t : World} {item : WorkItem} (own : w.package s.externalId = some item) (projected : Projected item w t) :
      CanonicalWrite s ingesting w t

abbrev CanonicalWrites (s : OpenProjectWorkItemSnapshot) (ingesting : Bool) : World → World → Prop :=
  Relation.ReflTransGen (CanonicalWrite s ingesting)

section
variable {s : OpenProjectWorkItemSnapshot} {o : Outside} {w t : World} {item : WorkItem} {x : String} {ingesting : Bool}

theorem Apart.writes (apart : Apart w t) : CanonicalWrites s ingesting w t := .single (.apart apart)

theorem Apart.package (apart : Apart w t) (x : String) : t.package x = w.package x :=
  package_congr apart.workItems x

theorem package_putNew {created : WorkItem} (absent : w.package x = none)
    (refs : created.externalRefs = [openProjectRef x "work_package"]) :
    (World.putWorkItem created w).package x = some created := by
  have hit : created.externalRefs.any (fun ref => ref.refersTo "openproject" x (some "work_package")) = true := by
    simp [refs, openProjectRef_refersTo]
  have missing : ∀ entry ∈ w.workItems.items,
      entry.externalRefs.any (fun ref => ref.refersTo "openproject" x (some "work_package")) = false := by
    intro entry member
    simpa using List.find?_eq_none.mp absent entry member
  unfold World.package World.findWorkItem findByExternalRef World.putWorkItem
  show (putKeyed WorkItem.id created w.workItems.items).find? _ = _
  generalize w.workItems.items = entries at missing
  induction entries with
  | nil => simp [putKeyed, hit]
  | cons entry entries ih =>
    unfold putKeyed
    split
    · simp [hit]
    · rw [List.find?_cons, missing entry (List.mem_cons_self ..)]
      exact ih fun other member => missing other (List.mem_cons_of_mem _ member)

variable {rewritten : WorkItem}

theorem package_putStored (stored : item ∈ w.workItems.items) (sameId : item.id = rewritten.id)
    (sameRefs : item.externalRefs = rewritten.externalRefs) (x : String) :
    (World.putWorkItem rewritten w).package x =
      (w.package x).map fun entry => if entry.id = rewritten.id then rewritten else entry := by
  unfold World.package World.findWorkItem findByExternalRef World.putWorkItem
  exact Keyed.find?_upsert _ stored sameId (by rw [sameRefs])

theorem package_stored (own : w.package x = some item) : item ∈ w.workItems.items := List.mem_of_find?_eq_some own

theorem package_putOld (own : w.package x = some item) (sameId : item.id = rewritten.id)
    (sameRefs : item.externalRefs = rewritten.externalRefs) :
    (World.putWorkItem rewritten w).package x = some rewritten := by
  rw [package_putStored (package_stored own) sameId sameRefs, own]
  simp [sameId]

theorem package_putOther {created : WorkItem} {y : String} (unused : ∀ entry ∈ w.workItems.items, entry.id ≠ created.id)
    (refs : created.externalRefs = [openProjectRef y "work_package"]) (other : y ≠ x) :
    (World.putWorkItem created w).package x = w.package x := by
  have miss : created.externalRefs.any (fun ref => ref.refersTo "openproject" x (some "work_package")) = false := by
    rw [refs, List.any_cons, List.any_nil, Bool.or_false, Bool.eq_false_iff]
    exact fun refers => other (openProjectRef_refersTo.mp refers)
  unfold World.package World.findWorkItem findByExternalRef World.putWorkItem
  rw [Keyed.items_upsert_fresh unused, List.find?_append]
  simp [miss]

def World.packageId (w : World) (x : String) : Option WorkItemId := (w.package x).map WorkItem.id

theorem packageId_putStored (stored : item ∈ w.workItems.items) (sameId : item.id = rewritten.id)
    (sameRefs : item.externalRefs = rewritten.externalRefs) (x : String) :
    (World.putWorkItem rewritten w).packageId x = w.packageId x := by
  unfold World.packageId
  rw [package_putStored stored sameId sameRefs, Option.map_map]
  congr 1
  funext entry
  show (if entry.id = rewritten.id then rewritten else entry).id = entry.id
  split
  · rename_i same
    exact same.symm
  · rfl

/-- The ids of all work items have been drawn. -/
def Issued (w : World) : Prop := ∀ item ∈ w.workItems.items, item.id.Below w.nextUuid

theorem Apart.issued (apart : Apart w t) (issued : Issued w) : Issued t := by
  intro entry member
  rw [apart.workItems] at member
  exact (issued entry member).mono apart.nextUuid

theorem createRelation_rest (relation : WorkItemRelation) (w : World) :
    (World.createRelation relation w).graph = w.graph ∧ (World.createRelation relation w).projects = w.projects ∧
      (World.createRelation relation w).nextUuid = w.nextUuid := by
  unfold World.createRelation
  split <;> exact ⟨rfl, rfl, rfl⟩

theorem CanonicalWrite.issued (write : CanonicalWrite s ingesting w t) (issued : Issued w) : Issued t := by
  cases write with
  | apart apart => exact apart.issued issued
  | create projectId _ _ =>
    intro entry member
    rcases Keyed.mem_upsert.mp member with rfl | ⟨stored, _⟩
    · exact Uuid.fresh_below _
    · exact (issued entry stored).mono (Nat.le_succ _)
  | @apply item _ own =>
    intro entry member
    rcases Keyed.mem_upsert.mp member with rfl | ⟨stored, _⟩
    · have below := issued item (package_stored own)
      exact below
    · exact issued entry stored
  | @adopt item _ _ own _ _ _ =>
    intro entry member
    rcases Keyed.mem_upsert.mp member with rfl | ⟨stored, _⟩
    · have below := issued item (package_stored own)
      exact below
    · exact issued entry stored
  | @relate _ _ _ _ _ _ relation _ _ _ _ _ _ _ _ _ =>
    intro entry member
    rw [createRelation_workItems] at member
    rw [(createRelation_rest relation { w with nextUuid := w.nextUuid + 1 }).2.2]
    exact (issued entry member).mono (Nat.le_succ _)
  | project _ projected =>
    obtain ⟨entities, rfl⟩ := projected
    exact issued

theorem CanonicalWrite.packageId (write : CanonicalWrite s ingesting w t) (issued : Issued w) (x : String) :
    t.packageId x = w.packageId x ∨ (ingesting = true ∧ x = s.externalId ∧ w.packageId x = none) := by
  cases write with
  | apart apart =>
    refine Or.inl ?_
    unfold World.packageId
    rw [apart.package]
  | create projectId ingests absent =>
    by_cases same : x = s.externalId
    · subst same
      exact Or.inr ⟨ingests, rfl, by simp [World.packageId, absent]⟩
    · refine Or.inl ?_
      have unused : ∀ entry ∈ w.workItems.items, entry.id ≠ .v4 w.nextUuid := fun entry stored => (issued entry stored).ne_fresh
      have kept : (World.putWorkItem (newWorkItem (.v4 w.nextUuid) s projectId) { w with nextUuid := w.nextUuid + 1 }).package x =
          World.package { w with nextUuid := w.nextUuid + 1 } x := package_putOther unused rfl (Ne.symm same)
      unfold World.packageId
      rw [kept]
      rfl
  | @apply item _ own =>
    refine Or.inl (packageId_putStored (package_stored own) ?_ ?_ x)
    · rfl
    · rfl
  | @adopt item _ _ own _ _ _ =>
    refine Or.inl (packageId_putStored (package_stored own) ?_ ?_ x)
    · rfl
    · rfl
  | relate _ _ _ _ _ _ _ _ _ =>
    refine Or.inl ?_
    unfold World.packageId
    rw [package_congr createRelation_workItems]
    rfl
  | project _ projected =>
    obtain ⟨entities, rfl⟩ := projected
    exact Or.inl rfl

theorem findOrCreateWorkItem_writes (projectId : ProjectId) : Meets o (findOrCreateWorkItem s projectId) w (byResult
    (fun r t => CanonicalWrites s true w t ∧ t.package s.externalId = some r.1) (fun _ t => CanonicalWrites s true w t)) := by
  refine Meets.bind (Meets.query ?_ fun _ _ _ => .refl)
  dsimp only [byResult]
  cases found : w.findWorkItem "openproject" s.externalId (some "work_package") with
  | some item => exact Meets.pure ⟨.refl, found⟩
  | none =>
    have absent : w.package s.externalId = none := found
    have drawn : CanonicalWrites s true w { w with nextUuid := w.nextUuid + 1 } :=
      (Drawn.apart ⟨w.nextUuid + 1, Nat.le_succ _, rfl⟩).writes
    have created : CanonicalWrites s true w _ := .single (.create projectId rfl absent)
    have mapped : ∀ mapping, Apart (World.putWorkItem (newWorkItem (.v4 w.nextUuid) s projectId)
        { w with nextUuid := w.nextUuid + 1 }) (World.saveMapping mapping
          (World.putWorkItem (newWorkItem (.v4 w.nextUuid) s projectId) { w with nextUuid := w.nextUuid + 1 })) :=
      fun _ => ⟨rfl, rfl, rfl, rfl, rfl, fun _ => rfl, Nat.le_refl _⟩
    refine Meets.bind (Meets.internal (Meets.bind (Meets.command ?_ (fun _ _ => drawn) (fun _ _ => created))))
    refine Meets.bind (Meets.command ?_ (fun _ _ => created) (fun _ _ => created.trans (mapped _).writes))
    refine Meets.pure ⟨created.trans (mapped _).writes, ?_⟩
    rw [(mapped _).package]
    exact package_putNew (w := { w with nextUuid := w.nextUuid + 1 }) absent rfl

theorem applySnapshot_writes (own : w.package s.externalId = some item) : Meets o (applySnapshot item s) w (byResult
    (fun item' t => CanonicalWrites s true w t ∧ t.package s.externalId = some item') (fun _ t => CanonicalWrites s true w t)) := by
  refine Meets.seq _ (Meets.and resolveAssignee_beside (resolveAssignee_keepsEdges s o w)) ?_ ?_
  · rintro assignee t ⟨⟨beside, rfl⟩, keeps⟩
    have apart : Apart w t := beside.1.apart keeps
    have here : t.package s.externalId = some item := (apart.package _).trans own
    have applied : CanonicalWrites s true w _ := apart.writes.tail (.apply rfl here)
    refine Meets.bind (Meets.command ?_ (fun _ _ => apart.writes) (fun _ _ => applied))
    exact Meets.pure ⟨applied, package_putOld here rfl rfl⟩
  · rintro e t ⟨⟨beside, _⟩, keeps⟩
    exact (beside.1.apart keeps.1).writes

theorem resolveParent_writes (own : w.package s.externalId = some item) : Meets o (resolveParent item s) w (byResult
    (fun item' t => CanonicalWrites s ingesting w t ∧ t.package s.externalId = some item') (fun _ t => CanonicalWrites s ingesting w t)) := by
  unfold resolveParent
  cases names : parentExternalId s with
  | none => exact Meets.pure ⟨.refl, own⟩
  | some x =>
    refine Meets.bind (Meets.query ?_ fun _ _ _ => .refl)
    dsimp only [byResult]
    cases found : w.findWorkItem "openproject" x (some "work_package") with
    | none => exact Meets.pure ⟨.refl, own⟩
    | some parent =>
      dsimp only
      by_cases same : parent.id = item.id
      · rw [if_pos same]
        exact Meets.pure ⟨.refl, own⟩
      · rw [if_neg same]
        have adopted : CanonicalWrites s ingesting w _ := .single (.adopt own names found same)
        refine Meets.bind (Meets.command ?_ (fun _ _ => .refl) (fun _ _ => adopted))
        exact Meets.pure ⟨adopted, package_putOld own rfl rfl⟩

theorem resolveRelation_writes {raw : RawDict} (own : w.package s.externalId = some item) (listed : raw ∈ s.relations) :
    Meets o (resolveRelation item s raw) w (fun _ t => CanonicalWrites s ingesting w t ∧ t.package s.externalId = some item) := by
  unfold resolveRelation
  cases names : rawRelation s raw with
  | none => exact Meets.pure ⟨.refl, own⟩
  | some named =>
    obtain ⟨sourceName, targetName, mapped⟩ := named
    have sources : Meets o (resolveSource item sourceName) w (byResult
        (fun source t => t = w ∧ source = match sourceName with
          | none => some item.id
          | some x => (w.package x).map WorkItem.id) (fun _ t => t = w)) := by
      cases sourceName with
      | none => exact Meets.pure ⟨rfl, rfl⟩
      | some x =>
        refine Meets.bind (Meets.query ?_ fun _ _ _ => rfl)
        exact Meets.pure ⟨rfl, rfl⟩
    refine Meets.seq _ sources ?_ ?_
    · rintro source t ⟨rfl, isSource⟩
      cases source with
      | none => exact Meets.pure ⟨.refl, own⟩
      | some source =>
        refine Meets.bind (Meets.query ?_ fun _ _ _ => ⟨.refl, own⟩)
        dsimp only [byResult]
        cases found : t.findWorkItem "openproject" targetName (some "work_package") with
        | none => exact Meets.pure ⟨.refl, own⟩
        | some target =>
          dsimp only
          split
          · exact Meets.pure ⟨.refl, own⟩
          · rename_i other
            have apart : Apart t { t with nextUuid := t.nextUuid + 1 } := Drawn.apart ⟨t.nextUuid + 1, Nat.le_succ _, rfl⟩
            have drawn : CanonicalWrites s ingesting t { t with nextUuid := t.nextUuid + 1 } ∧
                World.package { t with nextUuid := t.nextUuid + 1 } s.externalId = some item := ⟨apart.writes, own⟩
            have related : ∀ relation : WorkItemRelation, relation.id = .v4 t.nextUuid → relation.sourceWorkItemId = source →
                relation.targetWorkItemId = target.id → relation.relationType = mapped →
                CanonicalWrites s ingesting t (World.createRelation relation { t with nextUuid := t.nextUuid + 1 }) ∧
                  (World.createRelation relation { t with nextUuid := t.nextUuid + 1 }).package s.externalId = some item := by
              intro relation fresh isFirst isEnd isType
              refine ⟨.single (.relate own listed names ?_ found isEnd ?_ isType fresh), ?_⟩
              · rw [isFirst]
                exact isSource.symm
              · rwa [isFirst]
              · rw [package_congr createRelation_workItems]
                exact own
            refine Meets.bind (Meets.internal ?_)
            dsimp only [byResult]
            refine Meets.bind (Meets.command ?_ ?_ ?_)
            · dsimp only [byResult]
              exact Meets.pure (related _ rfl rfl rfl rfl)
            · exact fun _ _ => drawn
            · exact fun _ _ => related _ rfl rfl rfl rfl
    · rintro e t rfl
      exact ⟨.refl, own⟩

theorem resolveRelations_writes (own : w.package s.externalId = some item) :
    Meets o (resolveRelations item s) w (fun _ t => CanonicalWrites s ingesting w t ∧ t.package s.externalId = some item) := by
  refine Meets.tally (fun t => CanonicalWrites s ingesting w t ∧ t.package s.externalId = some item) ⟨.refl, own⟩ ?_
  rintro raw listed t ⟨writes, here⟩
  have turn : Meets o (resolveRelation item s raw) t (fun _ u =>
      CanonicalWrites s ingesting t u ∧ u.package s.externalId = some item) := resolveRelation_writes here listed
  refine turn.mono ?_
  rintro r u ⟨writes', after⟩
  exact ⟨writes.trans writes', after⟩

theorem projectSubgraph_projects (item : WorkItem) : Returns o (projectSubgraph item) w (fun _ t =>
    (Apart w t ∧ ∃ e, o.Raises e ∧ e.site ∈ [Site.subgraphProjectGet, .subgraphRelationsList, .subgraphEntities,
      .subgraphRelations]) ∨ Projected item w t) := by
  have aside : ∀ entities, Apart w (World.upsertEntities entities w) :=
    fun _ => ⟨rfl, rfl, rfl, rfl, rfl, fun _ => rfl, Nat.le_refl _⟩
  refine Meets.swallow (Meets.bind (Meets.query ?_ fun _ _ raises => Or.inl ⟨refl_of Apart w, _, raises, by simp⟩))
  dsimp only [byResult]
  refine Meets.bind (Meets.query ?_ fun _ _ raises => Or.inl ⟨refl_of Apart w, _, raises, by simp⟩)
  dsimp only [byResult]
  refine Meets.bind (Meets.command ?_ ?_ ?_)
  · dsimp only [byResult]
    refine Meets.command ?_ ?_ ?_
    · exact Or.inr ⟨_, rfl⟩
    · exact fun _ raises => Or.inl ⟨aside _, _, raises, by simp⟩
    · exact fun _ _ => Or.inr ⟨_, rfl⟩
  · exact fun _ raises => Or.inl ⟨refl_of Apart w, _, raises, by simp⟩
  · exact fun _ raises => Or.inl ⟨aside _, _, raises, by simp⟩

def Finishes (s : OpenProjectWorkItemSnapshot) (ingesting : Bool) (w t : World) : Prop :=
  ∃ u v item, CanonicalWrites s ingesting w u ∧ u.package s.externalId = some item ∧ Projected item u v ∧ Apart v t

/-- No call of the projection of a work item fails. -/
def ProjectionReturns (o : Outside) : Prop := ∀ n site,
  site ∈ [Site.subgraphProjectGet, .subgraphRelationsList, .subgraphEntities, .subgraphRelations] →
    o.outcome n site = .returns

theorem projectSubgraph_finishes {u : World} (own : u.package s.externalId = some item) (writes : CanonicalWrites s ingesting w u) :
    Returns o (projectSubgraph item) u (fun _ t => CanonicalWrites s ingesting w t ∧ (ProjectionReturns o → Finishes s ingesting w t)) := by
  refine (projectSubgraph_projects item).mono ?_
  intro r t reached
  cases r with
  | error _ => exact reached.elim
  | ok _ =>
    rcases reached with ⟨apart, e, raises, site⟩ | projected
    · refine ⟨writes.trans apart.writes, fun returns => ?_⟩
      exact absurd raises (Outside.not_raises_of_returns fun n => returns n e.site site)
    · exact ⟨writes.tail (.project own projected), fun _ => ⟨u, t, item, writes, own, projected, refl_of Apart t⟩⟩

namespace OpenProjectIngestionService
variable (self : OpenProjectIngestionService)
variable (options : IngestOptions)

theorem reconcileAttachments_apart (item : WorkItem) :
    Meets o (self.reconcileAttachments item s) w (fun _ t => Apart w t) := by
  refine (Meets.and (self.reconcileAttachments_tends item s) (self.reconcileAttachments_keepsEdges item s o w)).mono ?_
  rintro r t ⟨⟨tends, _⟩, keeps⟩
  exact tends.store.1.apart keeps.store

theorem ingestCanonical_finishes (changes : List SemanticChange) (projectId : ProjectId) :
    Meets o (self.ingestCanonical s changes projectId) w (byResult
      (fun _ t => CanonicalWrites s true w t ∧ (ProjectionReturns o → Finishes s true w t)) (fun _ t => CanonicalWrites s true w t)) := by
  unfold ingestCanonical
  refine Meets.seq _ (findOrCreateWorkItem_writes projectId) ?_ (fun _ _ stopped => stopped)
  rintro ⟨item₁, created⟩ t₁ ⟨writes₁, own₁⟩
  refine Meets.seq _ (applySnapshot_writes own₁) ?_ (fun _ _ stopped => writes₁.trans stopped)
  rintro item₂ t₂ ⟨writes₂, own₂⟩
  refine Meets.seq _ (resolveParent_writes own₂) ?_ (fun _ _ stopped => (writes₁.trans writes₂).trans stopped)
  rintro item₃ t₃ ⟨writes₃, own₃⟩
  have early := (writes₁.trans writes₂).trans writes₃
  refine Meets.seq _ (resolveRelations_writes own₃) ?_ (fun _ _ stopped => early.trans stopped.1)
  rintro _ t₄ ⟨writes₄, own₄⟩
  refine Meets.seq (fun _ t => Apart t₄ t) (self.reconcileAttachments_apart item₃) ?_ (fun _ _ stopped =>
    (early.trans writes₄).trans (Apart.writes stopped))
  intro _ t₅ apart₅
  have own₅ : t₅.package s.externalId = some item₃ := (apart₅.package _).trans own₄
  refine Meets.seq _ (projectSubgraph_finishes own₅ ((early.trans writes₄).trans apart₅.writes)) ?_
    (fun _ _ stopped => stopped.elim)
  rintro _ t finished
  exact Meets.pure finished

theorem publishResolved_apart (projectId : ProjectId) (result : OpenProjectIngestionResult) :
    Within Apart (fun _ => True) (self.publishResolved options s item projectId result) := by
  unfold publishResolved
  split
  · exact Within.pure _
  · refine Within.bind (modelToEnvelope_apart _ _ _ _ _) fun _ => Within.bind (publish_apart _ trivial) fun _ => ?_
    dsimp only
    split
    · refine Within.bind ?_ fun _ => Within.pure _
      exact Within.bind (modelToEnvelope_apart _ _ _ _ _) fun _ => publish_apart _ trivial
    · exact Within.pure _

theorem publishProviderFact_apart (changes : List SemanticChange) (result : OpenProjectIngestionResult) :
    Within Apart (fun _ => True) (publishProviderFact options s changes result) :=
  Within.bind (modelToEnvelope_apart _ _ _ _ _) fun _ => Within.bind (publish_apart _ trivial) fun _ => Within.pure _

theorem ingestWorkItemSnapshot_unresolved (unresolved : w.resolvedProject s options.projectId = none) :
    Meets o (self.ingestWorkItemSnapshot s options) w (fun _ t => Apart w t) := by
  have saved : Apart w (World.saveSnapshot s w) := ⟨rfl, rfl, rfl, rfl, rfl, fun _ => rfl, Nat.le_refl _⟩
  unfold ingestWorkItemSnapshot
  refine Meets.bind (Meets.query ?_ fun _ _ _ => refl_of Apart w)
  dsimp only [byResult]
  refine Meets.seq _ resolveProject_resolves ?_ ?_
  · rintro project t ⟨rfl, found⟩
    rw [unresolved] at found
    subst found
    refine Meets.bind (Meets.command ?_ (fun _ _ => refl_of Apart t) (fun _ _ => saved))
    dsimp only [byResult]
    split
    · exact Meets.pure saved
    · refine (publishProviderFact_apart options _ _ o (World.saveSnapshot s t)).mono ?_
      intro r v stays
      exact trans_of Apart saved stays.store
  · rintro e t ⟨rfl, _⟩
    exact refl_of Apart t

theorem ingestWorkItemSnapshot_finishes : Meets o (self.ingestWorkItemSnapshot s options) w
    (byResult (fun _ t => CanonicalWrites s true w t ∧ (ProjectionReturns o → Finishes s true w t ∨ Apart w t))
      (fun _ t => CanonicalWrites s true w t)) := by
  by_cases unresolved : w.resolvedProject s options.projectId = none
  · refine (self.ingestWorkItemSnapshot_unresolved options unresolved).mono ?_
    intro r t apart
    cases r with
    | ok _ => exact ⟨apart.writes, fun _ => Or.inr apart⟩
    | error _ => exact apart.writes
  have saved : ∀ u, Apart u (World.saveSnapshot s u) := fun _ => ⟨rfl, rfl, rfl, rfl, rfl, fun _ => rfl, Nat.le_refl _⟩
  unfold ingestWorkItemSnapshot
  refine Meets.bind (Meets.query ?_ fun _ _ _ => .refl)
  dsimp only [byResult]
  refine Meets.seq _ resolveProject_resolves ?_ ?_
  · rintro project t ⟨rfl, found⟩
    cases project with
    | none => exact absurd found.symm unresolved
    | some projectId =>
      refine Meets.seq _ (self.ingestCanonical_finishes _ projectId) ?_ (fun _ _ stopped => stopped)
      rintro ⟨item, result⟩ u ⟨writes, finishes⟩
      have later : ∀ v, Apart u v → CanonicalWrites s true t v ∧ (ProjectionReturns o → Finishes s true t v ∨ Apart t v) := by
        intro v apart
        refine ⟨writes.trans apart.writes, fun returns => Or.inl ?_⟩
        obtain ⟨x, y, item, writes, own, projected, after⟩ := finishes returns
        exact ⟨x, y, item, writes, own, projected, trans_of Apart after apart⟩
      refine Meets.bind (Meets.command ?_ (fun _ _ => writes) (fun _ _ => (later _ (saved u)).1))
      dsimp only [byResult]
      split
      · exact Meets.pure (later _ (saved u))
      · refine (self.publishResolved_apart options projectId _ o (World.saveSnapshot s u)).mono ?_
        intro r v stays
        have after := later v (trans_of Apart (saved u) stays.store)
        cases r with
        | ok _ => exact after
        | error _ => exact after.1
  · rintro e t ⟨rfl, _⟩
    exact .refl

theorem resolveRelationshipsOf_finishes : Meets o (resolveRelationshipsOf s) w (byResult
    (fun _ t => CanonicalWrites s false w t ∧ (ProjectionReturns o → Finishes s false w t ∨ Apart w t))
    (fun _ t => CanonicalWrites s false w t)) := by
  unfold resolveRelationshipsOf
  refine Meets.bind (Meets.query ?_ fun _ _ _ => .refl)
  dsimp only [byResult]
  cases found : w.findWorkItem "openproject" s.externalId (some "work_package") with
  | none => exact Meets.pure ⟨.refl, fun _ => Or.inr (refl_of Apart w)⟩
  | some item =>
    refine Meets.seq _ (resolveParent_writes found) ?_ (fun _ _ stopped => stopped)
    rintro item₁ t₁ ⟨writes₁, own₁⟩
    refine Meets.seq _ (resolveRelations_writes own₁) ?_ (fun _ _ stopped => writes₁.trans stopped.1)
    rintro _ t₂ ⟨writes₂, own₂⟩
    refine (projectSubgraph_finishes own₂ (writes₁.trans writes₂)).mono ?_
    intro r t finished
    cases r with
    | ok _ => exact ⟨finished.1, fun returns => Or.inl (finished.2 returns)⟩
    | error _ => exact finished.elim

end OpenProjectIngestionService

end

end Brain
