import Brain.Adapters.Registry
import Brain.Application.OpenProjectIngestion

namespace Brain
open Calls

/-- The stores that attachments, documents, actors and the graph are not kept in. -/
def World.core (w : World) : World :=
  { projects := w.projects, workItems := w.workItems, comments := w.comments, relations := w.relations
    mappings := w.mappings, conflicts := w.conflicts, snapshots := w.snapshots
    bootstrapStates := w.bootstrapStates, watermarks := w.watermarks, fetched := w.fetched }

/-- Only document events were published on the way from `w` to `t`. -/
def DocumentEventsOnly (events : List EventEnvelope) : Prop :=
  ∀ e ∈ events, e.eventType = .documentChanged

/-- The step from `w` to `t` is a side matter: it touches no store of `World.core`,
publishes nothing but document events and draws ids. -/
structure Aside (w t : World) : Prop where
  core : t.core = w.core
  published : ∃ events, t.published = w.published ++ events ∧ DocumentEventsOnly events
  nextUuid : w.nextUuid ≤ t.nextUuid

theorem Aside.refl (w : World) : Aside w w :=
  ⟨rfl, ⟨[], by simp, by simp [DocumentEventsOnly]⟩, Nat.le_refl _⟩

variable {w : World}

theorem Aside.trans {u v : World} (first : Aside u v) (second : Aside v w) : Aside u w := by
  obtain ⟨early, atFirst, earlyDocuments⟩ := first.published
  obtain ⟨late, atSecond, lateDocuments⟩ := second.published
  refine ⟨second.core.trans first.core, ⟨early ++ late, ?_, ?_⟩, Nat.le_trans first.nextUuid second.nextUuid⟩
  · rw [atSecond, atFirst, List.append_assoc]
  · intro e member
    rcases List.mem_append.mp member with old | new
    · exact earlyDocuments e old
    · exact lateDocuments e new

namespace Aside
variable {w t : World} (aside : Aside w t)
include aside

theorem projects : t.projects = w.projects := by have same := congrArg World.projects aside.core; exact same
theorem workItems : t.workItems = w.workItems := by have same := congrArg World.workItems aside.core; exact same
theorem comments : t.comments = w.comments := by have same := congrArg World.comments aside.core; exact same
theorem relations : t.relations = w.relations := by have same := congrArg World.relations aside.core; exact same
theorem mappings : t.mappings = w.mappings := by have same := congrArg World.mappings aside.core; exact same
theorem watermarks : t.watermarks = w.watermarks := by have same := congrArg World.watermarks aside.core; exact same

end Aside

/-- A side matter that leaves the attachments alone. -/
def Beside (w t : World) : Prop := Aside w t ∧ t.attachments = w.attachments

instance : IsPreorder World Beside where
  refl w := ⟨Aside.refl w, rfl⟩
  trans _ _ _ first second := ⟨first.1.trans second.1, second.2.trans first.2⟩

variable {t : World}

theorem Beside.of_core (core : t.core = w.core) (published : t.published = w.published)
    (nextUuid : w.nextUuid ≤ t.nextUuid) (attachments : t.attachments = w.attachments) : Beside w t :=
  ⟨⟨core, ⟨[], by simp [published], by simp [DocumentEventsOnly]⟩, nextUuid⟩, attachments⟩

/-- The attachments stay registered, each under its id. -/
def KeepsAttachments (w t : World) : Prop :=
  Registered Attachment.externalRefs "attachment" w.attachments w.nextUuid →
    Registered Attachment.externalRefs "attachment" t.attachments t.nextUuid ∧
      identities Attachment.externalRefs w.attachments ⊆ identities Attachment.externalRefs t.attachments

/-- A side matter that may reconcile attachments. -/
def Tends (w t : World) : Prop := Aside w t ∧ KeepsAttachments w t

instance : IsPreorder World Tends where
  refl w := ⟨Aside.refl w, fun registered => ⟨registered, List.Subset.refl _⟩⟩
  trans _ _ _ first second := by
    refine ⟨first.1.trans second.1, fun registered => ?_⟩
    obtain ⟨between, early⟩ := first.2 registered
    obtain ⟨after, late⟩ := second.2 between
    exact ⟨after, List.Subset.trans early late⟩

theorem Beside.tends (beside : Beside w t) : Tends w t := by
  refine ⟨beside.1, fun registered => ?_⟩
  rw [beside.2]
  exact ⟨registered.later beside.1.nextUuid, List.Subset.refl _⟩

/-- The sites of the side matters whose exceptions reach the caller. -/
def Site.isSide : Site → Bool
  | .actorsGet | .actorsCreate | .attachmentFind | .attachmentUpdate | .attachmentCreate
  | .attachmentMarkIngested | .parserParse | .documentFindBySource | .documentGetVersion | .documentCreate
  | .documentListNodes | .documentAddVersion | .documentAddNode | .documentUpdate | .decisionCreate
  | .publishDocumentChanged => true
  | _ => false

abbrev SideSite (site : Site) : Prop := site.isSide = true

/-- Ids were drawn and nothing else happened. -/
def Drawn (w t : World) : Prop := ∃ next, w.nextUuid ≤ next ∧ t = { w with nextUuid := next }

/-- The world without what the document ingestion writes. -/
def World.unfiled (w : World) : World :=
  { w with documents := Keyed.empty, documentVersions := Keyed.empty, documentNodes := Keyed.empty
           decisions := Keyed.empty, published := [], nextUuid := 0 }

structure Filed (w t : World) : Prop where
  unfiled : t.unfiled = w.unfiled
  published : ∃ events, t.published = w.published ++ events ∧ DocumentEventsOnly events
  nextUuid : w.nextUuid ≤ t.nextUuid

theorem Filed.of_unfiled (unfiled : t.unfiled = w.unfiled) (published : t.published = w.published)
    (nextUuid : w.nextUuid ≤ t.nextUuid) : Filed w t :=
  ⟨unfiled, ⟨[], by simp [published], by simp [DocumentEventsOnly]⟩, nextUuid⟩

instance : IsPreorder World Filed where
  refl _ := Filed.of_unfiled rfl rfl (Nat.le_refl _)
  trans := by
    rintro u v w first second
    obtain ⟨early, atFirst, earlyDocuments⟩ := first.published
    obtain ⟨late, atSecond, lateDocuments⟩ := second.published
    refine ⟨second.unfiled.trans first.unfiled, ⟨early ++ late, ?_, ?_⟩, Nat.le_trans first.nextUuid second.nextUuid⟩
    · rw [atSecond, atFirst, List.append_assoc]
    · intro e member
      rcases List.mem_append.mp member with old | new
      · exact earlyDocuments e old
      · exact lateDocuments e new

theorem Filed.beside (filed : Filed w t) : Beside w t := by
  have core := congrArg World.core filed.unfiled
  have attachments := congrArg World.attachments filed.unfiled
  exact ⟨⟨core, filed.published, filed.nextUuid⟩, attachments⟩

theorem Drawn.filed (drawn : Drawn w t) : Filed w t := by
  obtain ⟨next, le, rfl⟩ := drawn
  exact Filed.of_unfiled rfl rfl le

theorem Drawn.beside (drawn : Drawn w t) : Beside w t := drawn.filed.beside

variable {S : Site → Prop}

theorem newUuid_drawn : Within Drawn S newUuid :=
  Within.internal fun w => ⟨w.nextUuid + 1, Nat.le_succ _, rfl⟩

theorem newUuid_filed : Within Filed S newUuid :=
  newUuid_drawn.mono (fun _ _ => Drawn.filed) (fun _ => id)

theorem newUuid_id (o : Outside) (w : World) :
    Returns o newUuid w (fun id t => id = .v4 w.nextUuid ∧ t = { w with nextUuid := w.nextUuid + 1 }) :=
  Meets.internal ⟨rfl, rfl⟩

theorem modelToEnvelope_drawn {o : Outside} {eventType : EventType} {payload : EventPayload} {source : String}
    {projectId : Option ProjectId} {correlationId : Option Uuid} :
    Returns o (modelToEnvelope eventType payload source projectId correlationId) w
      (fun e t => Drawn w t ∧ e.eventType = eventType ∧ e.payload = payload) := by
  cases correlationId with
  | none => exact fun _ => ⟨⟨w.nextUuid + 2, by omega, rfl⟩, rfl, rfl⟩
  | some id => exact fun _ => ⟨⟨w.nextUuid + 1, by omega, rfl⟩, rfl, rfl⟩

/-! ### Documents -/

namespace DocumentIngestionService
variable (self : DocumentIngestionService)

theorem persistNodes_filed (versionId : DocumentVersionId) (nodes : List ParsedNode) :
    Within Filed SideSite (persistNodes versionId nodes) :=
  Within.forEach fun _ _ => Within.command (fun _ => Filed.of_unfiled rfl rfl (Nat.le_refl _)) rfl

theorem createDecisions_filed (parsed : ParsedDocument) (artifact : SourceArtifact) (projectId : ProjectId) :
    Within Filed SideSite (self.createDecisions parsed artifact projectId) := by
  unfold createDecisions
  split
  · split
    · refine Within.bind newUuid_filed fun id => Within.bind ?_ fun _ => Within.pure _
      exact Within.command (fun _ => Filed.of_unfiled rfl rfl (Nat.le_refl _)) rfl
    · exact Within.pure _
  · exact Within.pure _

theorem publishDocumentChanged_filed (document : Document) (source : String) :
    Within Filed SideSite (publishDocumentChanged document source) := by
  intro o w
  refine Meets.seq _ modelToEnvelope_drawn ?_ (fun _ _ stopped => stopped.elim)
  rintro envelope t ⟨drawn, eventType, _⟩
  have published : Filed t (World.publish envelope t) := by
    refine ⟨rfl, ⟨[envelope], rfl, ?_⟩, Nat.le_refl _⟩
    intro e member
    rw [List.mem_singleton.mp member, eventType]
  have before := drawn.filed
  have after := trans_of Filed before published
  exact Meets.command after (fun _ raises => ⟨before, rfl, raises⟩) (fun _ raises => ⟨after, rfl, raises⟩)

theorem findOrCreateDocument_filed (artifact : SourceArtifact) (parsed : ParsedDocument)
    (docType : DocumentType) (projectId : ProjectId) :
    Within Filed SideSite (findOrCreateDocument artifact parsed docType projectId) := by
  refine Within.bind (Within.query rfl) fun existing => ?_
  split
  · split
    · exact Within.bind (Within.query rfl) fun _ => Within.pure _
    · exact Within.pure _
  · refine Within.bind newUuid_filed fun id => Within.bind ?_ fun _ => Within.pure _
    exact Within.command (fun _ => Filed.of_unfiled rfl rfl (Nat.le_refl _)) rfl

theorem storeVersion_filed (artifact : SourceArtifact) (parsed : ParsedDocument) (docType : DocumentType)
    (projectId : ProjectId) (repositoryId : Option RepositoryId) (commitSha : Option String)
    (document : Document) :
    Within Filed SideSite
      (self.storeVersion artifact parsed docType projectId repositoryId commitSha document) := by
  refine Within.bind newUuid_filed fun id => Within.bind Within.now fun ingestedAt => Within.bind ?_ fun _ => ?_
  · exact Within.command (fun _ => Filed.of_unfiled rfl rfl (Nat.le_refl _)) rfl
  refine Within.bind (persistNodes_filed _ _) fun _ => Within.bind ?_ fun _ => ?_
  · exact Within.command (fun _ => Filed.of_unfiled rfl rfl (Nat.le_refl _)) rfl
  refine Within.bind (self.createDecisions_filed _ _ _) fun _ => ?_
  split
  · exact Within.bind (publishDocumentChanged_filed _ _) fun _ => Within.pure _
  · exact Within.pure _

theorem ingest_filed (artifact : SourceArtifact) (projectId : ProjectId) (documentType : Option DocumentType)
    (repositoryId : Option RepositoryId) (commitSha : Option String) :
    Within Filed SideSite (self.ingest artifact projectId documentType repositoryId commitSha) := by
  refine Within.bind ?_ fun parsed => Within.bind (findOrCreateDocument_filed _ _ _ _) fun found => ?_
  · exact Within.call (fun _ => Filed.of_unfiled rfl rfl (Nat.le_add_right _ _)) rfl
  obtain ⟨document, currentVersion⟩ := found
  cases currentVersion with
  | none => exact self.storeVersion_filed _ _ _ _ _ _ _
  | some version =>
    dsimp only
    split
    · exact Within.bind (Within.query rfl) fun _ => Within.pure _
    · exact self.storeVersion_filed _ _ _ _ _ _ _

end DocumentIngestionService

/-! ### Actors and the graph -/

def snapshotActor (snapshot : OpenProjectWorkItemSnapshot) : Option ActorId :=
  (given snapshot.assigneeId).map userActorId

theorem resolveAssignee_beside {o : Outside} {snapshot : OpenProjectWorkItemSnapshot} :
    Meets o (resolveAssignee snapshot) w
      (byResult (fun actor t => Beside w t ∧ actor = snapshotActor snapshot)
        (fun e t => Beside w t ∧ SideSite e.site ∧ o.Raises e)) := by
  unfold resolveAssignee
  cases assignee : given snapshot.assigneeId with
  | none => exact Meets.pure ⟨refl_of Beside w, by simp [snapshotActor, assignee]⟩
  | some assigneeId =>
    have actor : some (userActorId assigneeId) = snapshotActor snapshot := by simp [snapshotActor, assignee]
    refine Meets.bind (Meets.query ?_ fun _ _ raises => ⟨refl_of Beside w, rfl, raises⟩)
    dsimp only [byResult]
    split
    · exact Meets.pure ⟨refl_of Beside w, actor⟩
    · have added : ∀ a : Actor, Beside w (World.putActor a w) :=
        fun _ => Beside.of_core rfl rfl (Nat.le_refl _) rfl
      refine Meets.bind (Meets.command (Meets.pure ⟨added _, actor⟩) ?_ ?_)
      · exact fun _ raises => ⟨refl_of Beside w, rfl, raises⟩
      · exact fun _ raises => ⟨added _, rfl, raises⟩

theorem upsertAttachmentEdges_beside (attachment : Attachment) :
    Within Beside S (upsertAttachmentEdges attachment) := by
  refine Within.swallow (S := fun _ => True) (Within.bind ?_ fun _ => ?_)
  · exact Within.command (fun _ => Beside.of_core rfl rfl (Nat.le_refl _) rfl) trivial
  · exact Within.command (fun _ => Beside.of_core rfl rfl (Nat.le_refl _) rfl) trivial

theorem projectSubgraph_beside (workItem : WorkItem) : Within Beside S (projectSubgraph workItem) := by
  refine Within.swallow (S := fun _ => True) (Within.bind (Within.query trivial) fun project => ?_)
  refine Within.bind (Within.query trivial) fun relations => Within.bind ?_ fun _ => ?_
  · exact Within.command (fun _ => Beside.of_core rfl rfl (Nat.le_refl _) rfl) trivial
  · exact Within.command (fun _ => Beside.of_core rfl rfl (Nat.le_refl _) rfl) trivial

/-! ### Attachments -/

abbrev AttachmentsRegistered (w : World) : Prop :=
  Registered Attachment.externalRefs "attachment" w.attachments w.nextUuid

/-- An attachment of the provider is stored. -/
def Catalogued (w : World) (externalId : String) : Prop :=
  ∃ id, (id, [openProjectRef externalId "attachment"]) ∈ identities Attachment.externalRefs w.attachments

/-- All attachments a snapshot names are stored. -/
def AllCatalogued (w : World) (attachments : List RawDict) : Prop :=
  ∀ raw ∈ attachments, textOrEmpty (pyGet raw "id") ≠ "" → Catalogued w (textOrEmpty (pyGet raw "id"))

theorem Tends.catalogued (tends : Tends w t) (registered : AttachmentsRegistered w) {externalId : String}
    (catalogued : Catalogued w externalId) : Catalogued t externalId := by
  obtain ⟨id, listed⟩ := catalogued
  exact ⟨id, (tends.2 registered).2 listed⟩

theorem putAttachment_tends {old attachment : Attachment} (stored : old ∈ w.attachments.items)
    (sameId : old.id = attachment.id) (sameRefs : old.externalRefs = attachment.externalRefs) :
    Tends w (World.putAttachment attachment w) := by
  refine ⟨⟨rfl, ⟨[], by simp [World.putAttachment], by simp [DocumentEventsOnly]⟩, Nat.le_refl _⟩, ?_⟩
  intro registered
  have same := identities_rewrite stored sameId sameRefs
  exact ⟨registered.rewrite stored sameId sameRefs, same ▸ List.Subset.refl _⟩

namespace OpenProjectIngestionService
variable (self : OpenProjectIngestionService)

variable {o : Outside} {w : World}

theorem ingestAttachmentContent_tends {attachment : Attachment} (projectId : ProjectId)
    (stored : attachment ∈ w.attachments.items) :
    Meets o (self.ingestAttachmentContent attachment projectId) w (Stays o (Tends w) SideSite) := by
  unfold ingestAttachmentContent
  split
  · rename_i fetch documentIngestion url _ _ _
    have fetched : Returns o (Calls.attempt (query .contentFetch fun _ => fetch url)) w (fun _ t => t = w) :=
      Meets.attempt (Meets.query rfl fun _ _ _ => rfl)
    refine Meets.seq _ fetched ?_ (fun _ _ stopped => stopped.elim)
    rintro content t rfl
    cases content with
    | error e => exact Meets.pure (refl_of Tends t)
    | ok content =>
      refine Meets.seq _ (DocumentIngestionService.ingest_filed _ _ _ _ _ _ o t) ?_ ?_
      · intro _ u filed
        have beside := Filed.beside filed
        have kept : attachment ∈ u.attachments.items := beside.2 ▸ stored
        have marked : Tends u (World.putAttachment { attachment with contentIngested := true } u) :=
          putAttachment_tends kept rfl rfl
        have after := trans_of Tends beside.tends marked
        exact Meets.command after (fun _ raises => ⟨beside.tends, rfl, raises⟩)
          (fun _ raises => ⟨after, rfl, raises⟩)
      · exact fun e u stays => ⟨stays.1.beside.tends, stays.2⟩
  · exact Meets.pure (refl_of Tends w)

theorem createAttachment_tends {raw : RawDict} {workItem : WorkItem} {externalId : String}
    (absent : w.findAttachment "openproject" externalId (some "attachment") = none) :
    Meets o (self.createAttachment raw workItem externalId) w (fun r t => Stays o (Tends w) SideSite r t ∧
      (AttachmentsRegistered w → ∀ a, r = .ok a → Catalogued t externalId)) := by
  refine Meets.seq _ (newUuid_id o w) ?_ (fun _ _ stopped => stopped.elim)
  rintro id t ⟨rfl, rfl⟩
  have items : AttachmentsRegistered w →
      identities Attachment.externalRefs (w.attachments.upsert (newAttachment (.v4 w.nextUuid) workItem raw externalId)) =
        identities Attachment.externalRefs w.attachments ++ [(.v4 w.nextUuid, [openProjectRef externalId "attachment"])] :=
    fun registered => identities_create registered.fresh
  have created : Tends w (World.putAttachment (newAttachment (.v4 w.nextUuid) workItem raw externalId)
      { w with nextUuid := w.nextUuid + 1 }) := by
    refine ⟨⟨rfl, ⟨[], by simp [World.putAttachment], by simp [DocumentEventsOnly]⟩, Nat.le_succ _⟩, ?_⟩
    intro registered
    refine ⟨(registered.later (Nat.le_succ _)).create absent rfl (Uuid.fresh_below _), ?_⟩
    simp only [World.putAttachment]
    rw [items registered]
    exact List.subset_append_left _ _
  have drawn := (Drawn.beside ⟨w.nextUuid + 1, Nat.le_succ _, rfl⟩ : Beside w _).tends
  have edges : ∀ u, Meets o (upsertAttachmentEdges (newAttachment (.v4 w.nextUuid) workItem raw externalId)) u
      (Stays o (Tends u) SideSite) := by
    intro u
    exact (upsertAttachmentEdges_beside _ o u).mono fun _ _ stays => stays.mono (fun _ => Beside.tends) (fun _ => id)
  refine Meets.bind (Meets.command ?_ ?_ ?_)
  · dsimp only [byResult]
    refine Meets.mono (Q := Stays o (Tends (World.putAttachment (newAttachment (.v4 w.nextUuid) workItem raw externalId)
      { w with nextUuid := w.nextUuid + 1 })) SideSite) ?_ ?_
    · split
      · refine Meets.seq _ (self.ingestAttachmentContent_tends _ (Keyed.mem_upsert_self _ _)) ?_ (fun _ _ stays => stays)
        intro _ u tends
        exact (edges u).mono fun _ _ stays => stays.mono (fun _ => trans_of Tends tends) (fun _ => id)
      · exact edges _
    · intro r t stays
      refine ⟨stays.mono (fun _ => trans_of Tends created) (fun _ => id), ?_⟩
      intro registered _ _
      have kept := (stays.store.2 (created.2 registered).1).2
      refine ⟨.v4 w.nextUuid, kept ?_⟩
      simp only [World.putAttachment]
      rw [items registered]
      exact List.mem_append_right _ (List.mem_singleton.mpr rfl)
  · exact fun _ raises => ⟨⟨drawn, rfl, raises⟩, by simp⟩
  · exact fun _ raises => ⟨⟨created, rfl, raises⟩, by simp⟩

theorem reconcileAttachment_tends (raw : RawDict) (workItem : WorkItem) (externalId : String) :
    Meets o (self.reconcileAttachment raw workItem externalId) w (fun r t => Stays o (Tends w) SideSite r t ∧
      (AttachmentsRegistered w → (∀ a, r = .ok a → Catalogued t externalId) ∧
        (Catalogued w externalId → t.published = w.published))) := by
  refine Meets.bind (Meets.query ?_ fun _ _ raises => ⟨⟨refl_of Tends w, rfl, raises⟩, fun _ => ⟨by simp, fun _ => rfl⟩⟩)
  dsimp only [byResult]
  split
  · rename_i existing found
    have stored : existing ∈ w.attachments.items := List.mem_of_find?_eq_some found
    have updated := @putAttachment_tends _ _ (updatedAttachment existing raw) stored rfl rfl
    have known : AttachmentsRegistered w → Catalogued w externalId := by
      intro registered
      have refs := (registered.find_eq_some.mp found).2
      exact ⟨existing.id, List.mem_map.mpr ⟨existing, stored, by rw [refs]⟩⟩
    have kept : AttachmentsRegistered w → Catalogued (World.putAttachment (updatedAttachment existing raw) w) externalId := by
      intro registered
      obtain ⟨id, listed⟩ := known registered
      exact ⟨id, (updated.2 registered).2 listed⟩
    split
    · refine Meets.command ⟨updated, fun registered => ⟨fun _ _ => kept registered, fun _ => rfl⟩⟩ ?_ ?_
      · exact fun _ raises => ⟨⟨refl_of Tends w, rfl, raises⟩, fun _ => ⟨by simp, fun _ => rfl⟩⟩
      · exact fun _ raises => ⟨⟨updated, rfl, raises⟩, fun _ => ⟨by simp, fun _ => rfl⟩⟩
    · exact Meets.pure ⟨refl_of Tends w, fun registered => ⟨fun _ _ => known registered, fun _ => rfl⟩⟩
  · rename_i absent
    refine (self.createAttachment_tends absent).mono ?_
    rintro r t ⟨stays, catalogued⟩
    refine ⟨stays, fun registered => ⟨catalogued registered, ?_⟩⟩
    rintro ⟨id, listed⟩
    obtain ⟨attachment, stored, same⟩ := List.mem_map.mp listed
    simp only [Prod.mk.injEq] at same
    exact absurd same.2 (registered.find_eq_none.mp absent attachment stored)

/-- Reconciling attachments is a side matter that leaves all of them stored, and
publishes nothing when they were. -/
theorem reconcileAttachments_tends (workItem : WorkItem) (snapshot : OpenProjectWorkItemSnapshot) :
    Meets o (self.reconcileAttachments workItem snapshot) w (fun r t => Stays o (Tends w) SideSite r t ∧
      (AttachmentsRegistered w → (∀ a, r = .ok a → AllCatalogued t snapshot.attachments) ∧
        (AllCatalogued w snapshot.attachments → t.published = w.published))) := by
  unfold reconcileAttachments
  induction snapshot.attachments generalizing w with
  | nil => exact Meets.pure ⟨refl_of Tends w, fun _ => ⟨by simp [AllCatalogued], fun _ => rfl⟩⟩
  | cons raw raws ih =>
    have turn : Meets o (if textOrEmpty (pyGet raw "id") = "" then pure 0 else do
          self.reconcileAttachment raw workItem (textOrEmpty (pyGet raw "id"))
          pure 1 : Prog Nat) w (fun r t => Stays o (Tends w) SideSite r t ∧ (AttachmentsRegistered w →
        (∀ a, r = .ok a → AllCatalogued t [raw]) ∧ (AllCatalogued w [raw] → t.published = w.published))) := by
      split
      · rename_i unnamed
        exact Meets.pure ⟨refl_of Tends w, fun _ => ⟨by simp [AllCatalogued, unnamed], fun _ => rfl⟩⟩
      · rename_i named
        refine Meets.seq _ (self.reconcileAttachment_tends raw workItem _) ?_ ?_
        · rintro _ t ⟨tends, outcome⟩
          refine Meets.pure ⟨tends, fun registered => ⟨?_, ?_⟩⟩
          · intro _ _ other member _
            rw [List.mem_singleton.mp member]
            exact (outcome registered).1 () rfl
          · exact fun all => (outcome registered).2 (all raw (List.mem_singleton.mpr rfl) named)
        · rintro e t ⟨stays, outcome⟩
          refine ⟨stays, fun registered => ⟨by simp, ?_⟩⟩
          exact fun all => (outcome registered).2 (all raw (List.mem_singleton.mpr rfl) named)
    refine Meets.seq _ turn ?_ ?_
    · rintro first t ⟨tends, outcome⟩
      have tends : Tends w t := tends
      refine Meets.seq _ ih ?_ ?_
      · rintro rest u ⟨tends', outcome'⟩
        have tends' : Tends t u := tends'
        refine Meets.pure ⟨trans_of Tends tends tends', fun registered => ?_⟩
        have later := (tends.2 registered).1
        refine ⟨?_, ?_⟩
        · intro _ _ other member named
          rcases List.mem_cons.mp member with rfl | listed
          · exact tends'.catalogued later ((outcome registered).1 first rfl other (List.mem_singleton.mpr rfl) named)
          · exact (outcome' later).1 rest rfl other listed named
        · intro all
          have first := (outcome registered).2 fun other member => all other (by simp_all)
          have rest := (outcome' later).2 fun other member named =>
            tends.catalogued registered (all other (List.mem_cons_of_mem _ member) named)
          rw [rest, first]
      · rintro e u ⟨stays, outcome'⟩
        refine ⟨stays.mono (fun _ => trans_of Tends tends) (fun _ => id), fun registered => ⟨by simp, ?_⟩⟩
        intro all
        have first := (outcome registered).2 fun other member => all other (by simp_all)
        have rest := (outcome' (tends.2 registered).1).2 fun other member named =>
          tends.catalogued registered (all other (List.mem_cons_of_mem _ member) named)
        rw [rest, first]
    · rintro e t ⟨stays, outcome⟩
      refine ⟨stays, fun registered => ⟨by simp, ?_⟩⟩
      exact fun all => (outcome registered).2 fun other member => all other (by simp_all)

end OpenProjectIngestionService

end Brain
