import Brain.Ingestion.Frames

namespace Brain
open Calls

/-- The arguments of one call of `ingest`. -/
structure IngestCall where
  artifact : SourceArtifact
  projectId : ProjectId
  documentType : Option DocumentType := none
  repositoryId : Option RepositoryId := none
  commitSha : Option String := none

/-- What `find_by_source` compares. -/
def Document.sourceKey (document : Document) : ProjectId × String := (document.projectId, document.source.uri)

def IngestCall.sourceKey (call : IngestCall) : ProjectId × String := (call.projectId, call.artifact.sourceUri)

/-- The document of a source and the version its pointer leads to. -/
def World.documentOf (w : World) (key : ProjectId × String) : Option Document :=
  w.findDocumentBySource key.1 key.2

def World.currentVersionOf (w : World) (key : ProjectId × String) : Option DocumentVersion :=
  (w.documentOf key).bind fun document => document.currentVersionId.bind w.documentVersions.get

/-- The stores of documents are in order: all ids were drawn before, no source
has two documents, and a pointer leads to a version of its document. -/
structure Curated (w : World) : Prop where
  documentIds : ∀ document ∈ w.documents.items, document.id.Below w.nextUuid
  versionIds : ∀ version ∈ w.documentVersions.items, version.id.Below w.nextUuid
  nodeIds : ∀ node ∈ w.documentNodes.items, node.id.Below w.nextUuid
  nodeVersions : ∀ node ∈ w.documentNodes.items, node.versionId.Below w.nextUuid
  decisionIds : ∀ decision ∈ w.decisions.items, decision.id.Below w.nextUuid
  oneEach : (w.documents.items.map Document.sourceKey).Nodup
  pointers : ∀ document ∈ w.documents.items, ∀ id, document.currentVersionId = some id →
    ∃ version ∈ w.documentVersions.items, version.id = id ∧ version.documentId = document.id

/-- What a call wrote: the document table it left and what it added to the other
stores. -/
structure Filing where
  documents : Keyed Document.id
  versions : List DocumentVersion := []
  nodes : List DocumentNode := []
  decisions : List Decision := []
  published : List EventEnvelope := []

structure Filing.Leads (filing : Filing) (w t : World) : Prop where
  documents : t.documents = filing.documents
  versions : t.documentVersions.items = w.documentVersions.items ++ filing.versions
  nodes : t.documentNodes.items = w.documentNodes.items ++ filing.nodes
  decisions : t.decisions.items = w.decisions.items ++ filing.decisions
  published : t.published = w.published ++ filing.published
  nextUuid : w.nextUuid ≤ t.nextUuid

def Filing.andThen (first second : Filing) : Filing :=
  { documents := second.documents, versions := first.versions ++ second.versions
    nodes := first.nodes ++ second.nodes, decisions := first.decisions ++ second.decisions
    published := first.published ++ second.published }

namespace Filing
variable {first second : Filing} {u w t : World}

theorem Leads.trans (before : first.Leads u w) (after : second.Leads w t) : (first.andThen second).Leads u t where
  documents := after.documents
  versions := by rw [after.versions, before.versions, List.append_assoc]; rfl
  nodes := by rw [after.nodes, before.nodes, List.append_assoc]; rfl
  decisions := by rw [after.decisions, before.decisions, List.append_assoc]; rfl
  published := by rw [after.published, before.published, List.append_assoc]; rfl
  nextUuid := Nat.le_trans before.nextUuid after.nextUuid

theorem leads_of_drawn (drawn : Drawn w t) : Leads { documents := w.documents } w t := by
  obtain ⟨next, later, rfl⟩ := drawn
  exact ⟨rfl, by simp, by simp, by simp, by simp, later⟩

theorem leads_refl (w : World) : Leads { documents := w.documents } w w :=
  leads_of_drawn ⟨w.nextUuid, Nat.le_refl _, rfl⟩

theorem leads_putDocument (document : Document) (w : World) :
    Leads { documents := w.documents.upsert document } w (World.putDocument document w) :=
  ⟨rfl, by simp [World.putDocument], by simp [World.putDocument], by simp [World.putDocument],
    by simp [World.putDocument], Nat.le_refl _⟩

theorem leads_addVersion {version : DocumentVersion} (fresh : ∀ old ∈ w.documentVersions.items, old.id ≠ version.id) :
    Leads { documents := w.documents, versions := [version] } w (World.addVersion version w) :=
  ⟨rfl, Keyed.items_upsert_fresh fresh, by simp [World.addVersion], by simp [World.addVersion],
    by simp [World.addVersion], Nat.le_refl _⟩

theorem leads_putDecision {decision : Decision} (fresh : ∀ old ∈ w.decisions.items, old.id ≠ decision.id) :
    Leads { documents := w.documents, decisions := [decision] } w (World.putDecision decision w) :=
  ⟨rfl, by simp [World.putDecision], by simp [World.putDecision], Keyed.items_upsert_fresh fresh,
    by simp [World.putDecision], Nat.le_refl _⟩

theorem leads_publish (event : EventEnvelope) (w : World) :
    Leads { documents := w.documents, published := [event] } w (World.publish event w) :=
  ⟨rfl, by simp [World.publish], by simp [World.publish], by simp [World.publish], rfl, Nat.le_refl _⟩

theorem documentNodes_foldl (nodes : List DocumentNode) (w : World) :
    nodes.foldl (fun u node => World.addNode node u) w =
      { w with documentNodes := nodes.foldl Keyed.upsert w.documentNodes } := by
  induction nodes generalizing w with
  | nil => rfl
  | cons node nodes ih => exact ih (World.addNode node w)

theorem leads_addNodes {nodes : List DocumentNode} (fresh : ∀ node ∈ nodes, ∀ old ∈ w.documentNodes.items, old.id ≠ node.id)
    (distinct : (nodes.map DocumentNode.id).Nodup) :
    Leads { documents := w.documents, nodes } w (nodes.foldl (fun u node => World.addNode node u) w) := by
  rw [documentNodes_foldl]
  exact ⟨rfl, by simp, Keyed.items_foldl_upsert_fresh fresh distinct, by simp, by simp, Nat.le_refl _⟩

end Filing

/-! ### How far a call came -/

/-- The pointer was moved to the new version. -/
def pointed {α : Type} : Except Raised α → Bool
  | .ok _ => true
  | .error e =>
    match e.site with
    | .documentUpdate => e.tookEffect
    | .decisionCreate | .publishDocumentChanged => true
    | _ => false

/-- The decisions of the artifact were created. -/
def decided {α : Type} : Except Raised α → Bool
  | .ok _ => true
  | .error e =>
    match e.site with
    | .decisionCreate => e.tookEffect
    | .publishDocumentChanged => true
    | _ => false

/-- The change of the document was published. -/
def announced {α : Type} : Except Raised α → Bool
  | .ok _ => true
  | .error e =>
    match e.site with
    | .publishDocumentChanged => e.tookEffect
    | _ => false

namespace DocumentIngestionService
variable (self : DocumentIngestionService)

def adrDecision (parsed : ParsedDocument) (artifact : SourceArtifact) (projectId : ProjectId) (id : Uuid) :
    Option Decision :=
  parsed.adrSections.map fun sections =>
    { id, projectId, title := strOr (parsed.title.getD "") artifact.sourceUri
      context := sections.context, decision := sections.decision, alternatives := sections.alternatives
      consequences := sections.consequences, status := parsed.adrStatus }

def decisionsOf (parsed : ParsedDocument) (artifact : SourceArtifact) (projectId : ProjectId) (id : Uuid) :
    List Decision :=
  if self.decisions then (adrDecision parsed artifact projectId id).toList else []

variable {self}
variable {o : Outside} {w t : World} {parsed : ParsedDocument} {artifact : SourceArtifact} {projectId : ProjectId}

theorem persistNodes_leads (versionId : DocumentVersionId)
    (fresh : ∀ node ∈ parsed.nodes, ∀ old ∈ w.documentNodes.items, old.id ≠ node.id)
    (distinct : (parsed.nodes.map ParsedNode.id).Nodup) :
    Meets o (persistNodes versionId parsed.nodes) w (byResult
      (fun _ t => Filing.Leads { documents := w.documents, nodes := parsed.nodes.map (documentNode versionId) } w t)
      (fun e t => e.site = .documentAddNode ∧ ∃ done, done <+: parsed.nodes ∧
        Filing.Leads { documents := w.documents, nodes := done.map (documentNode versionId) } w t)) := by
  have partly : ∀ done, done <+: parsed.nodes →
      Filing.Leads { documents := w.documents, nodes := done.map (documentNode versionId) } w
        (done.foldl (fun u node => World.addNode (documentNode versionId node) u) w) := by
    intro done early
    have written := @Filing.leads_addNodes w (done.map (documentNode versionId)) ?_ ?_
    · rwa [List.foldl_map] at written
    · intro node member old stored
      obtain ⟨node, listed, rfl⟩ := List.mem_map.mp member
      exact fresh node (early.subset listed) old stored
    · rw [List.map_map]
      exact (early.sublist.map ParsedNode.id).nodup distinct
  refine Meets.forEach_command.mono ?_
  intro r t ended
  cases r with
  | ok _ =>
    have all : t = _ := ended
    subst all
    exact partly _ (List.prefix_refl _)
  | error e =>
    obtain ⟨atSite, done, early, rfl⟩ := ended
    exact ⟨atSite, done, early, partly done early⟩

theorem createDecisions_leads (old : ∀ decision ∈ w.decisions.items, decision.id.Below w.nextUuid) :
    Meets o (self.createDecisions parsed artifact projectId) w (fun r t =>
      Filing.Leads { documents := w.documents
                     decisions := if decided r then self.decisionsOf parsed artifact projectId (.v4 w.nextUuid) else [] } w t ∧
        (∀ decision ∈ self.decisionsOf parsed artifact projectId (.v4 w.nextUuid), decision.id.Below t.nextUuid) ∧
        ∀ e, r = .error e → e.site = .decisionCreate) := by
  unfold createDecisions
  split
  · rename_i sections adr
    split
    · rename_i configured
      have created : self.decisionsOf parsed artifact projectId (.v4 w.nextUuid) =
          [{ id := .v4 w.nextUuid, projectId, title := strOr (parsed.title.getD "") artifact.sourceUri
             context := sections.context, decision := sections.decision, alternatives := sections.alternatives
             consequences := sections.consequences, status := parsed.adrStatus }] := by
        simp [decisionsOf, adrDecision, configured, adr]
      rw [created]
      refine Meets.seq _ (newUuid_id o w) ?_ (fun _ _ stopped => stopped.elim)
      rintro id t ⟨rfl, rfl⟩
      have drawn := @Filing.leads_of_drawn w _ ⟨w.nextUuid + 1, Nat.le_succ _, rfl⟩
      have below : (Uuid.v4 w.nextUuid).Below (w.nextUuid + 1) := Uuid.fresh_below _
      have fresh : ∀ d ∈ w.decisions.items, d.id ≠ .v4 w.nextUuid := fun d stored => (old d stored).ne_fresh
      have written : ∀ decision : Decision, decision.id = .v4 w.nextUuid →
          Filing.Leads { documents := w.documents, decisions := [decision] } w
            (World.putDecision decision { w with nextUuid := w.nextUuid + 1 }) :=
        fun decision isNew => drawn.trans (Filing.leads_putDecision (by rw [isNew]; exact fresh))
      refine Meets.bind (Meets.command ?_ ?_ ?_)
      · dsimp only [byResult]
        exact Meets.pure ⟨written _ rfl, by simpa [World.putDecision] using below, by simp⟩
      · exact fun _ _ => ⟨drawn, by simpa using below, by simp⟩
      · exact fun _ _ => ⟨written _ rfl, by simpa [World.putDecision] using below, by simp⟩
    · rename_i missing
      have none : self.decisionsOf parsed artifact projectId (.v4 w.nextUuid) = [] := by simp [decisionsOf, missing]
      exact Meets.pure ⟨by simpa [none] using Filing.leads_refl w, by simp [none], by simp⟩
  · rename_i plain
    have none : self.decisionsOf parsed artifact projectId (.v4 w.nextUuid) = [] := by
      simp [decisionsOf, adrDecision, plain]
    exact Meets.pure ⟨by simpa [none] using Filing.leads_refl w, by simp [none], by simp⟩

/-- `count` events that tell of the document were published. -/
def Tells (document : Document) (count : Nat) (events : List EventEnvelope) : Prop :=
  events.length = count ∧ ∀ event ∈ events, event.payload = .documentChanged document

theorem publishDocumentChanged_leads (document : Document) (source : String) :
    Meets o (publishDocumentChanged document source) w (fun r t => ∃ events,
      Tells document (announced r).toNat events ∧
      Filing.Leads { documents := w.documents, published := events } w t ∧
      ∀ e, r = .error e → e.site = .publishDocumentChanged) := by
  refine Meets.seq _ modelToEnvelope_drawn ?_ (fun _ _ stopped => stopped.elim)
  rintro event t ⟨drawn, _, payload⟩
  have before := Filing.leads_of_drawn drawn
  have after := before.trans (Filing.leads_publish event t)
  have told : Tells document 1 [event] := ⟨rfl, by simpa using payload⟩
  have untold : Tells document 0 [] := ⟨rfl, by simp⟩
  obtain ⟨next, later, rfl⟩ := drawn
  exact Meets.command ⟨[event], told, after, by simp⟩ (fun _ _ => ⟨[], untold, before, by simp⟩)
    (fun _ _ => ⟨[event], told, after, by simp⟩)

/-- The pointer of `document` was moved to a version made of `parsed`. -/
def Moved (self : DocumentIngestionService) (artifact : SourceArtifact) (parsed : ParsedDocument)
    (projectId : ProjectId) (document : Document) (version : DocumentVersion) (decided announced : Bool)
    (w t : World) : Prop :=
  ∃ decisionId created events,
    created = (if decided then self.decisionsOf parsed artifact projectId decisionId else []) ∧
    (∀ decision ∈ created, decision.id.Below t.nextUuid) ∧
    Tells document (self.eventBus && announced).toNat events ∧
    Filing.Leads { documents := w.documents.upsert document, versions := [version]
                   nodes := parsed.nodes.map (documentNode version.id), decisions := created, published := events } w t

/-- Some of the version and its nodes were stored, and no pointer moved. -/
def Begun (documents : Keyed Document.id) (parsed : ParsedDocument) (version : DocumentVersion) (w t : World) : Prop :=
  ∃ versions nodes, versions <+: [version] ∧ nodes <+: parsed.nodes ∧
    Filing.Leads { documents, versions, nodes := nodes.map (documentNode version.id) } w t

theorem update_moves {document : Document} {version : DocumentVersion} {source : String}
    {finish : List Decision → DocumentIngestionResult}
    (old : ∀ decision ∈ w.decisions.items, decision.id.Below w.nextUuid)
    (stored : Filing.Leads { documents := w.documents, versions := [version]
                             nodes := parsed.nodes.map (documentNode version.id) } w t) :
    Meets o (do
        command .documentUpdate (World.putDocument document)
        let decisions ← self.createDecisions parsed artifact projectId
        if self.eventBus then publishDocumentChanged document source
        pure (finish decisions)) t (fun r u => t.nextUuid ≤ u.nextUuid ∧
      if pointed r then self.Moved artifact parsed projectId document version (decided r) (announced r) w u
      else u = t) := by
  have put : Filing.Leads { documents := w.documents.upsert document, versions := [version]
                            nodes := parsed.nodes.map (documentNode version.id) } w (World.putDocument document t) := by
    have written := stored.trans (Filing.leads_putDocument document t)
    simpa [Filing.andThen, stored.documents] using written
  have old' : ∀ decision ∈ (World.putDocument document t).decisions.items,
      decision.id.Below (World.putDocument document t).nextUuid := by
    intro decision listed
    rw [put.decisions] at listed
    exact (old decision (by simpa using listed)).mono stored.nextUuid
  refine Meets.bind (Meets.command ?_ ?_ ?_)
  · dsimp only [byResult]
    refine Meets.seq _ (createDecisions_leads old') ?_ ?_
    · rintro decisions u ⟨written, below, _⟩
      have reached : Filing.Leads { documents := w.documents.upsert document, versions := [version]
                                    nodes := parsed.nodes.map (documentNode version.id)
                                    decisions := self.decisionsOf parsed artifact projectId (.v4 t.nextUuid) } w u := by
        simpa [Filing.andThen, stored.documents, decided, World.putDocument] using put.trans written
      have later : t.nextUuid ≤ u.nextUuid := written.nextUuid
      cases bus : self.eventBus with
      | false =>
        exact Meets.pure ⟨later, .v4 t.nextUuid, _, [], rfl, below, ⟨by simp [bus], by simp⟩, reached⟩
      | true =>
        refine Meets.seq _ (publishDocumentChanged_leads document source) ?_ ?_
        · rintro _ v ⟨events, told, published, _⟩
          refine Meets.pure ⟨Nat.le_trans later published.nextUuid, .v4 t.nextUuid, _, events, rfl, ?_, ?_, ?_⟩
          · exact fun decision created => (below decision created).mono published.nextUuid
          · simpa [bus, announced] using told
          · simpa [Filing.andThen, reached.documents, decided] using reached.trans published
        · rintro e v ⟨events, told, published, atSite⟩
          have atSite := atSite e rfl
          refine ⟨Nat.le_trans later published.nextUuid, ?_⟩
          rw [if_pos (by simp [pointed, atSite])]
          refine ⟨.v4 t.nextUuid, _, events, rfl, ?_, ?_, ?_⟩
          · simp only [decided, atSite, if_true]
            exact fun decision created => (below decision created).mono published.nextUuid
          · simpa [bus, announced, atSite] using told
          · simpa [Filing.andThen, reached.documents, decided, atSite] using reached.trans published
    · rintro e u ⟨written, below, atSite⟩
      have atSite := atSite e rfl
      refine ⟨written.nextUuid, ?_⟩
      rw [if_pos (by simp [pointed, atSite])]
      refine ⟨.v4 t.nextUuid, _, [], rfl, ?_, ⟨by simp [announced, atSite], by simp⟩, ?_⟩
      · intro decision created
        split at created
        · exact below decision created
        · simp at created
      · simpa [Filing.andThen, stored.documents, World.putDocument, decided, atSite] using put.trans written
  · exact fun _ _ => ⟨Nat.le_refl _, rfl⟩
  · intro exception _
    exact ⟨Nat.le_refl _, .v4 t.nextUuid, [], [], rfl, by simp, ⟨by simp [announced], by simp⟩, put⟩

theorem storeVersion_moves {docType : DocumentType} {repositoryId : Option RepositoryId} {commitSha : Option String}
    {document : Document} (curated : Curated w)
    (fresh : ∀ node ∈ parsed.nodes, ∀ old ∈ w.documentNodes.items, old.id ≠ node.id)
    (distinct : (parsed.nodes.map ParsedNode.id).Nodup) :
    Meets o (self.storeVersion artifact parsed docType projectId repositoryId commitSha document) w (fun r t =>
      ∃ version : DocumentVersion, version.id = .v4 w.nextUuid ∧ version.documentId = document.id ∧
        version.checksum = artifact.contentHash.getD "" ∧ w.nextUuid < t.nextUuid ∧
        if pointed r then
          self.Moved artifact parsed projectId { document with currentVersionId := some version.id, type := docType }
            version (decided r) (announced r) w t
        else Begun w.documents parsed version w t) := by
  refine Meets.seq _ (newUuid_id o w) ?_ (fun _ _ stopped => stopped.elim)
  rintro id t ⟨rfl, rfl⟩
  have clock : Returns o now { w with nextUuid := w.nextUuid + 1 } (fun _ t => t = { w with nextUuid := w.nextUuid + 1 }) :=
    Meets.now fun _ => rfl
  refine Meets.seq _ clock ?_ (fun _ _ stopped => stopped.elim)
  rintro ingestedAt t rfl
  let version : DocumentVersion :=
    { id := .v4 w.nextUuid, documentId := document.id, sourceVersion := artifact.revision
      repositoryId, commitSha, checksum := artifact.contentHash.getD "", ingestedAt
      contentUri := artifact.rawBytesRef }
  have drawn := @Filing.leads_of_drawn w _ ⟨w.nextUuid + 1, Nat.le_succ _, rfl⟩
  have unused : ∀ old ∈ w.documentVersions.items, old.id ≠ version.id :=
    fun old stored => (curated.versionIds old stored).ne_fresh
  have added := drawn.trans (Filing.leads_addVersion (w := { w with nextUuid := w.nextUuid + 1 }) unused)
  refine Meets.bind (Meets.command ?_ ?_ ?_)
  rotate_left
  · exact fun _ _ => ⟨version, rfl, rfl, rfl, Nat.lt_succ_self _, [], [], List.nil_prefix, List.nil_prefix, drawn⟩
  · exact fun _ _ => ⟨version, rfl, rfl, rfl, Nat.lt_succ_self _, [version], [], List.prefix_refl _, List.nil_prefix,
      added⟩
  dsimp only [byResult]
  refine Meets.seq _ (persistNodes_leads (w := World.addVersion version { w with nextUuid := w.nextUuid + 1 })
    version.id fresh distinct) ?_ ?_
  rotate_left
  · rintro e t ⟨atSite, done, early, written⟩
    have before : pointed (.error e : Except Raised DocumentIngestionResult) = false := by simp [pointed, atSite]
    refine ⟨version, rfl, rfl, rfl, Nat.lt_of_lt_of_le (Nat.lt_succ_self _) written.nextUuid, ?_⟩
    rw [if_neg (by simp [before])]
    exact ⟨[version], done, List.prefix_refl _, early, added.trans written⟩
  intro _ t written
  have stored := added.trans written
  refine (update_moves curated.decisionIds stored).mono ?_
  rintro r u ⟨later, ended⟩
  refine ⟨version, rfl, rfl, rfl, Nat.lt_of_lt_of_le (Nat.lt_succ_self _) (Nat.le_trans written.nextUuid later), ?_⟩
  split
  · rename_i moved
    rwa [if_pos moved] at ended
  · rename_i still
    rw [if_neg still] at ended
    exact ⟨[version], parsed.nodes, List.prefix_refl _, List.prefix_refl _, ended ▸ stored⟩

end DocumentIngestionService

end Brain
