import Brain.Documents.Steps

namespace Brain
open Calls

/-- The ids drawn while the counter went from `m` to `n`. -/
def Uuid.Between (m n : Nat) (id : Uuid) : Prop := ∃ j, m ≤ j ∧ j < n ∧ id = .v4 j

namespace Uuid
variable {m n : Nat} {id old : Uuid}

theorem Between.below (between : id.Between m n) : id.Below n := by
  obtain ⟨j, _, less, rfl⟩ := between
  exact less

theorem Between.ne_old (between : id.Between m n) (below : old.Below m) : old ≠ id := by
  obtain ⟨j, le, _, rfl⟩ := between
  exact (below.mono le).ne_fresh

theorem Between.mono {m' n' : Nat} (between : id.Between m n) (low : m' ≤ m) (high : n ≤ n') : id.Between m' n' := by
  obtain ⟨j, le, less, rfl⟩ := between
  exact ⟨j, Nat.le_trans low le, Nat.lt_of_lt_of_le less high, rfl⟩

theorem fresh_between {k : Nat} (low : m ≤ k) (high : k < n) : (Uuid.v4 k).Between m n := ⟨k, low, high, rfl⟩

end Uuid

section Tables
variable {w : World} {key : ProjectId × String} {document : Document}

theorem documentOf_eq_none : w.documentOf key = none ↔ ∀ d ∈ w.documents.items, d.sourceKey ≠ key := by
  obtain ⟨projectId, uri⟩ := key
  simp [World.documentOf, World.findDocumentBySource, Document.sourceKey]

theorem documentOf_mem (found : w.documentOf key = some document) :
    document ∈ w.documents.items ∧ document.sourceKey = key := by
  obtain ⟨projectId, uri⟩ := key
  have passes := List.find?_some found
  simp only [Bool.and_eq_true, decide_eq_true_eq] at passes
  exact ⟨List.mem_of_find?_eq_some found, Prod.ext passes.1 passes.2⟩

theorem documentOf_eq_some (oneEach : (w.documents.items.map Document.sourceKey).Nodup) :
    w.documentOf key = some document ↔ document ∈ w.documents.items ∧ document.sourceKey = key := by
  refine ⟨documentOf_mem, ?_⟩
  rintro ⟨listed, isKey⟩
  cases found : w.documentOf key with
  | none => exact absurd isKey (documentOf_eq_none.mp found document listed)
  | some other =>
    obtain ⟨listed', isKey'⟩ := documentOf_mem found
    have same := List.inj_on_of_nodup_map oneEach listed' listed (isKey'.trans isKey.symm)
    rw [same]

/-- The document of the source in `w`, or a new one when it has none. -/
def Continues (w : World) (next : Nat) (document : Document) : Prop :=
  (∃ old, w.documentOf document.sourceKey = some old ∧ old.id = document.id) ∨
    (w.documentOf document.sourceKey = none ∧ document.id.Between w.nextUuid next)

namespace Continues
variable {next : Nat} (curated : Curated w) (continues : Continues w next document)
include curated continues

theorem sources : (w.documents.upsert document).items.map (fun d => (d.sourceKey, d.id)) =
      w.documents.items.map (fun d => (d.sourceKey, d.id)) ∧ document.sourceKey ∈ w.documents.items.map Document.sourceKey ∨
    (w.documents.upsert document).items = w.documents.items ++ [document] ∧
      document.sourceKey ∉ w.documents.items.map Document.sourceKey := by
  rcases continues with ⟨old, found, sameId⟩ | ⟨absent, new⟩
  · obtain ⟨stored, isKey⟩ := documentOf_mem found
    refine Or.inl ⟨Keyed.map_upsert _ stored sameId (by rw [isKey, sameId]), ?_⟩
    exact List.mem_map.mpr ⟨old, stored, isKey⟩
  · refine Or.inr ⟨Keyed.items_upsert_fresh fun d listed => new.ne_old (curated.documentIds d listed), ?_⟩
    intro listed
    obtain ⟨d, stored, isKey⟩ := List.mem_map.mp listed
    exact documentOf_eq_none.mp absent d stored isKey

theorem oneEach : ((w.documents.upsert document).items.map Document.sourceKey).Nodup := by
  rcases continues.sources curated with ⟨same, _⟩ | ⟨appended, fresh⟩
  · have keys := congrArg (List.map Prod.fst) same
    simp only [List.map_map, Function.comp_def] at keys
    exact keys ▸ curated.oneEach
  · rw [appended, List.map_append, List.map_cons, List.map_nil]
    exact List.Nodup.append curated.oneEach (List.nodup_singleton _) (by simpa using fresh)

theorem documentOf_self {t : World} (table : t.documents = w.documents.upsert document) :
    t.documentOf document.sourceKey = some document := by
  have oneEach := continues.oneEach curated
  rw [← table] at oneEach
  rw [documentOf_eq_some oneEach, table]
  exact ⟨Keyed.mem_upsert_self _ _, rfl⟩

theorem documentOf_other {t : World} (table : t.documents = w.documents.upsert document)
    (other : key ≠ document.sourceKey) : t.documentOf key = w.documentOf key := by
  have oneEach := continues.oneEach curated
  rw [← table] at oneEach
  have kept : ∀ d ∈ w.documents.items, d.sourceKey = key → d.id ≠ document.id := by
    intro d listed isKey sameId
    rcases continues with ⟨old, found, oldId⟩ | ⟨_, new⟩
    · obtain ⟨stored, oldKey⟩ := documentOf_mem found
      rw [w.documents.key_injective listed stored (sameId.trans oldId.symm)] at isKey
      exact other (isKey.symm.trans oldKey)
    · exact new.ne_old (curated.documentIds d listed) sameId
  apply Option.ext
  intro d
  rw [documentOf_eq_some oneEach, documentOf_eq_some curated.oneEach, table, Keyed.mem_upsert]
  constructor
  · rintro ⟨rfl | ⟨listed, _⟩, isKey⟩
    · exact absurd isKey.symm other
    · exact ⟨listed, isKey⟩
  · rintro ⟨listed, isKey⟩
    exact ⟨Or.inr ⟨listed, kept d listed isKey⟩, isKey⟩

end Continues
end Tables

section Outcome
variable {w t : World} {filing : Filing}

theorem Curated.leads (curated : Curated w) (leads : filing.Leads w t)
    (versions : ∀ version ∈ filing.versions, version.id.Below t.nextUuid)
    (nodes : ∀ node ∈ filing.nodes, node.id.Below t.nextUuid ∧ node.versionId.Below t.nextUuid)
    (decisions : ∀ decision ∈ filing.decisions, decision.id.Below t.nextUuid)
    (documents : ∀ document ∈ filing.documents.items, document.id.Below t.nextUuid)
    (oneEach : (filing.documents.items.map Document.sourceKey).Nodup)
    (pointers : ∀ document ∈ filing.documents.items, ∀ id, document.currentVersionId = some id →
      ∃ version ∈ w.documentVersions.items ++ filing.versions, version.id = id ∧ version.documentId = document.id) :
    Curated t := by
  have later := leads.nextUuid
  constructor
  · rwa [leads.documents]
  · intro version stored
    rw [leads.versions, List.mem_append] at stored
    exact stored.elim (fun old => (curated.versionIds version old).mono later) (versions version)
  · intro node stored
    rw [leads.nodes, List.mem_append] at stored
    exact stored.elim (fun old => (curated.nodeIds node old).mono later) (fun new => (nodes node new).1)
  · intro node stored
    rw [leads.nodes, List.mem_append] at stored
    exact stored.elim (fun old => (curated.nodeVersions node old).mono later) (fun new => (nodes node new).2)
  · intro decision stored
    rw [leads.decisions, List.mem_append] at stored
    exact stored.elim (fun old => (curated.decisionIds decision old).mono later) (decisions decision)
  · rwa [leads.documents]
  · rwa [leads.documents, leads.versions]

theorem Curated.drawn (curated : Curated w) (leads : Filing.Leads { documents := w.documents } w t) : Curated t := by
  refine curated.leads leads (by simp) (by simp) (by simp) ?_ curated.oneEach ?_
  · exact fun document stored => (curated.documentIds document stored).mono leads.nextUuid
  · simpa using curated.pointers

variable {key : ProjectId × String}

theorem Curated.currentVersionOf_same (curated : Curated w) (found : t.documentOf key = w.documentOf key)
    (kept : w.documentVersions.items ⊆ t.documentVersions.items) :
    t.currentVersionOf key = w.currentVersionOf key := by
  simp only [World.currentVersionOf, found]
  cases found' : w.documentOf key with
  | none => rfl
  | some d =>
    cases pointer : d.currentVersionId with
    | none => simp [pointer]
    | some id =>
      obtain ⟨v, stored, isId, _⟩ := curated.pointers d (documentOf_mem found').1 id pointer
      have before : w.documentVersions.get id = some v := Keyed.get_eq_some.mpr ⟨stored, isId⟩
      have after : t.documentVersions.get id = some v := Keyed.get_eq_some.mpr ⟨kept stored, isId⟩
      simp [pointer, before, after]

/-- The document table at the end of a call that moved no pointer. -/
def Table (key : ProjectId × String) (w t : World) : Prop :=
  t.documents = w.documents ∨ ∃ document, document.sourceKey = key ∧ document.currentVersionId = none ∧
    w.documentOf key = none ∧ document.id.Between w.nextUuid t.nextUuid ∧ t.documents = w.documents.upsert document

theorem Table.earlier {next : Nat} (table : Table key { w with nextUuid := next } t)
    (later : w.nextUuid ≤ next) : Table key w t := by
  rcases table with same | ⟨document, isKey, unset, absent, new, put⟩
  · exact Or.inl same
  · exact Or.inr ⟨document, isKey, unset, absent, new.mono later (Nat.le_refl _), put⟩

/-- No pointer moved, and what the call stored has ids of its own. -/
def Behind (key : ProjectId × String) (w t : World) : Prop :=
  ∃ versions nodes, (∀ version ∈ versions, version.id.Between w.nextUuid t.nextUuid) ∧
    (∀ node ∈ nodes, node.id.Between w.nextUuid t.nextUuid ∧ node.versionId.Between w.nextUuid t.nextUuid) ∧
    Table key w t ∧ Filing.Leads { documents := t.documents, versions, nodes } w t

theorem Curated.documents_upsert (curated : Curated w) {document : Document} (continues : Continues w t.nextUuid document)
    (later : w.nextUuid ≤ t.nextUuid) :
    (∀ d ∈ (w.documents.upsert document).items, d.id.Below t.nextUuid) ∧
      ((w.documents.upsert document).items.map Document.sourceKey).Nodup := by
  refine ⟨?_, continues.oneEach curated⟩
  intro d listed
  rcases Keyed.mem_upsert.mp listed with rfl | ⟨old, _⟩
  · rcases continues with ⟨old, found, sameId⟩ | ⟨_, new⟩
    · exact sameId ▸ (curated.documentIds old (documentOf_mem found).1).mono later
    · exact new.below
  · exact (curated.documentIds d old).mono later

theorem Curated.behind (curated : Curated w) (behind : Behind key w t) : Curated t := by
  obtain ⟨versions, nodes, versionIds, nodeIds, table, leads⟩ := behind
  have versions' := fun version listed => (versionIds version listed).below
  have nodes' := fun node listed => And.intro (nodeIds node listed).1.below (nodeIds node listed).2.below
  have pointers : ∀ d ∈ w.documents.items, ∀ id, d.currentVersionId = some id →
      ∃ version ∈ w.documentVersions.items ++ versions, version.id = id ∧ version.documentId = d.id := by
    intro d stored id pointer
    obtain ⟨version, found, ofDocument⟩ := curated.pointers d stored id pointer
    exact ⟨version, List.mem_append_left _ found, ofDocument⟩
  rcases table with same | ⟨document, isKey, unset, absent, new, put⟩
  · refine curated.leads leads versions' nodes' (by simp) ?_ ?_ ?_
    · rw [same]
      exact fun d stored => (curated.documentIds d stored).mono leads.nextUuid
    · exact same ▸ curated.oneEach
    · rwa [same]
  · have continues : Continues w t.nextUuid document := Or.inr ⟨isKey ▸ absent, new⟩
    obtain ⟨ids, oneEach⟩ := curated.documents_upsert continues leads.nextUuid
    refine curated.leads leads versions' nodes' (by simp) ?_ ?_ ?_
    · rwa [put]
    · rwa [put]
    · rw [put]
      intro d listed id pointer
      rcases Keyed.mem_upsert.mp listed with rfl | ⟨old, _⟩
      · rw [unset] at pointer
        cases pointer
      · exact pointers d old id pointer

end Outcome

namespace DocumentIngestionService
variable {self : DocumentIngestionService} {call : IngestCall} {o : Outside} {w t : World}

variable (self) in
def perform (call : IngestCall) : Prog DocumentIngestionResult :=
  self.ingest call.artifact call.projectId call.documentType call.repositoryId call.commitSha

variable (self) in
/-- The hash `ingest` compares with the checksum of the current version. -/
def hashOf (artifact : SourceArtifact) : String := artifact.contentHash.getD (self.contentHash artifact)

variable (self) in
def hashed (artifact : SourceArtifact) : SourceArtifact :=
  { artifact with contentHash := some (self.hashOf artifact) }

variable (self) in
/-- The parse of the artifact when the counter for ids is at `n`. -/
def parseAt (call : IngestCall) (n : Nat) : ParsedDocument :=
  (self.parse (self.hashed call.artifact) n).1

/-- Every parser numbers the nodes it makes with ids it draws. -/
structure Parses (service : DocumentIngestionService) : Prop where
  drawn : ∀ artifact n, ∀ node ∈ (service.parse artifact n).1.nodes, node.id.Between n (n + (service.parse artifact n).2)
  distinct : ∀ artifact n, ((service.parse artifact n).1.nodes.map ParsedNode.id).Nodup

theorem findOrCreateDocument_finds {artifact : SourceArtifact} {parsed : ParsedDocument} {docType : DocumentType}
    {projectId : ProjectId} (curated : Curated w) :
    Meets o (findOrCreateDocument artifact parsed docType projectId) w (fun r t =>
      Table (projectId, artifact.sourceUri) w t ∧ Filing.Leads { documents := t.documents } w t ∧
        match r with
        | .ok (document, current) =>
          document.sourceKey = (projectId, artifact.sourceUri) ∧ Continues w t.nextUuid document ∧
            t.documentOf (projectId, artifact.sourceUri) = some document ∧
            current = w.currentVersionOf (projectId, artifact.sourceUri)
        | .error e => pointed (.error e : Except Raised Unit) = false) := by
  have unchanged : Table (projectId, artifact.sourceUri) w w ∧ Filing.Leads { documents := w.documents } w w :=
    ⟨Or.inl rfl, Filing.leads_refl w⟩
  refine Meets.bind (Meets.query ?_ ?_)
  rotate_left
  · exact fun _ _ _ => ⟨unchanged.1, unchanged.2, rfl⟩
  dsimp only [byResult]
  cases found : w.documentOf (projectId, artifact.sourceUri) with
  | some document =>
    have found' : w.findDocumentBySource projectId artifact.sourceUri = some document := found
    have isKey := (documentOf_mem found).2
    have continues : Continues w w.nextUuid document := Or.inl ⟨document, isKey ▸ found, rfl⟩
    rw [found']
    dsimp only
    cases pointer : document.currentVersionId with
    | none =>
      exact Meets.pure ⟨unchanged.1, unchanged.2, isKey, continues, found, by simp [World.currentVersionOf, found, pointer]⟩
    | some id =>
      refine Meets.bind (Meets.query ?_ ?_)
      · dsimp only [byResult]
        exact Meets.pure
          ⟨unchanged.1, unchanged.2, isKey, continues, found, by simp [World.currentVersionOf, found, pointer]⟩
      · exact fun _ _ _ => ⟨unchanged.1, unchanged.2, rfl⟩
  | none =>
    have found' : w.findDocumentBySource projectId artifact.sourceUri = none := found
    rw [found']
    dsimp only
    refine Meets.seq _ (newUuid_id o w) ?_ (fun _ _ stopped => stopped.elim)
    rintro id t ⟨rfl, rfl⟩
    have drawn := @Filing.leads_of_drawn w _ ⟨w.nextUuid + 1, Nat.le_succ _, rfl⟩
    let document : Document :=
      { id := .v4 w.nextUuid, projectId, type := docType, title := strOr (parsed.title.getD "") (defaultTitle artifact)
        source := { provider := artifact.provider, uri := artifact.sourceUri, mimeType := artifact.mimeType } }
    have new : document.id.Between w.nextUuid (w.nextUuid + 1) := Uuid.fresh_between (Nat.le_refl _) (Nat.lt_succ_self _)
    have put := drawn.trans (Filing.leads_putDocument document { w with nextUuid := w.nextUuid + 1 })
    have continues : Continues w (w.nextUuid + 1) document := Or.inr ⟨found, new⟩
    have table : Table (projectId, artifact.sourceUri) w (World.putDocument document { w with nextUuid := w.nextUuid + 1 }) :=
      Or.inr ⟨document, rfl, rfl, found, new, rfl⟩
    refine Meets.bind (Meets.command ?_ ?_ ?_)
    · dsimp only [byResult]
      refine Meets.pure ⟨table, put, rfl, continues, ?_, by simp [World.currentVersionOf, found]⟩
      exact continues.documentOf_self curated rfl
    · exact fun _ _ => ⟨Or.inl rfl, drawn, rfl⟩
    · exact fun _ _ => ⟨table, put, rfl⟩

/-- The checksum of the current version of a source. -/
def checksumOf (w : World) (key : ProjectId × String) : Option String :=
  (w.currentVersionOf key).map DocumentVersion.checksum

structure Advanced (service : DocumentIngestionService) (call : IngestCall) (didDecide didAnnounce : Bool)
    (w t : World) (document : Document) (version : DocumentVersion) : Prop where
  isKey : document.sourceKey = call.sourceKey
  continues : Continues w t.nextUuid document
  pointer : document.currentVersionId = some version.id
  owner : version.documentId = document.id
  checksum : version.checksum = service.hashOf call.artifact
  versionId : version.id.Between w.nextUuid t.nextUuid
  nodeIds : ∀ node ∈ (service.parseAt call w.nextUuid).nodes, node.id.Between w.nextUuid t.nextUuid
  moved : service.Moved (service.hashed call.artifact)
    (service.parseAt call w.nextUuid) call.projectId document version didDecide didAnnounce w t

variable (self call) in
/-- How a call of `ingest` ends. -/
def Outcome (r : Except Raised DocumentIngestionResult) (w t : World) : Prop :=
  if checksumOf w call.sourceKey = some (self.hashOf call.artifact) then
    Filing.Leads { documents := w.documents } w t
  else if pointed r then ∃ document version, self.Advanced call (decided r) (announced r) w t document version
  else Behind call.sourceKey w t

theorem outcome_storeVersion {document : Document} {docType : DocumentType} {t u : World}
    {r : Except Raised DocumentIngestionResult} {n : Nat} {version : DocumentVersion} (curated : Curated w)
    (nodeIds : ∀ node ∈ (self.parseAt call w.nextUuid).nodes, node.id.Between w.nextUuid n)
    (table : Table call.sourceKey w t) (leads : Filing.Leads { documents := t.documents } w t) (drawn : n ≤ t.nextUuid)
    (isKey : document.sourceKey = call.sourceKey) (continues : Continues w t.nextUuid document)
    (found : t.documentOf call.sourceKey = some document) (isId : version.id = .v4 t.nextUuid)
    (owner : version.documentId = document.id) (checksum : version.checksum = self.hashOf call.artifact)
    (later : t.nextUuid < u.nextUuid)
    (ended : if pointed r then self.Moved (self.hashed call.artifact)
        (self.parseAt call w.nextUuid) call.projectId
        { document with currentVersionId := some version.id, type := docType } version (decided r) (announced r) t u
      else Begun t.documents (self.parseAt call w.nextUuid) version t u) :
    if pointed r then ∃ document version, self.Advanced call (decided r) (announced r) w u document version
    else Behind call.sourceKey w u := by
  have atStart := leads.nextUuid
  have versionId : version.id.Between w.nextUuid u.nextUuid := isId ▸ Uuid.fresh_between atStart later
  have nodeIds' : ∀ node ∈ (self.parseAt call w.nextUuid).nodes, node.id.Between w.nextUuid u.nextUuid :=
    fun node listed => (nodeIds node listed).mono (Nat.le_refl _) (by omega)
  split at ended
  · rename_i advanced
    rw [if_pos advanced]
    obtain ⟨decisionId, created, events, isCreated, below, told, written⟩ := ended
    refine ⟨{ document with currentVersionId := some version.id, type := docType }, version, isKey, ?_, rfl, owner,
      checksum, versionId, nodeIds', decisionId, created, events, isCreated, below, told, ?_⟩
    · rcases continues with old | ⟨absent, new⟩
      · exact Or.inl old
      · exact Or.inr ⟨absent, new.mono (Nat.le_refl _) (by omega)⟩
    · have tables : t.documents.upsert { document with currentVersionId := some version.id, type := docType } =
          w.documents.upsert { document with currentVersionId := some version.id, type := docType } := by
        rcases table with same | ⟨first, firstKey, _, absent, new, put⟩
        · rw [same]
        · have continues' : Continues w t.nextUuid first := Or.inr ⟨firstKey ▸ absent, new⟩
          have isFirst := continues'.documentOf_self curated put
          rw [firstKey, found] at isFirst
          rw [put, ← Option.some.inj isFirst]
          exact Keyed.upsert_upsert rfl
      have whole := leads.trans written
      simpa [Filing.andThen, tables] using whole
  · rename_i behind
    rw [if_neg behind]
    obtain ⟨versions, nodes, fromVersion, fromNodes, written⟩ := ended
    have whole := leads.trans written
    refine ⟨versions, nodes.map (documentNode version.id), ?_, ?_, ?_, ?_⟩
    · intro v listed
      rw [List.mem_singleton.mp (fromVersion.subset listed)]
      exact versionId
    · intro node listed
      obtain ⟨parsed, inNodes, rfl⟩ := List.mem_map.mp listed
      exact ⟨nodeIds' parsed (fromNodes.subset inNodes), versionId⟩
    · rcases table with same | ⟨first, firstKey, unset, absent, new, put⟩
      · exact Or.inl (written.documents.trans same)
      · exact Or.inr ⟨first, firstKey, unset, absent, new.mono (Nat.le_refl _) (by omega), written.documents.trans put⟩
    · simpa [Filing.andThen, written.documents] using whole

theorem outcome_of_table {r : Except Raised DocumentIngestionResult} (table : Table call.sourceKey w t)
    (leads : Filing.Leads { documents := t.documents } w t) (early : pointed r = false) : self.Outcome call r w t := by
  unfold Outcome
  split
  · rename_i upToDate
    rcases table with same | ⟨document, _, _, absent, _, _⟩
    · rwa [same] at leads
    · simp [checksumOf, World.currentVersionOf, absent] at upToDate
  · rw [if_neg (by simp [early])]
    exact ⟨[], [], by simp, by simp, table, leads⟩

theorem runParser_draws (artifact : SourceArtifact) :
    Meets o (self.runParser artifact) w (fun r t => Drawn w t ∧
      match r with
      | .ok parsed => parsed = (self.parse artifact w.nextUuid).1 ∧
          t.nextUuid = w.nextUuid + (self.parse artifact w.nextUuid).2
      | .error e => pointed (.error e : Except Raised Unit) = false) := by
  have drawn : Drawn w { w with nextUuid := w.nextUuid + (self.parse artifact w.nextUuid).2 } :=
    ⟨_, Nat.le_add_right _ _, rfl⟩
  refine Meets.call ⟨drawn, rfl, rfl⟩ ?_
  intro tookEffect exception _
  cases tookEffect with
  | false => exact ⟨⟨w.nextUuid, Nat.le_refl _, rfl⟩, rfl⟩
  | true => exact ⟨drawn, rfl⟩

theorem perform_outcome (curated : Curated w) (parses : self.Parses) :
    Meets o (self.perform call) w (self.Outcome call · w) := by
  refine Meets.seq _ (runParser_draws (self.hashed call.artifact)) ?_ ?_
  rotate_left
  · rintro e t ⟨drawn, early⟩
    have leads := Filing.leads_of_drawn drawn
    exact outcome_of_table (Or.inl leads.documents) (leads.documents ▸ leads) early
  rintro parsed t ⟨⟨next, later, rfl⟩, rfl, ids⟩
  have drawn := Filing.leads_of_drawn (w := w) ⟨next, later, rfl⟩
  refine Meets.seq _ (findOrCreateDocument_finds (curated.drawn drawn)) ?_ ?_
  rotate_left
  · rintro e u ⟨table, leads, early⟩
    exact outcome_of_table (table.earlier later) (drawn.trans leads) early
  rintro ⟨document, current⟩ u ⟨table, leads, isKey, continues, found, isCurrent⟩
  have table := table.earlier later
  have nextUuid : next ≤ u.nextUuid := leads.nextUuid
  have leads : Filing.Leads { documents := u.documents } w u := drawn.trans leads
  have continues : Continues w u.nextUuid document := by
    rcases continues with old | ⟨absent, new⟩
    · exact Or.inl old
    · exact Or.inr ⟨absent, new.mono later (Nat.le_refl _)⟩
  have nodeIds : ∀ node ∈ (self.parseAt call w.nextUuid).nodes, node.id.Between w.nextUuid next := by
    have ids : next = w.nextUuid + (self.parse (self.hashed call.artifact) w.nextUuid).2 := ids
    rw [ids]
    exact parses.drawn (self.hashed call.artifact) w.nextUuid
  have stores : ∀ {P : Except Raised DocumentIngestionResult → World → Prop},
      (∀ r t, (if pointed r then ∃ document version, self.Advanced call (decided r) (announced r) w t document version
        else Behind call.sourceKey w t) → P r t) →
      Meets o (self.storeVersion (self.hashed call.artifact) (self.parseAt call w.nextUuid)
        (call.documentType.getD (self.parseAt call w.nextUuid).documentType) call.projectId call.repositoryId
        call.commitSha document) u P := by
    intro P done
    have stored := curated.behind ⟨[], [], by simp, by simp, table, leads⟩
    have fresh : ∀ node ∈ (self.parseAt call w.nextUuid).nodes, ∀ old ∈ u.documentNodes.items, old.id ≠ node.id := by
      intro node listed old inStore
      rw [leads.nodes, List.append_nil] at inStore
      exact (nodeIds node listed).ne_old (curated.nodeIds old inStore)
    refine (storeVersion_moves stored fresh (parses.distinct _ _)).mono ?_
    rintro r t ⟨version, isId, owner, checksum, more, ended⟩
    exact done r t (outcome_storeVersion curated nodeIds table leads nextUuid isKey continues found isId owner checksum
      more ended)
  cases current with
  | none =>
    refine stores fun r t ended => ?_
    have isCurrent : w.currentVersionOf call.sourceKey = none := isCurrent.symm
    simpa [Outcome, checksumOf, isCurrent] using ended
  | some version =>
    have isCurrent : w.currentVersionOf call.sourceKey = some version := isCurrent.symm
    dsimp only
    split
    · rename_i equal
      have same : version.checksum = self.hashOf call.artifact := Option.some.inj equal
      have upToDate : ∀ r, self.Outcome call r w u := by
        have unchanged : u.documents = w.documents := by
          rcases table with unchanged | ⟨_, _, _, absent, _, _⟩
          · exact unchanged
          · have absent : w.documentOf call.sourceKey = none := absent
            simp [World.currentVersionOf, absent] at isCurrent
        intro r
        unfold Outcome
        rw [if_pos (by simp [checksumOf, isCurrent, same])]
        exact unchanged ▸ leads
      refine Meets.bind (Meets.query ?_ fun _ _ _ => upToDate _)
      dsimp only [byResult]
      exact Meets.pure (upToDate _)
    · rename_i differ
      have differ : version.checksum ≠ self.hashOf call.artifact := fun same => differ (congrArg some same)
      refine stores fun r t ended => ?_
      simpa [Outcome, checksumOf, isCurrent, differ] using ended

namespace Advanced
variable {didDecide didAnnounce : Bool} {document : Document} {version : DocumentVersion} {key : ProjectId × String}
  (advanced : self.Advanced call didDecide didAnnounce w t document version) (curated : Curated w)
include advanced

theorem leads : ∃ decisions published, Filing.Leads
    { documents := w.documents.upsert document, versions := [version]
      nodes := (self.parseAt call w.nextUuid).nodes.map (documentNode version.id), decisions, published } w t := by
  obtain ⟨_, created, events, _, _, _, leads⟩ := advanced.moved
  exact ⟨created, events, leads⟩

theorem documents : t.documents = w.documents.upsert document := by
  obtain ⟨_, _, leads⟩ := advanced.leads
  exact leads.documents

theorem versions : t.documentVersions.items = w.documentVersions.items ++ [version] := by
  obtain ⟨_, _, leads⟩ := advanced.leads
  exact leads.versions

theorem nodes : t.documentNodes.items =
    w.documentNodes.items ++ (self.parseAt call w.nextUuid).nodes.map (documentNode version.id) := by
  obtain ⟨_, _, leads⟩ := advanced.leads
  exact leads.nodes

include curated

theorem curated_after : Curated t := by
  obtain ⟨decisionId, created, events, isCreated, below, _, leads⟩ := advanced.moved
  obtain ⟨ids, oneEach⟩ := curated.documents_upsert advanced.continues leads.nextUuid
  refine curated.leads leads ?_ ?_ below ids oneEach ?_
  · simpa using advanced.versionId.below
  · intro node listed
    obtain ⟨parsed, inParse, rfl⟩ := List.mem_map.mp listed
    exact ⟨(advanced.nodeIds parsed inParse).below, advanced.versionId.below⟩
  · intro d listed id pointer
    rcases Keyed.mem_upsert.mp listed with rfl | ⟨old, _⟩
    · rw [advanced.pointer] at pointer
      exact ⟨version, List.mem_append_right _ (List.mem_singleton.mpr rfl), Option.some.inj pointer, advanced.owner⟩
    · obtain ⟨v, stored, isPointed⟩ := curated.pointers d old id pointer
      exact ⟨v, List.mem_append_left _ stored, isPointed⟩

theorem documentOf_self : t.documentOf call.sourceKey = some document := by
  rw [← advanced.isKey]
  exact advanced.continues.documentOf_self curated advanced.documents

theorem currentVersionOf_self : t.currentVersionOf call.sourceKey = some version := by
  simp only [World.currentVersionOf, advanced.documentOf_self curated, advanced.pointer, Option.bind_some]
  rw [Keyed.get_eq_some, advanced.versions]
  exact ⟨List.mem_append_right _ (List.mem_singleton.mpr rfl), rfl⟩

theorem listNodes_self :
    t.listNodes version.id = (self.parseAt call w.nextUuid).nodes.map (documentNode version.id) := by
  unfold World.listNodes
  rw [advanced.nodes, List.filter_append, List.filter_eq_nil_iff.mpr ?_, List.filter_eq_self.mpr ?_, List.nil_append]
  · intro node listed
    obtain ⟨parsed, _, rfl⟩ := List.mem_map.mp listed
    simp [documentNode]
  · intro node stored
    simpa using advanced.versionId.ne_old (curated.nodeVersions node stored)

omit curated in
theorem listNodes_old {id : DocumentVersionId} (old : id.Below w.nextUuid) : t.listNodes id = w.listNodes id := by
  have none : ((self.parseAt call w.nextUuid).nodes.map (documentNode version.id)).filter (·.versionId = id) = [] := by
    rw [List.filter_eq_nil_iff]
    intro node listed
    obtain ⟨parsed, _, rfl⟩ := List.mem_map.mp listed
    have differ := (advanced.versionId.ne_old old).symm
    simp [documentNode, differ]
  unfold World.listNodes
  rw [advanced.nodes, List.filter_append, none, List.append_nil]

theorem currentVersionOf_other (other : key ≠ call.sourceKey) : t.currentVersionOf key = w.currentVersionOf key := by
  have same : t.documentOf key = w.documentOf key :=
    advanced.continues.documentOf_other curated advanced.documents (advanced.isKey ▸ other)
  refine curated.currentVersionOf_same same ?_
  rw [advanced.versions]
  exact List.subset_append_left _ _

end Advanced

theorem Outcome.curated {r : Except Raised DocumentIngestionResult} (outcome : self.Outcome call r w t)
    (curated : Curated w) : Curated t := by
  unfold Outcome at outcome
  split at outcome
  · exact curated.drawn outcome
  · split at outcome
    · obtain ⟨document, version, advanced⟩ := outcome
      exact advanced.curated_after curated
    · exact curated.behind outcome

end DocumentIngestionService

end Brain
