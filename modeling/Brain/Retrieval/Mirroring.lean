import Brain.Application.SemanticIndexing
import Brain.Documents.History

namespace Brain
open SemanticIndexingService

/-- What changes canonical state or the index. The code graph is rebuilt by other
services: whatever it then holds. -/
inductive CanonicalChange
  | ingest (call : IngestCall) (clock : Nat → Nat)
  | putRequirement (requirement : Requirement)
  | createDecision (decision : Decision)
  | updateDecision (decision : Decision)
  | rebuildCode (graph : InMemoryCodeGraph)
  | index (request : IndexRequest)

/-- A decision is created under a drawn id, and updated when it is stored. -/
def DocumentIngestionService.change (service : DocumentIngestionService) (s : SemanticStores) :
    CanonicalChange → Option SemanticStores
  | .ingest call clock => (service.ingestion s.world (call, clock)).map fun world => { s with world }
  | .putRequirement requirement => some { s with requirements := s.requirements.upsert requirement }
  | .createDecision decision =>
    let world := World.putDecision { decision with id := .v4 s.world.nextUuid } s.world
    some { s with world := { world with nextUuid := s.world.nextUuid + 1 } }
  | .updateDecision decision =>
    if (s.world.decisions.get decision.id).isSome then some { s with world := World.putDecision decision s.world }
    else none
  | .rebuildCode codeGraph => some { s with codeGraph }
  | .index request => some (indexProject request s).2

def World.currentVersion (w : World) (document : Document) : Option DocumentVersion :=
  document.currentVersionId.bind w.documentVersions.get

/-- The pointer of a document leads to the version that was added last. -/
def Newest (w : World) : Prop :=
  ∀ document ∈ w.documents.items, ∀ id, document.currentVersionId = some id →
    ∃ version, (w.listVersions document.id).getLast? = some version ∧ version.id = id

/-- The node is one of the version that was picked for its document when the
versions were `early`. -/
def WasPicked (w : World) (nodeId : Uuid) : Prop :=
  ∃ early documentId version node, early <+: w.documentVersions.items ∧
    (early.filter (·.documentId = documentId)).argmax DocumentVersion.ingestedAt = some version ∧
    node ∈ w.listNodes version.id ∧ node.id = nodeId

/-- What every run of changes keeps. -/
structure Tracked (s : SemanticStores) : Prop where
  curated : Curated s.world
  newest : Newest s.world
  drawn : ∀ record ∈ s.semanticIndex.records.items, record.recordId.Below s.world.nextUuid
  picked : ∀ record ∈ s.semanticIndex.records.items, ∀ id, record.entity = .documentNode id → WasPicked s.world id

section Worlds
variable {w t : World}

theorem Curated.decided (curated : Curated w) {decisions : Keyed Decision.id} {next : Nat} (later : w.nextUuid ≤ next)
    (below : ∀ decision ∈ decisions.items, decision.id.Below next) :
    Curated { w with decisions, nextUuid := next } where
  documentIds document stored := (curated.documentIds document stored).mono later
  versionIds version stored := (curated.versionIds version stored).mono later
  nodeIds node stored := (curated.nodeIds node stored).mono later
  nodeVersions node stored := (curated.nodeVersions node stored).mono later
  decisionIds := below
  oneEach := curated.oneEach
  pointers := curated.pointers

theorem WasPicked.retained {nodeId : Uuid} (picked : WasPicked w nodeId) (retains : Retains w t) : WasPicked t nodeId := by
  obtain ⟨early, documentId, version, node, earlier, latest, listed, isId⟩ := picked
  have stored : version ∈ w.documentVersions.items :=
    earlier.subset (List.mem_filter.mp (List.argmax_mem latest)).1
  have same := retains.nodes version stored
  exact ⟨early, documentId, version, node, earlier.trans retains.versions, latest, same ▸ listed, isId⟩

end Worlds

namespace DocumentIngestionService
variable {self : DocumentIngestionService} {call : IngestCall} {w t : World} {result : DocumentIngestionResult}

theorem newest_of_outcome (newest : Newest w) (outcome : self.Outcome call (.ok result) w t) : Newest t := by
  intro d stored id pointer
  rcases outcome.of_ok with ⟨_, leads⟩ | ⟨_, document, version, advanced⟩
  · have versions : t.documentVersions.items = w.documentVersions.items := leads.versions.trans (List.append_nil _)
    rw [leads.documents] at stored
    have last := newest d stored id pointer
    rwa [World.listVersions, versions]
  · rw [World.listVersions, advanced.versions, List.filter_append]
    rw [advanced.documents] at stored
    rcases Keyed.mem_upsert.mp stored with rfl | ⟨old, other⟩
    · rw [advanced.pointer] at pointer
      have own : [version].filter (·.documentId = d.id) = [version] := by simp [advanced.owner]
      rw [own, List.getLast?_append]
      exact ⟨version, rfl, Option.some.inj pointer⟩
    · have foreign : [version].filter (·.documentId = d.id) = [] := by simp [advanced.owner, Ne.symm other]
      rw [foreign, List.append_nil]
      exact newest d old id pointer

end DocumentIngestionService

section Records
variable {request : IndexRequest} {s : SemanticStores} {next : Nat} {facts : List SemanticFacts}

theorem drawRecords_facts : (drawRecords next facts).map SemanticRecord.toSemanticFacts = facts := by
  apply List.ext_getElem <;> simp [drawRecords]

theorem drawRecords_ids :
    (drawRecords next facts).map SemanticRecord.recordId = (List.range' next facts.length).map Uuid.v4 := by
  apply List.ext_getElem <;> simp [drawRecords]

theorem drawRecords_between {record : SemanticRecord} (drawn : record ∈ drawRecords next facts) :
    record.recordId.Between next (next + facts.length) := by
  have listed := List.mem_map_of_mem (f := SemanticRecord.recordId) drawn
  rw [drawRecords_ids] at listed
  obtain ⟨k, inRange, isId⟩ := List.mem_map.mp listed
  have bounds := List.mem_range'_1.mp inRange
  exact ⟨k, bounds.1, bounds.2, isId.symm⟩

theorem drawRecords_distinct : ((drawRecords next facts).map SemanticRecord.recordId).Nodup := by
  rw [drawRecords_ids]
  have positions : (List.range' next facts.length).Nodup := List.nodup_range'
  exact positions.map fun _ _ same => Uuid.v4.inj same

theorem indexProject_records (tracked : Tracked s) : (indexProject request s).2.semanticIndex.records.items =
    s.semanticIndex.records.items ++ drawRecords s.world.nextUuid (projectFacts request s) := by
  apply Keyed.items_foldl_upsert_fresh
  · intro record drawn old stored
    exact (drawRecords_between drawn).ne_old (tracked.drawn old stored)
  · exact drawRecords_distinct

/-- The facts of the versions that `pick` gives the documents of the project. -/
def documentFacts (request : IndexRequest) (w : World) (pick : Document → Option DocumentVersion) : List SemanticFacts :=
  (w.listDocumentsByProject request.projectId).flatMap fun document =>
    match pick document with
    | none => []
    | some version => versionFacts request w document version

/-- What does not come from documents. -/
def otherFacts (request : IndexRequest) (s : SemanticStores) : List SemanticFacts :=
  indexRequirements request s.requirements ++ indexDecisions request s.world ++ indexCodeSummaries request s.codeGraph

theorem projectFacts_eq : projectFacts request s =
    documentFacts request s.world s.world.latestVersion ++ otherFacts request s := by
  simp only [projectFacts, otherFacts, List.append_assoc]
  rfl

variable {fact : SemanticFacts}

theorem mem_versionFacts {document : Document} {version : DocumentVersion} {w : World} {id : Uuid}
    (member : fact ∈ versionFacts request w document version) (entity : fact.entity = .documentNode id) :
    ∃ node ∈ w.contentNodes version, node.id = id := by
  obtain ⟨node, listed, rfl⟩ := List.mem_map.mp member
  exact ⟨node, listed, SemanticEntity.documentNode.inj entity⟩

theorem mem_documentFacts {w : World} {pick : Document → Option DocumentVersion} :
    fact ∈ documentFacts request w pick ↔ ∃ document ∈ w.listDocumentsByProject request.projectId, ∃ version,
      pick document = some version ∧ fact ∈ versionFacts request w document version := by
  unfold documentFacts
  rw [List.mem_flatMap]
  constructor
  · rintro ⟨document, listed, inside⟩
    split at inside
    · cases inside
    · exact ⟨document, listed, _, ‹_›, inside⟩
  · rintro ⟨document, listed, version, isPicked, inside⟩
    refine ⟨document, listed, ?_⟩
    rw [isPicked]
    exact inside

theorem otherFacts_entity (member : fact ∈ otherFacts request s) (id : Uuid) : fact.entity ≠ .documentNode id := by
  unfold otherFacts at member
  rcases List.mem_append.mp member with either | summary
  · rcases List.mem_append.mp either with requirement | decision
    · obtain ⟨_, _, rfl⟩ := List.mem_map.mp requirement
      exact nofun
    · obtain ⟨_, _, rfl⟩ := List.mem_map.mp decision
      exact nofun
  · unfold indexCodeSummaries at summary
    split at summary
    · obtain ⟨_, _, rfl⟩ := List.mem_map.mp summary
      exact nofun
    · cases summary

theorem projectFacts_picked (member : fact ∈ projectFacts request s) {id : Uuid}
    (entity : fact.entity = .documentNode id) : WasPicked s.world id := by
  rw [projectFacts_eq] at member
  rcases List.mem_append.mp member with fromDocument | other
  · obtain ⟨document, _, version, latest, inside⟩ := mem_documentFacts.mp fromDocument
    obtain ⟨node, content, isId⟩ := mem_versionFacts inside entity
    exact ⟨_, document.id, version, node, List.prefix_refl _, latest, (List.mem_filter.mp content).1, isId⟩
  · exact absurd entity (otherFacts_entity other id)

end Records

namespace Tracked
variable {s t : SemanticStores}

theorem of_empty : Tracked {} where
  curated := DocumentIngestionService.curated_empty
  newest := by simp [Newest]
  drawn := by simp
  picked := by simp

theorem decided (tracked : Tracked s) {decisions : Keyed Decision.id} {next : Nat} (later : s.world.nextUuid ≤ next)
    (below : ∀ decision ∈ decisions.items, decision.id.Below next) :
    Tracked { s with world := { s.world with decisions, nextUuid := next } } where
  curated := tracked.curated.decided later below
  newest := tracked.newest
  drawn record stored := (tracked.drawn record stored).mono later
  picked := tracked.picked

theorem index (tracked : Tracked s) (request : IndexRequest) : Tracked (indexProject request s).2 := by
  have later : s.world.nextUuid ≤
      s.world.nextUuid + (drawRecords s.world.nextUuid (projectFacts request s)).length := Nat.le_add_right _ _
  have decisions := fun decision stored => (tracked.curated.decisionIds decision stored).mono later
  have length : (drawRecords s.world.nextUuid (projectFacts request s)).length = (projectFacts request s).length := by
    simp [drawRecords]
  constructor
  · exact tracked.curated.decided later decisions
  · exact tracked.newest
  · rw [indexProject_records tracked]
    intro record stored
    rcases List.mem_append.mp stored with old | new
    · exact (tracked.drawn record old).mono later
    · show record.recordId.Below (s.world.nextUuid + _)
      rw [length]
      exact (drawRecords_between new).below
  · rw [indexProject_records tracked]
    intro record stored id entity
    rcases List.mem_append.mp stored with old | new
    · exact tracked.picked record old id entity
    · have listed := List.mem_map_of_mem (f := SemanticRecord.toSemanticFacts) new
      rw [drawRecords_facts] at listed
      exact projectFacts_picked listed entity

end Tracked

namespace DocumentIngestionService
variable {self : DocumentIngestionService} {s t : SemanticStores}

theorem change_tracked (parses : self.Parses) (tracked : Tracked s) {change : CanonicalChange}
    (taken : self.change s change = some t) : Tracked t := by
  cases change with
  | ingest call clock =>
    obtain ⟨world, ingested, rfl⟩ := Option.map_eq_some_iff.mp taken
    obtain ⟨after, result, ended, outcome⟩ := ingestion_outcome tracked.curated parses (call, clock)
    obtain rfl : after = world := Option.some.inj (ended.symm.trans ingested)
    have retains := retains_of_outcome tracked.curated outcome
    have later : s.world.nextUuid ≤ after.nextUuid := by
      rcases outcome.of_ok with ⟨_, leads⟩ | ⟨_, _, _, advanced⟩
      · exact leads.nextUuid
      · obtain ⟨_, _, leads⟩ := advanced.leads
        exact leads.nextUuid
    exact ⟨outcome.curated tracked.curated, newest_of_outcome tracked.newest outcome,
      fun record stored => (tracked.drawn record stored).mono later,
      fun record stored id entity => (tracked.picked record stored id entity).retained retains⟩
  | putRequirement requirement =>
    cases taken
    exact ⟨tracked.curated, tracked.newest, tracked.drawn, tracked.picked⟩
  | createDecision decision =>
    cases taken
    refine tracked.decided (Nat.le_succ _) ?_
    intro d stored
    rcases Keyed.mem_upsert.mp stored with rfl | ⟨old, _⟩
    · exact Uuid.fresh_below _
    · exact (tracked.curated.decisionIds d old).mono (Nat.le_succ _)
  | updateDecision decision =>
    simp only [change] at taken
    split at taken
    · rename_i known
      cases taken
      refine tracked.decided (Nat.le_refl _) ?_
      intro d stored
      rcases Keyed.mem_upsert.mp stored with rfl | ⟨old, _⟩
      · obtain ⟨old, found⟩ := Option.isSome_iff_exists.mp known
        obtain ⟨stored, sameId⟩ := Keyed.get_eq_some.mp found
        exact sameId ▸ tracked.curated.decisionIds old stored
      · exact tracked.curated.decisionIds d old
    · cases taken
  | rebuildCode codeGraph =>
    cases taken
    exact ⟨tracked.curated, tracked.newest, tracked.drawn, tracked.picked⟩
  | index request =>
    cases taken
    exact tracked.index request

theorem tracked_after (parses : self.Parses) {changes : List CanonicalChange}
    (run : Runs.after self.change changes {} = some s) : Tracked s :=
  Runs.after_of_kept (fun _ _ _ tracked taken => change_tracked parses tracked taken) Tracked.of_empty run

end DocumentIngestionService

end Brain

namespace Brain
open SemanticIndexingService

/-- What an index of the current content holds: the nodes of the version that
each document points to, and every requirement and decision. -/
def currentFacts (request : IndexRequest) (s : SemanticStores) : List SemanticFacts :=
  documentFacts request s.world s.world.currentVersion ++ otherFacts request s

def SemanticEntity.isCanonical : SemanticEntity → Bool
  | .symbol _ => false
  | _ => true

def SemanticStores.recordsOf (s : SemanticStores) (projectId : ProjectId) : List SemanticRecord :=
  s.semanticIndex.corpus { projectId := some projectId }

/-- The records of the project are those of its current content, and no node,
requirement or decision has two of them. -/
structure Mirrors (request : IndexRequest) (s : SemanticStores) : Prop where
  records : ((s.recordsOf request.projectId).map SemanticRecord.toSemanticFacts).Perm (currentFacts request s)
  distinct : (((s.recordsOf request.projectId).map (·.entity)).filter SemanticEntity.isCanonical).Nodup

/-- The version that was ingested last by the clock is the current one, unless
neither has a node with content. -/
def PicksCurrent (w : World) (document : Document) : Prop :=
  w.latestVersion document = w.currentVersion document ∨
    ∀ version, w.latestVersion document = some version ∨ w.currentVersion document = some version →
      w.contentNodes version = []

/-- Nothing is indexed of the project, and the clock did not run backwards
between the versions of its documents. -/
structure Unindexed (request : IndexRequest) (s : SemanticStores) : Prop where
  none : s.recordsOf request.projectId = []
  latest : ∀ document ∈ s.world.listDocumentsByProject request.projectId, PicksCurrent s.world document

section Owners
variable {w : World} {pick pick' : Document → Option DocumentVersion} {d d' : Document} {v v' : DocumentVersion}
  {node node' : DocumentNode} {request : IndexRequest}

def Owns (w : World) (pick : Document → Option DocumentVersion) : Prop :=
  ∀ document ∈ w.documents.items, ∀ version, pick document = some version →
    version ∈ w.documentVersions.items ∧ version.documentId = document.id

theorem latestVersion_owns : Owns w w.latestVersion := by
  intro document _ version latest
  obtain ⟨stored, owner⟩ := List.mem_filter.mp (List.argmax_mem latest)
  exact ⟨stored, of_decide_eq_true owner⟩

theorem currentVersion_owns (curated : Curated w) : Owns w w.currentVersion := by
  intro document stored version current
  obtain ⟨id, pointer, found⟩ := Option.bind_eq_some_iff.mp current
  obtain ⟨listed, isId⟩ := Keyed.get_eq_some.mp found
  obtain ⟨other, listed', isId', owner⟩ := curated.pointers document stored id pointer
  have same : version = other := w.documentVersions.key_injective listed listed' (isId.trans isId'.symm)
  exact ⟨listed, same ▸ owner⟩

theorem versionId_of_node (listed : node ∈ w.listNodes v.id) (listed' : node' ∈ w.listNodes v'.id)
    (sameId : node.id = node'.id) : v.id = v'.id := by
  obtain ⟨stored, ofVersion⟩ := List.mem_filter.mp listed
  obtain ⟨stored', ofVersion'⟩ := List.mem_filter.mp listed'
  have same : node = node' := w.documentNodes.key_injective stored stored' sameId
  rw [← of_decide_eq_true ofVersion, ← of_decide_eq_true ofVersion', same]

theorem Owns.of_node (owns : Owns w pick) (owns' : Owns w pick') (stored : d ∈ w.documents.items)
    (stored' : d' ∈ w.documents.items) (picked : pick d = some v) (picked' : pick' d' = some v')
    (listed : node ∈ w.listNodes v.id) (listed' : node' ∈ w.listNodes v'.id) (sameId : node.id = node'.id) :
    d = d' ∧ v = v' := by
  obtain ⟨inStore, owner⟩ := owns d stored v picked
  obtain ⟨inStore', owner'⟩ := owns' d' stored' v' picked'
  have same : v = v' :=
    w.documentVersions.key_injective inStore inStore' (versionId_of_node listed listed' sameId)
  subst same
  exact ⟨w.documents.key_injective stored stored' (owner.symm.trans owner'), rfl⟩

theorem versionFacts_entities : (versionFacts request w d v).map SemanticFacts.entity =
    (w.contentNodes v).map (fun node => .documentNode node.id) := by
  simp only [versionFacts, List.map_map, Function.comp_def]

theorem contentNodes_distinct : ((w.contentNodes v).map DocumentNode.id).Nodup :=
  ((List.filter_sublist.trans List.filter_sublist).map _).nodup w.documentNodes.nodup

theorem documentFacts_distinct (owns : Owns w pick) :
    ((documentFacts request w pick).map SemanticFacts.entity).Nodup := by
  unfold documentFacts
  rw [List.map_flatMap, List.nodup_flatMap]
  constructor
  · intro d _
    split
    · exact List.nodup_nil
    · rw [versionFacts_entities]
      have distinct := contentNodes_distinct (w := w) (v := ‹_›)
      simpa only [List.map_map, Function.comp_def] using
        distinct.map (f := SemanticEntity.documentNode) fun _ _ => SemanticEntity.documentNode.inj
  · have documents : (w.listDocumentsByProject request.projectId).Nodup :=
      (List.Nodup.of_map _ w.documents.nodup).filter _
    refine documents.imp_of_mem ?_
    intro d d' listed listed' differ entity first second
    dsimp only at first second
    split at first
    · cases first
    split at second
    · cases second
    rename_i _ v picked _ v' picked'
    rw [versionFacts_entities] at first second
    obtain ⟨node, content, rfl⟩ := List.mem_map.mp first
    obtain ⟨node', content', same⟩ := List.mem_map.mp second
    have owner := owns.of_node owns (List.mem_filter.mp listed).1 (List.mem_filter.mp listed').1 picked picked'
      (List.mem_filter.mp content).1 (List.mem_filter.mp content').1 (SemanticEntity.documentNode.inj same).symm
    exact differ owner.1

theorem Owns.pick_of_fact {fact : SemanticFacts} (owns : Owns w pick) (owns' : Owns w pick') (stored : d ∈ w.documents.items)
    (picked : pick d = some v) (content : node ∈ w.contentNodes v) (member : fact ∈ documentFacts request w pick')
    (entity : fact.entity = .documentNode node.id) : pick' d = some v := by
  obtain ⟨d', listed', v', picked', inside⟩ := mem_documentFacts.mp member
  obtain ⟨node', content', sameId⟩ := mem_versionFacts inside entity
  obtain ⟨rfl, rfl⟩ := owns.of_node owns' stored (List.mem_filter.mp listed').1 picked picked'
    (List.mem_filter.mp content).1 (List.mem_filter.mp content').1 sameId.symm
  exact picked'

theorem WasPicked.latest (curated : Curated w) (newest : Newest w) (stored : d ∈ w.documents.items)
    (current : w.currentVersion d = some v) (listed : node ∈ w.listNodes v.id) (picked : WasPicked w node.id) :
    w.latestVersion d = some v := by
  obtain ⟨early, documentId, v', node', earlier, latest, listed', sameId⟩ := picked
  obtain ⟨inStore, owner⟩ := currentVersion_owns curated d stored v current
  obtain ⟨inEarly, ofDocument⟩ := List.mem_filter.mp (List.argmax_mem latest)
  have same : v' = v :=
    w.documentVersions.key_injective (earlier.subset inEarly) inStore (versionId_of_node listed' listed sameId)
  subst same
  have documentId : documentId = d.id := (of_decide_eq_true ofDocument).symm.trans owner
  subst documentId
  obtain ⟨id, pointer, found⟩ := Option.bind_eq_some_iff.mp current
  obtain ⟨last, isLast, lastId⟩ := newest d stored id pointer
  have lastStored := (List.mem_filter.mp (List.mem_of_getLast? isLast)).1
  have same : last = v' :=
    w.documentVersions.key_injective lastStored inStore (lastId.trans (Keyed.get_eq_some.mp found).2.symm)
  subst same
  have whole : early.filter (·.documentId = d.id) = w.listVersions d.id := by
    refine Runs.eq_of_prefix_of_last (earlier.filter _) ?_ isLast (List.argmax_mem latest)
    exact (List.Nodup.of_map _ w.documentVersions.nodup).filter _
  rw [World.latestVersion, ← whole]
  exact latest

theorem picksCurrent_of_perm (curated : Curated w) (newest : Newest w) {old : List SemanticFacts}
    (picked : ∀ fact ∈ old, ∀ id, fact.entity = .documentNode id → WasPicked w id)
    (perm : (old ++ documentFacts request w w.latestVersion).Perm (documentFacts request w w.currentVersion)) :
    ∀ document ∈ w.listDocumentsByProject request.projectId, PicksCurrent w document := by
  intro d listed
  have stored := (List.mem_filter.mp listed).1
  have current_owns := currentVersion_owns curated
  by_contra differ
  unfold PicksCurrent at differ
  push Not at differ
  obtain ⟨other, v, either, content⟩ := differ
  obtain ⟨node, inContent⟩ := List.exists_mem_of_ne_nil _ content
  have fact_of : ∀ {pick}, pick d = some v → ∃ fact ∈ documentFacts request w pick, fact.entity = .documentNode node.id := by
    intro pick given
    refine ⟨_, mem_documentFacts.mpr ⟨d, listed, v, given, List.mem_map_of_mem inContent⟩, rfl⟩
  rcases either with latest | current
  · obtain ⟨fact, inLatest, entity⟩ := fact_of latest
    have inCurrent := perm.subset (List.mem_append_right old inLatest)
    have current := latestVersion_owns.pick_of_fact current_owns stored latest inContent inCurrent entity
    exact other (latest.trans current.symm)
  · obtain ⟨fact, inCurrent, entity⟩ := fact_of current
    rcases List.mem_append.mp (perm.symm.subset inCurrent) with before | inLatest
    · have latest := (picked fact before node.id entity).latest curated newest stored current (List.mem_filter.mp inContent).1
      exact other (latest.trans current.symm)
    · have latest := current_owns.pick_of_fact latestVersion_owns stored current inContent inLatest entity
      exact other (latest.trans current.symm)

end Owners

section Mirroring
variable {s : SemanticStores} {request : IndexRequest}

theorem documentFacts_eq {w : World}
    (picks : ∀ document ∈ w.listDocumentsByProject request.projectId, PicksCurrent w document) :
    documentFacts request w w.latestVersion = documentFacts request w w.currentVersion := by
  unfold documentFacts
  apply List.flatMap_congr
  intro document listed
  rcases picks document listed with same | bare
  · rw [same]
  · have nothing : ∀ version, w.latestVersion document = some version ∨ w.currentVersion document = some version →
        versionFacts request w document version = [] := by
      intro version either
      rw [versionFacts, bare version either, List.map_nil]
    split <;> split
    · rfl
    · exact (nothing _ (Or.inr ‹_›)).symm
    · exact nothing _ (Or.inl ‹_›)
    · rw [nothing _ (Or.inl ‹_›), nothing _ (Or.inr ‹_›)]

theorem projectId_of_mem {fact : SemanticFacts} (member : fact ∈ projectFacts request s) :
    fact.projectId = some request.projectId := by
  rw [projectFacts_eq] at member
  rcases List.mem_append.mp member with fromDocument | other
  · obtain ⟨_, _, _, _, inside⟩ := mem_documentFacts.mp fromDocument
    obtain ⟨_, _, rfl⟩ := List.mem_map.mp inside
    rfl
  · unfold otherFacts at other
    rcases List.mem_append.mp other with either | summary
    · rcases List.mem_append.mp either with requirement | decision
      · obtain ⟨_, _, rfl⟩ := List.mem_map.mp requirement
        rfl
      · obtain ⟨_, _, rfl⟩ := List.mem_map.mp decision
        rfl
    · unfold indexCodeSummaries at summary
      split at summary
      · obtain ⟨_, _, rfl⟩ := List.mem_map.mp summary
        rfl
      · cases summary

theorem recordsOf_indexProject (tracked : Tracked s) :
    (indexProject request s).2.recordsOf request.projectId =
      s.recordsOf request.projectId ++ drawRecords s.world.nextUuid (projectFacts request s) := by
  unfold SemanticStores.recordsOf InMemorySemanticIndex.corpus
  rw [indexProject_records tracked, List.filter_append]
  congr 1
  rw [List.filter_eq_self]
  intro record drawn
  have listed := List.mem_map_of_mem (f := SemanticRecord.toSemanticFacts) drawn
  rw [drawRecords_facts] at listed
  have ofProject := projectId_of_mem listed
  simp [SemanticRecord.matchesFilters, ofProject]

theorem currentFacts_indexProject : currentFacts request (indexProject request s).2 = currentFacts request s := rfl

theorem otherFacts_distinct : (((otherFacts request s).map SemanticFacts.entity).filter SemanticEntity.isCanonical).Nodup := by
  have symbols : ((indexCodeSummaries request s.codeGraph).map SemanticFacts.entity).filter SemanticEntity.isCanonical = [] := by
    rw [List.filter_eq_nil_iff]
    intro entity listed
    obtain ⟨fact, member, rfl⟩ := List.mem_map.mp listed
    unfold indexCodeSummaries at member
    split at member
    · obtain ⟨_, _, rfl⟩ := List.mem_map.mp member
      exact Bool.false_ne_true
    · cases member
  have requirements : ((indexRequirements request s.requirements).map SemanticFacts.entity).Nodup := by
    have ids := (List.filter_sublist (p := (·.projectId = request.projectId)).map Requirement.id).nodup
      s.requirements.nodup
    simpa only [indexRequirements, List.map_map, Function.comp_def] using
      ids.map (f := SemanticEntity.requirement) fun _ _ => SemanticEntity.requirement.inj
  have decisions : ((indexDecisions request s.world).map SemanticFacts.entity).Nodup := by
    have ids := (List.filter_sublist (p := (·.projectId = request.projectId)).map Decision.id).nodup
      s.world.decisions.nodup
    simpa only [indexDecisions, World.listDecisionsByProject, List.map_map, Function.comp_def] using
      ids.map (f := SemanticEntity.decision) fun _ _ => SemanticEntity.decision.inj
  rw [otherFacts, List.map_append, List.filter_append, symbols, List.append_nil, List.map_append]
  refine (requirements.append decisions ?_).filter _
  intro entity first second
  obtain ⟨_, requirement, rfl⟩ := List.mem_map.mp first
  obtain ⟨_, decision, same⟩ := List.mem_map.mp second
  obtain ⟨_, _, rfl⟩ := List.mem_map.mp requirement
  obtain ⟨_, _, rfl⟩ := List.mem_map.mp decision
  cases same

theorem currentFacts_distinct (curated : Curated s.world) (request : IndexRequest) :
    (((currentFacts request s).map SemanticFacts.entity).filter SemanticEntity.isCanonical).Nodup := by
  rw [currentFacts, List.map_append, List.filter_append]
  refine ((documentFacts_distinct (currentVersion_owns curated)).filter _).append otherFacts_distinct ?_
  intro entity first second
  obtain ⟨fact, fromDocument, isEntity⟩ := List.mem_map.mp (List.mem_filter.mp first).1
  obtain ⟨other, notDocument, rfl⟩ := List.mem_map.mp (List.mem_filter.mp second).1
  obtain ⟨_, _, _, _, inside⟩ := mem_documentFacts.mp fromDocument
  obtain ⟨node, _, rfl⟩ := List.mem_map.mp inside
  exact otherFacts_entity notDocument node.id isEntity.symm

theorem mirrors_iff_unindexed (tracked : Tracked s) :
    Mirrors request (indexProject request s).2 ↔ Unindexed request s := by
  have records : ((indexProject request s).2.recordsOf request.projectId).map SemanticRecord.toSemanticFacts =
      (s.recordsOf request.projectId).map SemanticRecord.toSemanticFacts ++
        (documentFacts request s.world s.world.latestVersion ++ otherFacts request s) := by
    rw [recordsOf_indexProject tracked, List.map_append, drawRecords_facts, projectFacts_eq]
  constructor
  · intro mirrors
    have perm := mirrors.records
    rw [records, currentFacts_indexProject, currentFacts, ← List.append_assoc, List.perm_append_right_iff] at perm
    have latest : ∀ document ∈ s.world.listDocumentsByProject request.projectId, PicksCurrent s.world document := by
      refine picksCurrent_of_perm tracked.curated tracked.newest ?_ perm
      intro fact before id entity
      obtain ⟨record, stored, rfl⟩ := List.mem_map.mp before
      exact tracked.picked record (List.mem_filter.mp stored).1 id entity
    refine ⟨?_, latest⟩
    have length := perm.length_eq
    rw [documentFacts_eq latest, List.length_append, List.length_map] at length
    exact List.length_eq_zero_iff.mp (by omega)
  · intro unindexed
    have perm : ((indexProject request s).2.recordsOf request.projectId).map SemanticRecord.toSemanticFacts =
        currentFacts request s := by
      rw [records, unindexed.none, documentFacts_eq unindexed.latest]
      rfl
    constructor
    · exact perm ▸ List.Perm.refl _
    · have distinct := currentFacts_distinct tracked.curated request
      rwa [← perm, List.map_map] at distinct

end Mirroring

namespace DocumentIngestionService
variable {self : DocumentIngestionService}

/-- In every run of changes and calls, the records of a project mirror its
current content after a call exactly when it was not indexed before and the
call picked the current versions. -/
theorem run_mirrors_iff (parses : self.Parses) {changes : List CanonicalChange} {s t : SemanticStores}
    {request : IndexRequest} (run : Runs.after self.change changes {} = some s)
    (indexed : self.change s (.index request) = some t) : Mirrors request t ↔ Unindexed request s := by
  cases indexed
  exact mirrors_iff_unindexed (tracked_after parses run)

def readmeRequest : IndexRequest := { projectId := .v4 100 }

/-- The README is indexed, then ingested with other content. -/
def readmeChanges : List CanonicalChange :=
  [.ingest (readmeCall "a").1 (fun _ => 0), .index readmeRequest, .ingest (readmeCall "b").1 (fun _ => 1)]

theorem run_mirrors_iff_readme : ∃ s t, Runs.after oneNode.change readmeChanges {} = some s ∧
    oneNode.change s (.index readmeRequest) = some t ∧ (Mirrors readmeRequest t ↔ Unindexed readmeRequest s) := by
  obtain ⟨s, run⟩ : ∃ s, Runs.after oneNode.change readmeChanges {} = some s := Option.isSome_iff_exists.mp rfl
  exact ⟨s, _, run, rfl, run_mirrors_iff oneNode_parses run rfl⟩

/-- The node of the first version keeps its record when the second is indexed. -/
theorem reindex_keeps_old_version : ∃ s t, Runs.after oneNode.change readmeChanges {} = some s ∧
    oneNode.change s (.index readmeRequest) = some t ∧ ¬ Mirrors readmeRequest t := by
  have texts : (Runs.after oneNode.change (readmeChanges ++ [.index readmeRequest]) {}).map
      (fun t => ((t.recordsOf (.v4 100)).map (·.text), (currentFacts readmeRequest t).map (·.text))) =
      some (["a", "b"], ["b"]) := rfl
  obtain ⟨t, run, isTexts⟩ := Option.map_eq_some_iff.mp texts
  obtain ⟨s, before, indexed⟩ := Runs.after_append.mp run
  obtain ⟨u, taken, last⟩ := Runs.after_cons.mp indexed
  cases last
  refine ⟨s, t, before, taken, ?_⟩
  intro mirrors
  have perm := mirrors.records.map SemanticFacts.text
  rw [List.map_map] at perm
  have length := perm.length_eq
  have two := congrArg (fun pair => pair.1.length) isTexts
  have one := congrArg (fun pair => pair.2.length) isTexts
  simp only [List.length_map, List.length_cons, List.length_nil] at length two one
  have records : (t.recordsOf readmeRequest.projectId).length = 2 := two
  omega

end DocumentIngestionService

end Brain
