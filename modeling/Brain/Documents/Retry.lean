import Brain.Documents.History

namespace Brain
open Calls

namespace DocumentIngestionService
variable {self : DocumentIngestionService} {call : IngestCall} {o o' : Outside} {w t u : World}

/-- The ids drawn have no part in what a parser takes for the sections of an ADR. -/
def Settled (self : DocumentIngestionService) : Prop :=
  ∀ artifact n m, (self.parse artifact n).1.adrSections = (self.parse artifact m).1.adrSections

/-- A decision is to be created for the artifact. -/
def isAdr (self : DocumentIngestionService) (call : IngestCall) : Bool :=
  self.decisions && (self.parseAt call 0).adrSections.isSome

/-- What two calls that began in `w` owe the artifact: a current version with the
nodes of one parse, the decisions of one parse, and an event that tells of the
document. -/
structure Retried (service : DocumentIngestionService) (call : IngestCall) (w u : World) : Prop where
  nodes : ∃ n version, u.currentVersionOf call.sourceKey = some version ∧
    version.checksum = service.hashOf call.artifact ∧
    u.listNodes version.id = (service.parseAt call n).nodes.map (documentNode version.id)
  decisions : ∃ n id, u.decisions.items = w.decisions.items ++
    service.decisionsOf (service.parseAt call n) (service.hashed call.artifact) call.projectId id
  told : service.eventBus → ∃ events, u.published = w.published ++ events ∧
    ∃ event ∈ events, ∃ document, event.payload = .documentChanged document ∧ document.sourceKey = call.sourceKey

/-- What ended the first call left nothing behind the moved pointer: the decision,
where there is one, was created, and the event, where there is a bus, published. -/
def Recoverable (self : DocumentIngestionService) (call : IngestCall) (r : Except Raised DocumentIngestionResult) : Prop :=
  pointed r → (self.isAdr call → decided r) ∧ (self.eventBus → announced r)

theorem length_decisionsOf (settled : self.Settled) (n : Nat) (id : Uuid) :
    (self.decisionsOf (self.parseAt call n) (self.hashed call.artifact) call.projectId id).length =
      (self.isAdr call).toNat := by
  have same : (self.parseAt call n).adrSections = (self.parseAt call 0).adrSections := settled _ n 0
  unfold decisionsOf adrDecision isAdr
  rw [same]
  cases self.decisions with
  | false => rfl
  | true =>
    cases (self.parseAt call 0).adrSections with
    | none => rfl
    | some sections => rfl

theorem checksumOf_behind {key : ProjectId × String} (curated : Curated w) (behind : Behind key w t) :
    checksumOf t key = checksumOf w key := by
  obtain ⟨versions, nodes, _, _, table, leads⟩ := behind
  rcases table with same | ⟨document, isKey, unset, absent, new, put⟩
  · have found : t.documentOf key = w.documentOf key := by
      simp only [World.documentOf, World.findDocumentBySource, same]
    have kept : w.documentVersions.items ⊆ t.documentVersions.items := leads.versions ▸ List.subset_append_left _ _
    rw [checksumOf, curated.currentVersionOf_same found kept, checksumOf]
  · have continues : Continues w t.nextUuid document := Or.inr ⟨isKey ▸ absent, new⟩
    have found := continues.documentOf_self curated put
    rw [isKey] at found
    simp [checksumOf, World.currentVersionOf, found, unset, absent]

theorem retried_of_behind (curated : Curated w) (behind : Behind call.sourceKey w t) {document : Document}
    {version : DocumentVersion} (advanced : self.Advanced call true true t u document version) : self.Retried call w u := by
  have curated' := curated.behind behind
  obtain ⟨versions, nodes, _, _, _, leads⟩ := behind
  obtain ⟨decisionId, created, events, isCreated, _, told, leads'⟩ := advanced.moved
  have whole := leads.trans leads'
  refine ⟨⟨t.nextUuid, version, advanced.currentVersionOf_self curated', advanced.checksum,
    advanced.listNodes_self curated'⟩, ⟨t.nextUuid, decisionId, ?_⟩, fun bus => ?_⟩
  · rw [whole.decisions, Filing.andThen, isCreated]
    rfl
  · rw [bus] at told
    obtain ⟨event, isEvents⟩ := List.length_eq_one_iff.mp told.1
    refine ⟨events, whole.published, event, isEvents ▸ List.mem_singleton.mpr rfl, document, ?_, advanced.isKey⟩
    exact told.2 event (isEvents ▸ List.mem_singleton.mpr rfl)

theorem retried_iff_of_advanced (curated : Curated w) (settled : self.Settled) {didDecide didAnnounce : Bool}
    {document : Document} {version : DocumentVersion}
    (advanced : self.Advanced call didDecide didAnnounce w t document version)
    (unchanged : Filing.Leads { documents := t.documents } t u) :
    self.Retried call w u ↔ (self.isAdr call → didDecide) ∧ (self.eventBus → didAnnounce) := by
  obtain ⟨decisionId, created, events, isCreated, _, told, leads⟩ := advanced.moved
  have whole := leads.trans unchanged
  have decisions : u.decisions.items = w.decisions.items ++ created := whole.decisions.trans (by simp [Filing.andThen])
  have published : u.published = w.published ++ events := whole.published.trans (by simp [Filing.andThen])
  constructor
  · intro retried
    constructor
    · intro adr
      obtain ⟨n, id, owed⟩ := retried.decisions
      have lengths := congrArg List.length (List.append_cancel_left (decisions.symm.trans owed))
      rw [length_decisionsOf settled, adr, isCreated] at lengths
      cases didDecide with
      | false => simp at lengths
      | true => rfl
    · intro bus
      obtain ⟨events', owed, event, listed, _⟩ := retried.told bus
      have same : events = events' := List.append_cancel_left (published.symm.trans owed)
      have one := told.1
      cases didAnnounce with
      | false =>
        have empty : events = [] := List.eq_nil_of_length_eq_zero (by simpa using one)
        rw [← same, empty] at listed
        cases listed
      | true => rfl
  · rintro ⟨didDecide', didAnnounce'⟩
    have after := advanced.curated_after curated
    have current := advanced.currentVersionOf_self curated
    have nodes : u.listNodes version.id = t.listNodes version.id := by
      have same : u.documentNodes.items = t.documentNodes.items := unchanged.nodes.trans (List.append_nil _)
      simp only [World.listNodes, same]
    refine ⟨⟨w.nextUuid, version, ?_, advanced.checksum, nodes.trans (advanced.listNodes_self curated)⟩,
      ⟨w.nextUuid, decisionId, ?_⟩, fun bus => ?_⟩
    · rw [currentVersionOf_drawn unchanged, current]
    · rw [decisions, isCreated]
      split
      · rfl
      · rename_i undecided
        have none : (self.isAdr call).toNat = 0 := by
          cases adr : self.isAdr call with
          | false => rfl
          | true => exact absurd (didDecide' adr) undecided
        have empty := @length_decisionsOf self call settled w.nextUuid decisionId
        rw [none] at empty
        rw [List.eq_nil_of_length_eq_zero empty]
    · rw [bus, didAnnounce' bus] at told
      obtain ⟨event, isEvents⟩ := List.length_eq_one_iff.mp told.1
      refine ⟨events, published, event, isEvents ▸ List.mem_singleton.mpr rfl, document, ?_, advanced.isKey⟩
      exact told.2 event (isEvents ▸ List.mem_singleton.mpr rfl)

theorem retry_iff (parses : self.Parses) (settled : self.Settled) (curated : Curated w)
    (differs : checksumOf w call.sourceKey ≠ some (self.hashOf call.artifact)) (o : Outside) (n : Nat)
    (clock : Nat → Nat) :
    ∃ u, self.ingestion (self.perform call o n w).store (call, clock) = some u ∧
      (self.Retried call w u ↔ self.Recoverable call (self.perform call o n w).result) := by
  have first := @perform_outcome self call o w curated parses n
  generalize self.perform call o n w = run at first
  obtain ⟨r, time, t⟩ := run
  have first : self.Outcome call r w t := first
  obtain ⟨u, result, taken, second⟩ := ingestion_outcome (first.curated curated) parses (call, clock)
  refine ⟨u, taken, ?_⟩
  unfold Outcome at first
  rw [if_neg differs] at first
  split at first
  · rename_i moved
    obtain ⟨document, version, advanced⟩ := first
    rcases second.of_ok with ⟨_, unchanged⟩ | ⟨differs', _⟩
    · rw [retried_iff_of_advanced curated settled advanced unchanged]
      exact ⟨fun both _ => both, fun recoverable => recoverable moved⟩
    · have same : checksumOf t call.sourceKey = some (self.hashOf call.artifact) := by
        rw [checksumOf, advanced.currentVersionOf_self curated, Option.map_some, advanced.checksum]
      exact absurd same differs'
  · rename_i still
    rcases second.of_ok with ⟨same, _⟩ | ⟨_, document, version, advanced⟩
    · exact absurd ((checksumOf_behind curated first).symm.trans same) differs
    · exact ⟨fun _ moved => absurd moved still, fun _ => retried_of_behind curated first advanced⟩

/-- Calls in any number, each with its own failures, from the empty stores on. -/
def afterCalls (self : DocumentIngestionService) (history : List (IngestCall × Outside × Nat)) : World :=
  history.foldl (fun w made => (self.perform made.1 made.2.1 made.2.2 w).store) {}

theorem curated_afterCalls (parses : self.Parses) (history : List (IngestCall × Outside × Nat)) :
    Curated (self.afterCalls history) := by
  induction history using List.reverseRecOn with
  | nil => exact curated_empty
  | append_singleton history made ih =>
    rw [afterCalls, List.foldl_append]
    exact (perform_outcome ih parses made.2.2).curated ih

/-- After every history of calls, for every artifact whose hash differs from the
current checksum and every way the first call ends: the retry returns, and the two
calls owe the artifact nothing exactly when the first one was recoverable. -/
theorem retry_exact (parses : self.Parses) (settled : self.Settled) (history : List (IngestCall × Outside × Nat))
    (call : IngestCall)
    (differs : checksumOf (self.afterCalls history) call.sourceKey ≠ some (self.hashOf call.artifact))
    (o : Outside) (n : Nat) (clock : Nat → Nat) :
    ∃ u, self.ingestion (self.perform call o n (self.afterCalls history)).store (call, clock) = some u ∧
      (self.Retried call (self.afterCalls history) u ↔
        self.Recoverable call (self.perform call o n (self.afterCalls history)).result) :=
  retry_iff parses settled (curated_afterCalls parses history) differs o n clock

def adrNode : DocumentIngestionService where
  parse artifact n :=
    ({ nodes := [{ id := .v4 n, content := artifact.content.getD "" }]
       adrSections := some { context := "context", decision := "decision" } }, 1)
  sha256 := id
  decisions := true
  eventBus := true

theorem adrNode_parses : adrNode.Parses where
  drawn artifact n node listed := by
    rw [List.mem_singleton.mp listed]
    exact Uuid.fresh_between (Nat.le_refl n) (Nat.lt_succ_self n)
  distinct _ _ := List.nodup_singleton _

def adrCall : IngestCall where
  artifact := { sourceUri := "docs/adr/0001.md", provider := "git", content := some "# Use a queue" }
  projectId := .v4 100

def noDecisions : Outside where
  outcome _ site := if site = .decisionCreate then .raises false ⟨"RuntimeError", "write failed"⟩ else .returns
  clock _ := 0

theorem retry_exact_adr :
    ∃ u, adrNode.ingestion (adrNode.perform adrCall noDecisions 0 (adrNode.afterCalls [])).store (adrCall, fun _ => 0) =
        some u ∧
      (adrNode.Retried adrCall (adrNode.afterCalls []) u ↔
        adrNode.Recoverable adrCall (adrNode.perform adrCall noDecisions 0 (adrNode.afterCalls [])).result) :=
  retry_exact adrNode_parses (fun _ _ _ => rfl) [] adrCall (by decide) noDecisions 0 (fun _ => 0)

/-- The creation of the decision fails, and the retry takes the content for known:
no decision is ever created and no event published. -/
theorem retry_loses_decision :
    ∃ u, adrNode.ingestion (adrNode.perform adrCall noDecisions 0 {}).store (adrCall, fun _ => 0) = some u ∧
      u.decisions.items = [] ∧ u.published = [] ∧ ¬ adrNode.Retried adrCall {} u := by
  refine ⟨(adrNode.perform adrCall ⟨fun _ _ => .returns, fun _ => 0⟩ 0
    (adrNode.perform adrCall noDecisions 0 {}).store).store, rfl, rfl, rfl, ?_⟩
  intro retried
  obtain ⟨events, published, event, listed, _⟩ := retried.told rfl
  have none : events = [] := published.symm
  rw [none] at listed
  cases listed

end DocumentIngestionService

end Brain
