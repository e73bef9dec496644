import Brain.Application.DocumentParsers
import Brain.Documents.Outcome
import Brain.Lib.Runs
import Mathlib.Data.List.Induction

namespace Brain
open Calls

/-- What was stored in `w` is still there: each document under its id, each
version with its nodes. -/
structure Retains (w t : World) : Prop where
  documents : ∀ document ∈ w.documents.items,
    ∃ later ∈ t.documents.items, later.id = document.id ∧ later.sourceKey = document.sourceKey
  versions : w.documentVersions.items <+: t.documentVersions.items
  nodes : ∀ version ∈ w.documentVersions.items, t.listNodes version.id = w.listNodes version.id

theorem Retains.refl (w : World) : Retains w w :=
  ⟨fun document stored => ⟨document, stored, rfl, rfl⟩, List.prefix_refl _, fun _ _ => rfl⟩

theorem Retains.trans {u v w : World} (first : Retains u v) (second : Retains v w) : Retains u w where
  documents document stored := by
    obtain ⟨later, stored, sameId, sameKey⟩ := first.documents document stored
    obtain ⟨last, stored, sameId', sameKey'⟩ := second.documents later stored
    exact ⟨last, stored, sameId'.trans sameId, sameKey'.trans sameKey⟩
  versions := first.versions.trans second.versions
  nodes version stored := (second.nodes version (first.versions.subset stored)).trans (first.nodes version stored)

namespace DocumentIngestionService
variable (self : DocumentIngestionService)

/-- One call of `ingest` while nothing outside fails, with what the clock shows. -/
def ingestion (w : World) (step : IngestCall × (Nat → Nat)) : Option World :=
  let run := self.perform step.1 ⟨fun _ _ => .returns, step.2⟩ 0 w
  match run.result with
  | .ok _ => some run.store
  | .error _ => none

/-- Each source of the calls has one document, and its current version has the
hash of the last artifact ingested for it. -/
structure Faithful (service : DocumentIngestionService) (calls : List IngestCall) (w : World) : Prop where
  one : ∀ key, (w.documents.items.map Document.sourceKey).count key =
    if key ∈ calls.map IngestCall.sourceKey then 1 else 0
  checksum : ∀ key call, (calls.filter (·.sourceKey = key)).getLast? = some call →
    checksumOf w key = some (service.hashOf call.artifact)

/-- A call adds a version, which becomes the current one, when the hash of its
artifact differs from the checksum of the current version, and none otherwise. -/
def AddsVersion (call : IngestCall) (w t : World) : Prop :=
  if checksumOf w call.sourceKey = some (self.hashOf call.artifact) then t.documentVersions = w.documentVersions
  else ∃ version document, t.documentOf call.sourceKey = some document ∧ version.documentId = document.id ∧
    t.currentVersionOf call.sourceKey = some version ∧
    t.documentVersions.items = w.documentVersions.items ++ [version]

variable {self} {call : IngestCall} {w t : World}

theorem ingestion_outcome (curated : Curated w) (parses : self.Parses) (step : IngestCall × (Nat → Nat)) :
    ∃ t result, self.ingestion w step = some t ∧ self.Outcome step.1 (.ok result) w t := by
  have clean : Calls.Outside.Clean (⟨fun _ _ => .returns, step.2⟩ : Outside) := fun _ _ => rfl
  have filed := self.ingest_filed step.1.artifact step.1.projectId step.1.documentType step.1.repositoryId
    step.1.commitSha ⟨fun _ _ => .returns, step.2⟩ w 0
  have ended := @perform_outcome self step.1 ⟨fun _ _ => .returns, step.2⟩ w curated parses 0
  have run : self.perform step.1 ⟨fun _ _ => .returns, step.2⟩ 0 w =
    self.ingest step.1.artifact step.1.projectId step.1.documentType step.1.repositoryId step.1.commitSha
      ⟨fun _ _ => .returns, step.2⟩ 0 w := rfl
  rw [← run] at filed
  unfold ingestion
  generalize self.perform step.1 ⟨fun _ _ => .returns, step.2⟩ 0 w = r at filed ended
  obtain ⟨result, time, t⟩ := r
  cases result with
  | ok result => exact ⟨t, result, rfl, ended⟩
  | error e => exact absurd filed.2.2 (Outside.not_raises_of_returns fun n => clean n e.site)

theorem Outcome.of_ok {result : DocumentIngestionResult} (outcome : self.Outcome call (.ok result) w t) :
    checksumOf w call.sourceKey = some (self.hashOf call.artifact) ∧ Filing.Leads { documents := w.documents } w t ∨
      checksumOf w call.sourceKey ≠ some (self.hashOf call.artifact) ∧
        ∃ document version, self.Advanced call true true w t document version := by
  unfold Outcome at outcome
  split at outcome
  · rename_i same
    exact Or.inl ⟨same, outcome⟩
  · rename_i differ
    exact Or.inr ⟨differ, outcome⟩

theorem currentVersionOf_drawn (leads : Filing.Leads { documents := w.documents } w t) (key : ProjectId × String) :
    t.currentVersionOf key = w.currentVersionOf key := by
  have versions : t.documentVersions = w.documentVersions :=
    Keyed.ext_items (leads.versions.trans (List.append_nil _))
  simp only [World.currentVersionOf, World.documentOf, World.findDocumentBySource, leads.documents, versions]

theorem upsert_retains (curated : Curated w) {document : Document} (continues : Continues w t.nextUuid document) :
    ∀ d ∈ w.documents.items, ∃ later ∈ (w.documents.upsert document).items, later.id = d.id ∧ later.sourceKey = d.sourceKey := by
  intro d stored
  by_cases sameId : d.id = document.id
  · refine ⟨document, Keyed.mem_upsert_self _ _, sameId.symm, ?_⟩
    rcases continues with ⟨old, found, oldId⟩ | ⟨_, new⟩
    · obtain ⟨listed, isKey⟩ := documentOf_mem found
      rw [w.documents.key_injective stored listed (sameId.trans oldId.symm), isKey]
    · exact absurd sameId (new.ne_old (curated.documentIds d stored))
  · exact ⟨d, Keyed.mem_upsert.mpr (Or.inr ⟨stored, sameId⟩), rfl, rfl⟩

theorem retains_of_leads {filing : Filing} (curated : Curated w) (leads : filing.Leads w t)
    (documents : ∀ d ∈ w.documents.items, ∃ later ∈ filing.documents.items, later.id = d.id ∧ later.sourceKey = d.sourceKey)
    (nodes : ∀ node ∈ filing.nodes, node.versionId.Between w.nextUuid t.nextUuid) : Retains w t := by
  refine ⟨leads.documents ▸ documents, ⟨_, leads.versions.symm⟩, fun v stored => ?_⟩
  have none : filing.nodes.filter (·.versionId = v.id) = [] := by
    rw [List.filter_eq_nil_iff]
    intro node listed
    simpa using ((nodes node listed).ne_old (curated.versionIds v stored)).symm
  unfold World.listNodes
  rw [leads.nodes, List.filter_append, none, List.append_nil]

/-- However the call ends, nothing stored is lost. -/
theorem retains_of_outcome {r : Except Raised DocumentIngestionResult} (curated : Curated w)
    (outcome : self.Outcome call r w t) : Retains w t := by
  have same : ∀ d ∈ w.documents.items, ∃ later ∈ w.documents.items, later.id = d.id ∧ later.sourceKey = d.sourceKey :=
    fun d stored => ⟨d, stored, rfl, rfl⟩
  unfold Outcome at outcome
  split at outcome
  · exact retains_of_leads curated outcome same (by simp)
  · split at outcome
    · obtain ⟨document, version, advanced⟩ := outcome
      obtain ⟨_, _, leads⟩ := advanced.leads
      refine retains_of_leads curated leads (upsert_retains curated advanced.continues) fun node listed => ?_
      obtain ⟨parsed, _, rfl⟩ := List.mem_map.mp listed
      exact advanced.versionId
    · obtain ⟨versions, nodes, _, nodeIds, table, leads⟩ := outcome
      refine retains_of_leads curated leads ?_ fun node listed => (nodeIds node listed).2
      rcases table with unchanged | ⟨document, isKey, _, absent, new, put⟩
      · rwa [unchanged]
      · rw [put]
        exact upsert_retains curated (Or.inr ⟨isKey ▸ absent, new⟩)

section Step
variable {result : DocumentIngestionResult} (curated : Curated w) (outcome : self.Outcome call (.ok result) w t)
include curated outcome

theorem addsVersion_of_outcome : self.AddsVersion call w t := by
  unfold AddsVersion
  rcases outcome.of_ok with ⟨same, leads⟩ | ⟨differ, document, version, advanced⟩
  · rw [if_pos same]
    exact Keyed.ext_items (leads.versions.trans (List.append_nil _))
  · rw [if_neg differ]
    exact ⟨version, document, advanced.documentOf_self curated, advanced.owner, advanced.currentVersionOf_self curated,
      advanced.versions⟩

theorem checksumOf_outcome (key : ProjectId × String) :
    checksumOf t key = if call.sourceKey = key then some (self.hashOf call.artifact) else checksumOf w key := by
  rcases outcome.of_ok with ⟨same, leads⟩ | ⟨_, document, version, advanced⟩
  · have current : checksumOf t key = checksumOf w key := congrArg _ (currentVersionOf_drawn leads key)
    split
    · rename_i isKey
      rw [current, ← isKey, same]
    · exact current
  · split
    · rename_i isKey
      rw [checksumOf, ← isKey, advanced.currentVersionOf_self curated, Option.map_some, advanced.checksum]
    · rename_i other
      rw [checksumOf, advanced.currentVersionOf_other curated (Ne.symm other), checksumOf]

theorem sources_outcome (key : ProjectId × String) :
    (t.documents.items.map Document.sourceKey).count key =
      if call.sourceKey = key then 1 else (w.documents.items.map Document.sourceKey).count key := by
  have sources : key ∈ t.documents.items.map Document.sourceKey ↔
      call.sourceKey = key ∨ key ∈ w.documents.items.map Document.sourceKey := by
    rcases outcome.of_ok with ⟨same, leads⟩ | ⟨_, document, version, advanced⟩
    · rw [leads.documents]
      refine ⟨Or.inr, ?_⟩
      rintro (rfl | listed)
      · cases found : w.documentOf call.sourceKey with
        | none => simp [checksumOf, World.currentVersionOf, found] at same
        | some d =>
          obtain ⟨stored, isKey⟩ := documentOf_mem found
          exact List.mem_map.mpr ⟨d, stored, isKey⟩
      · exact listed
    · rw [advanced.documents]
      rcases advanced.continues.sources curated with ⟨same, known⟩ | ⟨appended, _⟩
      · have keys := congrArg (List.map Prod.fst) same
        simp only [List.map_map, Function.comp_def] at keys
        rw [advanced.isKey] at known
        rw [keys]
        exact ⟨Or.inr, fun either => either.elim (fun isKey => isKey ▸ known) id⟩
      · rw [appended, List.map_append, List.mem_append, List.map_cons, List.map_nil, List.mem_singleton, advanced.isKey,
          or_comm, eq_comm]
  have nodup := (outcome.curated curated).oneEach
  rw [nodup.count, curated.oneEach.count]
  by_cases isKey : call.sourceKey = key
  · rw [if_pos isKey, if_pos (sources.mpr (Or.inl isKey))]
  · rw [if_neg isKey]
    exact if_congr (sources.trans (or_iff_right isKey)) rfl rfl

end Step

theorem curated_empty : Curated {} := by
  constructor <;> simp

theorem faithful_after (parses : self.Parses) (steps : List (IngestCall × (Nat → Nat))) :
    ∃ w, Runs.after self.ingestion steps {} = some w ∧ Curated w ∧ self.Faithful (steps.map Prod.fst) w := by
  induction steps using List.reverseRecOn with
  | nil =>
    refine ⟨{}, rfl, curated_empty, ?_, ?_⟩
    · simp
    · simp
  | append_singleton steps step ih =>
    obtain ⟨w, run, curated, faithful⟩ := ih
    obtain ⟨t, result, taken, outcome⟩ := ingestion_outcome curated parses step
    have onward : Runs.after self.ingestion [step] w = some t := Runs.after_cons.mpr ⟨t, taken, rfl⟩
    refine ⟨t, Runs.after_append.mpr ⟨w, run, onward⟩, outcome.curated curated, ?_, ?_⟩
    · intro key
      rw [sources_outcome curated outcome, faithful.one, List.map_append, List.map_append]
      by_cases isKey : step.1.sourceKey = key
      · simp [isKey]
      · have other : key ≠ step.1.sourceKey := Ne.symm isKey
        simp only [isKey, if_false, List.map_cons, List.map_nil, List.mem_append, List.mem_singleton, other, or_false]
    · intro key call last
      rw [List.map_append, List.map_cons, List.map_nil, Runs.last_filter_append] at last
      rw [checksumOf_outcome curated outcome]
      by_cases isKey : step.1.sourceKey = key
      · simp only [isKey, decide_true, if_true, Option.some.injEq] at last
        rw [if_pos isKey, last]
      · simp only [isKey, decide_false, Bool.false_eq_true, if_false] at last
        rw [if_neg isKey]
        exact faithful.checksum key call last

theorem retains_after (curated : Curated w) (parses : self.Parses) {steps : List (IngestCall × (Nat → Nat))}
    (run : Runs.after self.ingestion steps w = some t) : Retains w t := by
  induction steps generalizing w with
  | nil =>
    cases run
    exact Retains.refl _
  | cons step steps ih =>
    obtain ⟨u, taken, onward⟩ := Runs.after_cons.mp run
    obtain ⟨v, result, taken', outcome⟩ := ingestion_outcome curated parses step
    rw [Option.some.inj (taken'.symm.trans taken)] at outcome
    exact (retains_of_outcome curated outcome).trans (ih (outcome.curated curated) onward)

/-- Over every sequence of calls each source has one document, whose id never
changes and whose current version is that of the last call for it; a version is
added exactly when the hash differs from the current one's, and no version or
node that was stored ever changes. -/
theorem history_faithful (parses : self.Parses) (steps : List (IngestCall × (Nat → Nat))) :
    ∃ w, Runs.after self.ingestion steps {} = some w ∧ self.Faithful (steps.map Prod.fst) w ∧
      (∀ step t, self.ingestion w step = some t → self.AddsVersion step.1 w t) ∧
      ∀ more t, Runs.after self.ingestion more w = some t → Retains w t := by
  obtain ⟨w, run, curated, faithful⟩ := faithful_after parses steps
  refine ⟨w, run, faithful, ?_, fun more t onward => retains_after curated parses onward⟩
  intro step t taken
  obtain ⟨u, result, taken', outcome⟩ := ingestion_outcome curated parses step
  rw [Option.some.inj (taken'.symm.trans taken)] at outcome
  exact addsVersion_of_outcome curated outcome

/-- A parser that makes one node of the content, and the content itself as hash. -/
def oneNode : DocumentIngestionService where
  parse artifact n := ({ nodes := [{ id := .v4 n, content := artifact.content.getD "" }] }, 1)
  sha256 := id
  decisions := true
  eventBus := true

theorem oneNode_parses : oneNode.Parses where
  drawn artifact n node listed := by
    rw [List.mem_singleton.mp listed]
    exact Uuid.fresh_between (Nat.le_refl n) (Nat.lt_succ_self n)
  distinct _ _ := List.nodup_singleton _

def readmeCall (content : String) : IngestCall × (Nat → Nat) :=
  ({ artifact := { sourceUri := "README.md", provider := "git", content := some content }, projectId := .v4 100 },
    fun _ => 0)

/-- Content that returns to an earlier hash. -/
theorem history_faithful_readme :
    ∃ w, Runs.after oneNode.ingestion [readmeCall "a", readmeCall "b", readmeCall "a"] {} = some w ∧
      oneNode.Faithful ([readmeCall "a", readmeCall "b", readmeCall "a"].map Prod.fst) w ∧
      (∀ step t, oneNode.ingestion w step = some t → oneNode.AddsVersion step.1 w t) ∧
      ∀ more t, Runs.after oneNode.ingestion more w = some t → Retains w t :=
  history_faithful oneNode_parses [readmeCall "a", readmeCall "b", readmeCall "a"]

end DocumentIngestionService

end Brain

namespace Brain
open Calls

namespace ParserLibraries
variable {libraries : ParserLibraries} {artifact : TaggedArtifact}

/-- Reading a PDF of no bytes raises. -/
def RefusesEmptyPdf (libraries : ParserLibraries) : Prop :=
  ∀ artifact, libraries.pdf artifact "" = .error ⟨"EmptyFileError", "Cannot read an empty file"⟩

theorem decode_bare (content : artifact.content = none) (rawBytesRef : artifact.rawBytesRef = none) :
    libraries.decode artifact.toSourceArtifact = .error undecodable := by
  simp [decode, content, rawBytesRef]

theorem parse_bare (refuses : libraries.RefusesEmptyPdf) (content : artifact.content = none)
    (rawBytesRef : artifact.rawBytesRef = none) {parser : DocumentParser} (registered : parser ∈ libraries.registry) :
    ∃ exception, parser.parse artifact = .error exception := by
  have undecoded : libraries.decode artifact.toSourceArtifact = .error undecodable := decode_bare content rawBytesRef
  have markdown : libraries.markdownParser.parse artifact = .error undecodable := by
    simp only [markdownParser, undecoded]
    rfl
  simp only [registry, List.mem_cons, List.not_mem_nil, or_false] at registered
  rcases registered with rfl | rfl | rfl | rfl | rfl
  · refine ⟨undecodable, ?_⟩
    simp only [adrParser, markdown]
    rfl
  · exact ⟨undecodable, markdown⟩
  · refine ⟨undecodable, ?_⟩
    simp only [htmlParser, decodeHtml, content, rawBytesRef, given_none]
    rfl
  · refine ⟨⟨"EmptyFileError", "Cannot read an empty file"⟩, ?_⟩
    simp only [pdfParser, content, Option.getD_none]
    exact refuses _
  · refine ⟨undecodable, ?_⟩
    simp only [xwikiSyntaxParser, undecoded]
    rfl

end ParserLibraries

namespace DocumentIngestionService
variable {self : DocumentIngestionService} {libraries : ParserLibraries} {artifact : TaggedArtifact}

theorem ingestSelected_bare (refuses : libraries.RefusesEmptyPdf) (content : artifact.content = none)
    (rawBytesRef : artifact.rawBytesRef = none) {projectId : ProjectId} {documentType : Option DocumentType}
    {repositoryId : Option RepositoryId} {commitSha : Option String} :
    ∃ exception, self.ingestSelected libraries artifact projectId documentType repositoryId commitSha =
      reraise ⟨.parserParse, false, exception⟩ := by
  unfold ingestSelected
  dsimp only
  split
  · exact ⟨_, rfl⟩
  · rename_i parser selected
    have registered : parser ∈ libraries.registry := List.mem_of_find?_eq_some selected
    let hashed : TaggedArtifact :=
      { artifact with contentHash := some (artifact.contentHash.getD (self.contentHash artifact.toSourceArtifact)) }
    have bare : hashed.content = none ∧ hashed.rawBytesRef = none := ⟨content, rawBytesRef⟩
    obtain ⟨exception, refused⟩ := ParserLibraries.parse_bare refuses bare.1 bare.2 registered
    rw [refused]
    exact ⟨exception, rfl⟩

theorem ingestDocument_stored (refuses : libraries.RefusesEmptyPdf) {o : Outside} {w : World} {document : Document}
    {command : IngestDocumentCommand} (stored : w.documents.get command.documentId = some document) :
    Meets o (self.ingestDocument libraries command) w (byResult (fun _ _ => False) (fun _ t => t = w)) := by
  refine Meets.bind (Meets.query ?_ fun _ _ _ => rfl)
  rw [stored]
  dsimp only [byResult]
  let artifact : TaggedArtifact :=
    { sourceUri := document.source.uri, provider := document.source.provider, mimeType := document.source.mimeType }
  obtain ⟨exception, refused⟩ : ∃ exception,
      self.ingestSelected libraries artifact document.projectId (some document.type) =
        reraise ⟨.parserParse, false, exception⟩ := ingestSelected_bare refuses rfl rfl
  rw [refused]
  exact Meets.bind (Meets.reraise rfl)

theorem dispatchIngestDocument_keeps (refuses : libraries.RefusesEmptyPdf) (command : IngestDocumentCommand)
    (o : Outside) (w : World) : Meets o (self.dispatchIngestDocument libraries command) w (fun _ t => t = w) := by
  refine Meets.swallow ?_
  cases found : w.documents.get command.documentId with
  | some document =>
    refine Meets.seq _ (ingestDocument_stored refuses found) (fun _ _ ended => ended.elim) ?_
    exact fun _ _ unchanged => unchanged
  | none =>
    have missing : Meets o (self.ingestDocument libraries command) w (fun _ t => t = w) := by
      refine Meets.bind (Meets.query ?_ fun _ _ _ => rfl)
      rw [found]
      dsimp only [byResult]
      exact Meets.pure rfl
    refine Meets.seq _ missing ?_ (fun _ _ unchanged => unchanged)
    exact fun _ _ unchanged => Meets.pure unchanged

/-- Whatever `INGEST_DOCUMENT` commands are dispatched, in whatever number and with
whatever failures: every document keeps its current version, every version its
nodes, and nothing is added. -/
theorem reingestion_keeps (refuses : libraries.RefusesEmptyPdf) (commands : List IngestDocumentCommand)
    (o : Outside) (n : Nat) (w : World) :
    (forEach (self.dispatchIngestDocument libraries) commands o n w).store = w :=
  Meets.forEach (fun t => t = w) rfl
    (fun command _ t unchanged => unchanged ▸ dispatchIngestDocument_keeps refuses command o t) n

def oneNodeLibraries : ParserLibraries where
  b64decode text := .ok text
  markdown _ text n := ({ nodes := [{ id := .v4 n, content := text }] }, 1)
  adrSections _ parsed := parsed
  html _ text n := ({ nodes := [{ id := .v4 n, content := text }] }, 1)
  pdf _ text :=
    if text = "" then .error ⟨"EmptyFileError", "Cannot read an empty file"⟩
    else .ok fun n => ({ nodes := [{ id := .v4 n, content := text }] }, 1)
  xwiki _ text n := ({ nodes := [{ id := .v4 n, content := text }] }, 1)

theorem reingestion_keeps_readme :
    (forEach (oneNode.dispatchIngestDocument oneNodeLibraries) [⟨.v4 1, none⟩, ⟨.v4 1, none⟩] Outside.clean 0
      (oneNode.perform (readmeCall "a").1 Outside.clean 0 {}).store).store =
      (oneNode.perform (readmeCall "a").1 Outside.clean 0 {}).store :=
  reingestion_keeps (fun _ => rfl) [⟨.v4 1, none⟩, ⟨.v4 1, none⟩] Outside.clean 0
    (oneNode.perform (readmeCall "a").1 Outside.clean 0 {}).store

end DocumentIngestionService

end Brain
