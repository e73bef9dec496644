import Brain.CodeGraph.Inheritance

namespace Brain

theorem revisionKey_injective {repositoryId repositoryId' : RepositoryId} {revision revision' : String}
    (same : revisionKey repositoryId revision = revisionKey repositoryId' revision') :
    repositoryId = repositoryId' ∧ revision = revision' :=
  ⟨Uuid.text_injective (congrArg Prod.fst same), congrArg Prod.snd same⟩

/-- What a code graph stores for a repository and revision. -/
structure RevisionFacts where
  symbols : List ParsedSymbol := []
  relations : List StoredRelation := []
  files : List ParsedFile := []

def RevisionFacts.bare (facts : RevisionFacts) : List ParsedSymbol × List ParsedRelation × List ParsedFile :=
  (facts.symbols, facts.relations.map (·.toParsedRelation), facts.files)

namespace InMemoryCodeGraph
variable {graph : InMemoryCodeGraph} {key : RevisionKey}

def facts (graph : InMemoryCodeGraph) (key : RevisionKey) : RevisionFacts where
  symbols := (graph.symbols.filter fun symbol => symbol.graphKey.1 = key).items
  relations := (graph.relations.filter fun relation => relation.graphKey.1 = key).items
  files := (graph.files.filter fun parsed => parsed.graphKey.1 = key).items

theorem expireRevision_facts {repositoryId : RepositoryId} {revision : String} :
    (graph.expireRevision repositoryId revision).facts key =
      if key = revisionKey repositoryId revision then {} else graph.facts key := by
  have part : ∀ {α κ : Type} (k : α → RevisionKey × κ) (l : List α),
      (l.filter fun a => (k a).1 ≠ revisionKey repositoryId revision).filter (fun a => (k a).1 = key) =
        if key = revisionKey repositoryId revision then [] else l.filter fun a => (k a).1 = key := by
    intro α κ k l
    rw [List.filter_filter]
    split
    · rename_i same
      rw [List.filter_eq_nil_iff]
      intro a _
      simp [same]
    · rename_i other
      apply List.filter_congr
      intro a _
      by_cases own : (k a).1 = key
      · simp [own, other]
      · simp [own]
  unfold facts expireRevision Keyed.filter
  dsimp only
  rw [part, part, part]
  split <;> rfl

theorem expireRevision_same {repositoryId : RepositoryId} {revision : String} :
    ((graph.expireRevision repositoryId revision).symbols = graph.symbols ∧
      (graph.expireRevision repositoryId revision).relations = graph.relations ∧
      (graph.expireRevision repositoryId revision).files = graph.files) ↔
      graph.facts (revisionKey repositoryId revision) = {} := by
  have part : ∀ {α κ : Type} {k : α → RevisionKey × κ} (t : Keyed k),
      t.filter (fun a => (k a).1 ≠ revisionKey repositoryId revision) = t ↔
        (t.filter fun a => (k a).1 = revisionKey repositoryId revision).items = [] := by
    intro α κ k t
    have items : t.filter (fun a => (k a).1 ≠ revisionKey repositoryId revision) = t ↔
        t.items.filter (fun a => (k a).1 ≠ revisionKey repositoryId revision) = t.items :=
      ⟨congrArg Keyed.items, fun same => Keyed.ext_items same⟩
    rw [items, List.filter_eq_self]
    show _ ↔ t.items.filter _ = []
    rw [List.filter_eq_nil_iff]
    simp
  unfold expireRevision facts
  dsimp only
  rw [part, part, part, RevisionFacts.mk.injEq]

theorem saveParsedFiles_symbols (build : Nat) (parsedFiles : List ParsedFile) :
    (parsedFiles.foldl (fun graph parsed => graph.saveParsedFile build parsed) graph).symbols =
      (parsedFiles.flatMap (·.symbols)).foldl Keyed.upsert graph.symbols := by
  induction parsedFiles generalizing graph with
  | nil => rfl
  | cons parsed parsedFiles ih =>
    rw [List.foldl_cons, ih, List.flatMap_cons, List.foldl_append]
    rfl

theorem saveParsedFiles_relations (build : Nat) (parsedFiles : List ParsedFile) :
    (parsedFiles.foldl (fun graph parsed => graph.saveParsedFile build parsed) graph).relations =
      (parsedFiles.flatMap (·.drawIds build)).foldl Keyed.upsert graph.relations := by
  induction parsedFiles generalizing graph with
  | nil => rfl
  | cons parsed parsedFiles ih =>
    rw [List.foldl_cons, ih, List.flatMap_cons, List.foldl_append]
    rfl

theorem saveParsedFiles_files (build : Nat) (parsedFiles : List ParsedFile) :
    (parsedFiles.foldl (fun graph parsed => graph.saveParsedFile build parsed) graph).files =
      parsedFiles.foldl Keyed.upsert graph.files := by
  induction parsedFiles generalizing graph with
  | nil => rfl
  | cons parsed parsedFiles ih =>
    rw [List.foldl_cons, ih, List.foldl_cons]
    rfl

theorem saveParsedFiles_builds (build : Nat) (parsedFiles : List ParsedFile) :
    (parsedFiles.foldl (fun graph parsed => graph.saveParsedFile build parsed) graph).builds = graph.builds :=
  view_foldl_same InMemoryCodeGraph.builds
    (f := fun graph parsed => InMemoryCodeGraph.saveParsedFile graph build parsed) (fun _ _ => rfl) parsedFiles graph

end InMemoryCodeGraph

structure ParsedFile.Within (key : RevisionKey) (parsed : ParsedFile) : Prop where
  symbols : ∀ symbol ∈ parsed.symbols, symbol.graphKey.1 = key
  relations : ∀ relation ∈ parsed.relations, revisionKey relation.repositoryId relation.revision = key
  file : parsed.graphKey.1 = key

theorem mem_drawIds {parsed : ParsedFile} {build : Nat} {relation : StoredRelation}
    (member : relation ∈ parsed.drawIds build) :
    relation.toParsedRelation ∈ parsed.relations ∧ relation.id.build = build ∧ relation.id.path = parsed.path := by
  obtain ⟨draw, bound, rfl⟩ := List.mem_mapIdx.mp member
  exact ⟨List.getElem_mem bound, rfl, rfl⟩

theorem drawIds_bare (parsed : ParsedFile) (build : Nat) :
    (parsed.drawIds build).map (·.toParsedRelation) = parsed.relations := by
  apply List.ext_getElem
  · simp [ParsedFile.drawIds]
  · intro draw bound bound'
    simp [ParsedFile.drawIds]

theorem flatMap_drawIds_bare (parsedFiles : List ParsedFile) (build : Nat) :
    (parsedFiles.flatMap (·.drawIds build)).map (·.toParsedRelation) = parsedFiles.flatMap (·.relations) := by
  rw [List.map_flatMap]
  congr 1
  funext parsed
  exact drawIds_bare parsed build

theorem nodup_drawIds {parsedFiles : List ParsedFile} (paths : (parsedFiles.map (·.path)).Nodup) (build : Nat) :
    ((parsedFiles.flatMap (·.drawIds build)).map StoredRelation.graphKey).Nodup := by
  have ids : ((parsedFiles.flatMap (·.drawIds build)).map (·.id)).Nodup := by
    induction parsedFiles with
    | nil => simp
    | cons parsed parsedFiles ih =>
      simp only [List.map_cons, List.nodup_cons] at paths
      rw [List.flatMap_cons, List.map_append, List.nodup_append]
      refine ⟨?_, ih paths.2, ?_⟩
      · have draws : ((parsed.drawIds build).map (·.id)).map RelationId.draw = List.range parsed.relations.length := by
          apply List.ext_getElem
          · simp [ParsedFile.drawIds]
          · intro draw bound bound'
            simp [ParsedFile.drawIds]
        exact List.Nodup.of_map RelationId.draw (draws ▸ List.nodup_range)
      · intro id here other later same
        obtain ⟨relation, member, rfl⟩ := List.mem_map.mp here
        obtain ⟨relation', member', rfl⟩ := List.mem_map.mp later
        obtain ⟨parsed', listed, drawn⟩ := List.mem_flatMap.mp member'
        have path := (mem_drawIds member).2.2
        rw [same, (mem_drawIds drawn).2.2] at path
        exact paths.1 (List.mem_map.mpr ⟨parsed', listed, path⟩)
  exact List.Nodup.of_map Prod.snd (by rw [List.map_map]; exact ids)

theorem drawIds_within {parsedFiles : List ParsedFile} {key : RevisionKey} (within : ∀ parsed ∈ parsedFiles, parsed.Within key)
    {build : Nat} {relation : StoredRelation} (member : relation ∈ parsedFiles.flatMap (·.drawIds build)) :
    relation.graphKey.1 = key := by
  obtain ⟨parsed, listed, drawn⟩ := List.mem_flatMap.mp member
  exact (within parsed listed).relations _ (mem_drawIds drawn).1

namespace CodeIntelligenceService
variable {parsedFiles : List ParsedFile} {graph : InMemoryCodeGraph} {key : RevisionKey}

theorem persist_symbols : (persist parsedFiles graph).symbols =
    (parsedFiles.flatMap (·.symbols) ++ parsedFiles.flatMap (·.symbols)).foldl Keyed.upsert graph.symbols := by
  unfold persist
  dsimp only
  rw [InMemoryCodeGraph.saveParsedFiles_symbols, List.foldl_append]
  rfl

theorem persist_relations : (persist parsedFiles graph).relations =
    (parsedFiles.flatMap (·.drawIds graph.builds) ++ parsedFiles.flatMap (·.drawIds graph.builds)).foldl Keyed.upsert
      graph.relations := by
  unfold persist
  dsimp only
  rw [InMemoryCodeGraph.saveParsedFiles_relations, List.foldl_append]
  rfl

theorem persist_files : (persist parsedFiles graph).files = parsedFiles.foldl Keyed.upsert graph.files := by
  unfold persist
  dsimp only
  rw [InMemoryCodeGraph.saveParsedFiles_files]
  rfl

theorem persist_builds : (persist parsedFiles graph).builds = graph.builds + 1 := by
  unfold persist
  dsimp only
  rw [InMemoryCodeGraph.saveParsedFiles_builds]
  rfl

theorem relations_twice (paths : (parsedFiles.map (·.path)).Nodup) (build : Nat) (t : Keyed StoredRelation.graphKey) :
    (parsedFiles.flatMap (·.drawIds build) ++ parsedFiles.flatMap (·.drawIds build)).foldl Keyed.upsert t =
      (parsedFiles.flatMap (·.drawIds build)).foldl Keyed.upsert t := by
  rw [List.foldl_append]
  exact Keyed.foldl_upsert_stored fun relation member => Keyed.stored_foldl_upsert (nodup_drawIds paths build) member

theorem symbols_within (within : ∀ parsed ∈ parsedFiles, parsed.Within key) {symbol : ParsedSymbol}
    (member : symbol ∈ parsedFiles.flatMap (·.symbols)) : symbol.graphKey.1 = key := by
  obtain ⟨parsed, listed, inFile⟩ := List.mem_flatMap.mp member
  exact (within parsed listed).symbols symbol inFile

theorem persist_facts_symbols (within : ∀ parsed ∈ parsedFiles, parsed.Within key) (nothing : graph.facts key = {}) :
    ((persist parsedFiles graph).facts key).symbols =
      ((parsedFiles.flatMap (·.symbols) ++ parsedFiles.flatMap (·.symbols)).foldl Keyed.upsert
        (Keyed.empty : Keyed ParsedSymbol.graphKey)).items := by
  have start : graph.symbols.filter (fun symbol => symbol.graphKey.1 = key) = Keyed.empty :=
    Keyed.ext_items (congrArg RevisionFacts.symbols nothing)
  have own : ∀ symbol ∈ parsedFiles.flatMap (·.symbols) ++ parsedFiles.flatMap (·.symbols),
      decide (symbol.graphKey.1 = key) = true :=
    fun symbol member => by simpa using symbols_within within (by simpa using member)
  have part := Keyed.filter_foldl_upsert (p := fun k => decide (k.1 = key)) own graph.symbols
  unfold InMemoryCodeGraph.facts
  dsimp only
  rw [persist_symbols, part, start]

theorem persist_facts_relations (within : ∀ parsed ∈ parsedFiles, parsed.Within key)
    (paths : (parsedFiles.map (·.path)).Nodup) (nothing : graph.facts key = {}) :
    ((persist parsedFiles graph).facts key).relations = parsedFiles.flatMap (·.drawIds graph.builds) := by
  have start : graph.relations.filter (fun relation => relation.graphKey.1 = key) = Keyed.empty :=
    Keyed.ext_items (congrArg RevisionFacts.relations nothing)
  have own : ∀ relation ∈ parsedFiles.flatMap (·.drawIds graph.builds), decide (relation.graphKey.1 = key) = true :=
    fun relation member => by simpa using drawIds_within within member
  have part := Keyed.filter_foldl_upsert (p := fun k => decide (k.1 = key)) own graph.relations
  have drawn := Keyed.items_foldl_upsert_fresh (t := (Keyed.empty : Keyed StoredRelation.graphKey)) (by simp)
    (nodup_drawIds paths graph.builds)
  unfold InMemoryCodeGraph.facts
  dsimp only
  rw [persist_relations, relations_twice paths, part, start, drawn, Keyed.items_empty, List.nil_append]

theorem persist_facts_files (within : ∀ parsed ∈ parsedFiles, parsed.Within key) (nothing : graph.facts key = {}) :
    ((persist parsedFiles graph).facts key).files =
      (parsedFiles.foldl Keyed.upsert (Keyed.empty : Keyed ParsedFile.graphKey)).items := by
  have start : graph.files.filter (fun parsed => parsed.graphKey.1 = key) = Keyed.empty :=
    Keyed.ext_items (congrArg RevisionFacts.files nothing)
  have own : ∀ parsed ∈ parsedFiles, decide (parsed.graphKey.1 = key) = true :=
    fun parsed member => by simpa using (within parsed member).file
  have part := Keyed.filter_foldl_upsert (p := fun k => decide (k.1 = key)) own graph.files
  unfold InMemoryCodeGraph.facts
  dsimp only
  rw [persist_files, part, start]

theorem persist_facts {graph' : InMemoryCodeGraph} (within : ∀ parsed ∈ parsedFiles, parsed.Within key)
    (paths : (parsedFiles.map (·.path)).Nodup) (nothing : graph.facts key = {}) (nothing' : graph'.facts key = {}) :
    ((persist parsedFiles graph).facts key).bare = ((persist parsedFiles graph').facts key).bare := by
  unfold RevisionFacts.bare
  rw [persist_facts_symbols within nothing, persist_facts_symbols within nothing', persist_facts_files within nothing,
    persist_facts_files within nothing', persist_facts_relations within paths nothing,
    persist_facts_relations within paths nothing', flatMap_drawIds_bare, flatMap_drawIds_bare]

theorem persist_facts_other (within : ∀ parsed ∈ parsedFiles, parsed.Within key) {other : RevisionKey}
    (different : key ≠ other) : (persist parsedFiles graph).facts other = graph.facts other := by
  have symbols : ∀ symbol ∈ parsedFiles.flatMap (·.symbols) ++ parsedFiles.flatMap (·.symbols),
      decide (symbol.graphKey.1 = other) = false := by
    intro symbol member
    have isOwn : symbol.graphKey.1 = key := symbols_within within (by simpa using member)
    simpa [isOwn] using different
  have relations : ∀ relation ∈ parsedFiles.flatMap (·.drawIds graph.builds) ++
      parsedFiles.flatMap (·.drawIds graph.builds), decide (relation.graphKey.1 = other) = false := by
    intro relation member
    have drawn : relation ∈ parsedFiles.flatMap (·.drawIds graph.builds) := by simpa using member
    have isOwn := drawIds_within within drawn
    simpa [isOwn] using different
  have files : ∀ parsed ∈ parsedFiles, decide (parsed.graphKey.1 = other) = false :=
    fun parsed member => by simpa [(within parsed member).file] using different
  have symbolsPart := Keyed.filter_foldl_upsert_other (p := fun k => decide (k.1 = other)) symbols graph.symbols
  have relationsPart := Keyed.filter_foldl_upsert_other (p := fun k => decide (k.1 = other)) relations graph.relations
  have filesPart := Keyed.filter_foldl_upsert_other (p := fun k => decide (k.1 = other)) files graph.files
  unfold InMemoryCodeGraph.facts
  rw [persist_symbols, persist_relations, persist_files, symbolsPart, relationsPart, filesPart]

/-- The ids of the stored relations were drawn by the builds made so far. -/
def Numbered (graph : InMemoryCodeGraph) : Prop := ∀ relation ∈ graph.relations.items, relation.id.build < graph.builds

theorem persist_relations_items (numbered : Numbered graph) (paths : (parsedFiles.map (·.path)).Nodup) :
    (persist parsedFiles graph).relations.items =
      graph.relations.items ++ parsedFiles.flatMap (·.drawIds graph.builds) := by
  rw [persist_relations, relations_twice paths]
  apply Keyed.items_foldl_upsert_fresh _ (nodup_drawIds paths graph.builds)
  intro relation drawn stored old same
  obtain ⟨parsed, _, inFile⟩ := List.mem_flatMap.mp drawn
  have before := numbered stored old
  have build : stored.id.build = relation.id.build := congrArg (fun k => k.2.build) same
  rw [build, (mem_drawIds inFile).2.1] at before
  omega

theorem persist_numbered (numbered : Numbered graph) (paths : (parsedFiles.map (·.path)).Nodup) :
    Numbered (persist parsedFiles graph) := by
  intro relation member
  rw [persist_relations_items numbered paths] at member
  rw [persist_builds]
  rcases List.mem_append.mp member with old | drawn
  · have before := numbered relation old
    omega
  · obtain ⟨parsed, _, inFile⟩ := List.mem_flatMap.mp drawn
    rw [(mem_drawIds inFile).2.1]
    omega

end CodeIntelligenceService

namespace GraphResolver
variable {self : GraphResolver} {parsed : ParsedFile}

theorem resolved_within (reads : self.Reads) (member : parsed ∈ self.files) :
    (self.resolved parsed).Within (revisionKey self.repositoryId self.revision) := by
  have read := reads parsed member
  constructor
  · intro symbol inFile
    have declares := read.declares symbol inFile
    unfold ParsedSymbol.graphKey
    dsimp only
    rw [declares.identity]
    show revisionKey parsed.repositoryId parsed.revision = _
    rw [read.repositoryId, read.revision]
  · intro relation inFile
    rcases List.mem_append.mp inFile with isRead | isAdded
    · have relates := read.relates relation isRead
      rw [relates.repositoryId, relates.revision]
      show revisionKey parsed.repositoryId parsed.revision = _
      rw [read.repositoryId, read.revision]
    · obtain ⟨source, target, _, _, joins⟩ := mem_added isAdded
      rw [joins.repositoryId, joins.revision]
  · show revisionKey parsed.repositoryId parsed.revision = _
    rw [read.repositoryId, read.revision]

/-- The parser reads no relation off the files, and nothing in them refers to
another definition. -/
def Unrelated (self : GraphResolver) : Prop :=
  ∀ parsed ∈ self.files, parsed.relations = [] ∧
    ∀ source target, self.Refers parsed source target → source.id = target.id

theorem unrelated_iff : (self.files.map self.resolved).flatMap (·.relations) = [] ↔ self.Unrelated := by
  rw [List.flatMap_eq_nil_iff]
  simp only [List.mem_map, forall_exists_index, and_imp, forall_apply_eq_imp_iff₂]
  constructor
  · intro nothing parsed member
    obtain ⟨noneRead, noneAdded⟩ := List.append_eq_nil_iff.mp (nothing parsed member)
    refine ⟨noneRead, ?_⟩
    intro source target refers
    by_contra different
    obtain ⟨relation, isAdded, _⟩ := added_of_refers refers different
    rw [noneAdded] at isAdded
    cases isAdded
  · intro unrelated parsed member
    obtain ⟨noneRead, same⟩ := unrelated parsed member
    have noneAdded : self.added parsed = [] := by
      rw [List.eq_nil_iff_forall_not_mem]
      intro relation isAdded
      obtain ⟨source, target, refers, different, _⟩ := mem_added isAdded
      exact different (same source target refers)
    show parsed.relations ++ self.added parsed = []
    rw [noneRead, noneAdded, List.append_nil]

end GraphResolver

/-- A call of `build_revision`. -/
structure BuildCall where
  repositoryId : RepositoryId
  revision : String
  files : Keyed SourceFile.path
  replace : Bool := false

def BuildCall.key (call : BuildCall) : RevisionKey := revisionKey call.repositoryId call.revision

/-- A relation as far as it does not hang on generated ids. -/
structure Occurrence where
  relationType : CodeRelationType
  source : SymbolIdentity
  target : SymbolIdentity
  callSite : Option String
  deriving DecidableEq

def ParsedRelation.occurrence (relation : ParsedRelation) : Occurrence :=
  ⟨relation.relationType, relation.sourceIdentity, relation.targetIdentity, relation.metadata.lookup "call_site"⟩

namespace CodeIntelligenceService
variable {self : CodeIntelligenceService} {graph : InMemoryCodeGraph} {call : BuildCall}

def build (self : CodeIntelligenceService) (call : BuildCall) (graph : InMemoryCodeGraph) :
    Except PyException CodeIndexResult × InMemoryCodeGraph :=
  self.buildRevision call.repositoryId call.revision call.files call.replace graph

def after (self : CodeIntelligenceService) (history : List BuildCall) : InMemoryCodeGraph :=
  history.foldl (fun graph call => (self.build call graph).2) {}

def stored (graph : InMemoryCodeGraph) (key : RevisionKey) (occurrence : Occurrence) : Nat :=
  (((graph.facts key).relations.map (·.toParsedRelation)).map ParsedRelation.occurrence).count occurrence

/-- What a call leaves: a build that replaces and returns leaves what its files
give on an empty store, and nothing else changes; one that raises leaves all as
it was; one that does not replace can be repeated without storing a relation
more often. -/
structure Rebuilds (service : CodeIntelligenceService) (graph : InMemoryCodeGraph) (call : BuildCall) : Prop where
  replaced : call.replace = true → ∀ result, (service.build call graph).1 = .ok result →
    ((service.build call graph).2.facts call.key).bare = ((service.build call {}).2.facts call.key).bare ∧
      ∀ repositoryId revision, (repositoryId, revision) ≠ (call.repositoryId, call.revision) →
        (service.build call graph).2.facts (revisionKey repositoryId revision) =
          graph.facts (revisionKey repositoryId revision)
  kept : ∀ exception, (service.build call graph).1 = .error exception →
    (service.build call graph).2.symbols = graph.symbols ∧ (service.build call graph).2.relations = graph.relations ∧
      (service.build call graph).2.files = graph.files
  once : call.replace = false → ∀ occurrence,
    stored (service.build call (service.build call graph).2).2 call.key occurrence =
      stored (service.build call graph).2 call.key occurrence

def resolverOf (self : CodeIntelligenceService) (call : BuildCall) : GraphResolver :=
  self.resolver call.repositoryId call.revision call.files

/-- A base of a class of the files starts with an imported name. -/
def Fails (self : CodeIntelligenceService) (call : BuildCall) : Prop :=
  ∃ path tree node base entry target,
    self.ImportedBase call.repositoryId call.revision call.files path tree node base entry target

/-- When a call does no harm: one that replaces needs files that resolve, or a
revision of which nothing is stored; one that does not needs files that do not
resolve, or that relate nothing. -/
def Harmless (self : CodeIntelligenceService) (graph : InMemoryCodeGraph) (call : BuildCall) : Prop :=
  (call.replace = true → self.Fails call → graph.facts call.key = {}) ∧
    (call.replace = false → ¬ self.Fails call → (self.resolverOf call).Unrelated)

/-- The store that a call parses and resolves its files over. -/
def startOf (call : BuildCall) (graph : InMemoryCodeGraph) : InMemoryCodeGraph :=
  if call.replace then graph.expireRevision call.repositoryId call.revision else graph

theorem build_of_fails (fails : self.Fails call) (graph : InMemoryCodeGraph) :
    ∃ exception, self.build call graph =
      (.error exception, { startOf call graph with builds := (startOf call graph).builds + 1 }) := by
  obtain ⟨parsed, member, inherits⟩ := inherits_iff.mpr fails
  obtain ⟨exception, raises⟩ := GraphResolver.resolveFile_of_inherits inherits
  obtain ⟨exception, raises⟩ := Checked.mapM_of_error member raises
  refine ⟨exception, ?_⟩
  unfold build buildRevision GraphResolver.resolve
  rw [raises]
  rfl

theorem build_of_not_fails (resolves : ¬ self.Fails call) (graph : InMemoryCodeGraph) :
    (∃ result, (self.build call graph).1 = .ok result) ∧ (self.build call graph).2 =
      persist ((self.resolverOf call).files.map (self.resolverOf call).resolved) (startOf call graph) := by
  have alone : ∀ parsed ∈ (self.resolverOf call).files, ¬ (self.resolverOf call).Inherits parsed :=
    fun parsed member inherits => resolves (inherits_iff.mp ⟨parsed, member, inherits⟩)
  have resolved := GraphResolver.resolve_eq_ok alone
  unfold build buildRevision
  unfold resolverOf at resolved
  rw [resolved]
  exact ⟨⟨_, rfl⟩, rfl⟩

theorem parseFiles_paths {repositoryId : RepositoryId} {revision : String} {files : Keyed SourceFile.path} :
    ((self.parseFiles repositoryId revision files).map (·.path)).Nodup := by
  have different : files.items.Pairwise fun source source' => source.path ≠ source'.path :=
    List.pairwise_map.mp files.nodup
  refine List.pairwise_map.mpr (different.filterMap _ ?_)
  intro source source' other parsed made parsed' made'
  have path : ∀ {source : SourceFile} {parsed : ParsedFile},
      (if ".py".toList.isSuffixOf source.path.toList then
        self.parser.parse repositoryId revision source.path source.content else none) = some parsed →
      parsed.path = source.path := by
    intro source parsed made
    split at made
    · obtain ⟨tree, _, rfl⟩ := Option.map_eq_some_iff.mp made
      rfl
    · cases made
  rw [path made, path made']
  exact other

theorem resolved_paths : (((self.resolverOf call).files.map (self.resolverOf call).resolved).map (·.path)).Nodup := by
  rw [List.map_map]
  exact parseFiles_paths

theorem all_within : ∀ parsed ∈ (self.resolverOf call).files.map (self.resolverOf call).resolved, parsed.Within call.key := by
  intro parsed member
  obtain ⟨source, inFiles, rfl⟩ := List.mem_map.mp member
  exact GraphResolver.resolved_within resolver_reads inFiles

theorem numbered_startOf (numbered : Numbered graph) : Numbered (startOf call graph) := by
  unfold startOf
  split
  · exact fun relation member => numbered relation (List.mem_filter.mp member).1
  · exact numbered

theorem numbered_build (numbered : Numbered graph) (call : BuildCall) : Numbered (self.build call graph).2 := by
  by_cases fails : self.Fails call
  · obtain ⟨exception, raises⟩ := build_of_fails fails graph
    rw [raises]
    intro relation member
    have before : relation.id.build < (startOf call graph).builds := numbered_startOf numbered relation member
    show relation.id.build < (startOf call graph).builds + 1
    omega
  · rw [(build_of_not_fails fails graph).2]
    exact persist_numbered (numbered_startOf numbered) resolved_paths

theorem numbered_after (history : List BuildCall) : Numbered (self.after history) := by
  refine List.foldlRecOn _ _ ?_ fun _ numbered call _ => numbered_build numbered call
  intro relation member
  cases member

theorem stored_persist {parsedFiles : List ParsedFile} (within : ∀ parsed ∈ parsedFiles, parsed.Within call.key)
    (paths : (parsedFiles.map (·.path)).Nodup) (numbered : Numbered graph) (occurrence : Occurrence) :
    stored (persist parsedFiles graph) call.key occurrence = stored graph call.key occurrence +
      ((parsedFiles.flatMap (·.relations)).map ParsedRelation.occurrence).count occurrence := by
  have own : (parsedFiles.flatMap (·.drawIds graph.builds)).filter (fun relation => relation.graphKey.1 = call.key) =
      parsedFiles.flatMap (·.drawIds graph.builds) := by
    rw [List.filter_eq_self]
    intro relation member
    simpa using drawIds_within within member
  unfold stored InMemoryCodeGraph.facts Keyed.filter
  dsimp only
  rw [persist_relations_items numbered paths, List.filter_append, own, List.map_append, List.map_append, List.count_append,
    flatMap_drawIds_bare]

theorem startOf_keep (keeps : call.replace = false) (graph : InMemoryCodeGraph) : startOf call graph = graph := by
  rw [startOf, keeps, if_neg Bool.false_ne_true]

theorem startOf_replace (replaces : call.replace = true) (graph : InMemoryCodeGraph) :
    startOf call graph = graph.expireRevision call.repositoryId call.revision := by
  rw [startOf, if_pos replaces]

theorem once_iff (numbered : Numbered graph) (keeps : call.replace = false) (resolves : ¬ self.Fails call) :
    (∀ occurrence, stored (self.build call (self.build call graph).2).2 call.key occurrence =
      stored (self.build call graph).2 call.key occurrence) ↔ (self.resolverOf call).Unrelated := by
  have first := (build_of_not_fails resolves graph).2
  have second := (build_of_not_fails resolves (self.build call graph).2).2
  have again : Numbered (self.build call graph).2 := numbered_build numbered call
  rw [startOf_keep keeps] at first second
  rw [← GraphResolver.unrelated_iff]
  have counts : ∀ occurrence, stored (self.build call (self.build call graph).2).2 call.key occurrence =
      stored (self.build call graph).2 call.key occurrence +
        ((((self.resolverOf call).files.map (self.resolverOf call).resolved).flatMap (·.relations)).map
          ParsedRelation.occurrence).count occurrence := by
    intro occurrence
    rw [second, stored_persist all_within resolved_paths again]
  constructor
  · intro same
    rw [List.eq_nil_iff_forall_not_mem]
    intro relation member
    have count := (counts relation.occurrence).symm.trans (same relation.occurrence)
    have positive := List.count_pos_iff.mpr (List.mem_map_of_mem (f := ParsedRelation.occurrence) member)
    omega
  · intro nothing occurrence
    rw [counts, nothing, List.map_nil, List.count_nil, Nat.add_zero]

theorem replaced_of_returns (replaces : call.replace = true) (resolves : ¬ self.Fails call) :
    ((self.build call graph).2.facts call.key).bare = ((self.build call {}).2.facts call.key).bare ∧
      ∀ repositoryId revision, (repositoryId, revision) ≠ (call.repositoryId, call.revision) →
        (self.build call graph).2.facts (revisionKey repositoryId revision) =
          graph.facts (revisionKey repositoryId revision) := by
  have expired : ∀ graph : InMemoryCodeGraph, (startOf call graph).facts call.key = {} := by
    intro graph
    rw [startOf_replace replaces, InMemoryCodeGraph.expireRevision_facts]
    exact if_pos rfl
  constructor
  · rw [(build_of_not_fails resolves graph).2, (build_of_not_fails resolves {}).2]
    exact persist_facts all_within resolved_paths (expired graph) (expired {})
  · intro repositoryId revision other
    have different : revisionKey repositoryId revision ≠ call.key := by
      intro same
      obtain ⟨rfl, rfl⟩ := revisionKey_injective same
      exact other rfl
    rw [(build_of_not_fails resolves graph).2, persist_facts_other all_within different.symm, startOf_replace replaces,
      InMemoryCodeGraph.expireRevision_facts]
    exact if_neg different

/-- After any history of builds, the next call replaces its revision, leaves all
as it was when it raises, and can be repeated, exactly when it is harmless. -/
theorem rebuilds_iff (self : CodeIntelligenceService) (history : List BuildCall) (call : BuildCall) :
    self.Rebuilds (self.after history) call ↔ self.Harmless (self.after history) call := by
  have numbered : Numbered (self.after history) := numbered_after history
  generalize self.after history = graph at numbered
  constructor
  · intro rebuilds
    constructor
    · intro replaces fails
      obtain ⟨exception, raises⟩ := build_of_fails fails graph
      have kept := rebuilds.kept exception (by rw [raises])
      rw [raises, startOf_replace replaces] at kept
      exact InMemoryCodeGraph.expireRevision_same.mp kept
    · intro keeps resolves
      exact (once_iff numbered keeps resolves).mp (rebuilds.once keeps)
  · rintro ⟨nothing, unrelated⟩
    constructor
    · intro replaces result returns
      apply replaced_of_returns replaces
      intro fails
      obtain ⟨exception, raises⟩ := build_of_fails fails graph
      rw [raises] at returns
      cases returns
    · intro exception raises
      have fails : self.Fails call := by
        by_contra resolves
        obtain ⟨result, returns⟩ := (build_of_not_fails resolves graph).1
        rw [raises] at returns
        cases returns
      obtain ⟨exception', state⟩ := build_of_fails fails graph
      rw [state]
      cases replaces : call.replace with
      | true =>
        rw [startOf_replace replaces]
        exact InMemoryCodeGraph.expireRevision_same.mpr (nothing replaces fails)
      | false =>
        rw [startOf_keep replaces]
        exact ⟨rfl, rfl, rfl⟩
    · intro keeps
      by_cases fails : self.Fails call
      · obtain ⟨exception, first⟩ := build_of_fails fails graph
        obtain ⟨exception', second⟩ := build_of_fails fails (self.build call graph).2
        intro occurrence
        rw [second, startOf_keep keeps]
        rfl
      · exact (once_iff numbered keeps fails).mpr (unrelated keeps fails)

/-- The first of the two files alone. -/
def modelsCall : BuildCall :=
  { repositoryId := .v5 "repository", revision := "r1", replace := true
    files := Keyed.empty.upsert ⟨"app/models.py", "class Base: ..."⟩ }

def twoFilesCall : BuildCall :=
  { repositoryId := .v5 "repository", revision := "r1", replace := true, files := twoFiles }

/-- A rebuild that raises has expired what the build before it stored. -/
theorem rebuild_loses_facts : ¬ twoModules.Rebuilds (twoModules.after [modelsCall]) twoFilesCall := by
  intro rebuilds
  have refused : (twoModules.build twoFilesCall (twoModules.after [modelsCall])).1.isOk = false := by decide
  cases outcome : (twoModules.build twoFilesCall (twoModules.after [modelsCall])).1 with
  | ok result =>
    rw [outcome] at refused
    cases refused
  | error exception =>
    have kept := congrArg (fun symbols => symbols.items.length) (rebuilds.kept exception outcome).1
    revert kept
    decide

end CodeIntelligenceService

end Brain
