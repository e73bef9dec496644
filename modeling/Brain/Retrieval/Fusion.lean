import Brain.Application.HybridRetrieval
import Brain.Lib.Checked
import Mathlib.Order.Bounds.Basic

namespace Brain.HybridRetrievalService
variable {σ V : Type} [LinearOrder σ] [Zero σ] [Add σ] (self : HybridRetrievalService σ V) (q : RetrievalQuery)

/-- The vector results, of which there are none while the embeddings are not
available or not asked for. -/
def VectorRanking (ranking : List SemanticRecord) : Prop :=
  if q.useVector then
    self.vectorSearch q = .ok ranking ∨ ranking = [] ∧ ∃ e, self.vectorSearch q = .error e ∧ e.isUnavailable = true
  else ranking = []

def Ranked (semantic : List SemanticRecord) (id : Uuid) (rank : Nat) : Prop :=
  ∃ record, ((self.lexical q)[rank]? = some record ∨ semantic[rank]? = some record) ∧ record.entity.id self.drawn = id

/-- A project is given, and the entity is one of its graph. -/
def NearProject (id : Uuid) : Prop :=
  ∃ projectId, q.projectId = some projectId ∧ ∃ entity ∈ self.graph.findEntities { projectId := some projectId }, entity.id = id

/-- The relevance of an entity: its best rank, boosted near the project. -/
def Relevance (semantic : List SemanticRecord) (id : Uuid) (score : σ) : Prop :=
  ∃ best, IsGreatest {s | ∃ rank, self.Ranked q semantic id rank ∧ s = self.scoring.normalizedRank rank} best ∧
    (self.NearProject q id → score = best + self.scoring.graphBoost) ∧ (¬ self.NearProject q id → score = best)

/-- What a fusion of the two rankings returns. -/
structure Fused (semantic : List SemanticRecord) (results : List (RetrievalCandidate σ)) : Prop where
  atMost : results.length ≤ q.limit
  distinct : (results.map fun c => c.record.entity.id self.drawn).Nodup
  filtered : ∀ c ∈ results, c.record ∈ self.index.records.items ∧ (q.projectId = none ∨ c.record.projectId = q.projectId) ∧
    (q.repositoryId = none ∨ c.record.repositoryId = q.repositoryId) ∧ (q.revision = none ∨ c.record.revision = q.revision)
  sorted : results.Pairwise fun a b => b.relevanceScore ≤ a.relevanceScore
  relevance : ∀ c ∈ results, self.Relevance q semantic (c.record.entity.id self.drawn) c.relevanceScore
  dropped : ∀ id score, self.Relevance q semantic id score → (∀ c ∈ results, c.record.entity.id self.drawn ≠ id) →
    ∀ c ∈ results, score ≤ c.relevanceScore

/-! ### The two searches -/

theorem mem_search {scoring : Scoring σ V} {index : InMemorySemanticIndex} {query : String} {filters : SemanticFilters} {limit : Nat}
    {record : SemanticRecord} (found : record ∈ index.search scoring query filters limit) : record ∈ index.corpus filters := by
  obtain ⟨entry, isTaken, rfl⟩ := List.mem_map.mp found
  obtain ⟨scored, -⟩ := List.mem_filter.mp (Rankings.mem_of_mem_take isTaken)
  obtain ⟨record, inCorpus, rfl⟩ := List.mem_map.mp scored
  exact inCorpus

omit [Add σ] in
theorem mem_searchByVector {scoring : Scoring σ V} {index : InMemorySemanticIndex} {embeddings : Option (Embed V)} {vector : V}
    {filters : SemanticFilters} {limit : Nat} {ranking : List SemanticRecord}
    (searched : index.searchByVector scoring embeddings vector filters limit = .ok ranking) :
    ∀ record ∈ ranking, record ∈ index.corpus filters := by
  cases embeddings with
  | none => cases searched
  | some embed =>
    unfold InMemorySemanticIndex.searchByVector at searched
    obtain ⟨vectors, -, rest⟩ := Checked.bind_eq_ok.mp searched
    by_cases differ : vectors.length ≠ (index.corpus filters).length
    · rw [if_pos differ] at rest
      cases rest
    · rw [if_neg differ] at rest
      obtain rfl := Except.ok.inj rest
      intro record found
      obtain ⟨entry, isTaken, rfl⟩ := List.mem_map.mp found
      obtain ⟨scored, -⟩ := List.mem_filter.mp (Rankings.mem_of_mem_take isTaken)
      obtain ⟨pair, zipped, rfl⟩ := List.mem_map.mp scored
      exact (List.of_mem_zip zipped).1

variable {self q} {semantic : List SemanticRecord}

omit [Add σ] in
theorem semantic_of_ranking (ranked : self.VectorRanking q semantic) : self.semantic q = .ok semantic := by
  unfold VectorRanking at ranked
  unfold HybridRetrievalService.semantic
  by_cases asked : q.useVector = true
  · rw [if_pos asked] at ranked ⊢
    rcases ranked with found | ⟨rfl, e, raised, unavailable⟩
    · rw [found]
    · rw [raised]
      exact if_pos unavailable
  · rw [if_neg asked] at ranked ⊢
    rw [ranked]

omit [Add σ] in
theorem mem_ranking (ranked : self.VectorRanking q semantic) : ∀ record ∈ semantic, record ∈ self.index.corpus q.filters := by
  unfold VectorRanking at ranked
  by_cases asked : q.useVector = true
  · rw [if_pos asked] at ranked
    rcases ranked with found | ⟨rfl, -⟩
    · obtain ⟨vectors, -, rest⟩ := Checked.bind_eq_ok.mp found
      cases vectors with
      | nil => cases rest
      | cons vector others =>
        cases others with
        | nil => exact mem_searchByVector rest
        | cons _ _ => cases rest
    · exact fun record member => absurd member List.not_mem_nil
  · rw [if_neg asked] at ranked
    exact fun record member => absurd (ranked ▸ member) List.not_mem_nil

/-! ### The merged table -/

omit [Zero σ] [Add σ] in
theorem merge_eq_keepBest (scored : Keyed (@RetrievalCandidate.key σ self.drawn)) (candidate : RetrievalCandidate σ) :
    merge scored candidate = Rankings.keepBest RetrievalCandidate.relevanceScore scored candidate := by
  unfold merge Rankings.keepBest
  cases found : scored.get (candidate.key self.drawn) with
  | none => rfl
  | some existing =>
    by_cases higher : existing.relevanceScore < candidate.relevanceScore
    · exact (if_pos higher).trans (if_pos higher).symm
    · refine (if_neg higher).trans (Eq.trans ?_ (if_neg higher).symm)
      rw [max_eq_left (not_lt.mp higher)]
      exact Keyed.upsert_eq_self.mpr (Keyed.get_eq_some.mp found).1

variable (self q) in
def hits (semantic : List SemanticRecord) : List (RetrievalCandidate σ) :=
  self.candidatesOf "lexical match" "lexical" (self.lexical q) ++ self.candidatesOf "semantic match" "semantic" semantic

variable (self q) in
def scored (semantic : List SemanticRecord) : Keyed (@RetrievalCandidate.key σ self.drawn) :=
  (self.hits q semantic).foldl merge Keyed.empty

theorem scored_best (semantic : List SemanticRecord) :
    Rankings.Best RetrievalCandidate.relevanceScore (self.scored q semantic) (self.hits q semantic) := by
  have isKeepBest : (merge : Keyed (@RetrievalCandidate.key σ self.drawn) → _ → _) =
      Rankings.keepBest RetrievalCandidate.relevanceScore := funext fun table => funext fun c => merge_eq_keepBest table c
  unfold scored
  rw [isKeepBest]
  exact Rankings.Best.empty.foldl (self.hits q semantic)

variable {c : RetrievalCandidate σ}

omit [LinearOrder σ] [Zero σ] [Add σ] in
theorem mem_candidatesOf {reason source : String} {ranking : List SemanticRecord} :
    c ∈ self.candidatesOf reason source ranking ↔ ∃ rank record, ranking[rank]? = some record ∧
      c = { record, reason, retrievalSource := source, relevanceScore := self.scoring.normalizedRank rank } := by
  unfold candidatesOf
  rw [List.mem_mapIdx]
  constructor
  · rintro ⟨rank, bound, rfl⟩
    exact ⟨rank, ranking[rank], List.getElem?_eq_getElem bound, rfl⟩
  · rintro ⟨rank, record, found, rfl⟩
    obtain ⟨bound, rfl⟩ := List.getElem?_eq_some_iff.mp found
    exact ⟨rank, bound, rfl⟩

theorem ranked_of_hit (hit : c ∈ self.hits q semantic) :
    ∃ rank, self.Ranked q semantic (c.record.entity.id self.drawn) rank ∧ c.relevanceScore = self.scoring.normalizedRank rank := by
  rcases List.mem_append.mp hit with lexical | vector
  · obtain ⟨rank, record, found, rfl⟩ := mem_candidatesOf.mp lexical
    exact ⟨rank, ⟨record, Or.inl found, rfl⟩, rfl⟩
  · obtain ⟨rank, record, found, rfl⟩ := mem_candidatesOf.mp vector
    exact ⟨rank, ⟨record, Or.inr found, rfl⟩, rfl⟩

theorem mem_corpus_of_hit (ranking : self.VectorRanking q semantic) (hit : c ∈ self.hits q semantic) :
    c.record ∈ self.index.corpus q.filters := by
  rcases List.mem_append.mp hit with lexical | vector
  · obtain ⟨rank, record, found, rfl⟩ := mem_candidatesOf.mp lexical
    exact mem_search (List.mem_of_getElem? found)
  · obtain ⟨rank, record, found, rfl⟩ := mem_candidatesOf.mp vector
    exact mem_ranking ranking record (List.mem_of_getElem? found)

theorem passes_filters {record : SemanticRecord} (passes : record.matchesFilters q.filters = true) :
    (q.projectId = none ∨ record.projectId = q.projectId) ∧ (q.repositoryId = none ∨ record.repositoryId = q.repositoryId) ∧
      (q.revision = none ∨ record.revision = q.revision) := by
  simp only [SemanticRecord.matchesFilters, Bool.and_eq_true, Bool.or_eq_true] at passes
  obtain ⟨⟨⟨project, repository⟩, revision⟩, -⟩ := passes
  exact ⟨project.imp of_decide_eq_true of_decide_eq_true, repository.imp of_decide_eq_true of_decide_eq_true,
    revision.imp of_decide_eq_true of_decide_eq_true⟩

theorem hit_of_ranked {id : Uuid} {rank : Nat} (ranked : self.Ranked q semantic id rank) :
    ∃ c ∈ self.hits q semantic, c.record.entity.id self.drawn = id ∧ c.relevanceScore = self.scoring.normalizedRank rank := by
  obtain ⟨record, lexical | vector, isId⟩ := ranked
  · exact ⟨_, List.mem_append_left _ (mem_candidatesOf.mpr ⟨rank, record, lexical, rfl⟩), isId, rfl⟩
  · exact ⟨_, List.mem_append_right _ (mem_candidatesOf.mpr ⟨rank, record, vector, rfl⟩), isId, rfl⟩

theorem scored_isGreatest (member : c ∈ (self.scored q semantic).items) :
    IsGreatest {s | ∃ rank, self.Ranked q semantic (c.record.entity.id self.drawn) rank ∧ s = self.scoring.normalizedRank rank}
      c.relevanceScore := by
  have best : Rankings.Best RetrievalCandidate.relevanceScore (self.scored q semantic) (self.hits q semantic) := scored_best semantic
  refine ⟨ranked_of_hit (best.among c member), ?_⟩
  rintro s ⟨rank, ranked, rfl⟩
  obtain ⟨hit, isHit, sameId, isRank⟩ := hit_of_ranked ranked
  obtain ⟨d, stored, sameKey, above⟩ := best.best hit isHit
  have same : d = c := (self.scored q semantic).key_injective stored member (sameKey.trans (congrArg Uuid.text sameId))
  rw [← isRank, ← same]
  exact above

/-! ### The boost -/

omit [LinearOrder σ] [Zero σ] in
@[simp] theorem boost_record (c : RetrievalCandidate σ) : (self.boost q c).record = c.record := by
  unfold boost
  cases q.projectId with
  | none => rfl
  | some projectId => dsimp only; split <;> rfl

omit [LinearOrder σ] [Zero σ] in
theorem boost_relevance (c : RetrievalCandidate σ) :
    (self.NearProject q (c.record.entity.id self.drawn) → (self.boost q c).relevanceScore = c.relevanceScore + self.scoring.graphBoost) ∧
      (¬ self.NearProject q (c.record.entity.id self.drawn) → (self.boost q c).relevanceScore = c.relevanceScore) := by
  unfold boost NearProject
  cases given : q.projectId with
  | none => simp
  | some projectId =>
    have near : (∃ id, some projectId = some id ∧ ∃ entity ∈ self.graph.findEntities { projectId := some id },
          entity.id = c.record.entity.id self.drawn) ↔
        ((self.graph.findEntities { projectId := some projectId }).map fun entity => entity.id).contains
          (c.record.entity.id self.drawn) = true := by
      simp
    rw [near]
    constructor
    · intro isNear
      dsimp only
      rw [if_pos isNear]
    · intro isFar
      dsimp only
      rw [if_neg isFar]

theorem boost_relevant (member : c ∈ (self.scored q semantic).items) :
    self.Relevance q semantic (c.record.entity.id self.drawn) (self.boost q c).relevanceScore :=
  ⟨c.relevanceScore, scored_isGreatest member, (boost_relevance c).1, (boost_relevance c).2⟩

theorem Relevance.unique {id : Uuid} {score score' : σ} (left : self.Relevance q semantic id score)
    (right : self.Relevance q semantic id score') : score = score' := by
  obtain ⟨best, greatest, near, far⟩ := left
  obtain ⟨best', greatest', near', far'⟩ := right
  have same : best = best' := greatest.unique greatest'
  by_cases isNear : self.NearProject q id
  · rw [near isNear, near' isNear, same]
  · rw [far isNear, far' isNear, same]

theorem retrieve_eq (ranked : self.VectorRanking q semantic) :
    self.retrieve q =
      .ok ((Rankings.byScore RetrievalCandidate.relevanceScore ((self.scored q semantic).items.map (self.boost q))).take q.limit) :=
  Checked.bind_eq_ok.mpr ⟨semantic, semantic_of_ranking ranked, rfl⟩

/-- Scores in thousandths. A term that stands once in one text of one term scores
0.288. -/
def thousandths : Scoring Nat Unit where
  isWord c := c.isAlphanum || c == '_'
  term _ := 288
  cosine _ _ := 1000
  normalizedRank rank := (2000 + (rank + 1)) / (2 * (rank + 1))
  graphBoost := 100

def lexicalOnly (index : InMemorySemanticIndex) : HybridRetrievalService Nat Unit where
  scoring := thousandths
  index := index
  indexEmbeddings := none
  embeddings _ := .error { typeName := "NotImplementedError", message := "embeddings" }
  graph := {}
  drawn symbol := .v5 symbol.path

def loginRecord : SemanticRecord :=
  { entity := .requirement (.v4 1), text := "login", projectId := some (.v4 0), recordId := .v4 2 }

end Brain.HybridRetrievalService
