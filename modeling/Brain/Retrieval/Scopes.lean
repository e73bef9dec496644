import Brain.Retrieval.Fusion
import Brain.Retrieval.Mirroring

namespace Brain
open SemanticIndexingService HybridRetrievalService

/-- The indexes that calls of `index_project` make, whatever the stores hold between
them. -/
inductive IndexedByProjects : InMemorySemanticIndex → Prop
  | empty : IndexedByProjects {}
  | project {s : SemanticStores} (request : IndexRequest) :
      IndexedByProjects s.semanticIndex → IndexedByProjects (indexProject request s).2.semanticIndex

/-- Requirements and decisions belong to a project, not to a repository. -/
def SemanticFacts.Unscoped (fact : SemanticFacts) : Prop :=
  ∀ id, fact.entity = .requirement id ∨ fact.entity = .decision id → fact.repositoryId = none

theorem projectFacts_unscoped {request : IndexRequest} {s : SemanticStores} {fact : SemanticFacts}
    (member : fact ∈ projectFacts request s) : fact.Unscoped := by
  intro id isKnowledge
  rw [projectFacts_eq] at member
  rcases List.mem_append.mp member with document | other
  · obtain ⟨_, _, _, _, inside⟩ := mem_documentFacts.mp document
    obtain ⟨_, _, rfl⟩ := List.mem_map.mp inside
    rcases isKnowledge with same | same <;> cases same
  · unfold otherFacts at other
    rcases List.mem_append.mp other with knowledge | summary
    · rcases List.mem_append.mp knowledge with requirement | decision
      · obtain ⟨_, _, rfl⟩ := List.mem_map.mp requirement
        rfl
      · obtain ⟨_, _, rfl⟩ := List.mem_map.mp decision
        rfl
    · unfold indexCodeSummaries at summary
      split at summary
      · obtain ⟨_, _, rfl⟩ := List.mem_map.mp summary
        rcases isKnowledge with same | same <;> cases same
      · cases summary

theorem IndexedByProjects.unscoped {index : InMemorySemanticIndex} (indexed : IndexedByProjects index) :
    ∀ record ∈ index.records.items, record.toSemanticFacts.Unscoped := by
  induction indexed with
  | empty => exact fun record member => absurd member List.not_mem_nil
  | @project s request _ ih =>
    intro record member
    rcases Keyed.mem_foldl_upsert member with old | new
    · exact ih record old
    · have listed := List.mem_map_of_mem (f := SemanticRecord.toSemanticFacts) new
      rw [drawRecords_facts] at listed
      exact projectFacts_unscoped listed

theorem stored_of_fact {request : IndexRequest} {s : SemanticStores} {fact : SemanticFacts} (member : fact ∈ projectFacts request s) :
    ∃ record ∈ (indexProject request s).2.semanticIndex.records.items, record.toSemanticFacts = fact := by
  rw [← @drawRecords_facts s.world.nextUuid (projectFacts request s)] at member
  obtain ⟨record, drawn, isFact⟩ := List.mem_map.mp member
  exact ⟨record, Keyed.stored_foldl_upsert drawRecords_distinct drawn, isFact⟩

section Matching
variable {σ V : Type} [LinearOrder σ] [Zero σ] [Add σ]

def Scoring.sharesTerm (scoring : Scoring σ V) (query text : String) : Bool :=
  (scoring.tokenize query).any fun term => (scoring.tokenize text).contains term

/-- What the vectors of queries and of texts mean, while they are available. -/
abbrev Meanings (V : Type) := Option ((String → V) × (String → V))

/-- One of the two searches finds a text with these words. -/
def Scoring.matching (scoring : Scoring σ V) (meanings : Meanings V) (query text : String) : Bool :=
  scoring.sharesTerm query text || meanings.any fun m => decide (0 < scoring.cosine (m.1 query) (m.2 text))

structure Scoring.Positive (scoring : Scoring σ V) : Prop where
  term : ∀ counts : TermStatistics, 0 < counts.occurrences → counts.frequency ≤ counts.documents → 0 < scoring.term counts
  add : ∀ a b : σ, 0 ≤ a → 0 < b → 0 < a + b

/-- The embedding services give a text the same vector at every call, or are not
available. -/
def HybridRetrievalService.Embeds (self : HybridRetrievalService σ V) : Meanings V → Prop
  | none => ∀ q : RetrievalQuery, ∃ e, self.vectorSearch q = .error e ∧ e.isUnavailable = true
  | some m => (∀ texts, self.embeddings texts = .ok (texts.map m.1)) ∧
      ∃ embed, self.indexEmbeddings = some embed ∧ ∀ texts, embed texts = .ok (texts.map m.2)

variable {scoring : Scoring σ V} {corpus : List SemanticRecord} {query : String} {record : SemanticRecord}

theorem foldl_score_pos_iff (positive : scoring.Positive) (counts : List String) (term : String → TermStatistics)
    (occurs : ∀ t, (term t).occurrences = counts.count t) (bounded : ∀ t, (term t).frequency ≤ (term t).documents)
    (terms : List String) {score : σ} (start : 0 ≤ score) :
    0 < terms.foldl (fun score t => if counts.count t = 0 then score else score + scoring.term (term t)) score ↔
      0 < score ∨ ∃ t ∈ terms, t ∈ counts := by
  induction terms generalizing score with
  | nil => simp
  | cons t terms ih =>
    rw [List.foldl_cons]
    by_cases absent : counts.count t = 0
    · have missing : t ∉ counts := List.count_eq_zero.mp absent
      rw [if_pos absent, ih start]
      simp [missing]
    · have present : t ∈ counts := List.count_pos_iff.mp (Nat.pos_of_ne_zero absent)
      have isPositive : 0 < scoring.term (term t) := positive.term _ (by rw [occurs]; exact Nat.pos_of_ne_zero absent) (bounded t)
      have added := positive.add score _ start isPositive
      rw [if_neg absent, ih added.le]
      simp [added, present]

theorem bm25Score_pos_iff (positive : scoring.Positive) :
    0 < InMemorySemanticIndex.bm25Score scoring corpus (scoring.tokenize query) record ↔ scoring.sharesTerm query record.text = true := by
  have occurs : ∀ t, (InMemorySemanticIndex.statistics scoring corpus record t).occurrences = (scoring.tokenize record.text).count t := by
    intro t
    simp only [InMemorySemanticIndex.statistics]
  have bounded : ∀ t, (InMemorySemanticIndex.statistics scoring corpus record t).frequency ≤
      (InMemorySemanticIndex.statistics scoring corpus record t).documents := by
    intro t
    simp only [InMemorySemanticIndex.statistics]
    exact List.countP_le_length.trans (List.length_map _).le
  refine (foldl_score_pos_iff positive _ _ occurs bounded (scoring.tokenize query) (le_refl 0)).trans ?_
  simp [Scoring.sharesTerm]

/-! ### What the searches of a query find -/

variable {self : HybridRetrievalService σ V} {q : RetrievalQuery} {meanings : Meanings V}

omit [Add σ] in
theorem mem_scored {score : SemanticRecord → σ} {entry : σ × SemanticRecord} :
    entry ∈ (corpus.map fun r => (score r, r)).filter (0 < ·.1) ↔
      entry ∈ corpus.map (fun r => (score r, r)) ∧ 0 < score entry.2 := by
  rw [List.mem_filter]
  refine and_congr_right fun listed => ?_
  obtain ⟨record, -, rfl⟩ := List.mem_map.mp listed
  exact decide_eq_true_iff

theorem mem_bm25 (positive : scoring.Positive) {entry : σ × SemanticRecord} :
    entry ∈ InMemorySemanticIndex.bm25 scoring corpus query ↔
      entry ∈ corpus.map (fun r => (InMemorySemanticIndex.bm25Score scoring corpus (scoring.tokenize query) r, r)) ∧
        scoring.sharesTerm query entry.2.text = true := by
  unfold InMemorySemanticIndex.bm25
  rw [Rankings.mem_byScore, mem_scored, bm25Score_pos_iff positive]

theorem sharesTerm_of_lexical (positive : self.scoring.Positive) (found : record ∈ self.lexical q) :
    self.scoring.sharesTerm q.query record.text = true := by
  obtain ⟨entry, isTaken, rfl⟩ := List.mem_map.mp found
  exact ((mem_bm25 positive).mp (List.mem_of_mem_take isTaken)).2

omit [Add σ] in
theorem length_scored {score : SemanticRecord → σ} {shares : SemanticRecord → Bool} (scores : ∀ r, 0 < score r ↔ shares r = true) :
    ((corpus.map fun r => (score r, r)).filter (0 < ·.1)).length = (corpus.filter shares).length := by
  have same : ((fun entry : σ × SemanticRecord => decide (0 < entry.1)) ∘ fun r => (score r, r)) = shares := by
    funext r
    rw [Bool.eq_iff_iff, ← scores r]
    exact decide_eq_true_iff
  rw [List.filter_map, List.length_map, same]

theorem mem_lexical (positive : self.scoring.Positive) (inCorpus : record ∈ self.index.corpus q.filters)
    (shares : self.scoring.sharesTerm q.query record.text = true)
    (few : ((self.index.corpus q.filters).filter fun r => self.scoring.sharesTerm q.query r.text).length ≤ q.limit * 2) :
    record ∈ self.lexical q := by
  have found := (mem_bm25 positive).mpr ⟨List.mem_map_of_mem inCorpus, shares⟩
  have length : (InMemorySemanticIndex.bm25 self.scoring (self.index.corpus q.filters) q.query).length ≤ q.limit * 2 := by
    unfold InMemorySemanticIndex.bm25
    rw [(Rankings.byScore_perm _ _).length_eq, length_scored fun r => bm25Score_pos_iff positive]
    exact few
  have isTaken := found
  rw [← List.take_of_length_le length] at isTaken
  exact List.mem_map_of_mem isTaken

omit [Add σ] in
theorem Embeds.ranking (embeds : self.Embeds meanings) (asked : q.useVector = true) :
    ∃ ranking, self.VectorRanking q ranking ∧ ∀ r ∈ ranking, self.scoring.matching meanings q.query r.text = true := by
  cases meanings with
  | none =>
    refine ⟨[], ?_, fun r member => absurd member List.not_mem_nil⟩
    unfold VectorRanking
    rw [if_pos asked]
    exact Or.inr ⟨rfl, embeds q⟩
  | some m =>
    obtain ⟨queries, embed, isEmbed, texts⟩ := embeds
    let scored := ((self.index.corpus q.filters).map fun r => (self.scoring.cosine (m.1 q.query) (m.2 r.text), r)).filter (0 < ·.1)
    have searched : self.vectorSearch q = .ok (((Rankings.byScore Prod.fst scored).take (q.limit * 2)).map Prod.snd) := by
      unfold vectorSearch
      rw [queries]
      show self.index.searchByVector self.scoring self.indexEmbeddings (m.1 q.query) q.filters (q.limit * 2) = _
      rw [isEmbed]
      show (embed _ >>= _) = _
      rw [texts, List.map_map]
      have length : ((self.index.corpus q.filters).map (m.2 ∘ fun r => r.text)).length = (self.index.corpus q.filters).length :=
        List.length_map _
      have zipped : (self.index.corpus q.filters).map (fun r => (r, (m.2 ∘ fun r => r.text) r)) = _ := List.map_prod_left_eq_zip
      refine (if_neg (not_not.mpr length)).trans ?_
      rw [← zipped, List.map_map]
      rfl
    refine ⟨((Rankings.byScore Prod.fst scored).take (q.limit * 2)).map Prod.snd, ?_, ?_⟩
    · unfold VectorRanking
      rw [if_pos asked]
      exact Or.inl searched
    · intro r member
      obtain ⟨entry, isTaken, rfl⟩ := List.mem_map.mp member
      obtain ⟨listed, isPositive⟩ := mem_scored.mp (Rankings.mem_of_mem_take isTaken)
      unfold Scoring.matching
      rw [Bool.or_eq_true]
      exact Or.inr (decide_eq_true isPositive)

/-! ### What a project's knowledge is found by -/

/-- The requirements and decisions of a project, as the service makes records of them. -/
def knowledgeFacts (request : IndexRequest) (s : SemanticStores) : List SemanticFacts :=
  indexRequirements request s.requirements ++ indexDecisions request s.world

/-- The call that the context engine makes for what was indexed with these arguments. -/
def scopedQuery (request : IndexRequest) (query : String) (limit : Nat) : RetrievalQuery where
  query := query
  projectId := some request.projectId
  repositoryId := request.repositoryId
  revision := request.revision
  limit := limit

/-- How many records of the project match. -/
def matchCount (scoring : Scoring σ V) (meanings : Meanings V) (request : IndexRequest) (s : SemanticStores) (query : String) : Nat :=
  (((indexProject request s).2.recordsOf request.projectId).filter fun r => scoring.matching meanings query r.text).length

/-- While no more records match than may be returned, every requirement and every
decision that shares a term with the query is among the results. -/
def KeepsKnowledge (scoring : Scoring σ V) (meanings : Meanings V) (request : IndexRequest) (s : SemanticStores) (query : String)
    (limit : Nat) (results : List (RetrievalCandidate σ)) : Prop :=
  matchCount scoring meanings request s query ≤ limit →
    ∀ fact ∈ knowledgeFacts request s, scoring.sharesTerm query fact.text = true → ∃ c ∈ results, c.record.entity = fact.entity

theorem mem_projectFacts {request : IndexRequest} {s : SemanticStores} {fact : SemanticFacts}
    (member : fact ∈ knowledgeFacts request s) :
    fact ∈ projectFacts request s ∧ fact.revision = request.revision ∧
      ∃ id, fact.entity = .requirement id ∨ fact.entity = .decision id := by
  rcases List.mem_append.mp member with requirement | decision
  · have inProject : fact ∈ projectFacts request s :=
      List.mem_append_left _ (List.mem_append_left _ (List.mem_append_right _ requirement))
    obtain ⟨r, _, rfl⟩ := List.mem_map.mp requirement
    exact ⟨inProject, rfl, r.id, Or.inl rfl⟩
  · have inProject : fact ∈ projectFacts request s := List.mem_append_left _ (List.mem_append_right _ decision)
    obtain ⟨d, _, rfl⟩ := List.mem_map.mp decision
    exact ⟨inProject, rfl, d.id, Or.inr rfl⟩

section Indexed
variable {s : SemanticStores} {request : IndexRequest} {limit : Nat} {semantic : List SemanticRecord}

omit [LinearOrder σ] [Zero σ] [Add σ] in
theorem mem_recordsOf (holds : self.index = (indexProject request s).2.semanticIndex)
    (inCorpus : record ∈ self.index.corpus (scopedQuery request query limit).filters) :
    record ∈ (indexProject request s).2.recordsOf request.projectId := by
  obtain ⟨listed, passes⟩ := List.mem_filter.mp inCorpus
  obtain ⟨project, -, -⟩ := passes_filters passes
  rw [holds] at listed
  have ofProject : record.projectId = some request.projectId := project.resolve_left (Option.some_ne_none _)
  refine List.mem_filter.mpr ⟨listed, ?_⟩
  simp [SemanticRecord.matchesFilters, ofProject]

theorem matching_of_hit (positive : self.scoring.Positive)
    (matching : ∀ r ∈ semantic, self.scoring.matching meanings q.query r.text = true) {c : RetrievalCandidate σ}
    (hit : c ∈ self.hits q semantic) : self.scoring.matching meanings q.query c.record.text = true := by
  rcases List.mem_append.mp hit with lexical | vector
  · obtain ⟨rank, record, found, rfl⟩ := mem_candidatesOf.mp lexical
    unfold Scoring.matching
    rw [sharesTerm_of_lexical positive (List.mem_of_getElem? found), Bool.true_or]
  · obtain ⟨rank, record, found, rfl⟩ := mem_candidatesOf.mp vector
    exact matching record (List.mem_of_getElem? found)

omit [Add σ] in
theorem sharing_length_le (holds : self.index = (indexProject request s).2.semanticIndex) :
    ((self.index.corpus (scopedQuery request query limit).filters).filter fun r =>
      self.scoring.sharesTerm (scopedQuery request query limit).query r.text).length ≤ matchCount self.scoring meanings request s query := by
  have listed : self.index.records.items.Nodup := List.Nodup.of_map _ self.index.records.nodup
  apply ((listed.filter _).filter _).length_le_of_subset
  intro r member
  obtain ⟨inCorpus, shares⟩ := List.mem_filter.mp member
  have shares' : self.scoring.sharesTerm query r.text = true := shares
  refine List.mem_filter.mpr ⟨mem_recordsOf holds inCorpus, ?_⟩
  unfold Scoring.matching
  rw [shares', Bool.true_or]

theorem scored_length_le (positive : self.scoring.Positive) (holds : self.index = (indexProject request s).2.semanticIndex)
    (ranking : self.VectorRanking (scopedQuery request query limit) semantic)
    (matching : ∀ r ∈ semantic, self.scoring.matching meanings query r.text = true) :
    (self.scored (scopedQuery request query limit) semantic).items.length ≤ matchCount self.scoring meanings request s query := by
  have distinct : ((self.scored (scopedQuery request query limit) semantic).items.map (·.record)).Nodup := by
    apply List.Nodup.of_map fun r : SemanticRecord => (r.entity.id self.drawn).text
    rw [List.map_map]
    exact (self.scored (scopedQuery request query limit) semantic).nodup
  have among : ∀ r ∈ (self.scored (scopedQuery request query limit) semantic).items.map (·.record),
      r ∈ ((indexProject request s).2.recordsOf request.projectId).filter fun r => self.scoring.matching meanings query r.text := by
    intro r member
    obtain ⟨c, stored, rfl⟩ := List.mem_map.mp member
    have hit := (scored_best semantic).among c stored
    have isMatching := matching_of_hit (q := scopedQuery request query limit) positive matching hit
    exact List.mem_filter.mpr ⟨mem_recordsOf holds (mem_corpus_of_hit ranking hit), isMatching⟩
  have bound := distinct.length_le_of_subset among
  rwa [List.length_map] at bound

end Indexed

/-- Asked in the scope that it was indexed in, the retrieval keeps the project's
requirements and decisions exactly where that scope names no repository or there
is nothing to keep. -/
theorem keepsKnowledge_iff {s : SemanticStores} (positive : self.scoring.Positive) (embeds : self.Embeds meanings)
    (indexed : IndexedByProjects s.semanticIndex) (request : IndexRequest) (query : String) (limit : Nat)
    (holds : self.index = (indexProject request s).2.semanticIndex)
    (distinct : ∀ a ∈ self.index.records.items, ∀ b ∈ self.index.records.items,
      a.entity.id self.drawn = b.entity.id self.drawn → a.entity = b.entity) :
    ∃ results, self.retrieve (scopedQuery request query limit) = .ok results ∧
      (KeepsKnowledge self.scoring meanings request s query limit results ↔
        request.repositoryId = none ∨ limit < matchCount self.scoring meanings request s query ∨
          ∀ fact ∈ knowledgeFacts request s, self.scoring.sharesTerm query fact.text = false) := by
  obtain ⟨semantic, ranking, matching⟩ := Embeds.ranking (q := scopedQuery request query limit) embeds rfl
  have few := scored_length_le positive holds ranking matching
  refine ⟨_, retrieve_eq ranking, ?_⟩
  constructor
  · intro keeps
    by_contra otherwise
    rw [not_or, not_or] at otherwise
    obtain ⟨isScoped, isFew, some'⟩ := otherwise
    push Not at some'
    obtain ⟨fact, known, shares⟩ := some'
    have isShared : self.scoring.sharesTerm query fact.text = true := by simpa using shares
    obtain ⟨c, returned, isEntity⟩ := keeps (not_lt.mp isFew) fact known isShared
    obtain ⟨d, stored, rfl⟩ := List.mem_map.mp (Rankings.mem_of_mem_take returned)
    rw [boost_record] at isEntity
    have inCorpus := mem_corpus_of_hit ranking ((scored_best semantic).among d stored)
    obtain ⟨listed, passes⟩ := List.mem_filter.mp inCorpus
    obtain ⟨-, repository, -⟩ := passes_filters passes
    obtain ⟨-, -, id, isKnowledge⟩ := mem_projectFacts known
    have unscoped : ∀ record ∈ self.index.records.items, record.toSemanticFacts.Unscoped := by
      rw [holds]
      exact (IndexedByProjects.project request indexed).unscoped
    have missing := unscoped d.record listed id (by rwa [isEntity])
    rw [missing] at repository
    rcases repository with notGiven | same
    · exact isScoped notGiven
    · exact isScoped same.symm
  · intro condition within fact known shares
    have isUnscoped : request.repositoryId = none := by
      rcases condition with isNone | many | nothing
      · exact isNone
      · exact absurd within (not_le.mpr many)
      · exact absurd shares (by rw [nothing fact known]; exact Bool.false_ne_true)
    obtain ⟨inProject, sameRevision, -⟩ := mem_projectFacts known
    obtain ⟨record, listed, rfl⟩ := stored_of_fact inProject
    have inCorpus : record ∈ self.index.corpus (scopedQuery request query limit).filters := by
      refine List.mem_filter.mpr ⟨by rw [holds]; exact listed, ?_⟩
      simp [SemanticRecord.matchesFilters, RetrievalQuery.filters, scopedQuery, isUnscoped, projectId_of_mem inProject, sameRevision]
    have isFound : record ∈ self.lexical (scopedQuery request query limit) := by
      apply mem_lexical positive inCorpus shares
      have sharing := (@sharing_length_le σ V _ _ query self meanings s request limit holds).trans within
      exact sharing.trans (Nat.le_mul_of_pos_right limit Nat.two_pos)
    obtain ⟨rank, atRank⟩ := List.mem_iff_getElem?.mp isFound
    have isRanked : self.Ranked (scopedQuery request query limit) semantic (record.entity.id self.drawn) rank :=
      ⟨record, Or.inl atRank, rfl⟩
    obtain ⟨hit, isHit, sameId, -⟩ := hit_of_ranked isRanked
    obtain ⟨d, stored, sameKey, -⟩ := (scored_best semantic).best hit isHit
    have isEntity : d.record.entity = record.entity := by
      apply distinct d.record _ record (by rw [holds]; exact listed)
      · exact (Uuid.text_injective sameKey).trans sameId
      · exact (List.mem_filter.mp (mem_corpus_of_hit ranking ((scored_best semantic).among d stored))).1
    have short : ((self.scored (scopedQuery request query limit) semantic).items.map (self.boost (scopedQuery request query limit))).length ≤
        limit := by
      rw [List.length_map]
      exact few.trans within
    refine ⟨_, Rankings.mem_take_of_length_le short (List.mem_map_of_mem stored), ?_⟩
    rw [boost_record, isEntity]

end Matching

/-! ### A requirement that the scope of a repository hides -/

/-- A project with one requirement. -/
def loginStores : SemanticStores :=
  { requirements := Keyed.empty.upsert { id := .v4 1, projectId := .v4 0, title := "login" } }

def loginRequest : IndexRequest := { projectId := .v4 0, repositoryId := some (.v4 9), revision := some "main" }

theorem thousandths_positive : thousandths.Positive where
  term _ _ _ := by show 0 < 288; decide
  add a b _ positive := Nat.add_pos_right a positive

theorem keepsKnowledge_login :
    ∃ results, (lexicalOnly (indexProject loginRequest loginStores).2.semanticIndex).retrieve (scopedQuery loginRequest "login" 10) =
        .ok results ∧
      (KeepsKnowledge thousandths none loginRequest loginStores "login" 10 results ↔
        loginRequest.repositoryId = none ∨ 10 < matchCount thousandths none loginRequest loginStores "login" ∨
          ∀ fact ∈ knowledgeFacts loginRequest loginStores, thousandths.sharesTerm "login" fact.text = false) := by
  have stored : (indexProject loginRequest loginStores).2.semanticIndex.records.items =
      [{ entity := .requirement (.v4 1), text := "login", projectId := some (.v4 0), revision := some "main"
         metadata := [("title", .str "login"), ("status", .str "draft")], recordId := .v4 0 }] := by rfl
  refine @keepsKnowledge_iff Nat Unit _ _ _ (lexicalOnly _) none loginStores thousandths_positive ?_ .empty loginRequest "login" 10 rfl ?_
  · exact fun q => ⟨_, rfl, rfl⟩
  · intro a isA b isB _
    have isA' : a ∈ (indexProject loginRequest loginStores).2.semanticIndex.records.items := isA
    have isB' : b ∈ (indexProject loginRequest loginStores).2.semanticIndex.records.items := isB
    rw [stored] at isA' isB'
    rw [List.mem_singleton.mp isA', List.mem_singleton.mp isB']

/-- The filter on the repository drops the requirement, which names none. -/
theorem knowledge_lost :
    ∃ (request : IndexRequest) (s : SemanticStores) (query : String) (limit : Nat) (results : List (RetrievalCandidate Nat)),
      (lexicalOnly (indexProject request s).2.semanticIndex).retrieve (scopedQuery request query limit) = .ok results ∧
        ¬ KeepsKnowledge thousandths none request s query limit results := by
  refine ⟨loginRequest, loginStores, "login", 10, [], ?_, ?_⟩
  · have nothing : (lexicalOnly (indexProject loginRequest loginStores).2.semanticIndex).lexical (scopedQuery loginRequest "login" 10) = [] := by
      have corpus : (lexicalOnly (indexProject loginRequest loginStores).2.semanticIndex).index.corpus
          (scopedQuery loginRequest "login" 10).filters = [] := by decide
      unfold lexical InMemorySemanticIndex.search
      rw [corpus]
      simp [InMemorySemanticIndex.bm25, Rankings.byScore]
    have ranking : (lexicalOnly (indexProject loginRequest loginStores).2.semanticIndex).VectorRanking
        (scopedQuery loginRequest "login" 10) [] := Or.inr ⟨rfl, _, rfl, rfl⟩
    rw [retrieve_eq ranking]
    unfold scored hits
    rw [nothing]
    simp [candidatesOf, Rankings.byScore]
  · intro keeps
    obtain ⟨c, member, -⟩ := keeps (by decide) _ (List.mem_singleton_self _) (by decide)
    cases member

end Brain
