import Brain.Adapters.KnowledgeGraph
import Brain.Adapters.Ports
import Brain.Application.SemanticIndexing
import Brain.Lib.Rankings
import Mathlib

namespace Brain

/-- `entity_id`, with the ids that the parser drew for the symbols. -/
def SemanticEntity.id (drawn : SymbolId → Uuid) : SemanticEntity → Uuid
  | .documentNode id => id
  | .requirement id => id
  | .decision id => id
  | .symbol id => drawn id

/-- What the score of one term in one text is computed from. -/
structure TermStatistics where
  /-- `n`, the number of texts. -/
  documents : Nat
  /-- `df`, the number of texts with the term. -/
  frequency : Nat
  /-- `tf`, how often the term stands in the text. -/
  occurrences : Nat
  /-- `dl`, the number of terms of the text. -/
  length : Nat
  /-- The number of terms of all texts. -/
  totalLength : Nat

/-- The character classes and the floating point arithmetic of the searches, with
scores in `σ` and vectors in `V`. -/
structure Scoring (σ V : Type) where
  /-- The regular expression `\w` on one character. -/
  isWord : Char → Bool
  /-- `idf * tf_norm`. -/
  term : TermStatistics → σ
  cosine : V → V → σ
  /-- `round(1.0 / (1.0 + rank), 3)`. -/
  normalizedRank : Nat → σ
  /-- `0.1`. -/
  graphBoost : σ

def Scoring.tokenize {σ V : Type} (scoring : Scoring σ V) (text : String) : List String :=
  (((lower text).toList.splitOnP fun c => !scoring.isWord c).filter (· ≠ [])).map String.ofList

abbrev Embed (V : Type) := List String → Except PyException (List V)

namespace InMemorySemanticIndex
variable {σ V : Type} [LinearOrder σ] [Zero σ] [Add σ] (scoring : Scoring σ V)

def statistics (corpus : List SemanticRecord) (record : SemanticRecord) (term : String) : TermStatistics where
  documents := corpus.length
  frequency := (corpus.map fun r => scoring.tokenize r.text).countP (·.contains term)
  occurrences := (scoring.tokenize record.text).count term
  length := (scoring.tokenize record.text).length
  totalLength := ((corpus.map fun r => scoring.tokenize r.text).map List.length).sum

def bm25Score (corpus : List SemanticRecord) (queryTerms : List String) (record : SemanticRecord) : σ :=
  queryTerms.foldl (fun score term =>
    if (scoring.tokenize record.text).count term = 0 then score
    else score + scoring.term (statistics scoring corpus record term)) 0

/-- `_bm25`. Without terms in the query no text scores. -/
def bm25 (corpus : List SemanticRecord) (query : String) : List (σ × SemanticRecord) :=
  Rankings.byScore Prod.fst ((corpus.map fun record =>
    (bm25Score scoring corpus (scoring.tokenize query) record, record)).filter (0 < ·.1))

def search (self : InMemorySemanticIndex) (query : String) (filters : SemanticFilters) (limit : Nat) : List SemanticRecord :=
  ((bm25 scoring (self.corpus filters) query).take limit).map Prod.snd

/-- The index has an embedding service of its own. -/
def searchByVector (self : InMemorySemanticIndex) (embeddings : Option (Embed V)) (vector : V) (filters : SemanticFilters)
    (limit : Nat) : Except PyException (List SemanticRecord) :=
  match embeddings with
  | none => .error { typeName := "RuntimeError", message := "search_by_vector requires an embedding service" }
  | some embed => do
    let corpus := self.corpus filters
    let vectors ← embed (corpus.map (·.text))
    if vectors.length ≠ corpus.length then
      .error {
        typeName := "ValueError"
        message := "zip() argument 2 is " ++ (if vectors.length < corpus.length then "shorter" else "longer") ++ " than argument 1" }
    else
      let scored := ((corpus.zip vectors).map fun pair => (scoring.cosine vector pair.2, pair.1)).filter (0 < ·.1)
      pure (((Rankings.byScore Prod.fst scored).take limit).map Prod.snd)

end InMemorySemanticIndex

/-- The relevance is of any type with an order. -/
structure RetrievalCandidate (σ : Type) where
  record : SemanticRecord
  reason : String
  retrievalSource : String
  relevanceScore : σ
  /-- In hundredths. -/
  trustScore : Nat := 50

/-- `str(record.entity_id)`. -/
def RetrievalCandidate.key {σ : Type} (drawn : SymbolId → Uuid) (candidate : RetrievalCandidate σ) : String :=
  (candidate.record.entity.id drawn).text

structure HybridRetrievalService (σ V : Type) where
  scoring : Scoring σ V
  index : InMemorySemanticIndex
  /-- The embedding service that the index was made with. -/
  indexEmbeddings : Option (Embed V)
  embeddings : Embed V
  graph : InMemoryKnowledgeGraph
  drawn : SymbolId → Uuid

/-- The arguments of `retrieve`. -/
structure RetrievalQuery where
  query : String
  projectId : Option ProjectId := none
  repositoryId : Option RepositoryId := none
  revision : Option String := none
  limit : Nat := 10
  useVector : Bool := true

def RetrievalQuery.filters (q : RetrievalQuery) : SemanticFilters where
  projectId := q.projectId
  repositoryId := q.repositoryId
  revision := q.revision

/-- What `except (RuntimeError, NotImplementedError)` catches. -/
def PyException.isUnavailable (e : PyException) : Bool := ["RuntimeError", "NotImplementedError"].contains e.typeName

namespace HybridRetrievalService
variable {σ V : Type} [LinearOrder σ] [Zero σ] [Add σ]

def merge {drawn : SymbolId → Uuid} (scored : Keyed (@RetrievalCandidate.key σ drawn)) (candidate : RetrievalCandidate σ) :
    Keyed (@RetrievalCandidate.key σ drawn) :=
  match scored.get (candidate.key drawn) with
  | none => scored.upsert candidate
  | some existing =>
    if existing.relevanceScore < candidate.relevanceScore then scored.upsert candidate
    else scored.upsert { existing with relevanceScore := max existing.relevanceScore candidate.relevanceScore }

variable (self : HybridRetrievalService σ V) (q : RetrievalQuery)

def candidatesOf (reason source : String) (ranking : List SemanticRecord) : List (RetrievalCandidate σ) :=
  ranking.mapIdx fun rank record =>
    { record, reason, retrievalSource := source, relevanceScore := self.scoring.normalizedRank rank }

def lexical : List SemanticRecord := self.index.search self.scoring q.query q.filters (q.limit * 2)

/-- What the `try` block computes. -/
def vectorSearch : Except PyException (List SemanticRecord) := do
  match ← self.embeddings [q.query] with
  | [vector] => self.index.searchByVector self.scoring self.indexEmbeddings vector q.filters (q.limit * 2)
  | [] => .error { typeName := "ValueError", message := "not enough values to unpack (expected 1, got 0)" }
  | _ => .error { typeName := "ValueError", message := "too many values to unpack (expected 1)" }

def semantic : Except PyException (List SemanticRecord) :=
  if q.useVector then
    match self.vectorSearch q with
    | .ok ranking => .ok ranking
    | .error e => if e.isUnavailable then .ok [] else .error e
  else .ok []

/-- The boost of an entity of the project. -/
def boost (candidate : RetrievalCandidate σ) : RetrievalCandidate σ :=
  match q.projectId with
  | none => candidate
  | some projectId =>
    let graphIds := (self.graph.findEntities { projectId := some projectId }).map fun entity => entity.id
    if graphIds.contains (candidate.record.entity.id self.drawn) then
      { candidate with relevanceScore := candidate.relevanceScore + self.scoring.graphBoost }
    else candidate

def retrieve : Except PyException (List (RetrievalCandidate σ)) := do
  let semantic ← self.semantic q
  let hits := self.candidatesOf "lexical match" "lexical" (self.lexical q) ++
    self.candidatesOf "semantic match" "semantic" semantic
  let scored : Keyed (@RetrievalCandidate.key σ self.drawn) := hits.foldl merge Keyed.empty
  pure ((Rankings.byScore RetrievalCandidate.relevanceScore (scored.items.map (self.boost q))).take q.limit)

end HybridRetrievalService

end Brain
