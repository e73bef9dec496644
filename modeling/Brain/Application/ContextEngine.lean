import Brain.Adapters.Ports

namespace Brain

inductive ContextType
  | planning | coding | verification
  deriving DecidableEq

inductive ContextCategory
  | task | requirements | architecture | sourceCode | tests | history | instructions
  deriving DecidableEq

structure ContextRequest where
  workItemId : WorkItemId
  repositoryId : Option RepositoryId := none
  revision : Option String := none
  contextType : ContextType := .coding
  preferredTokenBudget : Int := 8000
  maxTotalTokens : Int := 32000

/-- An item considered for inclusion. Its scores are of any type with an order. -/
structure ContextCandidate (σ : Type) where
  entityId : Uuid
  entityType : String
  content : String
  relevanceScore : σ
  trustScore : σ
  freshness : σ
  tokenEstimate : Int := 0
  category : ContextCategory := .sourceCode
  deriving DecidableEq

structure BudgetAllocation where
  category : ContextCategory
  allocatedTokens : Int
  usedTokens : Int := 0
  deriving DecidableEq

def BudgetAllocation.remaining (allocation : BudgetAllocation) : Int :=
  max 0 (allocation.allocatedTokens - allocation.usedTokens)

structure ContextCapsule (σ : Type) where
  workItemId : WorkItemId
  contextType : ContextType
  request : ContextRequest
  repositoryId : Option RepositoryId
  revision : Option String
  candidates : List (ContextCandidate σ)
  allocations : List BudgetAllocation
  totalTokens : Int
  modelBudgetTokens : Int

/-- The floating point arithmetic of the engine. -/
structure FloatArithmetic where
  /-- `int(total * weight)` for a weight in hundredths. It raises where the total
  is no float. -/
  share : Int → Nat → Except PyException Int
  /-- `math.ceil(chars * ratio + words * 1.3 * 0.1)` with the ratio `1 / 4.0`. -/
  tokens : Nat → Nat → Int

/-- `len(_WORD_SPLIT.split(text.strip())) if text.strip() else 0`. -/
def wordCount (text : String) : Nat := ((strip text).toList.splitOnP isSpace).countP fun word => !word.isEmpty

def FloatArithmetic.estimate (floats : FloatArithmetic) (text : String) : Int :=
  max 1 (floats.tokens text.length (wordCount text))

namespace ContextRanker
variable {σ : Type} [LT σ] [DecidableLT σ] [BEq σ]

/-- The comparison of the keys of `rank`, which are tuples. -/
def below (a b : ContextCandidate σ) : Bool :=
  if a.relevanceScore != b.relevanceScore then a.relevanceScore < b.relevanceScore
  else if a.trustScore != b.trustScore then a.trustScore < b.trustScore
  else if a.freshness != b.freshness then a.freshness < b.freshness
  else -a.tokenEstimate < -b.tokenEstimate

/-- `sorted(…, reverse=True)` keeps the order of candidates with one key. -/
def rank (candidates : List (ContextCandidate σ)) : List (ContextCandidate σ) :=
  candidates.mergeSort fun a b => !below a b

end ContextRanker

namespace BudgetAllocator

/-- `_DEFAULT_WEIGHTS`, in hundredths. -/
def defaultWeights : List (ContextCategory × Nat) :=
  [(.task, 15), (.requirements, 15), (.architecture, 15), (.sourceCode, 30), (.tests, 10), (.history, 5), (.instructions, 10)]

/-- The allocation of a category by its weight. -/
def allocationFor (floats : FloatArithmetic) (total : Int) (entry : ContextCategory × Nat) : Except PyException BudgetAllocation := do
  let allocatedTokens ← floats.share total entry.2
  pure { category := entry.1, allocatedTokens }

def allocate {σ : Type} (floats : FloatArithmetic) (total : Int) (candidates : List (ContextCandidate σ)) :
    Except PyException (List BudgetAllocation) :=
  (defaultWeights.filter fun entry => (candidates.map (·.category)).contains entry.1).mapM (allocationFor floats total)

end BudgetAllocator

namespace ContextEngineService
variable {σ : Type}

/-- The local variables of `_build_capsule`. -/
structure Filling (σ : Type) where
  included : List (ContextCandidate σ) := []
  total : Int := 0
  allocations : List BudgetAllocation

/-- `allocation.used_tokens += estimate` for the first allocation of a category. -/
def charge (category : ContextCategory) (estimate : Int) : List BudgetAllocation → List BudgetAllocation
  | [] => []
  | allocation :: allocations =>
    if allocation.category = category then { allocation with usedTokens := allocation.usedTokens + estimate } :: allocations
    else allocation :: charge category estimate allocations

/-- The loop of `_build_capsule`. -/
def fill (estimate : String → Int) (modelBudget : Int) : List (ContextCandidate σ) → Filling σ → Filling σ
  | [], state => state
  | candidate :: ranked, state =>
    let allocation := state.allocations.find? (·.category = candidate.category)
    if allocation.any (·.remaining ≤ 0) then fill estimate modelBudget ranked state
    else
      let tokens := estimate candidate.content
      if state.total + tokens > modelBudget then state
      else
        fill estimate modelBudget ranked
          { included := state.included ++ [{ candidate with tokenEstimate := tokens }]
            total := state.total + tokens
            allocations := charge candidate.category tokens state.allocations }

def buildCapsule (estimate : String → Int) (request : ContextRequest) (ranked : List (ContextCandidate σ))
    (allocations : List BudgetAllocation) : ContextCapsule σ :=
  let filled := fill estimate request.maxTotalTokens ranked { allocations }
  { workItemId := request.workItemId
    contextType := request.contextType
    request := request
    repositoryId := request.repositoryId
    revision := request.revision
    candidates := filled.included
    allocations := filled.allocations
    totalTokens := filled.total
    modelBudgetTokens := request.maxTotalTokens }

/-- `build`, from the candidates it gathers. -/
def build [LT σ] [DecidableLT σ] [BEq σ] (floats : FloatArithmetic) (request : ContextRequest)
    (candidates : List (ContextCandidate σ)) : Except PyException (ContextCapsule σ) := do
  let ranked := ContextRanker.rank candidates
  let allocations ← BudgetAllocator.allocate floats request.preferredTokenBudget ranked
  pure (buildCapsule floats.estimate request ranked allocations)

end ContextEngineService

end Brain
