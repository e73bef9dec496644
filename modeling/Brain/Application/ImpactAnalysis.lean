import Brain.Domain.CodeIntelligence

namespace Brain

structure ImpactAnalysis where
  repositoryId : RepositoryId
  revision : String
  primarySymbols : List Symbol := []
  directDependents : List CodeRelation := []
  reverseDependencies : List CodeRelation := []
  relatedFiles : List String := []
  relatedTests : List String := []
  interfaces : List String := []
  configuration : List String := []
  /-- In hundredths. -/
  riskScore : Nat := 0

namespace ImpactAnalysisService

/-- The symbols of one target: those of this name, or else those whose last name
segment it is. -/
def matching (symbols : List Symbol) (target : String) : List Symbol :=
  let candidates := symbols.filter fun symbol => symbol.qualifiedName = target
  if candidates ≠ [] then candidates
  else symbols.filter fun symbol => lastSegment '.' symbol.qualifiedName.toList = target.toList

/-- The first symbol of each identity key that is not among `seen`. -/
def unique (seen : List String) : List Symbol → List Symbol
  | [] => []
  | symbol :: found =>
    if symbol.identityKey ∈ seen then unique seen found
    else symbol :: unique (symbol.identityKey :: seen) found

def selectPrimary (symbols : List Symbol) (targetSymbols : List String) : List Symbol :=
  unique [] (targetSymbols.flatMap (matching symbols))

def riskScore (primary : List Symbol) (reverse : List CodeRelation) (relatedFiles : List String) : Nat :=
  if primary = [] then 0
  else
    let central := primary.any fun symbol =>
      ["core", "service", "domain", "model"].any (textContains (lower symbol.identity.module))
    min 100 (min 40 (10 * reverse.length) + min 30 (5 * relatedFiles.length) + if central then 15 else 0)

def configurationSuffixes : List String := [".yaml", ".yml", ".toml", ".ini", ".cfg", ".env"]

def analyze (graph : CodeGraph) (repositoryId : RepositoryId) (revision : String) (targetSymbols : List String) :
    ImpactAnalysis :=
  let symbols := graph.listSymbols repositoryId revision
  let relations := graph.listRelations repositoryId revision
  let primary := selectPrimary symbols targetSymbols
  let primaryKeys := primary.map Symbol.identityKey
  let dependents := relations.filter fun rel => rel.relationType = .calls ∧ rel.targetIdentity.key ∈ primaryKeys
  let reverse := relations.filter fun rel => rel.relationType = .calls ∧ rel.sourceIdentity.key ∈ primaryKeys
  let candidates := (dependents ++ reverse).flatMap fun rel =>
    (given rel.targetPath).toList ++ (given (some rel.sourcePath)).toList
  let relatedFiles := sortedSet (candidates ++ primary.map Symbol.path)
  let testedFiles := (relations.filter fun rel => rel.relationType = .tests).filterMap fun rel =>
    rel.targetPath.filter (relatedFiles.contains ·)
  let testFiles := (symbols.filter fun symbol => isTestPath symbol.path).map Symbol.path
  { repositoryId, revision
    primarySymbols := primary
    directDependents := dependents
    reverseDependencies := reverse
    relatedFiles
    relatedTests := sortedSet (testedFiles ++ testFiles)
    interfaces := sortedSet (reverse.map fun rel => rel.targetIdentity.qualifiedName)
    configuration := relatedFiles.filter fun path =>
      configurationSuffixes.any fun suffix => suffix.toList.isSuffixOf path.toList
    riskScore := riskScore primary reverse relatedFiles }

section Primary
variable {symbols : List Symbol} {targetSymbols : List String}

@[simp] theorem selectPrimary_nil : selectPrimary symbols [] = [] := rfl

end Primary

section Related
variable {graph : CodeGraph} {repositoryId : RepositoryId} {revision : String} {targetSymbols : List String}

theorem mem_relatedFiles {path : String} :
    path ∈ (analyze graph repositoryId revision targetSymbols).relatedFiles ↔
      (∃ rel ∈ graph.listRelations repositoryId revision, rel.relationType = .calls ∧
        (rel.targetIdentity.key ∈
            (selectPrimary (graph.listSymbols repositoryId revision) targetSymbols).map Symbol.identityKey ∨
          rel.sourceIdentity.key ∈
            (selectPrimary (graph.listSymbols repositoryId revision) targetSymbols).map Symbol.identityKey) ∧
        path ≠ "" ∧ (rel.targetPath = some path ∨ rel.sourcePath = path)) ∨
      ∃ symbol ∈ selectPrimary (graph.listSymbols repositoryId revision) targetSymbols, symbol.path = path := by
  have named : ∀ rel : CodeRelation,
      path ∈ (given rel.targetPath).toList ++ (given (some rel.sourcePath)).toList ↔
        path ≠ "" ∧ (rel.targetPath = some path ∨ rel.sourcePath = path) := by
    intro rel
    rw [List.mem_append, Option.mem_toList, Option.mem_toList, given_eq_some, given_eq_some, Option.some_inj]
    tauto
  unfold analyze
  simp only [mem_sortedSet, List.mem_append, List.mem_flatMap, List.mem_map, List.mem_filter, decide_eq_true_eq]
    at named ⊢
  simp only [named]
  constructor
  · rintro (⟨rel, ⟨member, calls, key⟩ | ⟨member, calls, key⟩, names⟩ | defined)
    · exact Or.inl ⟨rel, member, calls, Or.inl key, names⟩
    · exact Or.inl ⟨rel, member, calls, Or.inr key, names⟩
    · exact Or.inr defined
  · rintro (⟨rel, member, calls, key | key, names⟩ | defined)
    · exact Or.inl ⟨rel, Or.inl ⟨member, calls, key⟩, names⟩
    · exact Or.inl ⟨rel, Or.inr ⟨member, calls, key⟩, names⟩
    · exact Or.inr defined

theorem relatedFiles_nil : (analyze graph repositoryId revision []).relatedFiles = [] := by
  refine List.eq_nil_iff_forall_not_mem.mpr fun path related => ?_
  obtain ⟨rel, _, _, key | key, _⟩ | ⟨symbol, selected, _⟩ := mem_relatedFiles.mp related
  · simp at key
  · simp at key
  · simp at selected

end Related

end ImpactAnalysisService

end Brain
