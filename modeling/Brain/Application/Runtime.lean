import Brain.Domain.CodeIntelligence

namespace Brain

inductive RuntimeEvidenceKind
  | trace | coverage | logEvent | serviceCall | databaseAccess | messagePublish | messageConsume
  deriving DecidableEq

structure RuntimeObservation where
  kind : RuntimeEvidenceKind
  repositoryId : Option RepositoryId := none
  revision : Option String := none
  source : String := ""
  symbols : List String := []

structure InMemoryRuntimeEvidence where
  observations : List RuntimeObservation := []

def InMemoryRuntimeEvidence.listForRevision (runtime : InMemoryRuntimeEvidence) (repositoryId : RepositoryId)
    (revision : String) : List RuntimeObservation :=
  runtime.observations.filter fun obs => obs.repositoryId = some repositoryId && obs.revision = some revision

/-- The arguments of `import_coverage` that its result depends on. -/
structure CoverageImport where
  repositoryId : RepositoryId
  revision : String
  testName : String
  testPath : String := ""
  executedFiles : List String := []

structure CoverageRecord where
  testName : String
  testPath : String
  executedFiles : List String
  executedSymbols : List (String × List String)

def InMemoryRuntimeEvidence.saveObservation (runtime : InMemoryRuntimeEvidence) (observation : RuntimeObservation) :
    InMemoryRuntimeEvidence where
  observations := runtime.observations ++ [observation]

namespace CoverageImporter

/-- `by_path.get(path, [])`. -/
def byPath (codeGraph : InMemoryCodeGraph) (coverage : CoverageImport) (path : String) : List String :=
  ((codeGraph.listSymbols coverage.repositoryId coverage.revision).filter fun symbol => symbol.path = path).map
    fun symbol => symbol.qualifiedName

def importCoverage (codeGraph : InMemoryCodeGraph) (coverage : CoverageImport) (runtime : InMemoryRuntimeEvidence) :
    CoverageRecord × InMemoryRuntimeEvidence :=
  let byPath := byPath codeGraph coverage
  ({ testName := coverage.testName
     testPath := coverage.testPath
     executedFiles := sortedSet coverage.executedFiles
     executedSymbols := (coverage.executedFiles.dedup.filter fun path => byPath path ≠ []).map fun path =>
      (path, sortedSet (byPath path)) },
    { observations := runtime.observations ++ coverage.executedFiles.map fun path =>
        { kind := .coverage, repositoryId := some coverage.repositoryId, revision := some coverage.revision
          source := coverage.testName, symbols := byPath path } })

end CoverageImporter

/-- The score counts tenths. -/
structure TargetedTest where
  testName : String
  path : String
  reasons : List String := []
  score : Nat := 0
  deriving DecidableEq

structure AdvancedTestSelection where
  selectedTests : List TargetedTest
  viaRuntimeCoverage : Nat
  viaCallGraph : Nat
  viaChangedSymbols : Nat := 0
  viaTestHistory : Nat

/-- The way of a process through a set of texts: each once, in an order that
depends on how the texts were inserted. -/
structure SetOrder where
  elements : List String → List String
  nodup : ∀ texts, (elements texts).Nodup
  mem_iff : ∀ texts text, text ∈ elements texts ↔ text ∈ texts

def isTestName (qualifiedName : String) : Bool :=
  let last := lastSegment '.' qualifiedName.toList
  "test_".toList.isPrefixOf last || "Test".toList.isPrefixOf last

/-- `tests_by_symbol.get(symbol, [])`. -/
def testsBySymbol (relations : List StoredRelation) (symbol : String) : List String :=
  (relations.filter fun relation => relation.relationType = .tests && relation.targetIdentity.qualifiedName = symbol &&
    isTestName relation.sourceIdentity.qualifiedName).map fun relation => relation.sourceIdentity.qualifiedName

/-- `test_paths.get(test, "")`: the last symbol of the name decides. -/
def testPath (symbols : List ParsedSymbol) (test : String) : String :=
  (((symbols.filter fun symbol => isTestName symbol.qualifiedName && symbol.qualifiedName = test).getLast?).map
    fun symbol => symbol.path).getD ""

/-- The names of `covered_tests` as they are inserted. -/
def coveredTests (observations : List RuntimeObservation) (changedSymbols : List String) : List String :=
  (observations.filter fun obs => obs.kind = .coverage && obs.symbols.any changedSymbols.contains).map (·.source)

/-- The local variables of `select`. -/
structure Selecting where
  selected : Keyed TargetedTest.testName := Keyed.empty
  viaRuntime : Nat := 0
  viaCallGraph : Nat := 0
  viaHistory : Nat := 0

namespace Selecting
variable (path : String → String)

/-- The entry of a test, a new one when there is none. -/
def entry (acc : Selecting) (test : String) : TargetedTest :=
  (acc.selected.get test).getD { testName := test, path := path test }

def callGraphReason (changed : String) : String := "tests " ++ changed ++ " via call graph"

/-- A turn of the loop over the tests of a changed symbol. -/
def addStatic (acc : Selecting) (hit : String × String) : Selecting :=
  let test := acc.entry path hit.2
  { acc with
    selected := acc.selected.upsert { test with reasons := test.reasons ++ [callGraphReason hit.1], score := test.score + 5 }
    viaCallGraph := acc.viaCallGraph + if (acc.selected.get hit.2).isNone then 1 else 0 }

/-- A turn of the loop over the covered tests. -/
def addCovered (acc : Selecting) (name : String) : Selecting :=
  let test := acc.entry path name
  if test.reasons.contains "runtime coverage" then { acc with selected := acc.selected.upsert test }
  else
    { acc with
      selected := acc.selected.upsert
        { test with reasons := test.reasons ++ ["exercised changed symbols at runtime"], score := test.score + 8 }
      viaRuntime := acc.viaRuntime + 1 }

/-- A turn of the loop over the history. -/
def addHistorical (acc : Selecting) (name : String) : Selecting :=
  match acc.selected.get name with
  | some _ => acc
  | none =>
    { acc with
      selected := acc.selected.upsert { testName := name, path := path name, reasons := ["historical failure"], score := 3 }
      viaHistory := acc.viaHistory + 1 }

end Selecting

/-- The key of the last sort, in reverse. -/
def ScoresAtLeast (a b : TargetedTest) : Prop := b.score ≤ a.score

instance : DecidableRel ScoresAtLeast := fun a b => Nat.decLe b.score a.score

structure AdvancedTestSelector where
  codeGraph : InMemoryCodeGraph
  runtime : InMemoryRuntimeEvidence
  order : SetOrder

namespace AdvancedTestSelector
variable (self : AdvancedTestSelector) (repositoryId : RepositoryId) (revision : String)

def static (changedSymbols : List String) : Selecting :=
  let symbols := self.codeGraph.listSymbols repositoryId revision
  let relations := self.codeGraph.listRelations repositoryId revision
  changedSymbols.foldl (fun acc changed => (testsBySymbol relations changed).foldl
    (fun acc test => acc.addStatic (testPath symbols) (changed, test)) acc) {}

def covered (changedSymbols : List String) : Selecting :=
  (self.order.elements (coveredTests (self.runtime.listForRevision repositoryId revision) changedSymbols)).foldl
    (fun acc test => acc.addCovered (testPath (self.codeGraph.listSymbols repositoryId revision)) test)
    (self.static repositoryId revision changedSymbols)

def historical (changedSymbols testHistory : List String) : Selecting :=
  (self.order.elements testHistory).foldl
    (fun acc test => acc.addHistorical (testPath (self.codeGraph.listSymbols repositoryId revision)) test)
    (self.covered repositoryId revision changedSymbols)

def select (changedSymbols : List String) (testHistory : List String := []) : AdvancedTestSelection :=
  let acc := self.historical repositoryId revision changedSymbols testHistory
  { selectedTests := acc.selected.items.insertionSort ScoresAtLeast
    viaRuntimeCoverage := acc.viaRuntime, viaCallGraph := acc.viaCallGraph, viaTestHistory := acc.viaHistory }

end AdvancedTestSelector

end Brain
