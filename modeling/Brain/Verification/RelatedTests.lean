import Brain.Application.VerificationEngine

namespace Brain.ImpactAnalysisService

section Promise
variable (graph : CodeGraph) (repositoryId : RepositoryId) (revision : String) (targetSymbols : List String)

def primarySymbols : List Symbol := selectPrimary (graph.listSymbols repositoryId revision) targetSymbols

def IsPrimary (identity : SymbolIdentity) : Prop :=
  identity.key ∈ (primarySymbols graph repositoryId revision targetSymbols).map Symbol.identityKey

/-- A test file that calls a primary symbol or tests a file that defines one. -/
def RelatedTest (path : String) : Prop :=
  isTestPath path = true ∧ ∃ rel ∈ graph.listRelations repositoryId revision, rel.sourcePath = path ∧
    (rel.relationType = .calls ∧ IsPrimary graph repositoryId revision targetSymbols rel.targetIdentity ∨
      rel.relationType = .tests ∧
        ∃ symbol ∈ primarySymbols graph repositoryId revision targetSymbols, rel.targetPath = some symbol.path)

/-- The file of a primary symbol, or of either end of a call that one has a part in. -/
def RelatedFile (path : String) : Prop :=
  (∃ rel ∈ graph.listRelations repositoryId revision, rel.relationType = .calls ∧
    (IsPrimary graph repositoryId revision targetSymbols rel.targetIdentity ∨
      IsPrimary graph repositoryId revision targetSymbols rel.sourceIdentity) ∧
    path ≠ "" ∧ (rel.targetPath = some path ∨ rel.sourcePath = path)) ∨
  ∃ symbol ∈ primarySymbols graph repositoryId revision targetSymbols, symbol.path = path

structure Promised : Prop where
  relatedTests : ∀ path, path ∈ (analyze graph repositoryId revision targetSymbols).relatedTests ↔
    RelatedTest graph repositoryId revision targetSymbols path
  relatedFiles : ∀ path, path ∈ (analyze graph repositoryId revision targetSymbols).relatedFiles ↔
    RelatedFile graph repositoryId revision targetSymbols path
  bounded : (analyze graph repositoryId revision targetSymbols).riskScore ≤ 100
  unresolved : primarySymbols graph repositoryId revision targetSymbols = [] →
    (analyze graph repositoryId revision targetSymbols).riskScore = 0
  grows : ∀ rel : CodeRelation, rel.relationType = .calls → IsPrimary graph repositoryId revision targetSymbols rel.targetIdentity →
    (analyze graph repositoryId revision targetSymbols).riskScore ≤
      (analyze { graph with relations := graph.relations ++ [rel] } repositoryId revision targetSymbols).riskScore

/-- Every test of the graph is related, and nothing tests a related file that is
not a related test itself. -/
structure AllTestsRelated : Prop where
  tests : ∀ symbol ∈ graph.listSymbols repositoryId revision, isTestPath symbol.path = true →
    RelatedTest graph repositoryId revision targetSymbols symbol.path
  tested : ∀ rel ∈ graph.listRelations repositoryId revision, rel.relationType = .tests → ∀ path, rel.targetPath = some path →
    RelatedFile graph repositoryId revision targetSymbols path → RelatedTest graph repositoryId revision targetSymbols path
  defined : ∀ path, RelatedTest graph repositoryId revision targetSymbols path →
    (∃ symbol ∈ graph.listSymbols repositoryId revision, symbol.path = path) ∨
      ∃ rel ∈ graph.listRelations repositoryId revision, rel.relationType = .tests ∧ rel.targetPath = some path ∧
        RelatedFile graph repositoryId revision targetSymbols path

end Promise

variable {graph : CodeGraph} {repositoryId : RepositoryId} {revision : String} {targetSymbols : List String}

theorem mem_relatedTests {path : String} :
    path ∈ (analyze graph repositoryId revision targetSymbols).relatedTests ↔
      (∃ rel ∈ graph.listRelations repositoryId revision, rel.relationType = .tests ∧ rel.targetPath = some path ∧
        RelatedFile graph repositoryId revision targetSymbols path) ∨
      ∃ symbol ∈ graph.listSymbols repositoryId revision, isTestPath symbol.path = true ∧ symbol.path = path := by
  have related : path ∈ (analyze graph repositoryId revision targetSymbols).relatedFiles ↔
      RelatedFile graph repositoryId revision targetSymbols path := mem_relatedFiles
  rw [← related]
  show path ∈ sortedSet (_ ++ _) ↔ _
  rw [mem_sortedSet, List.mem_append, List.mem_filterMap, List.mem_map]
  refine or_congr ?_ ?_
  · constructor
    · rintro ⟨rel, member, passes⟩
      obtain ⟨listed, isTests⟩ := List.mem_filter.mp member
      obtain ⟨target, isRelated⟩ := Option.filter_eq_some_iff.mp passes
      exact ⟨rel, listed, of_decide_eq_true isTests, target, List.contains_iff_mem.mp isRelated⟩
    · rintro ⟨rel, listed, isTests, target, isRelated⟩
      exact ⟨rel, List.mem_filter.mpr ⟨listed, decide_eq_true isTests⟩,
        Option.filter_eq_some_iff.mpr ⟨target, List.contains_iff_mem.mpr isRelated⟩⟩
  · constructor
    · rintro ⟨symbol, member, isPath⟩
      obtain ⟨listed, isTest⟩ := List.mem_filter.mp member
      exact ⟨symbol, listed, isTest, isPath⟩
    · rintro ⟨symbol, listed, isTest, isPath⟩
      exact ⟨symbol, List.mem_filter.mpr ⟨listed, isTest⟩, isPath⟩

/-! ### The risk -/

theorem riskScore_le (primary : List Symbol) (reverse : List CodeRelation) (relatedFiles : List String) :
    riskScore primary reverse relatedFiles ≤ 100 := by
  unfold riskScore
  split
  · omega
  · exact Nat.min_le_left ..

theorem riskScore_mono (primary : List Symbol) {reverse reverse' : List CodeRelation} {relatedFiles relatedFiles' : List String}
    (calls : reverse.length ≤ reverse'.length) (files : relatedFiles.length ≤ relatedFiles'.length) :
    riskScore primary reverse relatedFiles ≤ riskScore primary reverse' relatedFiles' := by
  unfold riskScore
  dsimp only
  split <;> omega

theorem sortedSet_nodup (texts : List String) : (sortedSet texts).Nodup :=
  (List.perm_insertionSort _ _).nodup_iff.mpr (List.nodup_dedup texts)

theorem RelatedFile.grows {path : String} (related : RelatedFile graph repositoryId revision targetSymbols path) (rel : CodeRelation) :
    RelatedFile { graph with relations := graph.relations ++ [rel] } repositoryId revision targetSymbols path := by
  rcases related with ⟨old, listed, calls⟩ | defined
  · have kept : old ∈ CodeGraph.listRelations { graph with relations := graph.relations ++ [rel] } repositoryId revision := by
      unfold CodeGraph.listRelations
      rw [List.filter_append]
      exact List.mem_append_left _ listed
    exact Or.inl ⟨old, kept, calls⟩
  · exact Or.inr defined

theorem analyze_grows (rel : CodeRelation) :
    (analyze graph repositoryId revision targetSymbols).riskScore ≤
      (analyze { graph with relations := graph.relations ++ [rel] } repositoryId revision targetSymbols).riskScore := by
  apply riskScore_mono
  · exact (((List.sublist_append_left graph.relations [rel]).filter _).filter _).length_le
  · apply (sortedSet_nodup _).length_le_of_subset
    intro path listed
    have related : RelatedFile graph repositoryId revision targetSymbols path := mem_relatedFiles.mp listed
    exact mem_relatedFiles.mpr (related.grows rel)

/-- An analysis answers what it promises exactly where every test of the graph is
related to its targets. -/
theorem promised_iff (graph : CodeGraph) (repositoryId : RepositoryId) (revision : String) (targetSymbols : List String) :
    Promised graph repositoryId revision targetSymbols ↔ AllTestsRelated graph repositoryId revision targetSymbols := by
  constructor
  · intro promised
    refine { tests := ?_, tested := ?_, defined := ?_ }
    · intro symbol listed isTest
      exact (promised.relatedTests _).mp (mem_relatedTests.mpr (Or.inr ⟨symbol, listed, isTest, rfl⟩))
    · intro rel listed isTests path target related
      exact (promised.relatedTests _).mp (mem_relatedTests.mpr (Or.inl ⟨rel, listed, isTests, target, related⟩))
    · intro path isRelated
      rcases mem_relatedTests.mp ((promised.relatedTests path).mpr isRelated) with tested | ⟨symbol, listed, _, isPath⟩
      · exact Or.inr tested
      · exact Or.inl ⟨symbol, listed, isPath⟩
  · intro all
    refine {
      relatedTests := fun path => ?_
      relatedFiles := fun path => mem_relatedFiles
      bounded := riskScore_le _ _ _
      unresolved := fun nothing => if_pos nothing
      grows := fun rel _ _ => analyze_grows rel }
    rw [mem_relatedTests]
    constructor
    · rintro (⟨rel, listed, isTests, target, related⟩ | ⟨symbol, listed, isTest, rfl⟩)
      · exact all.tested rel listed isTests path target related
      · exact all.tests symbol listed isTest
    · intro isRelated
      rcases all.defined path isRelated with ⟨symbol, listed, rfl⟩ | tested
      · exact Or.inr ⟨symbol, listed, isRelated.1, rfl⟩
      · exact Or.inl tested

/-- Asked about no symbol, the analysis still lists the tests of the graph. -/
theorem unrelated_test_listed :
    ∃ (graph : CodeGraph) (repositoryId : RepositoryId) (revision path : String),
      path ∈ (analyze graph repositoryId revision []).relatedTests ∧ primarySymbols graph repositoryId revision [] = [] ∧
        ¬ RelatedTest graph repositoryId revision [] path := by
  refine ⟨{ symbols := [{
    identity := { repositoryId := .v4 0, revision := "main", module := "tests.test_auth", qualifiedName := "tests.test_auth", kind := .module }
    path := "tests/test_auth.py"
    qualifiedName := "tests.test_auth" }] }, .v4 0, "main", "tests/test_auth.py", by decide, rfl, ?_⟩
  rintro ⟨_, rel, listed, _⟩
  cases listed

end Brain.ImpactAnalysisService

namespace Brain

/-! ### The impact of a change -/

namespace CodeGraph
variable (graph : CodeGraph) (repositoryId : RepositoryId) (revision : String) (changedFiles : List String)

/-- `source` stands in a relation of type `type` to `target`. -/
def Relates (type : CodeRelationType) (source target : Symbol) : Prop :=
  ∃ rel ∈ graph.listRelations repositoryId revision, rel.relationType = type ∧
    rel.sourceIdentity.key = source.identityKey ∧ rel.targetIdentity.key = target.identityKey

/-- `path` is a test file left as it was, in which a symbol is defined that calls
or tests a symbol of a changed file. -/
def UntouchedTest (path : String) : Prop :=
  isTestPath path = true ∧ path ∉ changedFiles ∧
    ∃ test ∈ graph.listSymbols repositoryId revision, test.path = path ∧
      ∃ symbol ∈ graph.listSymbols repositoryId revision, symbol.path ∈ changedFiles ∧
        (graph.Relates repositoryId revision .calls test symbol ∨
          graph.Relates repositoryId revision .tests test symbol)

/-- A symbol defined in `path` calls or tests one of a changed file, or is called
or tested by one. -/
def RelatedFile (path : String) : Prop :=
  ∃ other ∈ graph.listSymbols repositoryId revision, other.path = path ∧
    ∃ symbol ∈ graph.listSymbols repositoryId revision, symbol.path ∈ changedFiles ∧
      ∃ type, (type = .calls ∨ type = .tests) ∧
        (graph.Relates repositoryId revision type other symbol ∨ graph.Relates repositoryId revision type symbol other)

end CodeGraph

def VerifyRequest.atRevision (request : VerifyRequest) (repositoryId : RepositoryId) (revision : String) :
    VerifyRequest :=
  { request with repositoryId := some repositoryId, revision := some revision }

namespace VerificationEngine
variable (runId : VerificationId) (request : VerifyRequest)

def ListedMissing (run : VerificationRun) (path : String) : Prop :=
  ∃ step ∈ run.plan.steps, step.kind = .testRelevance ∧ ∃ paths : List String,
    step.detail.lookup "missing_tests" = some (pyTexts paths) ∧ path ∈ paths

def Passes (run : VerificationRun) (kind : CheckKind) : Prop :=
  ∀ step ∈ run.plan.steps, step.kind = kind → step.status = .pass

def CommandsPass (self : VerificationEngine) (workspacePath : Option String) : Prop :=
  ∀ step ∈ self.runCommandSteps workspacePath, step.status = .pass

structure SeesImpact (engine : VerificationEngine) (repositoryId : RepositoryId) (revision : String)
    (request : VerifyRequest) (run : VerificationRun) : Prop where
  notPass : ∀ path, engine.codeGraph.UntouchedTest repositoryId revision request.changedFiles path →
    run.verdict ≠ .pass
  listed : ∀ path, engine.codeGraph.UntouchedTest repositoryId revision request.changedFiles path →
    ListedMissing run path
  quiet : (∀ path, engine.codeGraph.RelatedFile repositoryId revision request.changedFiles path →
      path ∈ request.changedFiles) → engine.CommandsPass request.workspacePath →
    Passes run .structural ∧ Passes run .testRelevance

/-! ### What the run depends on -/

variable {self : VerificationEngine}

theorem expectedFiles_eq_nil : self.expectedFiles request = [] := by
  unfold expectedFiles
  split
  · exact ImpactAnalysisService.relatedFiles_nil
  · rfl

theorem planSteps_eq : self.planSteps request = self.runCommandSteps request.workspacePath ++
      [structuralStep request.changedFiles [], self.architectureStep request.changedFiles,
        testRelevanceStep request.changedFiles []] := by
  unfold planSteps
  rw [expectedFiles_eq_nil]

@[simp] theorem structuralStep_nil (changedFiles : List String) : (structuralStep changedFiles []).status = .pass := rfl

@[simp] theorem testRelevanceStep_nil (changedFiles : List String) :
    (testRelevanceStep changedFiles []).status = .pass := rfl

theorem mem_runCommandSteps {workspacePath : Option String} {step : VerificationStep}
    (member : step ∈ self.runCommandSteps workspacePath) :
    ∃ kind command result, step = commandStep kind command result := by
  obtain ⟨n, bound, rfl⟩ := List.mem_mapIdx.mp member
  exact ⟨_, _, _, rfl⟩

theorem verdict_eq_pass_iff {run : VerificationRun} {acceptanceCriteria changedFiles : List String} :
    (aggregateVerdict run acceptanceCriteria changedFiles).verdict = .pass ↔
      (∀ step ∈ run.plan.steps, step.status ≠ .fail ∧ step.status ≠ .partially) ∧ changedFiles ≠ [] ∧
        acceptanceCriteria ≠ [] := by
  have none_of : ∀ status, run.plan.steps.filter (·.status = status) = [] ↔
      ∀ step ∈ run.plan.steps, step.status ≠ status := by
    intro status
    simp [List.filter_eq_nil_iff]
  unfold aggregateVerdict
  simp only [ne_eq, none_of]
  constructor
  · intro passes
    split_ifs at passes with fails partials criteria
    rw [not_or, not_not] at fails
    exact ⟨fun step member => ⟨fails.1 step member, partials step member⟩, fails.2, criteria⟩
  · rintro ⟨clean, changed, criteria⟩
    rw [if_neg, if_neg, if_neg criteria]
    · exact not_not.mpr fun step member => (clean step member).2
    · exact not_or.mpr ⟨not_not.mpr fun step member => (clean step member).1, changed⟩

theorem verificationRun_steps : (self.verificationRun runId request).plan.steps = self.planSteps request := rfl

theorem verificationRun_passes_iff : (self.verificationRun runId request).verdict = .pass ↔
      self.CommandsPass request.workspacePath ∧ (self.architectureStep request.changedFiles).status = .pass ∧
        request.changedFiles ≠ [] ∧ request.acceptanceCriteria ≠ [] := by
  have command : ∀ step ∈ self.runCommandSteps request.workspacePath,
      (step.status ≠ .fail ∧ step.status ≠ .partially ↔ step.status = .pass) := by
    intro step member
    obtain ⟨kind, text, result, rfl⟩ := mem_runCommandSteps member
    unfold commandStep
    split <;> simp
  have architecture : (self.architectureStep request.changedFiles).status ≠ .fail ∧
      (self.architectureStep request.changedFiles).status ≠ .partially ↔
        (self.architectureStep request.changedFiles).status = .pass := by
    unfold architectureStep
    simp only
    split <;> simp
  unfold verificationRun
  rw [verdict_eq_pass_iff]
  refine (and_congr_left fun _ => ?_).trans and_assoc
  rw [planSteps_eq, List.forall_mem_append]
  refine and_congr (forall₂_congr command) ?_
  rw [List.forall_mem_cons, List.forall_mem_cons, List.forall_mem_singleton, architecture]
  constructor
  · exact fun clean => clean.2.1
  · exact fun passes => ⟨by simp, passes, by simp⟩

theorem pyTexts_injective : Function.Injective pyTexts := by
  intro left right same
  have strings : Function.Injective PyValue.str := fun _ _ => PyValue.str.inj
  exact List.map_injective_iff.mpr strings (PyValue.list.inj same)

theorem not_listedMissing (path : String) : ¬ ListedMissing (self.verificationRun runId request) path := by
  rintro ⟨step, member, kind, paths, listed, mentioned⟩
  rw [verificationRun_steps, planSteps_eq, List.mem_append] at member
  rcases member with command | check
  · obtain ⟨_, _, _, rfl⟩ := mem_runCommandSteps command
    cases listed
  · simp only [List.mem_cons, List.not_mem_nil, or_false] at check
    rcases check with rfl | rfl | rfl
    · cases kind
    · cases kind
    · have empty : pyTexts paths = pyTexts [] := (Option.some.inj listed).symm
      rw [pyTexts_injective empty] at mentioned
      cases mentioned

theorem passes_of_commandsPass {request : VerifyRequest} (commands : self.CommandsPass request.workspacePath)
    (runId : VerificationId) {kind : CheckKind} (checked : kind ≠ .architecture) :
    Passes (self.verificationRun runId request) kind := by
  intro step member same
  rw [verificationRun_steps, planSteps_eq, List.mem_append] at member
  rcases member with command | check
  · exact commands step command
  · simp only [List.mem_cons, List.not_mem_nil, or_false] at check
    rcases check with rfl | rfl | rfl
    · exact structuralStep_nil _
    · exact absurd same.symm checked
    · exact testRelevanceStep_nil _

/-- A verification sees the impact of a change exactly when the change has none on
a test file outside of it. -/
theorem impact_seen_iff (repositoryId : RepositoryId) (revision : String) (request : VerifyRequest)
    (runs : VerificationRuns) :
    self.SeesImpact repositoryId revision
        (request.atRevision repositoryId revision)
        (self.verify runId (request.atRevision repositoryId revision) runs).1.run ↔
      ∀ path, ¬ self.codeGraph.UntouchedTest repositoryId revision request.changedFiles path := by
  constructor
  · intro sees path untouched
    exact not_listedMissing runId _ path (sees.listed path untouched)
  · intro none_untouched
    exact {
      notPass := fun path untouched => absurd untouched (none_untouched path)
      listed := fun path untouched => absurd untouched (none_untouched path)
      quiet := fun _ commands => ⟨passes_of_commandsPass commands runId (by decide),
        passes_of_commandsPass commands runId (by decide)⟩ }

section Missed

def loginRepository : RepositoryId := .v4 1

def loginSymbol : Symbol where
  identity := ⟨loginRepository, "r1", "app.login", "app.login.login", .function⟩
  path := "app/login.py"
  qualifiedName := "app.login.login"

def loginTest : Symbol where
  identity := ⟨loginRepository, "r1", "tests.test_login", "tests.test_login.test_login", .function⟩
  path := "tests/test_login.py"
  qualifiedName := "tests.test_login.test_login"

/-- An engine without commands over a graph of a function and its test. -/
def loginEngine : VerificationEngine where
  runner := fun _ _ _ => []
  codeGraph := {
    symbols := [loginSymbol, loginTest]
    relations := [{
      relationType := .calls, sourceIdentity := loginTest.identity, targetIdentity := loginSymbol.identity
      repositoryId := loginRepository, revision := "r1", sourcePath := "tests/test_login.py"
      targetPath := some "app/login.py" }] }
  search := fun _ _ => false

def loginRequest : VerifyRequest where
  executionId := .v4 2
  workItemId := .v4 3
  acceptanceCriteria := ["login works"]
  changedFiles := ["app/login.py"]
  repositoryId := some loginRepository
  revision := some "r1"

/-- The function is changed, the test that calls it is not, and the verdict is PASS. -/
theorem untouched_test_passes :
    loginEngine.codeGraph.UntouchedTest loginRepository "r1" loginRequest.changedFiles "tests/test_login.py" ∧
      (loginEngine.verify (.v4 4) loginRequest Keyed.empty).1.run.verdict = .pass ∧
      ¬ loginEngine.SeesImpact loginRepository "r1" loginRequest
        (loginEngine.verify (.v4 4) loginRequest Keyed.empty).1.run := by
  have called : loginEngine.codeGraph.Relates loginRepository "r1" .calls loginTest loginSymbol :=
    ⟨_, List.mem_singleton_self _, rfl, rfl, rfl⟩
  have untouched : loginEngine.codeGraph.UntouchedTest loginRepository "r1" loginRequest.changedFiles
      "tests/test_login.py" :=
    ⟨by decide, by decide, loginTest, by decide, rfl, loginSymbol, by decide, by decide, Or.inl called⟩
  have passes : (loginEngine.verify (.v4 4) loginRequest Keyed.empty).1.run.verdict = .pass :=
    (verificationRun_passes_iff _ _).mpr ⟨fun _ member => absurd member List.not_mem_nil, by decide, by decide, by decide⟩
  exact ⟨untouched, passes, fun sees => sees.notPass _ untouched passes⟩

end Missed

end VerificationEngine

end Brain
