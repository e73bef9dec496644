import Brain.Verification.RelatedTests

namespace Brain
namespace VerificationEngine

/-! ### Verdicts -/

section Verdicts
variable (engine : VerificationEngine) (request : VerifyRequest) (expected : List String)

/-- The checks of a run whose expected files are `expected`. -/
def checks : List VerificationStep :=
  engine.runCommandSteps request.workspacePath ++
    [structuralStep request.changedFiles expected, engine.architectureStep request.changedFiles,
      testRelevanceStep request.changedFiles expected]

def checkedRun (runId : VerificationId) : VerificationRun :=
  aggregateVerdict
    { id := runId, executionId := request.executionId
      plan := { buildPlan request with steps := engine.checks request expected } }
    request.acceptanceCriteria request.changedFiles

/-- The runner answers one of the project commands with `result`. -/
def Answered (result : RawDict) : Prop :=
  ∃ n kind command, engine.projectCommands[n]? = some (kind, command) ∧
    engine.runner n command request.workspacePath = result

/-- An exit code is there and reads as 0. -/
def ReportsZero (result : RawDict) : Prop := ∃ value, result.lookup "exit_code" = some value ∧ parseInt value.text = some 0

def ShouldPass (run : VerificationRun) : Prop :=
  (∀ result, engine.Answered request result → ReportsZero result) ∧
    (∀ step ∈ run.plan.steps, step.status ≠ .fail ∧ step.status ≠ .partially) ∧ request.changedFiles ≠ [] ∧
    request.acceptanceCriteria ≠ []

def ShouldFail (run : VerificationRun) : Prop :=
  (∃ step ∈ run.plan.steps, step.status = .fail) ∨ request.changedFiles = []

instance (run : VerificationRun) : Decidable (ShouldFail request run) := by unfold ShouldFail; infer_instance

def ShouldBePartial (run : VerificationRun) : Prop :=
  ¬ ShouldFail request run ∧ ∃ step ∈ run.plan.steps, step.status = .partially

structure Sound (run : VerificationRun) : Prop where
  pass : run.verdict = .pass ↔ engine.ShouldPass request run
  fail : run.verdict = .fail ↔ ShouldFail request run
  partially : run.verdict = .partially ↔ ShouldBePartial request run
  blocked : run.verdict = .blocked ↔
    ¬ engine.ShouldPass request run ∧ ¬ ShouldFail request run ∧ ¬ ShouldBePartial request run
  allowed : (prReadiness run).prAllowed = true ↔ run.verdict = .pass
  named : ∀ step ∈ run.plan.steps, step.status = .fail ∨ step.status = .partially →
    step.issue ∈ run.feedback ∧ step.issue ∈ run.issues

/-- A command reports no exit code, and nothing else keeps the run from passing. -/
structure OnlyUnreported : Prop where
  unreported : ∃ result, engine.Answered request result ∧ result.lookup "exit_code" = none
  reported : ∀ result, engine.Answered request result → result.lookup "exit_code" = none ∨ ReportsZero result
  expected : ∀ path ∈ expected, path ∈ request.changedFiles
  unguarded : ∀ rule ∈ engine.architectureRules, ∀ path ∈ request.changedFiles, engine.search rule.sourcePattern path = false
  changed : request.changedFiles ≠ []
  criteria : request.acceptanceCriteria ≠ []

end Verdicts

/-! ### What each check says -/

section Checks
variable {self : VerificationEngine} {request : VerifyRequest} {expected : List String}

theorem exitCode_eq_zero {result : RawDict} :
    exitCode result = 0 ↔ result.lookup "exit_code" = none ∨ ReportsZero result := by
  unfold exitCode ReportsZero
  cases found : result.lookup "exit_code" with
  | none =>
    have default : parseInt (PyValue.int 0).text = some 0 := by decide
    simp [default]
  | some value => cases read : parseInt value.text <;> simp [read]

theorem commandStep_clean {kind : CheckKind} {command : String} {result : RawDict} :
    (commandStep kind command result).status ≠ .fail ∧ (commandStep kind command result).status ≠ .partially ↔
      result.lookup "exit_code" = none ∨ ReportsZero result := by
  rw [← exitCode_eq_zero]
  unfold commandStep
  split <;> simp_all

variable {changedFiles : List String}

theorem structuralStep_clean :
    (structuralStep changedFiles expected).status ≠ .fail ∧ (structuralStep changedFiles expected).status ≠ .partially ↔
      ∀ path ∈ expected, path ∈ changedFiles := by
  have missing : sortedSet (expected.filter fun e => e ∉ changedFiles) = [] ↔ ∀ path ∈ expected, path ∈ changedFiles := by
    simp [List.eq_nil_iff_forall_not_mem]
  rw [← missing]
  unfold structuralStep
  dsimp only
  split <;> simp_all

theorem architectureStep_clean :
    (self.architectureStep changedFiles).status ≠ .fail ∧ (self.architectureStep changedFiles).status ≠ .partially ↔
      ∀ rule ∈ self.architectureRules, ∀ path ∈ changedFiles, self.search rule.sourcePattern path = false := by
  have none : (self.architectureRules.flatMap fun rule =>
      (changedFiles.filter (self.search rule.sourcePattern)).map fun path =>
        path ++ ": " ++ rule.name ++ " (" ++ rule.relation ++ ")") = [] ↔
      ∀ rule ∈ self.architectureRules, ∀ path ∈ changedFiles, self.search rule.sourcePattern path = false := by
    simp [List.flatMap_eq_nil_iff, List.filter_eq_nil_iff]
  rw [← none]
  unfold architectureStep
  dsimp only
  split <;> simp_all

theorem testRelevanceStep_clean (changed : ∀ path ∈ expected, path ∈ changedFiles) :
    (testRelevanceStep changedFiles expected).status ≠ .fail ∧
      (testRelevanceStep changedFiles expected).status ≠ .partially := by
  have missing : (testRelevanceReport changedFiles expected).missingTests = [] := by
    rw [List.eq_nil_iff_forall_not_mem]
    intro path member
    simp [testRelevanceReport] at member
    obtain ⟨⟨listed, isTest⟩, untouched⟩ := member
    rcases untouched with outside | other
    · exact outside (changed path listed)
    · rw [isTest] at other
      cases other
  unfold testRelevanceStep
  simp [missing]

theorem runCommandSteps_clean : (∀ step ∈ self.runCommandSteps request.workspacePath,
    step.status ≠ .fail ∧ step.status ≠ .partially) ↔
      ∀ result, self.Answered request result → result.lookup "exit_code" = none ∨ ReportsZero result := by
  constructor
  · rintro clean _ ⟨n, kind, command, atIndex, rfl⟩
    obtain ⟨bound, isCheck⟩ := List.getElem?_eq_some_iff.mp atIndex
    have listed : commandStep kind command (self.runner n command request.workspacePath) ∈
        self.runCommandSteps request.workspacePath := by
      refine List.mem_mapIdx.mpr ⟨n, bound, ?_⟩
      rw [isCheck]
    exact commandStep_clean.mp (clean _ listed)
  · intro reported step member
    obtain ⟨n, bound, rfl⟩ := List.mem_mapIdx.mp member
    exact commandStep_clean.mpr (reported _ ⟨n, _, _, List.getElem?_eq_getElem bound, rfl⟩)

theorem checks_clean : (∀ step ∈ self.checks request expected, step.status ≠ .fail ∧ step.status ≠ .partially) ↔
    (∀ result, self.Answered request result → result.lookup "exit_code" = none ∨ ReportsZero result) ∧
      (∀ path ∈ expected, path ∈ request.changedFiles) ∧
        ∀ rule ∈ self.architectureRules, ∀ path ∈ request.changedFiles, self.search rule.sourcePattern path = false := by
  unfold checks
  rw [List.forall_mem_append, runCommandSteps_clean, List.forall_mem_cons, List.forall_mem_cons, List.forall_mem_singleton,
    structuralStep_clean, architectureStep_clean]
  refine and_congr_right fun _ => ?_
  constructor
  · exact fun clean => ⟨clean.1, clean.2.1⟩
  · exact fun clean => ⟨clean.1, clean.2, testRelevanceStep_clean clean.1⟩

end Checks

/-! ### What the verdict says -/

section Aggregation
variable {run : VerificationRun} {acceptanceCriteria changedFiles : List String}

theorem filter_status_eq_nil {steps : List VerificationStep} {status : CheckStatus} :
    steps.filter (·.status = status) = [] ↔ ¬ ∃ step ∈ steps, step.status = status := by
  simp [List.filter_eq_nil_iff]

theorem aggregateVerdict_verdict : (aggregateVerdict run acceptanceCriteria changedFiles).verdict =
    if (∃ step ∈ run.plan.steps, step.status = .fail) ∨ changedFiles = [] then .fail
    else if ∃ step ∈ run.plan.steps, step.status = .partially then .partially
    else if acceptanceCriteria = [] then .blocked
    else .pass := by
  simp only [aggregateVerdict, ne_eq, filter_status_eq_nil, not_not]

theorem issue_mem_feedback {step : VerificationStep} (member : step ∈ run.plan.steps)
    (noted : step.status = .fail ∨ step.status = .partially) :
    step.issue ∈ (aggregateVerdict run acceptanceCriteria changedFiles).feedback := by
  refine List.mem_map_of_mem (List.mem_append.mpr ?_)
  simp only [List.mem_filter, decide_eq_true_eq]
  exact noted.imp (fun failed => ⟨member, failed⟩) fun isPartial => ⟨member, isPartial⟩

theorem feedback_subset_issues : (aggregateVerdict run acceptanceCriteria changedFiles).feedback ⊆
    (aggregateVerdict run acceptanceCriteria changedFiles).issues :=
  fun _ member => List.mem_append_left _ (List.mem_append_left _ member)

theorem prAllowed_iff : (prReadiness run).prAllowed = true ↔ run.verdict = .pass := by
  unfold prReadiness
  split <;> simp_all

end Aggregation

section
variable {self : VerificationEngine} {request : VerifyRequest} {expected : List String} {runId : VerificationId}

theorem checkedRun_verdict : (self.checkedRun request expected runId).verdict =
    if ShouldFail request (self.checkedRun request expected runId) then .fail
    else if ∃ step ∈ self.checks request expected, step.status = .partially then .partially
    else if request.acceptanceCriteria = [] then .blocked
    else .pass := aggregateVerdict_verdict

theorem clean_iff {run : VerificationRun} :
    (∀ step ∈ run.plan.steps, step.status ≠ .fail ∧ step.status ≠ .partially) ∧ request.changedFiles ≠ [] ↔
      ¬ ShouldFail request run ∧ ¬ ∃ step ∈ run.plan.steps, step.status = .partially := by
  unfold ShouldFail
  constructor
  · rintro ⟨clean, changed⟩
    refine ⟨?_, fun ⟨step, member, isPartial⟩ => (clean step member).2 isPartial⟩
    rintro (⟨step, member, failed⟩ | none)
    · exact (clean step member).1 failed
    · exact changed none
  · rintro ⟨noFailure, noPartial⟩
    refine ⟨fun step member => ⟨fun failed => ?_, fun isPartial => noPartial ⟨step, member, isPartial⟩⟩, fun none => ?_⟩
    · exact noFailure (Or.inl ⟨step, member, failed⟩)
    · exact noFailure (Or.inr none)

theorem shouldPass_iff {run : VerificationRun} : self.ShouldPass request run ↔
    (∀ result, self.Answered request result → ReportsZero result) ∧
      (¬ ShouldFail request run ∧ ¬ ∃ step ∈ run.plan.steps, step.status = .partially) ∧ request.acceptanceCriteria ≠ [] := by
  rw [← clean_iff, and_assoc]
  rfl

theorem onlyUnreported_iff : self.OnlyUnreported request expected ↔
    (¬ ShouldFail request (self.checkedRun request expected runId) ∧
      ¬ ∃ step ∈ self.checks request expected, step.status = .partially) ∧ request.acceptanceCriteria ≠ [] ∧
      ¬ ∀ result, self.Answered request result → ReportsZero result := by
  have clean : (¬ ShouldFail request (self.checkedRun request expected runId) ∧
      ¬ ∃ step ∈ self.checks request expected, step.status = .partially) ↔ _ := clean_iff.symm
  rw [clean, show (self.checkedRun request expected runId).plan.steps = self.checks request expected from rfl, checks_clean]
  constructor
  · rintro ⟨⟨result, answered, missing⟩, reported, inChanged, unguarded, changed, criteria⟩
    refine ⟨⟨⟨reported, inChanged, unguarded⟩, changed⟩, criteria, fun zero => ?_⟩
    obtain ⟨value, found, _⟩ := zero result answered
    rw [missing] at found
    cases found
  · rintro ⟨⟨⟨reported, inChanged, unguarded⟩, changed⟩, criteria, notZero⟩
    refine ⟨?_, reported, inChanged, unguarded, changed, criteria⟩
    by_contra none
    refine notZero fun result answered => ?_
    exact (reported result answered).resolve_left fun missing => none ⟨result, answered, missing⟩

theorem sound_of_reported
    (reported : ¬ ShouldFail request (self.checkedRun request expected runId) →
      (¬ ∃ step ∈ self.checks request expected, step.status = .partially) → request.acceptanceCriteria ≠ [] →
      ∀ result, self.Answered request result → ReportsZero result) :
    self.Sound request (self.checkedRun request expected runId) := by
  have verdict := @checkedRun_verdict self request expected runId
  have passes := @shouldPass_iff self request (self.checkedRun request expected runId)
  have partially : ShouldBePartial request (self.checkedRun request expected runId) ↔
      ¬ ShouldFail request (self.checkedRun request expected runId) ∧
        ∃ step ∈ self.checks request expected, step.status = .partially := Iff.rfl
  have named : ∀ step ∈ self.checks request expected, step.status = .fail ∨ step.status = .partially →
      step.issue ∈ (self.checkedRun request expected runId).feedback ∧
        step.issue ∈ (self.checkedRun request expected runId).issues := by
    intro step member noted
    have inFeedback : step.issue ∈ (self.checkedRun request expected runId).feedback := issue_mem_feedback member noted
    exact ⟨inFeedback, feedback_subset_issues inFeedback⟩
  have sameSteps : (self.checkedRun request expected runId).plan.steps = self.checks request expected := rfl
  rw [sameSteps] at passes
  by_cases failure : ShouldFail request (self.checkedRun request expected runId)
  · rw [if_pos failure] at verdict
    have notPass : ¬ self.ShouldPass request (self.checkedRun request expected runId) := fun pass =>
      (passes.mp pass).2.1.1 failure
    exact ⟨by simp [verdict, notPass], by simp [verdict, failure], by simp [verdict, partially, failure],
      by simp [verdict, failure], prAllowed_iff, named⟩
  · rw [if_neg failure] at verdict
    by_cases isPartial : ∃ step ∈ self.checks request expected, step.status = .partially
    · rw [if_pos isPartial] at verdict
      have notPass : ¬ self.ShouldPass request (self.checkedRun request expected runId) := fun pass =>
        (passes.mp pass).2.1.2 isPartial
      have should := partially.mpr ⟨failure, isPartial⟩
      exact ⟨by simp [verdict, notPass], by simp [verdict, failure], by simp [verdict, should],
        by simp [verdict, should], prAllowed_iff, named⟩
    · rw [if_neg isPartial] at verdict
      have notPartial : ¬ ShouldBePartial request (self.checkedRun request expected runId) := fun should =>
        isPartial (partially.mp should).2
      by_cases criteria : request.acceptanceCriteria = []
      · rw [if_pos criteria] at verdict
        have notPass : ¬ self.ShouldPass request (self.checkedRun request expected runId) := fun pass =>
          (passes.mp pass).2.2 criteria
        exact ⟨by simp [verdict, notPass], by simp [verdict, failure], by simp [verdict, notPartial],
          by simp [verdict, notPass, failure, notPartial], prAllowed_iff, named⟩
      · rw [if_neg criteria] at verdict
        have pass := passes.mpr ⟨reported failure isPartial criteria, ⟨failure, isPartial⟩, criteria⟩
        exact ⟨by simp [verdict, pass], by simp [verdict, failure], by simp [verdict, notPartial],
          by simp [verdict, pass], prAllowed_iff, named⟩

end

/-- A verdict is sound unless a command reports no exit code where nothing else
keeps the run from passing. -/
theorem verdict_sound_iff (self : VerificationEngine) (request : VerifyRequest) (expected : List String)
    (runId : VerificationId) :
    self.Sound request (self.checkedRun request expected runId) ↔ ¬ self.OnlyUnreported request expected := by
  rw [@onlyUnreported_iff self request expected runId]
  constructor
  · rintro sound ⟨⟨noFailure, noPartial⟩, criteria, notZero⟩
    have passes : (self.checkedRun request expected runId).verdict = .pass := by
      rw [checkedRun_verdict, if_neg noFailure, if_neg noPartial, if_neg criteria]
    exact notZero (sound.pass.mp passes).1
  · intro reports
    refine sound_of_reported fun noFailure noPartial criteria => ?_
    by_contra notZero
    exact reports ⟨⟨noFailure, noPartial⟩, criteria, notZero⟩

/-- An engine whose runner says nothing of the exit code. -/
def silentEngine : VerificationEngine where
  runner := fun _ command _ => [("command", .str command)]
  projectCommands := [(.unitTests, "uv run pytest")]
  search := fun _ _ => false

theorem silent_command_passes : ¬ silentEngine.Sound { loginRequest with repositoryId := none, revision := none }
    (silentEngine.verify (.v4 4) { loginRequest with repositoryId := none, revision := none } Keyed.empty).1.run := by
  intro sound
  have passes : (silentEngine.verify (.v4 4) { loginRequest with repositoryId := none, revision := none }
      Keyed.empty).1.run.verdict = .pass := by decide
  obtain ⟨value, found, _⟩ := (sound.pass.mp passes).1 _ ⟨0, .unitTests, "uv run pytest", rfl, rfl⟩
  cases found

/-! ### Architecture rules -/

theorem flatMap_filter_eq_iff {α β γ : Type} {as : List α} {listing : α → List β} {q : α → β → Bool} {f : α → β → γ} :
    (as.flatMap fun a => (listing a).map (f a)) = (as.flatMap fun a => ((listing a).filter (q a)).map (f a)) ↔
      ∀ a ∈ as, ∀ b ∈ listing a, q a b = true := by
  have lengths : (as.flatMap fun a => ((listing a).filter (q a)).map (f a)).length ≤
        (as.flatMap fun a => (listing a).map (f a)).length ∧
      ((as.flatMap fun a => ((listing a).filter (q a)).map (f a)).length =
        (as.flatMap fun a => (listing a).map (f a)).length → ∀ a ∈ as, ∀ b ∈ listing a, q a b = true) := by
    induction as with
    | nil => simp
    | cons a as ih =>
      have shorter : ((listing a).filter (q a)).length ≤ (listing a).length := List.length_filter_le ..
      simp only [List.flatMap_cons, List.length_append, List.length_map]
      refine ⟨by omega, fun same => ?_⟩
      have first : ((listing a).filter (q a)).length = (listing a).length := by omega
      refine List.forall_mem_cons.mpr ⟨List.length_filter_eq_length_iff.mp first, ih.2 (by omega)⟩
  constructor
  · exact fun same => lengths.2 (congrArg List.length same.symm)
  · intro all
    refine List.flatMap_congr fun a member => ?_
    rw [List.filter_eq_self.mpr (all a member)]

/-- What the source leaves open of a rule: the relations it forbids, and what of
a symbol its target pattern is searched in. -/
structure RuleReading where
  forbids : String → CodeRelationType → Bool
  subject : Symbol → String

section Architecture
variable (engine : VerificationEngine) (reading : RuleReading) (repositoryId : RepositoryId) (revision : String)

/-- A symbol of the file stands in a forbidden relation to one that the target pattern finds. -/
def DependsOnTarget (rule : ArchitectureRule) (path : String) : Prop :=
  ∃ rel ∈ engine.codeGraph.listRelations repositoryId revision, reading.forbids rule.relation rel.relationType = true ∧
    (∃ source ∈ engine.codeGraph.listSymbols repositoryId revision,
      source.path = path ∧ rel.sourceIdentity.key = source.identityKey) ∧
    ∃ target ∈ engine.codeGraph.listSymbols repositoryId revision,
      engine.search rule.targetPattern (reading.subject target) = true ∧ rel.targetIdentity.key = target.identityKey

instance (rule : ArchitectureRule) (path : String) :
    Decidable (engine.DependsOnTarget reading repositoryId revision rule path) := by
  unfold DependsOnTarget
  infer_instance

def violation (rule : ArchitectureRule) (path : String) : String := path ++ ": " ++ rule.name ++ " (" ++ rule.relation ++ ")"

structure JudgesDependencies (changedFiles : List String) (step : VerificationStep) : Prop where
  reported : step.detail.lookup "violations" = some (pyTexts (engine.architectureRules.flatMap fun rule =>
    ((changedFiles.filter (engine.search rule.sourcePattern)).filter
      fun path => engine.DependsOnTarget reading repositoryId revision rule path).map (violation rule)))
  status : step.status = .fail ↔ ∃ rule ∈ engine.architectureRules, ∃ path ∈ changedFiles,
    engine.search rule.sourcePattern path = true ∧ engine.DependsOnTarget reading repositoryId revision rule path

/-- The step judges by dependencies exactly where every changed file in the source
area of a rule has a forbidden one. -/
theorem architecture_judges_iff (changedFiles : List String) :
    engine.JudgesDependencies reading repositoryId revision changedFiles (engine.architectureStep changedFiles) ↔
      ∀ rule ∈ engine.architectureRules, ∀ path ∈ changedFiles, engine.search rule.sourcePattern path = true →
        engine.DependsOnTarget reading repositoryId revision rule path := by
  have listed : (engine.architectureStep changedFiles).detail.lookup "violations" =
      some (pyTexts (engine.architectureRules.flatMap fun rule =>
        (changedFiles.filter (engine.search rule.sourcePattern)).map (violation rule))) := rfl
  have exact_iff := @flatMap_filter_eq_iff _ _ _ engine.architectureRules
    (fun rule => changedFiles.filter (engine.search rule.sourcePattern))
    (fun rule path => decide (engine.DependsOnTarget reading repositoryId revision rule path)) violation
  simp only [List.mem_filter, decide_eq_true_eq, and_imp] at exact_iff
  rw [← exact_iff]
  constructor
  · intro judges
    have same := listed.symm.trans judges.reported
    exact pyTexts_injective (Option.some.inj same)
  · intro same
    refine ⟨by rw [listed, same], ?_⟩
    have depends := exact_iff.mp same
    rw [← not_iff_not]
    have clean := @architectureStep_clean engine changedFiles
    have never : (engine.architectureStep changedFiles).status ≠ .partially := by
      unfold architectureStep
      dsimp only
      split <;> simp
    rw [and_iff_left never, ne_eq] at clean
    rw [clean]
    constructor
    · rintro unguarded ⟨rule, isRule, path, changed, found, _⟩
      rw [unguarded rule isRule path changed] at found
      cases found
    · intro none rule isRule path changed
      by_contra found
      rw [Bool.not_eq_false] at found
      exact none ⟨rule, isRule, path, changed, found, depends rule isRule path changed found⟩

end Architecture

/-- Services must not depend on the database, and nothing depends on anything. -/
def guardedEngine : VerificationEngine where
  runner := fun _ _ _ => []
  architectureRules := [{ name := "services", sourcePattern := "app/services/", targetPattern := "app/db/" }]
  search := fun pattern text => textContains text pattern

def anyDependency : RuleReading where
  forbids := fun relation _ => relation = "MUST_NOT_DEPEND_ON"
  subject := Symbol.path

theorem independent_file_reported :
    ¬ guardedEngine.JudgesDependencies anyDependency loginRepository "r1" ["app/services/payment.py"]
      (guardedEngine.architectureStep ["app/services/payment.py"]) := by
  intro judges
  have failed : (guardedEngine.architectureStep ["app/services/payment.py"]).status = .fail := by decide
  obtain ⟨_, _, _, _, _, rel, related, _⟩ := judges.status.mp failed
  exact absurd related List.not_mem_nil

end VerificationEngine
end Brain
