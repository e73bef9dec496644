import Brain.PullRequests.Steps

namespace Brain
open Calls Runs

theorem VerificationVerdict.isPass_iff {verdict : VerificationVerdict} :
    lower verdict.value = "pass" ↔ verdict = .pass := by
  cases verdict <;> decide

namespace PullRequestWorld
variable (w : PullRequestWorld) (executionId : ExecutionId)

def latestOutcome : Option VerificationVerdict :=
  ((w.outcomes.filter (·.1 = executionId)).getLast?).map Prod.snd

def latestRun : Option VerificationRun := (VerificationRuns.listRunsForExecution executionId w.verificationRuns).getLast?

/-- What the gate reads. -/
def passed : Bool := PullRequestService.anyPass (w.listByExecution executionId)

end PullRequestWorld

/-- The run allows a pull request, by its own field or by the readiness gate of the
engine. -/
def VerificationRun.Allows (run : VerificationRun) : Prop :=
  run.prAllowed = true ∨ (VerificationEngine.prReadiness run).prAllowed = true

namespace PullRequestService

structure FollowsLatest (service : PullRequestService) (w : PullRequestWorld) : Prop where
  onlyIfPass : ∀ executionId workItemId outside,
    (service.run executionId workItemId outside w).store.pullRequests ≠ w.pullRequests →
      w.latestOutcome executionId = some .pass
  notBlocked : ∀ executionId workItemId outside run result, w.latestRun executionId = some run → run.Allows →
    (service.run executionId workItemId outside w).result = .ok result → notPassReason ∉ result.reasons

/-- A persisted run passes exactly when the results its execution has contain a
PASS, and no other result than PASS is added to them. -/
def InStep (w : PullRequestWorld) : PullRequestStep → Prop
  | .verify engine request =>
    request.persist = true →
      ((engine.verificationRun (.v4 w.nextUuid) request).verdict = .pass ↔ w.passed request.executionId = true)
  | .record executionId verdict => verdict ≠ .pass → w.passed executionId = false
  | _ => True

/-! ### The two repositories agree -/

structure Drawn (w : PullRequestWorld) : Prop where
  results : ∀ result ∈ w.verificationResults.items, result.id.Below w.nextUuid
  runs : ∀ run ∈ w.verificationRuns.items, run.id.Below w.nextUuid

/-- What the gate reads is what was recorded last. -/
structure Agrees (w : PullRequestWorld) : Prop where
  outcome : ∀ executionId, w.passed executionId = true → w.latestOutcome executionId = some .pass
  run : ∀ executionId run, w.latestRun executionId = some run → run.verdict = .pass → w.passed executionId = true
  unset : ∀ run ∈ w.verificationRuns.items, run.prAllowed = false

variable {w : PullRequestWorld}

section Record
variable {executionId : ExecutionId} {verdict : VerificationVerdict}

theorem items_record (drawn : Drawn w) : (w.record executionId verdict).verificationResults.items =
    w.verificationResults.items ++ [{ id := .v4 w.nextUuid, executionId, verdict }] :=
  Keyed.items_upsert_fresh fun result member => (drawn.results result member).ne_fresh

theorem passed_record (drawn : Drawn w) (other : ExecutionId) :
    (w.record executionId verdict).passed other =
      (w.passed other || (decide (executionId = other) && decide (verdict = .pass))) := by
  unfold PullRequestWorld.passed PullRequestWorld.listByExecution anyPass
  rw [items_record drawn, List.filter_append, List.any_append, List.filter_singleton]
  by_cases own : executionId = other
  · simp [own, VerificationVerdict.isPass_iff]
  · simp [own]

theorem latestOutcome_record (other : ExecutionId) :
    (w.record executionId verdict).latestOutcome other =
      if executionId = other then some verdict else w.latestOutcome other := by
  unfold PullRequestWorld.latestOutcome PullRequestWorld.record
  rw [last_filter_append]
  by_cases own : executionId = other
  · simp [own]
  · simp [own]

theorem Drawn.record (drawn : Drawn w) : Drawn (w.record executionId verdict) := by
  refine ⟨fun result member => ?_, fun run member => (drawn.runs run member).mono (Nat.le_succ _)⟩
  rw [items_record drawn, List.mem_append, List.mem_singleton] at member
  rcases member with old | rfl
  · exact (drawn.results result old).mono (Nat.le_succ _)
  · exact Uuid.fresh_below _

theorem Agrees.record (agrees : Agrees w) (drawn : Drawn w)
    (inStep : verdict ≠ .pass → w.passed executionId = false) : Agrees (w.record executionId verdict) where
  outcome other passed := by
    rw [passed_record drawn] at passed
    rw [latestOutcome_record]
    by_cases own : executionId = other
    · subst own
      by_cases isPass : verdict = .pass
      · rw [if_pos rfl, isPass]
      · simp [inStep isPass, isPass] at passed
    · rw [if_neg own]
      exact agrees.outcome other (by simpa [own] using passed)
  run other run latest isPass := by
    rw [passed_record drawn, agrees.run other run latest isPass, Bool.true_or]
  unset := agrees.unset

end Record

section Verify
variable {engine : VerificationEngine} {request : VerifyRequest}

/-- The run `verify` persists. -/
def persisted (engine : VerificationEngine) (request : VerifyRequest) (w : PullRequestWorld) : VerificationRun :=
  engine.verificationRun (.v4 w.nextUuid) request

theorem items_verify (drawn : Drawn w) : (w.verify engine request).verificationRuns.items =
    w.verificationRuns.items ++ if request.persist = true then [persisted engine request w] else [] := by
  unfold PullRequestWorld.verify VerificationEngine.verify VerificationRuns.saveRun
  dsimp only
  split
  · exact Keyed.items_upsert_fresh fun run member => (drawn.runs run member).ne_fresh
  · rw [List.append_nil]

theorem latestRun_verify (drawn : Drawn w) (other : ExecutionId) :
    (w.verify engine request).latestRun other =
      if request.persist = true ∧ request.executionId = other then some (persisted engine request w)
      else w.latestRun other := by
  unfold PullRequestWorld.latestRun VerificationRuns.listRunsForExecution
  rw [items_verify drawn]
  by_cases persist : request.persist = true
  · rw [if_pos persist, last_filter_append]
    by_cases own : request.executionId = other
    · simp [persist, own, persisted, VerificationEngine.verificationRun, VerificationEngine.aggregateVerdict]
    · simp [persist, own, persisted, VerificationEngine.verificationRun, VerificationEngine.aggregateVerdict]
  · simp [persist]

theorem latestOutcome_verify (other : ExecutionId) :
    (w.verify engine request).latestOutcome other =
      if request.persist = true ∧ request.executionId = other then some (persisted engine request w).verdict
      else w.latestOutcome other := by
  unfold PullRequestWorld.latestOutcome PullRequestWorld.verify VerificationEngine.verify
  dsimp only
  by_cases persist : request.persist = true
  · rw [if_pos persist, last_filter_append]
    by_cases own : request.executionId = other
    · simp [persist, own, persisted]
    · simp [persist, own]
  · simp [persist]

theorem Drawn.verify (drawn : Drawn w) : Drawn (w.verify engine request) := by
  refine ⟨fun result member => (drawn.results result member).mono (Nat.le_succ _), fun run member => ?_⟩
  rw [items_verify drawn, List.mem_append] at member
  rcases member with old | new
  · exact (drawn.runs run old).mono (Nat.le_succ _)
  · split at new
    · rw [List.mem_singleton.mp new]
      exact Uuid.fresh_below _
    · cases new

theorem Agrees.verify (agrees : Agrees w) (drawn : Drawn w)
    (inStep : request.persist = true →
      ((persisted engine request w).verdict = .pass ↔ w.passed request.executionId = true)) :
    Agrees (w.verify engine request) where
  outcome other passed := by
    have before : w.passed other = true := passed
    rw [latestOutcome_verify]
    split
    · rename_i own
      obtain ⟨persist, rfl⟩ := own
      rw [(inStep persist).mpr before]
    · exact agrees.outcome other before
  run other run latest isPass := by
    rw [latestRun_verify drawn] at latest
    split at latest
    · rename_i own
      obtain ⟨persist, rfl⟩ := own
      cases latest
      exact (inStep persist).mp isPass
    · exact agrees.run other run latest isPass
  unset run member := by
    rw [items_verify drawn, List.mem_append] at member
    rcases member with old | new
    · exact agrees.unset run old
    · split at new
      · rw [List.mem_singleton.mp new]
        rfl
      · cases new

end Verify

variable {self : PullRequestService}

theorem untouched_run {executionId : ExecutionId} {workItemId : WorkItemId} {outside : PullRequestOutside} :
    Untouched w (self.run executionId workItemId outside w).store := by
  rcases run_ends self w executionId workItemId outside with stopped | asked
  · rw [stopped.store]
    exact refl_of Untouched w
  · exact asked.untouched

variable {w' : PullRequestWorld}

theorem Drawn.untouched (drawn : Drawn w) (untouched : Untouched w w') : Drawn w' := by
  refine ⟨fun result member => ?_, fun run member => ?_⟩
  · rw [untouched.results] at member
    exact (drawn.results result member).mono untouched.nextUuid
  · rw [untouched.runs] at member
    exact (drawn.runs run member).mono untouched.nextUuid

theorem Agrees.untouched (agrees : Agrees w) (untouched : Untouched w w') : Agrees w' := by
  have passed : ∀ executionId, w'.passed executionId = w.passed executionId := by
    intro executionId
    unfold PullRequestWorld.passed PullRequestWorld.listByExecution
    rw [untouched.results]
  refine ⟨fun executionId isPassed => ?_, fun executionId run latest isPass => ?_, fun run member => ?_⟩
  · unfold PullRequestWorld.latestOutcome
    rw [untouched.outcomes]
    exact agrees.outcome executionId ((passed executionId).symm.trans isPassed)
  · unfold PullRequestWorld.latestRun at latest
    rw [untouched.runs] at latest
    rw [passed]
    exact agrees.run executionId run latest isPass
  · rw [untouched.runs] at member
    exact agrees.unset run member

theorem agrees_step {step : PullRequestStep} (before : Drawn w ∧ Agrees w) (inStep : InStep w step)
    (taken : self.step w step = some w') : Drawn w' ∧ Agrees w' := by
  obtain ⟨drawn, agrees⟩ := before
  cases step with
  | create executionId workItemId outside =>
    cases taken
    exact ⟨drawn.untouched untouched_run, agrees.untouched untouched_run⟩
  | verify engine request =>
    cases taken
    exact ⟨drawn.verify, agrees.verify drawn inStep⟩
  | record executionId verdict =>
    cases taken
    exact ⟨drawn.record, agrees.record drawn inStep⟩
  | write surroundings =>
    cases taken
    have untouched : Untouched w (w.write surroundings) := ⟨rfl, rfl, rfl, Nat.le_refl _⟩
    exact ⟨drawn.untouched untouched, agrees.untouched untouched⟩

theorem Agrees.followsLatest (agrees : Agrees w) : self.FollowsLatest w where
  onlyIfPass executionId workItemId outside created := by
    rcases run_ends self w executionId workItemId outside with stopped | asked
    · exact absurd (by rw [stopped.store]) created
    · exact agrees.outcome executionId asked.reaches.verified
  notBlocked executionId workItemId outside run result latest allows ended mentioned := by
    have member : run ∈ w.verificationRuns.items := (List.mem_filter.mp (List.mem_of_getLast? latest)).1
    have isPass : run.verdict = .pass := by
      rcases allows with set | ready
      · rw [agrees.unset run member] at set
        cases set
      · by_contra other
        rw [VerificationEngine.prReadiness, if_neg other] at ready
        cases ready
    have passed := agrees.run executionId run latest isPass
    rcases run_ends self w executionId workItemId outside with stopped | asked
    · have failed : w.passed executionId = false := stopped.reason result ended mentioned
      rw [passed] at failed
      cases failed
    · exact asked.reason result ended mentioned

theorem agrees_fresh (fresh : w.Fresh) : Drawn w ∧ Agrees w := by
  refine ⟨⟨fun result member => ?_, fun run member => ?_⟩, ⟨fun executionId passed => ?_, fun executionId run latest => ?_,
    fun run member => ?_⟩⟩
  · rw [fresh.results] at member
    cases member
  · rw [fresh.runs] at member
    cases member
  · unfold PullRequestWorld.passed PullRequestWorld.listByExecution at passed
    rw [fresh.results] at passed
    cases passed
  · unfold PullRequestWorld.latestRun VerificationRuns.listRunsForExecution at latest
    rw [fresh.runs] at latest
    cases latest
  · rw [fresh.runs] at member
    cases member

/-- In a history whose verifications are all in step, every call follows the latest
verification of its execution. -/
theorem latest_followed {steps : List PullRequestStep} (fresh : w.Fresh) (inStep : Along self.step InStep steps w) :
    Throughout self.step self.FollowsLatest steps w := by
  have agreeing := inStep.throughout (I := fun w => Drawn w ∧ Agrees w)
    (fun _ _ _ before allowed taken => agrees_step before allowed taken) (agrees_fresh fresh)
  exact agreeing.mono fun _ both => both.2.followsLatest

section History

/-- An engine without commands, rules and code graph. -/
def bareEngine : VerificationEngine := { runner := fun _ _ _ => [], search := fun _ _ => false }

def sampleRequest (changedFiles : List String) : VerifyRequest where
  executionId := .v4 1
  workItemId := .v4 3
  acceptanceCriteria := ["the parser works"]
  changedFiles

theorem sampleWorld_fresh : sampleWorld.Fresh := ⟨rfl, rfl, rfl, rfl⟩

/-- A failed run, a stored PASS, and then a run that passes. -/
theorem latest_followed_sample :
    Throughout sampleService.step sampleService.FollowsLatest
      [.verify bareEngine (sampleRequest []), .record (.v4 1) .pass, .verify bareEngine (sampleRequest ["parser.py"])]
      sampleWorld := by
  refine latest_followed sampleWorld_fresh (.cons rfl (fun _ => by decide) ?_)
  refine .cons rfl (fun other => absurd rfl other) (.cons rfl (fun _ => by decide) trivial)

/-- After a stored PASS a failed run does not close the gate, and without one a
passed run does not open it. -/
theorem latest_run_ignored :
    ¬ Throughout sampleService.step sampleService.FollowsLatest
        [.record (.v4 1) .pass, .verify bareEngine (sampleRequest [])] sampleWorld ∧
      ¬ Throughout sampleService.step sampleService.FollowsLatest
        [.verify bareEngine (sampleRequest ["parser.py"])] sampleWorld := by
  constructor
  · intro throughout
    have follows : sampleService.FollowsLatest _ := (throughout.2 _ rfl).2 _ rfl
    have latest := follows.onlyIfPass (.v4 1) (.v4 3) .clean (by decide)
    revert latest
    decide
  · intro throughout
    have follows : sampleService.FollowsLatest _ := throughout.2 _ rfl
    exact follows.notBlocked (.v4 1) (.v4 3) .clean _ _ rfl (Or.inr rfl) rfl (by decide)

end History

end PullRequestService

end Brain

namespace Brain
open Calls Runs

def PullRequestWorld.AtMostOne (w : PullRequestWorld) : Prop := ∀ executionId, w.requested.count executionId ≤ 1

namespace PullRequestService
variable (self : PullRequestService)

/-- A call that gets past the gates and makes the provider act is made only for
an execution that has no pull request. -/
def Alone (w : PullRequestWorld) : PullRequestStep → Prop
  | .create executionId workItemId outside =>
    self.Reaches w executionId workItemId → TakesEffect outside → executionId ∉ w.requested
  | _ => True

/-- The attempts of the worker at one `CREATE_PULL_REQUEST` command: it calls again
as long as the call raises. `outsides n` is what happens around attempt `n`. -/
def attempts (executionId : ExecutionId) (workItemId : WorkItemId) (outsides : Nat → PullRequestOutside) :
    Nat → Nat → PullRequestWorld → PullRequestWorld
  | 0, _, w => w
  | left + 1, attempt, w =>
    let run := self.run executionId workItemId (outsides attempt) w
    match run.result with
    | .ok _ => run.store
    | .error _ => attempts executionId workItemId outsides left (attempt + 1) run.store

variable {self}

theorem atMostOne_congr {w w' : PullRequestWorld} (same : w'.requested = w.requested) :
    w'.AtMostOne ↔ w.AtMostOne := by
  unfold PullRequestWorld.AtMostOne
  rw [same]

theorem atMostOne_append {w w' : PullRequestWorld} {executionId : ExecutionId} (before : w.AtMostOne)
    (grown : w'.requested = w.requested ++ [executionId]) : w'.AtMostOne ↔ executionId ∉ w.requested := by
  unfold PullRequestWorld.AtMostOne at *
  rw [grown]
  constructor
  · intro one member
    have twice := one executionId
    have once := List.one_le_count_iff.mpr member
    rw [List.count_append, List.count_singleton_self] at twice
    omega
  · intro absent other
    rw [List.count_append]
    by_cases same : executionId = other
    · subst same
      rw [List.count_eq_zero_of_not_mem absent, List.count_singleton_self]
    · rw [List.count_singleton, if_neg (by simpa using same)]
      exact before other

theorem atMostOne_step {w w' : PullRequestWorld} {step : PullRequestStep} (before : w.AtMostOne)
    (taken : self.step w step = some w') : w'.AtMostOne ↔ self.Alone w step := by
  cases step with
  | create executionId workItemId outside =>
    cases taken
    rcases run_ends self w executionId workItemId outside with stopped | asked
    · rw [atMostOne_congr (w := w) (by rw [stopped.store])]
      exact ⟨fun _ reaches effect => absurd ⟨reaches, effect⟩ stopped.blocked, fun _ => before⟩
    · rw [atMostOne_append before asked.requested]
      exact ⟨fun absent _ _ => absent, fun alone => alone asked.reaches asked.effect⟩
  | verify engine request =>
    cases taken
    exact ⟨fun _ => trivial, fun _ => before⟩
  | record executionId verdict =>
    cases taken
    exact ⟨fun _ => trivial, fun _ => before⟩
  | write surroundings =>
    cases taken
    exact ⟨fun _ => trivial, fun _ => before⟩

/-- Over a whole history there is at most one pull request per execution exactly
when no call makes the provider act for an execution that already has one. -/
theorem atMostOne_throughout_iff (steps : List PullRequestStep) {w : PullRequestWorld} (start : w.AtMostOne) :
    Throughout self.step PullRequestWorld.AtMostOne steps w ↔ Along self.step self.Alone steps w :=
  throughout_iff_along (I := fun _ => True) (fun _ _ _ _ _ => trivial)
    (fun _ _ _ _ before taken => atMostOne_step before taken) trivial start

section Twice

/-- The event bus fails once. -/
def publishFails : PullRequestOutside where
  outcome := fun _ site =>
    if site = .publishCreated then .raises false ⟨"ConnectionError", "event bus unreachable"⟩ else .returns
  clock := fun _ => 0

theorem atMostOne_sample : (sampleWorld.record (.v4 1) .pass).AtMostOne := fun _ => Nat.zero_le 1

/-- A verified execution gets its pull request, and no second call is made. -/
theorem atMostOne_throughout_sample :
    (sampleWorld.record (.v4 1) .pass).AtMostOne ∧
      (Throughout sampleService.step PullRequestWorld.AtMostOne [.create (.v4 1) (.v4 3) .clean]
          (sampleWorld.record (.v4 1) .pass) ↔
        Along sampleService.step sampleService.Alone [.create (.v4 1) (.v4 3) .clean]
          (sampleWorld.record (.v4 1) .pass)) :=
  ⟨atMostOne_sample, atMostOne_throughout_iff _ atMostOne_sample⟩

/-- The event bus fails after the pull request was created. The worker tries again
and the provider creates a second one. -/
theorem retried_command_creates_two :
    (sampleService.attempts (.v4 1) (.v4 3) (fun n => if n = 1 then publishFails else .clean) 3 1
        (sampleWorld.record (.v4 1) .pass)).requested = [.v4 1, .v4 1] ∧
      ¬ Throughout sampleService.step PullRequestWorld.AtMostOne
        [.create (.v4 1) (.v4 3) publishFails, .create (.v4 1) (.v4 3) .clean]
        (sampleWorld.record (.v4 1) .pass) := by
  refine ⟨by decide, fun throughout => ?_⟩
  have twice := (throughout.2 _ rfl).2 _ rfl (.v4 1)
  revert twice
  decide

end Twice

end PullRequestService

end Brain
