import Brain.Application.WorkflowEngine

namespace Brain
open Calls

namespace WorkflowState

/-- The state a turn saves first. `result` is what the executor returned. -/
def next (s : WorkflowState) (result : ExecutionResult) : WorkflowState :=
  match s.stage with
  | .intake => { s with stage := .understand }
  | .understand => { s with stage := .buildContext }
  | .buildContext => { s with stage := .routeExecutor }
  | .routeExecutor => { s with stage := .execute }
  | .execute => { s with
      stage := .verify
      currentExecutionId := some result.executionId
      lastError := if result.status.isGood then none else s.lastError }
  | .verify =>
    if s.maxRetries ≤ s.retryCount then { s with stage := .human, status := .blocked }
    else { s with stage := if hasError s then .retry else .createPr }
  | .retry =>
    if (WorkflowEngine.retryDecision s).retryable && s.retryCount < s.maxRetries then
      { s with stage := .execute, retryCount := s.retryCount + 1 }
    else { s with stage := .failed, status := .failed }
  | .createPr => { s with stage := .updateBrain }
  | .updateBrain => { s with stage := .complete }
  | .human | .complete | .failed => { s with status := .completed }

/-- No edge leaves the stage. -/
abbrev atEnd (s : WorkflowState) : Prop := s.stage = .human ∨ s.stage = .complete ∨ s.stage = .failed

/-- The stage at which the loop breaks. -/
abbrev isFinal (s : WorkflowState) : Prop := s.stage = .complete ∨ s.stage = .failed

/-- The state that is saved once more at a final stage. -/
def closed (s : WorkflowState) : WorkflowState :=
  { s with status := if s.stage = .complete then .completed else .failed }

theorem next_workflowId (s : WorkflowState) (result : ExecutionResult) : (s.next result).workflowId = s.workflowId := by
  unfold next
  split <;> first | rfl | (split <;> rfl)

theorem next_ne_verify {s : WorkflowState} (before : ¬ s.atEnd) (other : s.stage ≠ .execute) (result : ExecutionResult) :
    (s.next result).stage ≠ .verify := by
  unfold next
  cases stage : s.stage with
  | execute => exact absurd stage other
  | human => exact absurd (Or.inl stage) before
  | complete => exact absurd (Or.inr (Or.inl stage)) before
  | failed => exact absurd (Or.inr (Or.inr stage)) before
  | verify =>
    dsimp only
    split
    · simp
    · cases hasError s <;> simp
  | retry =>
    dsimp only
    split <;> simp
  | _ => simp

end WorkflowState

def WorkflowEngine.main (answers : Nat → ExecutionStatus) (hasPullRequests : Bool) : WorkflowEngine :=
  { answers, hasPullRequests }

section Turns
variable (answers : Nat → ExecutionStatus)

/-- The executor was called in state `s` and returned `result`. -/
def Executes (s : WorkflowState) (w : WorkflowWorld) (result : ExecutionResult) (t : WorkflowWorld) : Prop :=
  ∃ request next, result = { executionId := request.executionId, status := answers w.visits.length } ∧
    t = { w with events := w.events ++ [.executed s request result], nextUuid := next }

/-- What a turn does before it saves. -/
def Acts (s : WorkflowState) (w : WorkflowWorld) (result : ExecutionResult) (t : WorkflowWorld) : Prop :=
  if s.stage = .execute then Executes answers s w result t else t = w

/-- A turn in the state `s` that returns, with the state it leaves and whether
the loop ends. -/
inductive Turned (s : WorkflowState) (w : WorkflowWorld) : WorkflowState → Bool → WorkflowWorld → Prop
  | ends (atEnd : s.atEnd) : Turned s w { s with status := .completed } true
      (w.saveCheckpoint { s with status := .completed })
  | moves {result : ExecutionResult} {t : WorkflowWorld} (before : ¬ s.atEnd) (acts : Acts answers s w result t)
      (further : ¬ (s.next result).isFinal) : Turned s w (s.next result) false (t.saveCheckpoint (s.next result))
  | closes {result : ExecutionResult} {t : WorkflowWorld} (before : ¬ s.atEnd) (acts : Acts answers s w result t)
      (final : (s.next result).isFinal) : Turned s w (s.next result).closed true
      ((t.saveCheckpoint (s.next result)).saveCheckpoint (s.next result).closed)

/-- The call that raised left an execution without a checkpoint after it. -/
def Lost (e : WorkflowRaised) : Prop :=
  e.site = .execute ∧ e.tookEffect = true ∨ e.site = .saveCheckpoint .verify ∧ e.tookEffect = false

/-- A turn in the state `s` that raises. -/
inductive Broke (s : WorkflowState) (w : WorkflowWorld) (e : WorkflowRaised) : WorkflowWorld → Prop
  | before (next : Nat) (kept : ¬ Lost e) : Broke s w e { w with nextUuid := next }
  | lost {result : ExecutionResult} {t : WorkflowWorld} (executes : Executes answers s w result t)
      (atExecute : s.stage = .execute) (lost : Lost e) : Broke s w e t
  | ended (atEnd : s.atEnd) (kept : ¬ Lost e) : Broke s w e (w.saveCheckpoint { s with status := .completed })
  | saved {result : ExecutionResult} {t : WorkflowWorld} (before : ¬ s.atEnd) (acts : Acts answers s w result t)
      (kept : ¬ Lost e) : Broke s w e (t.saveCheckpoint (s.next result))
  | closed {result : ExecutionResult} {t : WorkflowWorld} (before : ¬ s.atEnd) (acts : Acts answers s w result t)
      (final : (s.next result).isFinal) (kept : ¬ Lost e) :
      Broke s w e ((t.saveCheckpoint (s.next result)).saveCheckpoint (s.next result).closed)

end Turns

namespace WorkflowEngine
variable {answers : Nat → ExecutionStatus} {hasPullRequests : Bool} {o : WorkflowOutside} {s : WorkflowState}
  {w : WorkflowWorld}

/-- An exception of a call, or of the missing executor. -/
def Fails (o : WorkflowOutside) (w : WorkflowWorld) (e : WorkflowRaised) : Prop :=
  o.Raises e ∨ w.select true true = none

theorem executeStage_executes : Meets o ((main answers hasPullRequests).executeStage s) w (byResult
    (fun result t => Executes answers s w result t)
    (fun e t => Fails o w e ∧ (¬ Lost e ∧ (∃ next, t = { w with nextUuid := next }) ∨
      Lost e ∧ ∃ result, Executes answers s w result t))) := by
  have called : ∀ (executionId workItemId : Uuid) (next : Nat), Meets o (call .execute ((main answers hasPullRequests).perform s
      { executionId, workflowId := s.workflowId, workItemId
        repositoryRef := (s.repositoryId.map Uuid.text).getD ""
        baseRevision := s.revision.getD "" })) { w with nextUuid := next } (byResult
      (fun result t => Executes answers s w result t)
      (fun e t => Fails o w e ∧ (¬ Lost e ∧ (∃ next, t = { w with nextUuid := next }) ∨
        Lost e ∧ ∃ result, Executes answers s w result t))) := by
    intro executionId workItemId next
    have executes : ∀ request, Executes answers s w
        ((main answers hasPullRequests).perform s request { w with nextUuid := next }).1
        ((main answers hasPullRequests).perform s request { w with nextUuid := next }).2 :=
      fun request => ⟨request, next, rfl, rfl⟩
    refine Meets.call (executes _) ?_
    intro tookEffect exception raises
    cases tookEffect with
    | false => exact ⟨Or.inl raises, Or.inl ⟨by simp [Lost], next, rfl⟩⟩
    | true => exact ⟨Or.inl raises, Or.inr ⟨Or.inl ⟨rfl, rfl⟩, _, executes _⟩⟩
  unfold executeStage
  refine Meets.bind (Meets.query ?_ fun _ _ raises =>
    ⟨Or.inl raises, Or.inl ⟨by simp [Lost], w.nextUuid, rfl⟩⟩)
  dsimp only [byResult]
  cases selected : w.select true true with
  | none => exact Meets.reraise ⟨Or.inr selected, Or.inl ⟨by simp [Lost], w.nextUuid, rfl⟩⟩
  | some descriptor =>
    refine Meets.bind (Meets.internal ?_)
    dsimp only [byResult]
    cases s.workItemId with
    | some id => exact Meets.bind (Meets.pure (called _ _ _))
    | none => exact Meets.bind (Meets.internal (called _ _ _))

theorem advance_atEnd (atEnd : s.atEnd) :
    (main answers hasPullRequests).advance s = pure (none, none, s) := by
  unfold advance
  rcases atEnd with stage | stage | stage <;> rw [stage] <;> rfl

theorem advance_decides (before : ¬ s.atEnd) (other : s.stage ≠ .execute) (result : ExecutionResult) :
    ∃ stage state, (main answers hasPullRequests).advance s = pure (some stage, none, state) ∧
      { state with stage } = s.next result := by
  unfold advance WorkflowState.next
  cases stage : s.stage with
  | execute => exact absurd stage other
  | human => exact absurd (Or.inl stage) before
  | complete => exact absurd (Or.inr (Or.inl stage)) before
  | failed => exact absurd (Or.inr (Or.inr stage)) before
  | verify =>
    refine ⟨(decideAfterVerify s).1, (decideAfterVerify s).2, rfl, ?_⟩
    unfold decideAfterVerify
    dsimp only
    split <;> rfl
  | retry =>
    by_cases again : ((retryDecision s).retryable && s.retryCount < s.maxRetries) = true
    · exact ⟨_, _, if_pos again, (if_pos again).symm⟩
    · exact ⟨_, _, if_neg again, (if_neg again).symm⟩
  | _ => exact ⟨_, _, rfl, rfl⟩

theorem save_saves {Q : Except WorkflowRaised Unit → WorkflowWorld → Prop} {t : WorkflowWorld} (stage : WorkflowStage)
    (returned : Q (.ok ()) (t.saveCheckpoint s))
    (raised : ∀ e, o.Raises e → e.site = .saveCheckpoint stage →
      Q (.error e) (if e.tookEffect then t.saveCheckpoint s else t)) :
    Meets o (command (.saveCheckpoint stage) (WorkflowWorld.saveCheckpoint s)) t Q :=
  Meets.command returned (fun _ raises => raised _ raises rfl) (fun _ raises => raised _ raises rfl)

theorem lost_save {e : WorkflowRaised} {stage : WorkflowStage} (site : e.site = .saveCheckpoint stage) :
    Lost e ↔ stage = .verify ∧ e.tookEffect = false := by
  simp [Lost, site]

theorem saves_turned {executionResult : Option ExecutionResult} {answer : ExecutionResult} {t : WorkflowWorld}
    {stage : WorkflowStage} {state : WorkflowState} (before : ¬ s.atEnd) (acts : Acts answers s w answer t)
    (isNext : { state with stage } = s.next answer) :
    Meets o (do
      command (.saveCheckpoint stage) (WorkflowWorld.saveCheckpoint { state with stage })
      if stage = .complete ∨ stage = .failed then do
        command (.saveCheckpoint stage) (WorkflowWorld.saveCheckpoint
          { state with stage, status := if stage = .complete then .completed else .failed })
        pure (({ state with stage, status := if stage = .complete then .completed else .failed }, executionResult), true)
      else pure (({ state with stage }, executionResult), false)) t (byResult
        (fun r u => Turned answers s w r.1.1 r.2 u) (fun e u => Fails o w e ∧ Broke answers s w e u)) := by
  have sameStage : stage = (s.next answer).stage := by rw [← isNext]
  have sameClosed : { state with stage, status := if stage = .complete then .completed else .failed } =
      (s.next answer).closed := by rw [← isNext]; rfl
  rw [isNext, sameClosed, sameStage]
  refine Meets.bind (save_saves _ ?_ ?_)
  · dsimp only [byResult]
    by_cases final : (s.next answer).isFinal
    · have notVerify : (s.next answer).stage ≠ .verify := by
        rcases final with stage | stage <;> simp [stage]
      rw [if_pos final]
      refine Meets.bind (save_saves _ ?_ ?_)
      · exact Meets.pure (.closes before acts final)
      · intro e raises site
        have kept : ¬ Lost e := fun lost => notVerify ((lost_save site).mp lost).1
        refine ⟨Or.inl raises, ?_⟩
        cases took : e.tookEffect with
        | false => exact .saved before acts kept
        | true => exact .closed before acts final kept
    · rw [if_neg final]
      exact Meets.pure (.moves before acts final)
  · intro e raises site
    refine ⟨Or.inl raises, ?_⟩
    cases took : e.tookEffect with
    | true => exact .saved before acts fun lost => by simp [((lost_save site).mp lost).2] at took
    | false =>
      unfold Acts at acts
      split at acts
      · rename_i atExecute
        exact .lost acts atExecute ((lost_save site).mpr ⟨by simp [WorkflowState.next, atExecute], took⟩)
      · rename_i other
        rw [acts]
        exact .before w.nextUuid fun lost => WorkflowState.next_ne_verify before other answer ((lost_save site).mp lost).1

theorem turn_turned (running : s.status = .running) (result : Option ExecutionResult) :
    Meets o ((main answers hasPullRequests).turn (s, result)) w (byResult
      (fun r t => Turned answers s w r.1.1 r.2 t) (fun e t => Fails o w e ∧ Broke answers s w e t)) := by
  unfold turn
  dsimp only
  rw [if_neg (by simp [running])]
  by_cases atEnd : s.atEnd
  · rw [advance_atEnd atEnd]
    refine Meets.bind (Meets.pure (Meets.bind (save_saves s.stage ?_ ?_)))
    · exact Meets.pure (.ends atEnd)
    · intro e raises site
      refine ⟨Or.inl raises, ?_⟩
      have kept : ¬ Lost e := by
        rw [lost_save site]
        rcases atEnd with stage | stage | stage <;> simp [stage]
      cases took : e.tookEffect with
      | true => exact .ended atEnd kept
      | false => exact .before w.nextUuid kept
  · by_cases atExecute : s.stage = .execute
    · have advanced : (main answers hasPullRequests).advance s =
          ((main answers hasPullRequests).executeStage s >>= fun result =>
            pure (some .verify, some result, s.next result)) := by
        unfold advance WorkflowState.next
        rw [atExecute]
        refine congrArg ((main answers hasPullRequests).executeStage s >>= ·) (funext fun result => ?_)
        dsimp only
        cases result.status.isGood <;> rfl
      rw [advanced]
      refine Meets.bind (Meets.seq _ executeStage_executes ?_ ?_)
      · intro answer t executes
        have acts : Acts answers s w answer t := by
          unfold Acts
          rw [if_pos atExecute]
          exact executes
        have isNext : { s.next answer with stage := .verify } = s.next answer := by
          have stage : (s.next answer).stage = .verify := by simp [WorkflowState.next, atExecute]
          rw [← stage]
        exact Meets.pure (saves_turned atEnd acts isNext)
      · rintro e t ⟨fails, ⟨kept, next, rfl⟩ | ⟨lost, answer, executes⟩⟩
        · exact ⟨fails, .before next kept⟩
        · exact ⟨fails, .lost executes atExecute lost⟩
    · obtain ⟨stage, state, advanced, isNext⟩ := @advance_decides answers hasPullRequests _ atEnd atExecute default
      have acts : Acts answers s w default w := by
        unfold Acts
        rw [if_neg atExecute]
      rw [advanced]
      exact Meets.bind (Meets.pure (saves_turned atEnd acts isNext))

end WorkflowEngine

end Brain

namespace Brain
open Calls

namespace WorkflowState
variable {s : WorkflowState} {result : ExecutionResult}

def retriesLeft (s : WorkflowState) : Nat := (s.maxRetries - s.retryCount).toNat

/-- How many turns may still come. -/
def turnsLeft (s : WorkflowState) : Nat :=
  match s.stage with
  | .intake => 3 * s.retriesLeft + 9
  | .understand => 3 * s.retriesLeft + 8
  | .buildContext => 3 * s.retriesLeft + 7
  | .routeExecutor => 3 * s.retriesLeft + 6
  | .execute => 3 * s.retriesLeft + 5
  | .verify => 3 * s.retriesLeft + 4
  | .retry => 3 * s.retriesLeft + 3
  | .createPr => 3
  | .updateBrain => 2
  | .human | .complete | .failed => 1

/-- How many executions may still come. -/
def executionsLeft (s : WorkflowState) : Nat :=
  match s.stage with
  | .intake | .understand | .buildContext | .routeExecutor | .execute => s.retriesLeft + 1
  | .verify | .retry => s.retriesLeft
  | .createPr | .updateBrain | .human | .complete | .failed => 0

/-- The stages in front of the execution. -/
def isEarly (s : WorkflowState) : Bool :=
  s.stage ∈ [WorkflowStage.intake, .understand, .buildContext, .routeExecutor, .execute]

/-- `t` is saved after `s`: along an edge of the graph, into `failed` from
`retry`, or once more at the same stage. -/
structure Follows (s t : WorkflowState) : Prop where
  stage : t.stage ∈ mainEngineeringGraph.nextStages s.stage ∨ s.stage = .retry ∧ t.stage = .failed ∨
    t.stage = s.stage ∧ t.status ≠ .running
  maxRetries : t.maxRetries = s.maxRetries
  least : s.retryCount ≤ t.retryCount
  most : t.retryCount ≤ max s.retryCount s.maxRetries

/-- States saved in turn, from `s` on. -/
inductive Traced (s : WorkflowState) : List WorkflowState → WorkflowState → Prop
  | start : Traced s [] s
  | next {saves : List WorkflowState} {t u : WorkflowState} (traced : Traced s saves t) (follows : Follows t u) :
      Traced s (saves ++ [u]) u

theorem Traced.bounds {saves : List WorkflowState} {t : WorkflowState} (traced : Traced s saves t) :
    t.maxRetries = s.maxRetries ∧ s.retryCount ≤ t.retryCount ∧ t.retryCount ≤ max s.retryCount s.maxRetries := by
  induction traced with
  | start => omega
  | next _ follows ih =>
    have same := follows.maxRetries
    have least := follows.least
    have most := follows.most
    omega

/-! ### The two decisions -/

theorem next_blocked (stage : s.stage = .verify) (spent : s.maxRetries ≤ s.retryCount) :
    s.next result = { s with stage := .human, status := .blocked } := by
  unfold next
  rw [stage]
  exact if_pos spent

theorem next_verified (stage : s.stage = .verify) (more : ¬ s.maxRetries ≤ s.retryCount) :
    s.next result = { s with stage := if hasError s then .retry else .createPr } := by
  unfold next
  rw [stage]
  exact if_neg more

/-- `retry` leads back to `execute`. -/
def retries (s : WorkflowState) : Prop :=
  (WorkflowEngine.retryDecision s).retryable = true ∧ s.retryCount < s.maxRetries

instance (s : WorkflowState) : Decidable s.retries := inferInstanceAs (Decidable (_ ∧ _))

theorem next_again (stage : s.stage = .retry) (again : s.retries) :
    s.next result = { s with stage := .execute, retryCount := s.retryCount + 1 } := by
  unfold next
  rw [stage]
  exact if_pos (by simpa [retries] using again)

theorem next_failed (stage : s.stage = .retry) (done : ¬ s.retries) :
    s.next result = { s with stage := .failed, status := .failed } := by
  unfold next
  rw [stage]
  exact if_neg (by simpa [retries] using done)

theorem next_cases {P : WorkflowState → Prop} (before : ¬ s.atEnd)
    (blocked : s.stage = .verify → s.maxRetries ≤ s.retryCount → P { s with stage := .human, status := .blocked })
    (verified : s.stage = .verify → ¬ s.maxRetries ≤ s.retryCount →
      P { s with stage := if hasError s then .retry else .createPr })
    (again : s.stage = .retry → s.retries → P { s with stage := .execute, retryCount := s.retryCount + 1 })
    (failed : s.stage = .retry → ¬ s.retries → P { s with stage := .failed, status := .failed })
    (executed : s.stage = .execute → P { s with
      stage := .verify
      currentExecutionId := some result.executionId
      lastError := if result.status.isGood then none else s.lastError })
    (other : ∀ stage, (s.stage, stage) ∈ [(.intake, .understand), (.understand, .buildContext),
      (.buildContext, .routeExecutor), (.routeExecutor, .execute), (.createPr, .updateBrain), (.updateBrain, .complete)] →
      P { s with stage }) : P (s.next result) := by
  cases stage : s.stage with
  | human => exact absurd (Or.inl stage) before
  | complete => exact absurd (Or.inr (Or.inl stage)) before
  | failed => exact absurd (Or.inr (Or.inr stage)) before
  | verify =>
    by_cases spent : s.maxRetries ≤ s.retryCount
    · rw [next_blocked stage spent]
      exact blocked stage spent
    · rw [next_verified stage spent]
      exact verified stage spent
  | retry =>
    by_cases more : s.retries
    · rw [next_again stage more]
      exact again stage more
    · rw [next_failed stage more]
      exact failed stage more
  | execute =>
    have next : s.next result = { s with
        stage := .verify
        currentExecutionId := some result.executionId
        lastError := if result.status.isGood then none else s.lastError } := by
      unfold WorkflowState.next
      rw [stage]
    rw [next]
    exact executed stage
  | _ =>
    unfold WorkflowState.next
    rw [stage]
    exact other _ (by rw [stage]; simp)

theorem next_follows (before : ¬ s.atEnd) (result : ExecutionResult) : Follows s (s.next result) := by
  refine next_cases before ?_ ?_ ?_ ?_ ?_ ?_
  · intro stage _
    exact ⟨Or.inl (by dsimp only; rw [stage]; decide), rfl, Int.le_refl _, Int.le_max_left _ _⟩
  · intro stage _
    refine ⟨Or.inl ?_, rfl, Int.le_refl _, Int.le_max_left _ _⟩
    dsimp only
    rw [stage]
    split <;> decide
  · rintro stage ⟨_, more⟩
    exact ⟨Or.inl (by dsimp only; rw [stage]; decide), rfl, by dsimp only; omega, by dsimp only; omega⟩
  · intro stage _
    exact ⟨Or.inr (Or.inl ⟨stage, rfl⟩), rfl, Int.le_refl _, Int.le_max_left _ _⟩
  · intro stage
    exact ⟨Or.inl (by dsimp only; rw [stage]; decide), rfl, Int.le_refl _, Int.le_max_left _ _⟩
  · intro stage edge
    refine ⟨Or.inl ?_, rfl, Int.le_refl _, Int.le_max_left _ _⟩
    simp only [List.mem_cons, Prod.mk.injEq, List.not_mem_nil, or_false] at edge
    rcases edge with ⟨source, rfl⟩ | ⟨source, rfl⟩ | ⟨source, rfl⟩ | ⟨source, rfl⟩ | ⟨source, rfl⟩ | ⟨source, rfl⟩ <;>
      (dsimp only; rw [source]; decide)

theorem closed_follows (s : WorkflowState) : Follows s s.closed := by
  refine ⟨Or.inr (Or.inr ⟨rfl, ?_⟩), rfl, Int.le_refl _, Int.le_max_left _ _⟩
  unfold closed
  split <;> simp

theorem next_turnsLeft (before : ¬ s.atEnd) (result : ExecutionResult) : (s.next result).turnsLeft < s.turnsLeft := by
  refine next_cases (P := fun t => t.turnsLeft < s.turnsLeft) before ?_ ?_ ?_ ?_ ?_ ?_
  · intro stage _
    simp [turnsLeft, stage]
  · intro stage _
    simp only [turnsLeft, stage, retriesLeft]
    cases hasError s <;> simp
  · rintro stage ⟨_, more⟩
    simp only [turnsLeft, stage, retriesLeft]
    omega
  · intro stage _
    simp [turnsLeft, stage]
  · intro stage
    simp [turnsLeft, stage, retriesLeft]
  · intro stage edge
    simp only [List.mem_cons, Prod.mk.injEq, List.not_mem_nil, or_false] at edge
    rcases edge with ⟨source, rfl⟩ | ⟨source, rfl⟩ | ⟨source, rfl⟩ | ⟨source, rfl⟩ | ⟨source, rfl⟩ | ⟨source, rfl⟩ <;>
      simp [turnsLeft, source, retriesLeft]

theorem next_executionsLeft (before : ¬ s.atEnd) (result : ExecutionResult) :
    (s.next result).executionsLeft + (if s.stage = .execute then 1 else 0) ≤ s.executionsLeft := by
  refine next_cases (P := fun t => t.executionsLeft + (if s.stage = .execute then 1 else 0) ≤ s.executionsLeft)
    before ?_ ?_ ?_ ?_ ?_ ?_
  · intro stage _
    simp [executionsLeft, stage]
  · intro stage _
    simp only [executionsLeft, stage, retriesLeft]
    cases hasError s <;> simp
  · rintro stage ⟨_, more⟩
    simp only [executionsLeft, stage, retriesLeft, reduceCtorEq, if_false]
    omega
  · intro stage _
    simp [executionsLeft, stage]
  · intro stage
    simp [executionsLeft, stage, retriesLeft]
  · intro stage edge
    simp only [List.mem_cons, Prod.mk.injEq, List.not_mem_nil, or_false] at edge
    rcases edge with ⟨source, rfl⟩ | ⟨source, rfl⟩ | ⟨source, rfl⟩ | ⟨source, rfl⟩ | ⟨source, rfl⟩ | ⟨source, rfl⟩ <;>
      simp [executionsLeft, source, retriesLeft]

end WorkflowState

/-! ### The rule for `resume` -/

def WorkflowWorld.saves (w : WorkflowWorld) : List WorkflowState :=
  w.events.filterMap fun
    | .executed .. => none
    | .saved state => some state

section
variable {answers : Nat → ExecutionStatus} {s s' : WorkflowState} {w t : WorkflowWorld} {last : Bool}

theorem Acts.frame {result : ExecutionResult} (acts : Acts answers s w result t) :
    t.executors = w.executors ∧ t.checkpoints = w.checkpoints ∧ t.saves = w.saves ∧
      t.visits = w.visits ++ if s.stage = .execute then [s] else [] := by
  unfold Acts at acts
  split at acts
  · rename_i atExecute
    obtain ⟨request, next, _, rfl⟩ := acts
    refine ⟨rfl, rfl, ?_, ?_⟩
    · simp [WorkflowWorld.saves]
    · simp [WorkflowWorld.visits, atExecute]
  · rename_i other
    rw [acts, if_neg other]
    simp

/-- What a turn records before it saves. -/
def Ran (answers : Nat → ExecutionStatus) (s : WorkflowState) (w : WorkflowWorld) (result : ExecutionResult)
    (ran : List WorkflowEvent) : Prop :=
  if s.stage = .execute then result.status = answers w.visits.length ∧ ∃ request, ran = [.executed s request result]
  else ran = []

theorem Acts.events {result : ExecutionResult} (acts : Acts answers s w result t) :
    ∃ ran, t.events = w.events ++ ran ∧ Ran answers s w result ran := by
  unfold Acts at acts
  unfold Ran
  by_cases atExecute : s.stage = .execute
  · rw [if_pos atExecute] at acts
    obtain ⟨request, next, rfl, rfl⟩ := acts
    exact ⟨_, rfl, by rw [if_pos atExecute]; exact ⟨rfl, request, rfl⟩⟩
  · rw [if_neg atExecute] at acts
    rw [acts]
    exact ⟨[], by simp, by rw [if_neg atExecute]⟩

theorem Turned.events (turned : Turned answers s w s' last t) : ∃ added, t.events = w.events ++ added ∧
    (s.atEnd ∧ last = true ∧ added = [.saved { s with status := .completed }] ∨
      ¬ s.atEnd ∧ ∃ result ran, Ran answers s w result ran ∧
        added = ran ++ .saved (s.next result) :: (if last then [.saved (s.next result).closed] else []) ∧
        if last then (s.next result).isFinal else s' = s.next result ∧ ¬ s'.isFinal) := by
  cases turned with
  | ends atEnd => exact ⟨_, rfl, Or.inl ⟨atEnd, rfl, rfl⟩⟩
  | moves before acts further =>
    obtain ⟨ran, events, recorded⟩ := acts.events
    refine ⟨_, ?_, Or.inr ⟨before, _, ran, recorded, rfl, rfl, further⟩⟩
    simp [WorkflowWorld.saveCheckpoint, events]
  | closes before acts final =>
    obtain ⟨ran, events, recorded⟩ := acts.events
    refine ⟨_, ?_, Or.inr ⟨before, _, ran, recorded, rfl, final⟩⟩
    simp [WorkflowWorld.saveCheckpoint, events]

theorem Turned.visits (turned : Turned answers s w s' last t) :
    t.visits.length = if s.stage = .execute then w.visits.length + 1 else w.visits.length := by
  have counted : ∀ {result v}, Acts answers s w result v →
      v.visits.length = if s.stage = .execute then w.visits.length + 1 else w.visits.length := by
    intro result v acts
    rw [acts.frame.2.2.2]
    split <;> simp
  cases turned with
  | ends atEnd =>
    have other : s.stage ≠ .execute := by rcases atEnd with stage | stage | stage <;> simp [stage]
    rw [if_neg other]
    simp [WorkflowWorld.visits, WorkflowWorld.saveCheckpoint]
  | moves _ acts _ =>
    rw [← counted acts]
    simp [WorkflowWorld.visits, WorkflowWorld.saveCheckpoint]
  | closes _ acts _ =>
    rw [← counted acts]
    simp [WorkflowWorld.visits, WorkflowWorld.saveCheckpoint]

theorem Turned.executors (turned : Turned answers s w s' last t) : t.executors = w.executors := by
  cases turned with
  | ends => rfl
  | moves _ acts => exact acts.frame.1
  | closes _ acts => exact acts.frame.1

theorem Turned.turnsLeft (turned : Turned answers s w s' false t) : s'.turnsLeft < s.turnsLeft := by
  cases turned with
  | moves before => exact WorkflowState.next_turnsLeft before _

end

namespace WorkflowEngine
variable {answers : Nat → ExecutionStatus} {hasPullRequests : Bool} {o : WorkflowOutside} {s : WorkflowState}
  {w : WorkflowWorld} {workflowId : WorkflowId}

theorem turn_stops (stopped : s.status ≠ .running) (result : Option ExecutionResult) :
    (main answers hasPullRequests).turn (s, result) = pure ((s, result), true) := by
  unfold turn
  dsimp only
  rw [if_pos stopped]

theorem resume_rule (found : w.checkpoints.get workflowId = some s) (I Q : WorkflowState → WorkflowWorld → Prop)
    (E : WorkflowRaised → WorkflowWorld → Prop) (start : I s w)
    (turn : ∀ s t, I s t → s.status = .running → ∀ s' last u, Turned answers s t s' last u →
      if last then Q s' u else I s' u)
    (stop : ∀ s t, I s t → s.status ≠ .running → Q s t)
    (broke : ∀ s t, I s t → s.status = .running → ∀ e u, Broke answers s t e u → E e u)
    (load : ∀ e, e.site = .loadCheckpoint → E e w) :
    Meets o ((main answers hasPullRequests).resume workflowId) w (byResult
      (fun outcome t => Q outcome.state t) (fun e t => Fails o w e ∧ E e t)) := by
  unfold resume
  refine Meets.bind (Meets.query ?_ fun _ _ raises => ⟨Or.inl raises, load _ rfl⟩)
  dsimp only [byResult]
  rw [found]
  dsimp only
  have ended : Meets o ((main answers hasPullRequests).resumeLoop s (turnLimit s)) w (byResult
      (fun r t => ∃ held, r = some held ∧ Q held.1 t) (fun e t => Fails o w e ∧ E e t)) := by
    refine Meets.loop (fun held t => I held.1 t ∧ t.executors = w.executors) (fun held => held.1.turnsLeft)
      ⟨start, rfl⟩ ?_ ?_
    · rintro ⟨s, result⟩ t ⟨kept, executors⟩
      by_cases running : s.status = .running
      · refine (turn_turned running result).mono ?_
        intro r u reached
        cases r with
        | ok r =>
          obtain ⟨⟨s', result'⟩, last⟩ := r
          have turned : Turned answers s t s' last u := reached
          have after := turn s t kept running s' last u turned
          cases last with
          | true => exact ⟨(s', result'), rfl, after⟩
          | false => exact ⟨⟨after, turned.executors.trans executors⟩, turned.turnsLeft⟩
        | error e =>
          refine ⟨?_, broke s t kept running e u reached.2⟩
          refine reached.1.imp_right fun missing => ?_
          simp only [WorkflowWorld.select, executors] at missing
          exact missing
      · rw [turn_stops running]
        exact Meets.pure ⟨(s, result), rfl, stop s t kept running⟩
    · dsimp only [turnLimit]
      unfold WorkflowState.turnsLeft WorkflowState.retriesLeft
      split <;> omega
  refine Meets.seq _ ended ?_ (fun _ _ stopped => stopped)
  rintro _ t ⟨held, rfl, reached⟩
  exact Meets.pure reached

theorem resume_returns (found : w.checkpoints.get workflowId = some s) (clean : o.Clean)
    (available : (w.select true true).isSome = true) (I Q : WorkflowState → WorkflowWorld → Prop) (start : I s w)
    (turn : ∀ s t, I s t → s.status = .running → ∀ s' last u, Turned answers s t s' last u →
      if last then Q s' u else I s' u)
    (stop : ∀ s t, I s t → s.status ≠ .running → Q s t) :
    Returns o ((main answers hasPullRequests).resume workflowId) w (fun outcome t => Q outcome.state t) := by
  refine (resume_rule found I Q (fun _ _ => True) start turn stop (fun _ _ _ _ _ _ _ => trivial)
    fun _ _ => trivial).mono ?_
  intro r t reached
  cases r with
  | ok outcome => exact reached
  | error e =>
    rcases reached.1 with raises | missing
    · exact absurd raises (Outside.not_raises_of_returns fun n => clean n e.site)
    · rw [missing] at available
      cases available

end WorkflowEngine

end Brain
