import Brain.Workflow.Bounds

namespace Brain
open Calls

namespace WorkflowState
variable {answers : Nat → ExecutionStatus} {calls : Nat} {s : WorkflowState} {result : ExecutionResult}

def ahead (answers : Nat → ExecutionStatus) (calls : Nat) (s : WorkflowState) : List Int :=
  if going : s.status = .running ∧ ¬ s.atEnd then
    if s.stage = .execute then
      s.retryCount :: ahead answers (calls + 1) (s.next { executionId := default, status := answers calls })
    else ahead answers calls (s.next default)
  else []
termination_by s.turnsLeft
decreasing_by
  · exact next_turnsLeft going.2 _
  · exact next_turnsLeft going.2 _

theorem ahead_stops (stopped : s.status ≠ .running ∨ s.atEnd) : ahead answers calls s = [] := by
  rw [ahead, dif_neg]
  rintro ⟨running, before⟩
  exact stopped.elim (fun ended => ended running) before

theorem ahead_execute (running : s.status = .running) (atExecute : s.stage = .execute) : ahead answers calls s =
    s.retryCount :: ahead answers (calls + 1) (s.next { executionId := default, status := answers calls }) := by
  have before : ¬ s.atEnd := by simp [atEnd, atExecute]
  rw [ahead, dif_pos ⟨running, before⟩, if_pos atExecute]

theorem ahead_other (running : s.status = .running) (before : ¬ s.atEnd) (other : s.stage ≠ .execute) :
    ahead answers calls s = ahead answers calls (s.next default) := by
  rw [ahead, dif_pos ⟨running, before⟩, if_neg other]

def relabel (s : WorkflowState) (id : Option ExecutionId) : WorkflowState := { s with currentExecutionId := id }

theorem next_relabel (id : Option ExecutionId) : ∃ id', (s.relabel id).next result = (s.next result).relabel id' := by
  cases stage : s.stage with
  | verify =>
    refine ⟨id, ?_⟩
    by_cases spent : s.maxRetries ≤ s.retryCount
    · rw [next_blocked stage spent]
      exact next_blocked (s := s.relabel id) stage spent
    · rw [next_verified stage spent]
      exact next_verified (s := s.relabel id) stage spent
  | retry =>
    refine ⟨id, ?_⟩
    by_cases again : s.retries
    · rw [next_again stage again]
      exact next_again (s := s.relabel id) stage again
    · rw [next_failed stage again]
      exact next_failed (s := s.relabel id) stage again
  | execute => exact ⟨some result.executionId, by simp [next, relabel, stage]⟩
  | _ => exact ⟨id, by simp [next, relabel, stage]⟩

theorem ahead_relabel (id : Option ExecutionId) : ahead answers calls (s.relabel id) = ahead answers calls s := by
  induction turns : s.turnsLeft using Nat.strongRecOn generalizing calls s id with
  | ind turns ih =>
    by_cases going : s.status = .running ∧ ¬ s.atEnd
    · obtain ⟨running, before⟩ := going
      by_cases atExecute : s.stage = .execute
      · have same : (s.relabel id).next { executionId := default, status := answers calls } =
            s.next { executionId := default, status := answers calls } := by
          simp [next, relabel, atExecute]
        rw [ahead_execute running atExecute, ahead_execute (s := s.relabel id) running atExecute, same]
        rfl
      · obtain ⟨id', same⟩ := @next_relabel s default id
        rw [ahead_other running before atExecute, ahead_other (s := s.relabel id) running before atExecute, same]
        exact ih _ (by rw [← turns]; exact next_turnsLeft before _) _ rfl
    · have stopped : s.status ≠ .running ∨ s.atEnd := by
        rw [not_and_or, not_not] at going
        exact going
      rw [ahead_stops stopped, ahead_stops (s := s.relabel id) stopped]

theorem ahead_next (running : s.status = .running) (before : ¬ s.atEnd)
    (answered : s.stage = .execute → result.status = answers calls) : ahead answers calls s =
      (if s.stage = .execute then [s.retryCount] else []) ++
        ahead answers (calls + if s.stage = .execute then 1 else 0) (s.next result) := by
  by_cases atExecute : s.stage = .execute
  · have same : s.next result =
        (s.next { executionId := default, status := answers calls }).relabel (some result.executionId) := by
      simp [next, relabel, atExecute, answered atExecute]
    rw [ahead_execute running atExecute, if_pos atExecute, if_pos atExecute, same, ahead_relabel]
    rfl
  · have same : s.next result = s.next default := by
      unfold next
      cases stage : s.stage with
      | execute => exact absurd stage atExecute
      | _ => rfl
    rw [ahead_other running before atExecute, if_neg atExecute, if_neg atExecute, same]
    rfl

theorem next_counts (before : ¬ s.atEnd) (result : ExecutionResult) : s.retryCount < (s.next result).retryCount ∨
    (s.next result).retryCount = s.retryCount ∧
      (s.isEarly = false ∨ s.stage = .execute → (s.next result).isEarly = false) := by
  refine next_cases (P := fun t => s.retryCount < t.retryCount ∨ t.retryCount = s.retryCount ∧
    (s.isEarly = false ∨ s.stage = .execute → t.isEarly = false)) before ?_ ?_ ?_ ?_ ?_ ?_
  · intro _ _
    exact Or.inr ⟨rfl, fun _ => rfl⟩
  · intro _ _
    refine Or.inr ⟨rfl, fun _ => ?_⟩
    unfold isEarly
    cases hasError s <;> rfl
  · intro _ _
    exact Or.inl (by dsimp only; omega)
  · intro _ _
    exact Or.inr ⟨rfl, fun _ => rfl⟩
  · intro _
    exact Or.inr ⟨rfl, fun _ => rfl⟩
  · intro stage edge
    simp only [List.mem_cons, Prod.mk.injEq, List.not_mem_nil, or_false] at edge
    refine Or.inr ⟨rfl, ?_⟩
    rcases edge with ⟨source, rfl⟩ | ⟨source, rfl⟩ | ⟨source, rfl⟩ | ⟨source, rfl⟩ | ⟨source, rfl⟩ | ⟨source, rfl⟩ <;>
      simp [isEarly, source]

theorem ahead_increasing (answers : Nat → ExecutionStatus) (calls : Nat) (s : WorkflowState) :
    (∀ retry ∈ ahead answers calls s, s.retryCount ≤ retry ∧ (s.isEarly = false → s.retryCount < retry)) ∧
      (ahead answers calls s).Pairwise (· < ·) := by
  fun_induction ahead answers calls s with
  | case1 calls s going atExecute ih =>
    obtain ⟨later, increasing⟩ := ih
    rcases next_counts going.2 { executionId := default, status := answers calls } with more | ⟨same, early⟩
    · simp [next, atExecute] at more
    · have above : ∀ retry ∈ ahead answers (calls + 1) (s.next { executionId := default, status := answers calls }),
          s.retryCount < retry := by
        intro retry member
        rw [← same]
        exact (later retry member).2 (early (Or.inr atExecute))
      refine ⟨fun retry member => ?_, List.pairwise_cons.mpr ⟨above, increasing⟩⟩
      rcases List.mem_cons.mp member with rfl | member
      · exact ⟨Int.le_refl _, fun late => by simp [isEarly, atExecute] at late⟩
      · have := above retry member
        exact ⟨by omega, fun _ => this⟩
  | case2 calls s going other ih =>
    obtain ⟨later, increasing⟩ := ih
    refine ⟨fun retry member => ?_, increasing⟩
    obtain ⟨least, above⟩ := later retry member
    rcases next_counts going.2 default with more | ⟨same, early⟩
    · exact ⟨by omega, fun _ => by omega⟩
    · rw [same] at least above
      exact ⟨least, fun late => above (early (Or.inl late))⟩
  | case3 => simp

end WorkflowState

section
variable {answers : Nat → ExecutionStatus} {s s₀ s' : WorkflowState} {w t u : WorkflowWorld} {last : Bool}
  {result : ExecutionResult} {e : WorkflowRaised}

/-- `t` belongs to a run from `s₀` in `w` whose checkpoint is `s`. What was
executed and what is ahead make up what was ahead at the start. -/
structure Resumable (answers : Nat → ExecutionStatus) (s₀ : WorkflowState) (w : WorkflowWorld) (s : WorkflowState)
    (t : WorkflowWorld) : Prop where
  own : s.workflowId = s₀.workflowId
  checkpoint : t.checkpoints.get s₀.workflowId = some s
  executors : t.executors = w.executors
  executions : ∃ done, t.visits = w.visits ++ done ∧ done.map (·.retryCount) ++
    s.ahead answers t.visits.length = s₀.ahead answers w.visits.length

theorem Resumable.start (found : w.checkpoints.get s.workflowId = some s) : Resumable answers s w s w :=
  ⟨rfl, found, rfl, [], by simp, by simp⟩

theorem Resumable.saved {state : WorkflowState} (resumable : Resumable answers s₀ w s t)
    (own : state.workflowId = s.workflowId) (same : state.ahead answers t.visits.length = s.ahead answers t.visits.length) :
    Resumable answers s₀ w state (t.saveCheckpoint state) := by
  obtain ⟨workflow, _, executors, done, visits, split⟩ := resumable
  refine ⟨own.trans workflow, checkpoint_saveCheckpoint (own.trans workflow), executors, done, ?_, ?_⟩
  · rw [visits_saveCheckpoint, visits]
  · rw [visits_saveCheckpoint, same, split]

theorem Resumable.stepped (resumable : Resumable answers s₀ w s t) (running : s.status = .running) (before : ¬ s.atEnd)
    (acts : Acts answers s t result u) : Resumable answers s₀ w (s.next result) (u.saveCheckpoint (s.next result)) := by
  obtain ⟨own, _, executors, done, visits, split⟩ := resumable
  obtain ⟨sameExecutors, _, _, executed⟩ := acts.frame
  have answered : s.stage = .execute → result.status = answers t.visits.length := by
    intro atExecute
    unfold Acts at acts
    rw [if_pos atExecute] at acts
    obtain ⟨_, _, rfl, _⟩ := acts
    rfl
  have workflow := (WorkflowState.next_workflowId s result).trans own
  rw [WorkflowState.ahead_next running before answered] at split
  refine ⟨workflow, checkpoint_saveCheckpoint workflow, sameExecutors.trans executors,
    done ++ (if s.stage = .execute then [s] else []), ?_, ?_⟩
  · rw [visits_saveCheckpoint, executed, visits, List.append_assoc]
  · rw [visits_saveCheckpoint, executed, List.length_append, ← split]
    by_cases atExecute : s.stage = .execute
    · simp [atExecute]
    · simp [atExecute]

theorem ahead_closed (s : WorkflowState) (calls : Nat) : s.closed.ahead answers calls = [] := by
  refine WorkflowState.ahead_stops (Or.inl ?_)
  unfold WorkflowState.closed
  split <;> simp

theorem ahead_final {calls : Nat} (final : s.isFinal) : s.ahead answers calls = [] :=
  WorkflowState.ahead_stops (Or.inr (Or.inr final))

theorem Resumable.turned (resumable : Resumable answers s₀ w s t) (running : s.status = .running)
    (turned : Turned answers s t s' last u) : Resumable answers s₀ w s' u ∧
      (last = true → s'.ahead answers u.visits.length = []) := by
  cases turned with
  | ends atEnd =>
    have stopped : ∀ calls, WorkflowState.ahead answers calls { s with status := .completed } = [] :=
      fun _ => WorkflowState.ahead_stops (Or.inl (by simp))
    exact ⟨resumable.saved rfl ((stopped _).trans (WorkflowState.ahead_stops (Or.inr atEnd)).symm), fun _ => stopped _⟩
  | moves before acts _ => exact ⟨resumable.stepped running before acts, fun more => by cases more⟩
  | closes before acts final =>
    refine ⟨(resumable.stepped running before acts).saved rfl ?_, fun _ => ahead_closed _ _⟩
    rw [ahead_closed, ahead_final final]

theorem Resumable.broke (resumable : Resumable answers s₀ w s t) (running : s.status = .running) (kept : ¬ Lost e)
    (broke : Broke answers s t e u) : ∃ s', Resumable answers s₀ w s' u := by
  cases broke with
  | before next => exact ⟨s, resumable.own, resumable.checkpoint, resumable.executors, resumable.executions⟩
  | lost _ _ lost => exact absurd lost kept
  | ended atEnd =>
    have stopped : ∀ calls, WorkflowState.ahead answers calls { s with status := .completed } = [] :=
      fun _ => WorkflowState.ahead_stops (Or.inl (by simp))
    exact ⟨_, resumable.saved rfl ((stopped _).trans (WorkflowState.ahead_stops (Or.inr atEnd)).symm)⟩
  | saved before acts => exact ⟨_, resumable.stepped running before acts⟩
  | closed before acts final =>
    refine ⟨_, (resumable.stepped running before acts).saved rfl ?_⟩
    rw [ahead_closed, ahead_final final]

/-- The checkpoint `s` of `t` waits for an execution that took place since `w`. -/
structure Repeats (s₀ : WorkflowState) (w : WorkflowWorld) (s : WorkflowState) (t : WorkflowWorld) : Prop where
  own : s.workflowId = s₀.workflowId
  checkpoint : t.checkpoints.get s₀.workflowId = some s
  executors : t.executors = w.executors
  running : s.status = .running
  atExecute : s.stage = .execute
  executions : ∃ done, t.visits = w.visits ++ done ∧ s ∈ done

theorem Resumable.lost (resumable : Resumable answers s₀ w s t) (running : s.status = .running) (lost : Lost e)
    (broke : Broke answers s t e u) : Repeats s₀ w s u := by
  cases broke with
  | @lost result _ executes atExecute =>
    have acts : Acts answers s t result u := by
      unfold Acts
      rw [if_pos atExecute]
      exact executes
    obtain ⟨own, checkpoint, executors, done, visits, _⟩ := resumable
    obtain ⟨sameExecutors, sameCheckpoints, _, executed⟩ := acts.frame
    refine ⟨own, by rw [sameCheckpoints, checkpoint], sameExecutors.trans executors, running, atExecute, done ++ [s], ?_, ?_⟩
    · rw [executed, visits, if_pos atExecute, List.append_assoc]
    · simp
  | before next kept => exact absurd lost kept
  | ended _ kept => exact absurd lost kept
  | saved _ _ kept => exact absurd lost kept
  | closed _ _ _ kept => exact absurd lost kept

end

namespace WorkflowEngine
variable {answers : Nat → ExecutionStatus} {hasPullRequests : Bool} {o : WorkflowOutside} {s : WorkflowState}
  {w : WorkflowWorld}

/-- The executions since `w`, by the retry each belongs to. -/
def executionsSince (w t : WorkflowWorld) : List Int := (t.visits.drop w.visits.length).map (·.retryCount)

theorem executionsSince_append {t : WorkflowWorld} {done : List WorkflowState} (visits : t.visits = w.visits ++ done) :
    executionsSince w t = done.map (·.retryCount) := by
  rw [executionsSince, visits, List.drop_left]

theorem resume_executes (found : w.checkpoints.get s.workflowId = some s) (clean : o.Clean)
    (available : (w.select true true).isSome = true) : Returns o ((main answers hasPullRequests).resume s.workflowId) w
      (fun _ t => ∃ done, t.visits = w.visits ++ done ∧ done.map (·.retryCount) = s.ahead answers w.visits.length) := by
  refine resume_returns found clean available (Resumable answers s w) (fun _ t => ∃ done, t.visits = w.visits ++ done ∧
    done.map (·.retryCount) = s.ahead answers w.visits.length) (.start found) ?_ ?_
  · intro s' t resumable running s'' last u turned
    obtain ⟨later, ended⟩ := resumable.turned running turned
    cases last with
    | true =>
      obtain ⟨_, _, _, done, visits, split⟩ := later
      rw [ended rfl, List.append_nil] at split
      exact ⟨done, visits, split⟩
    | false => exact later
  · intro s' t resumable stopped
    obtain ⟨_, _, _, done, visits, split⟩ := resumable
    rw [WorkflowState.ahead_stops (Or.inl stopped), List.append_nil] at split
    exact ⟨done, visits, split⟩

theorem resume_crashes (found : w.checkpoints.get s.workflowId = some s) :
    Meets o ((main answers hasPullRequests).resume s.workflowId) w (byResult (fun _ _ => True)
      (fun e t => (¬ Lost e → ∃ s', Resumable answers s w s' t) ∧ (Lost e → ∃ s', Repeats s w s' t))) := by
  refine (resume_rule found (Resumable answers s w) (fun _ _ => True)
    (fun e t => (¬ Lost e → ∃ s', Resumable answers s w s' t) ∧ (Lost e → ∃ s', Repeats s w s' t))
    (.start found) ?_ (fun _ _ _ _ => trivial) ?_ ?_).mono ?_
  · intro s' t resumable running s'' last u turned
    cases last with
    | true => trivial
    | false => exact (resumable.turned running turned).1
  · intro s' t resumable running e u broke
    exact ⟨fun kept => resumable.broke running kept broke, fun lost => ⟨s', resumable.lost running lost broke⟩⟩
  · intro e site
    exact ⟨fun _ => ⟨s, .start found⟩, fun lost => by simp [Lost, site] at lost⟩
  · intro r t reached
    cases r with
    | ok _ => trivial
    | error e => exact reached.2

/-- The store that `resume` leaves. -/
def leaves (answers : Nat → ExecutionStatus) (hasPullRequests : Bool) (workflowId : WorkflowId) (o : WorkflowOutside)
    (n : Nat) (w : WorkflowWorld) : WorkflowWorld :=
  ((main answers hasPullRequests).resume workflowId o n w).store

/-- A crashed run, its resumption, and a run from the same checkpoint without a
crash: no retry is executed twice and the executions are as many exactly when
the crash does not fall between an execution and the checkpoint after it. -/
theorem resumption_repeats_iff (answers : Nat → ExecutionStatus) (hasPullRequests : Bool) (w : WorkflowWorld)
    (s : WorkflowState) (found : w.checkpoints.get s.workflowId = some s)
    (available : (w.select true true).isSome = true) (o o' : WorkflowOutside) (clean : o'.Clean) (n n' n'' : Nat)
    (e : WorkflowRaised) (crashed : ((main answers hasPullRequests).resume s.workflowId o n w).result = .error e) :
    ((executionsSince w (leaves answers hasPullRequests s.workflowId o' n'
        (leaves answers hasPullRequests s.workflowId o n w))).Nodup ∧
      (executionsSince w (leaves answers hasPullRequests s.workflowId o' n'
        (leaves answers hasPullRequests s.workflowId o n w))).length =
      (executionsSince w (leaves answers hasPullRequests s.workflowId o' n'' w)).length) ↔ ¬ Lost e := by
  unfold leaves
  have left := @resume_crashes answers hasPullRequests o _ _ found n
  rw [crashed, byResult_error] at left
  generalize ((main answers hasPullRequests).resume s.workflowId o n w).store = t at left ⊢
  obtain ⟨resumable, repeats⟩ := left
  obtain ⟨all, reference, isAhead⟩ := (@resume_executes _ hasPullRequests _ _ _ found clean available).store
    (fun _ _ executed => executed) n''
  rw [executionsSince_append reference, isAhead]
  have increasing := (WorkflowState.ahead_increasing answers w.visits.length s).2
  by_cases lost : Lost e
  · obtain ⟨s', own, checkpoint, executors, running, atExecute, done, visits, member⟩ := repeats lost
    rw [← own] at checkpoint ⊢
    obtain ⟨again, resumed, isAhead'⟩ := (@resume_executes _ hasPullRequests _ _ _ checkpoint clean
      (by rw [WorkflowWorld.select, executors]; exact available)).store (fun _ _ executed => executed) n'
    rw [visits, List.append_assoc] at resumed
    refine iff_of_false ?_ (fun kept => kept lost)
    rintro ⟨nodup, _⟩
    rw [executionsSince_append resumed, List.map_append, isAhead', WorkflowState.ahead_execute running atExecute] at nodup
    exact (List.nodup_append.mp nodup).2.2 _ (List.mem_map_of_mem member) _ (List.mem_cons_self ..) rfl
  · obtain ⟨s', own, checkpoint, executors, done, visits, split⟩ := resumable lost
    rw [← own] at checkpoint ⊢
    obtain ⟨again, resumed, isAhead'⟩ := (@resume_executes _ hasPullRequests _ _ _ checkpoint clean
      (by rw [WorkflowWorld.select, executors]; exact available)).store (fun _ _ executed => executed) n'
    rw [visits, List.append_assoc] at resumed
    refine iff_of_true ?_ lost
    rw [executionsSince_append resumed, List.map_append, isAhead', split]
    exact ⟨increasing.imp Int.ne_of_lt, rfl⟩

/-- Saving the checkpoint after `execute` fails before it has an effect. -/
def losesExecution : WorkflowOutside :=
  ⟨fun _ site => if site = .saveCheckpoint .verify then .raises false ⟨"OSError", "connection lost"⟩ else .returns, fun _ => 0⟩

theorem resumption_repeats_iff_lost :
    ((executionsSince (worldWith newWorkflow) (leaves (fun _ => .completed) false newWorkflow.workflowId Outside.clean 0
        (leaves (fun _ => .completed) false newWorkflow.workflowId losesExecution 0 (worldWith newWorkflow)))).Nodup ∧
      (executionsSince (worldWith newWorkflow) (leaves (fun _ => .completed) false newWorkflow.workflowId Outside.clean 0
        (leaves (fun _ => .completed) false newWorkflow.workflowId losesExecution 0 (worldWith newWorkflow)))).length =
      (executionsSince (worldWith newWorkflow) (leaves (fun _ => .completed) false newWorkflow.workflowId
        Outside.clean 0 (worldWith newWorkflow))).length) ↔
      ¬ Lost ⟨.saveCheckpoint .verify, false, ⟨"OSError", "connection lost"⟩⟩ := by
  have clean : (Outside.clean : WorkflowOutside).Clean := Outside.clean_clean
  have crashed : ((main (fun _ => .completed) false).resume newWorkflow.workflowId losesExecution 0
      (worldWith newWorkflow)).result = .error ⟨.saveCheckpoint .verify, false, ⟨"OSError", "connection lost"⟩⟩ := rfl
  generalize losesExecution = o at crashed ⊢
  generalize Outside.clean = o' at clean ⊢
  exact resumption_repeats_iff (fun _ => .completed) false (worldWith newWorkflow) newWorkflow
    (worldWith_checkpoint newWorkflow) (worldWith_available newWorkflow) o o' clean 0 0 0 _ crashed

/-- The resumption executes again what had been executed. -/
theorem lost_execution_repeats : ¬ ((executionsSince (worldWith newWorkflow) (leaves (fun _ => .completed) false
        newWorkflow.workflowId Outside.clean 0
        (leaves (fun _ => .completed) false newWorkflow.workflowId losesExecution 0 (worldWith newWorkflow)))).Nodup ∧
      (executionsSince (worldWith newWorkflow) (leaves (fun _ => .completed) false newWorkflow.workflowId Outside.clean 0
        (leaves (fun _ => .completed) false newWorkflow.workflowId losesExecution 0 (worldWith newWorkflow)))).length =
      (executionsSince (worldWith newWorkflow) (leaves (fun _ => .completed) false newWorkflow.workflowId
        Outside.clean 0 (worldWith newWorkflow))).length) := by
  decide +kernel

end WorkflowEngine

end Brain
