import Brain.Workflow.Runs

namespace Brain
open Calls

namespace WorkflowState
variable {s : WorkflowState} {result : ExecutionResult}

def Agrees (s : WorkflowState) : Prop :=
  s.status = .running ∧ ¬ s.atEnd ∨ s.status = .blocked ∧ s.stage = .human ∨
    s.status = .completed ∧ s.stage = .complete ∨ s.status = .failed ∧ s.stage = .failed

theorem next_agrees (before : ¬ s.atEnd) (running : s.status = .running) (further : ¬ (s.next result).isFinal) :
    (s.next result).Agrees := by
  revert further
  refine next_cases (P := fun t => ¬ t.isFinal → t.Agrees) before ?_ ?_ ?_ ?_ ?_ ?_
  · intro _ _ _
    exact Or.inr (Or.inl ⟨rfl, rfl⟩)
  · intro _ _ _
    refine Or.inl ⟨running, ?_⟩
    unfold atEnd
    cases hasError s <;> simp
  · intro _ _ _
    exact Or.inl ⟨running, by simp⟩
  · intro _ _ further
    exact absurd (Or.inr rfl) further
  · intro _ _
    exact Or.inl ⟨running, by simp⟩
  · intro stage edge further
    refine Or.inl ⟨running, ?_⟩
    simp only [List.mem_cons, Prod.mk.injEq, List.not_mem_nil, or_false] at edge
    rcases edge with ⟨_, rfl⟩ | ⟨_, rfl⟩ | ⟨_, rfl⟩ | ⟨_, rfl⟩ | ⟨_, rfl⟩ | ⟨_, rfl⟩
    · simp
    · simp
    · simp
    · simp
    · simp
    · exact absurd (Or.inl rfl) further

theorem closed_agrees (final : s.isFinal) : s.closed.Agrees := by
  rcases final with stage | stage
  · exact Or.inr (Or.inr (Or.inl ⟨by simp [closed, stage], stage⟩))
  · exact Or.inr (Or.inr (Or.inr ⟨by simp [closed, stage], stage⟩))

theorem Agrees.ended (agrees : s.Agrees) (ended : s.status ≠ .running) :
    (s.status = .completed ↔ s.stage = .complete) ∧ (s.status = .failed ↔ s.stage = .failed) ∧
      (s.status = .blocked ↔ s.stage = .human) := by
  rcases agrees with ⟨running, _⟩ | ⟨status, stage⟩ | ⟨status, stage⟩ | ⟨status, stage⟩
  · exact absurd running ended
  · simp [status, stage]
  · simp [status, stage]
  · simp [status, stage]

end WorkflowState

section
variable {answers : Nat → ExecutionStatus} {s s' : WorkflowState} {w t u : WorkflowWorld} {last : Bool}
  {workflowId : WorkflowId}

theorem saves_saveCheckpoint (state : WorkflowState) : (t.saveCheckpoint state).saves = t.saves ++ [state] := by
  simp [WorkflowWorld.saves, WorkflowWorld.saveCheckpoint]

theorem visits_saveCheckpoint (state : WorkflowState) : (t.saveCheckpoint state).visits = t.visits := by
  simp [WorkflowWorld.visits, WorkflowWorld.saveCheckpoint]

theorem checkpoint_saveCheckpoint {state : WorkflowState} (own : state.workflowId = workflowId) :
    (t.saveCheckpoint state).checkpoints.get workflowId = some state := by
  rw [← own]
  exact Keyed.get_upsert_self _ _

theorem Turned.spec (turned : Turned answers s t s' last u) : s'.workflowId = s.workflowId ∧
    u.checkpoints.get s.workflowId = some s' ∧
    (∃ saves, u.saves = t.saves ++ saves ∧ ∀ s₀ early, WorkflowState.Traced s₀ early s →
      WorkflowState.Traced s₀ (early ++ saves) s') ∧
    u.visits.length + s'.executionsLeft ≤ t.visits.length + s.executionsLeft := by
  cases turned with
  | ends atEnd =>
    refine ⟨rfl, checkpoint_saveCheckpoint rfl, ⟨_, saves_saveCheckpoint _, ?_⟩, ?_⟩
    · intro s₀ early traced
      exact .next traced ⟨Or.inr (Or.inr ⟨rfl, by simp⟩), rfl, Int.le_refl _, Int.le_max_left _ _⟩
    · rw [visits_saveCheckpoint]
      exact Nat.le_refl _
  | @moves result v before acts further =>
    obtain ⟨_, _, saves, visits⟩ := acts.frame
    have left := WorkflowState.next_executionsLeft before result
    refine ⟨WorkflowState.next_workflowId s result, checkpoint_saveCheckpoint (WorkflowState.next_workflowId s result),
      ⟨[s.next result], by rw [saves_saveCheckpoint, saves], ?_⟩, ?_⟩
    · exact fun _ _ traced => .next traced (WorkflowState.next_follows before result)
    · rw [visits_saveCheckpoint, visits, List.length_append]
      split at left <;> rename_i stage <;> simp [stage] at left ⊢ <;> omega
  | @closes result v before acts final =>
    obtain ⟨_, _, saves, visits⟩ := acts.frame
    have left := WorkflowState.next_executionsLeft before result
    have same : (s.next result).closed.executionsLeft = (s.next result).executionsLeft := rfl
    refine ⟨WorkflowState.next_workflowId s result, checkpoint_saveCheckpoint (WorkflowState.next_workflowId s result),
      ⟨[s.next result, (s.next result).closed], ?_, ?_⟩, ?_⟩
    · rw [saves_saveCheckpoint, saves_saveCheckpoint, saves]
      simp
    · intro s₀ early traced
      have first := WorkflowState.Traced.next traced (WorkflowState.next_follows before result)
      have second := WorkflowState.Traced.next first (WorkflowState.closed_follows (s.next result))
      rw [List.append_assoc] at second
      exact second
    · rw [visits_saveCheckpoint, visits_saveCheckpoint, visits, List.length_append, same]
      split at left <;> rename_i stage <;> simp [stage] at left ⊢ <;> omega

end

namespace WorkflowEngine
variable {answers : Nat → ExecutionStatus} {hasPullRequests : Bool} {o : WorkflowOutside} {s : WorkflowState}
  {w : WorkflowWorld} {workflowId : WorkflowId}

/-- The engine was resumed with `s` in the world `w`, and is in state `t` now. -/
structure Since (s : WorkflowState) (w : WorkflowWorld) (t : WorkflowState) (u : WorkflowWorld) : Prop where
  workflowId : t.workflowId = s.workflowId
  checkpoint : u.checkpoints.get s.workflowId = some t
  saves : ∃ saves, u.saves = w.saves ++ saves ∧ WorkflowState.Traced s saves t
  visits : u.visits.length + t.executionsLeft ≤ w.visits.length + s.executionsLeft

theorem Since.turned {s' t : WorkflowState} {u v : WorkflowWorld} {last : Bool} (since : Since s w t u)
    (turned : Turned answers t u s' last v) : Since s w s' v := by
  obtain ⟨own, checkpoint, ⟨saves, saved, traces⟩, visits⟩ := turned.spec
  obtain ⟨early, before, traced⟩ := since.saves
  have most := since.visits
  rw [since.workflowId] at checkpoint
  refine ⟨own.trans since.workflowId, checkpoint, ⟨early ++ saves, ?_, traces s early traced⟩, by omega⟩
  rw [saved, before, List.append_assoc]

/-- The status of a workflow that was resumed in state `s`. -/
def Kept (s t : WorkflowState) : Prop :=
  s.status = .running → (s.stage ≠ .human ∧ s.stage ≠ .failed → t.Agrees ∨ t = s ∧ s.stage = .complete) ∧
    (s.stage = .human ∨ s.stage = .failed → t = s)

/-- What `resume` leaves, from a checkpoint `s`. -/
structure Bounded (s : WorkflowState) (w : WorkflowWorld) (t : WorkflowState) (u : WorkflowWorld) : Prop where
  ended : t.status ≠ .running
  checkpoint : u.checkpoints.get s.workflowId = some t
  executions : u.visits.length ≤ w.visits.length + 1 + (s.maxRetries - s.retryCount).toNat
  saves : ∃ saves, u.saves = w.saves ++ saves ∧ WorkflowState.Traced s saves t
  least : s.retryCount ≤ t.retryCount
  most : t.retryCount ≤ max s.retryCount s.maxRetries
  status : s.status = .running → s.stage ≠ .human → s.stage ≠ .failed →
    (t.status = .completed ↔ t.stage = .complete) ∧ (t.status = .failed ↔ t.stage = .failed) ∧
      (t.status = .blocked ↔ t.stage = .human)
  entered : s.status = .running → s.stage = .human ∨ s.stage = .failed → t = { s with status := .completed }

theorem Since.bounded {t : WorkflowState} {u : WorkflowWorld} (since : Since s w t u) (ended : t.status ≠ .running)
    (status : s.status = .running → (s.stage ≠ .human ∧ s.stage ≠ .failed → t.Agrees) ∧
      (s.stage = .human ∨ s.stage = .failed → t = { s with status := .completed })) : Bounded s w t u := by
  have executions : s.executionsLeft ≤ 1 + (s.maxRetries - s.retryCount).toNat := by
    unfold WorkflowState.executionsLeft WorkflowState.retriesLeft
    split <;> omega
  obtain ⟨saves, saved, traced⟩ := since.saves
  obtain ⟨_, least, most⟩ := traced.bounds
  have visits := since.visits
  refine ⟨ended, since.checkpoint, by omega, ⟨saves, saved, traced⟩, least, most, ?_, ?_⟩
  · exact fun running notHuman notFailed => ((status running).1 ⟨notHuman, notFailed⟩).ended ended
  · exact fun running => (status running).2

/-- `resume` ends. It stays within the retries, moves along the graph, and leaves
a status that agrees with the stage unless it was entered at `human` or `failed`. -/
theorem resume_bounded (answers : Nat → ExecutionStatus) (hasPullRequests : Bool) (w : WorkflowWorld)
    (s : WorkflowState) (found : w.checkpoints.get s.workflowId = some s) (clean : o.Clean)
    (available : (w.select true true).isSome = true) :
    Returns o ((main answers hasPullRequests).resume s.workflowId) w (fun outcome t => Bounded s w outcome.state t) := by
  refine resume_returns found clean available (fun t u => Since s w t u ∧ Kept s t) (Bounded s w) ?_ ?_ ?_
  · refine ⟨⟨rfl, found, ⟨[], by simp, .start⟩, Nat.le_refl _⟩, fun running => ⟨?_, fun _ => rfl⟩⟩
    rintro ⟨notHuman, notFailed⟩
    by_cases complete : s.stage = .complete
    · exact Or.inr ⟨rfl, complete⟩
    · refine Or.inl (Or.inl ⟨running, ?_⟩)
      rintro (stage | stage | stage)
      · exact notHuman stage
      · exact complete stage
      · exact notFailed stage
  · rintro t u ⟨since, kept⟩ running s' last v turned
    have later := since.turned turned
    cases turned with
    | ends atEnd =>
      refine later.bounded (by simp) fun started => ⟨fun elsewhere => ?_, fun entered => ?_⟩
      · rcases (kept started).1 elsewhere with agrees | ⟨same, complete⟩
        · rcases agrees with ⟨_, before⟩ | ⟨status, _⟩ | ⟨status, _⟩ | ⟨status, _⟩
          · exact absurd atEnd before
          · rw [running] at status; cases status
          · rw [running] at status; cases status
          · rw [running] at status; cases status
        · rw [same]
          exact Or.inr (Or.inr (Or.inl ⟨rfl, complete⟩))
      · rw [(kept started).2 entered]
    | moves before acts further =>
      refine ⟨later, fun started => ⟨fun _ => Or.inl (WorkflowState.next_agrees before running further), ?_⟩⟩
      intro entered
      have same := (kept started).2 entered
      rw [same] at before
      exact absurd (entered.imp_right Or.inr) before
    | @closes answer x before acts final =>
      have agrees := WorkflowState.closed_agrees final
      refine later.bounded ?_ fun started => ⟨fun _ => agrees, fun entered => ?_⟩
      · unfold WorkflowState.closed
        split <;> simp
      · have same := (kept started).2 entered
        rw [same] at before
        exact absurd (entered.imp_right Or.inr) before
  · rintro t u ⟨since, kept⟩ ended
    refine since.bounded ended fun started => ⟨fun elsewhere => ?_, fun entered => ?_⟩
    · rcases (kept started).1 elsewhere with agrees | ⟨same, _⟩
      · exact agrees
      · rw [same] at ended
        exact absurd started ended
    · have same := (kept started).2 entered
      rw [same] at ended
      exact absurd started ended

/-- One executor, and the checkpoint `s`. -/
def worldWith (s : WorkflowState) : WorkflowWorld where
  checkpoints := Keyed.empty.upsert s
  executors := Keyed.empty.upsert { executorId := .v5 "executor" }

theorem worldWith_checkpoint (s : WorkflowState) : (worldWith s).checkpoints.get s.workflowId = some s := by
  unfold worldWith
  exact Keyed.get_upsert_self Keyed.empty s

theorem worldWith_available (s : WorkflowState) : ((worldWith s).select true true).isSome = true := rfl

def newWorkflow : WorkflowState := { workflowId := .v5 "workflow" }

/-- A new workflow whose executor always fails. -/
theorem resume_bounded_failing : Returns Outside.clean ((main (fun _ => .failed) false).resume newWorkflow.workflowId)
    (worldWith newWorkflow) (fun outcome t => Bounded newWorkflow (worldWith newWorkflow) outcome.state t) := by
  have clean : (Outside.clean : WorkflowOutside).Clean := Outside.clean_clean
  generalize Outside.clean = o at clean ⊢
  exact resume_bounded (fun _ => .failed) false (worldWith newWorkflow) newWorkflow (worldWith_checkpoint newWorkflow)
    clean (worldWith_available newWorkflow)

/-- Resumed at `human`, a workflow is completed there. -/
theorem human_completed :
    let s : WorkflowState := { workflowId := .v5 "workflow", stage := .human }
    ((main (fun _ => .completed) false).resume s.workflowId Outside.clean 0 (worldWith s)).store.checkpoints.items =
      [{ s with status := .completed }] := by
  decide

end WorkflowEngine

end Brain
