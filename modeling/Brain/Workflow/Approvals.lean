import Brain.Workflow.Guards

namespace Brain
open Calls

/-! ### The gate -/

section
variable {o : WorkflowOutside} {s s' : WorkflowState} {w w' : WorkflowWorld} {call : GateCall}

inductive Gates (s : WorkflowState) (w : WorkflowWorld) : GateCall → WorkflowState → WorkflowWorld → Prop
  | requests {approvalType : ApprovalType} {requestedBy : Option ActorId} {t : WorkflowWorld} :
      Gates s w (.request approvalType requestedBy) { s with approvalState := .pending } t
  | decides {id : Uuid} {decidedBy : ActorId} {decision : ApprovalDecision} {reason : String} {approval : Approval}
      (stored : w.approvals.get id = some approval) : Gates s w (.decide id decidedBy decision reason) s
        (w.saveApproval { approval with decidedBy := some decidedBy, decision, reason })
  | applies {id : Uuid} {approval : Approval} (stored : w.approvals.get id = some approval) :
      Gates s w (.apply id) (ApprovalGate.applyToWorkflow approval s) w
  | nothing {call : GateCall} (missing : ∀ id, call = .apply id ∨ (∃ decidedBy decision reason,
      call = .decide id decidedBy decision reason) → w.approvals.get id = none) : Gates s w call s w

theorem perform_gates (s : WorkflowState) (call : GateCall) : Meets o (call.perform s) w
    (byResult (fun s' w' => Gates s w call s' w') (fun _ _ => True)) := by
  cases call with
  | request approvalType requestedBy =>
    unfold GateCall.perform ApprovalGate.requestApproval
    refine Meets.bind (Meets.bind (Meets.internal (Meets.bind (Meets.command ?_ ?_ ?_))))
    · exact Meets.pure (Meets.pure .requests)
    · exact fun _ _ => trivial
    · exact fun _ _ => trivial
  | decide id decidedBy decision reason =>
    refine Meets.bind (Meets.internal ?_)
    dsimp only [byResult]
    cases stored : w.approvals.get id with
    | none =>
      refine Meets.pure (.nothing ?_)
      rintro id' (same | ⟨_, _, _, same⟩)
      · cases same
      · cases same
        exact stored
    | some approval =>
      unfold ApprovalGate.decide
      refine Meets.bind (Meets.bind (Meets.command ?_ ?_ ?_))
      · exact Meets.pure (Meets.pure (.decides stored))
      · exact fun _ _ => trivial
      · exact fun _ _ => trivial
  | apply id =>
    refine Meets.bind (Meets.internal ?_)
    dsimp only [byResult]
    cases stored : w.approvals.get id with
    | none =>
      refine Meets.pure (.nothing ?_)
      rintro id' (same | ⟨_, _, _, same⟩)
      · cases same
        exact stored
      · cases same
    | some approval => exact Meets.pure (.applies stored)

def ApprovedByAll (s : WorkflowState) (w : WorkflowWorld) : Prop :=
  s.approvalState = .approved → ∀ approval ∈ w.listForWorkflow s.workflowId, approval.decision = .approved

/-- An approved workflow is not decided on again except to approve, and an
approval is applied as approved only when all approvals of the workflow are. -/
def GateCall.Proper (s : WorkflowState) (w : WorkflowWorld) : GateCall → Prop
  | .request _ _ => True
  | .decide id _ decision _ => s.approvalState = .approved → decision ≠ .approved →
      ∀ approval, w.approvals.get id = some approval → approval.workflowId ≠ some s.workflowId
  | .apply id => ∀ approval, w.approvals.get id = some approval → approval.workflowId = some s.workflowId →
      approval.decision = .approved → ∀ other ∈ w.listForWorkflow s.workflowId, other.decision = .approved

theorem mem_listForWorkflow {approval : Approval} {workflowId : WorkflowId} : approval ∈ w.listForWorkflow workflowId ↔
    approval ∈ w.approvals.items ∧ approval.workflowId = some workflowId := by
  simp [WorkflowWorld.listForWorkflow]

theorem mem_list_saveApproval {approval changed : Approval} {workflowId : WorkflowId} :
    approval ∈ (w.saveApproval changed).listForWorkflow workflowId ↔
      (approval = changed ∨ approval ∈ w.approvals.items ∧ approval.id ≠ changed.id) ∧
        approval.workflowId = some workflowId := by
  rw [mem_listForWorkflow]
  exact and_congr_left' Keyed.mem_upsert

theorem Gates.approvedByAll_iff (gates : Gates s w call s' w') (before : ApprovedByAll s w) :
    ApprovedByAll s' w' ↔ call.Proper s w := by
  cases gates with
  | requests => exact iff_of_true (fun approved => by cases approved) trivial
  | @decides id decidedBy decision reason approval stored =>
    have isStored := (Keyed.get_eq_some.mp stored).1
    constructor
    · intro after approved against other found own
      rw [stored] at found
      cases found
      exact against (after approved _ (mem_list_saveApproval.mpr ⟨Or.inl rfl, own⟩))
    · intro proper approved other member
      obtain ⟨rfl | ⟨listed, _⟩, own⟩ := mem_list_saveApproval.mp member
      · by_contra against
        exact proper approved against approval stored own
      · exact before approved other (mem_listForWorkflow.mpr ⟨listed, own⟩)
  | @applies id approval stored =>
    have holds : (approval.workflowId = some s.workflowId → approval.decision ≠ .approved) →
        (GateCall.apply id).Proper s w := by
      intro harmless other found own approved
      rw [stored] at found
      cases found
      exact absurd approved (harmless own)
    unfold ApprovalGate.applyToWorkflow
    by_cases own : approval.workflowId = some s.workflowId
    · rw [if_neg (not_not.mpr own)]
      cases decision : approval.decision with
      | approved =>
        constructor
        · intro after _ _ _ _
          exact after rfl
        · intro proper _
          exact proper approval stored own decision
      | rejected => exact iff_of_true (fun approved => by cases approved) (holds fun _ => by simp [decision])
      | needsChanges => exact iff_of_true (fun approved => by cases approved) (holds fun _ => by simp [decision])
      | pending => exact iff_of_true before (holds fun _ => by simp [decision])
    · rw [if_pos own]
      exact iff_of_true before (holds fun same => absurd same own)
  | nothing missing =>
    refine iff_of_true before ?_
    cases call with
    | request => trivial
    | decide id =>
      intro _ _ approval found
      rw [missing id (Or.inr ⟨_, _, _, rfl⟩)] at found
      cases found
    | apply id =>
      intro approval found
      rw [missing id (Or.inl rfl)] at found
      cases found

/-- The states that proper calls of the gate lead to, one call after the other.
A call that raises ends the run. -/
inductive Gated (s : WorkflowState) (w : WorkflowWorld) : WorkflowState → WorkflowWorld → Prop
  | start : Gated s w s w
  | call {t u : WorkflowState} {v x : WorkflowWorld} (gated : Gated s w t v) (call : GateCall) (proper : call.Proper t v)
      (o : WorkflowOutside) (n : Nat) (returned : (call.perform t o n v).result = .ok u)
      (left : (call.perform t o n v).store = x) : Gated s w u x

theorem Gated.approvedByAll (gated : Gated s w s' w') (start : ApprovedByAll s w) : ApprovedByAll s' w' := by
  induction gated with
  | start => exact start
  | @call t u v x _ call proper o n returned left ih =>
    have gates := perform_gates (o := o) (w := v) t call n
    rw [returned, left] at gates
    exact (Gates.approvedByAll_iff gates ih).mpr proper

end

/-! ### The engine -/

def needsApproval : WorkflowEvent → Bool
  | .executed .. => true
  | .saved s => s.stage = .createPr

namespace WorkflowState
variable {answers : Nat → ExecutionStatus} {s : WorkflowState} {result : ExecutionResult}

/-- Where a workflow neither executes again nor enters `createPr`, whatever its
approval state is. -/
def Halted (s : WorkflowState) : Prop :=
  s.status = .running → s.stage ∈ [WorkflowStage.human, .createPr, .updateBrain, .complete, .failed] ∨
    s.stage = .verify ∧ (s.maxRetries ≤ s.retryCount ∨ hasError s = true ∧ ¬ s.retries) ∨
    s.stage = .retry ∧ ¬ s.retries

theorem next_halted (running : s.status = .running) (before : ¬ s.atEnd) :
    s.Halted ↔ s.stage ≠ .execute ∧ (s.next result).stage ≠ .createPr ∧ (s.next result).Halted := by
  unfold Halted
  refine next_cases (P := fun t => (s.status = .running → _) ↔ s.stage ≠ .execute ∧ t.stage ≠ .createPr ∧
    (t.status = .running → t.stage ∈ [WorkflowStage.human, .createPr, .updateBrain, .complete, .failed] ∨
      t.stage = .verify ∧ (t.maxRetries ≤ t.retryCount ∨ hasError t = true ∧ ¬ t.retries) ∨
      t.stage = .retry ∧ ¬ t.retries)) before ?_ ?_ ?_ ?_ ?_ ?_
  · intro stage spent
    simp [stage, spent]
  · intro stage more
    cases error : hasError s with
    | true =>
      simp [stage, more, running]
      exact Iff.rfl
    | false => simp [stage, more, running]
  · intro stage again
    simp [stage, running, again]
  · intro stage done
    simp [stage, running, done]
  · intro stage
    simp [stage, running]
  · intro stage edge
    simp only [List.mem_cons, Prod.mk.injEq, List.not_mem_nil, or_false] at edge
    rcases edge with ⟨source, rfl⟩ | ⟨source, rfl⟩ | ⟨source, rfl⟩ | ⟨source, rfl⟩ | ⟨source, rfl⟩ | ⟨source, rfl⟩ <;>
      simp [source, running]

end WorkflowState

theorem Turned.needsApproval {answers : Nat → ExecutionStatus} {s s' : WorkflowState} {t u : WorkflowWorld} {last : Bool}
    (turned : Turned answers s t s' last u) : ∃ added, u.events = t.events ++ added ∧
      (s.atEnd ∧ last = true ∧ added.any Brain.needsApproval = false ∨
        ¬ s.atEnd ∧ ∃ result, (if last then (s.next result).isFinal else s' = s.next result) ∧
          (added.any Brain.needsApproval = false ↔ s.stage ≠ .execute ∧ (s.next result).stage ≠ .createPr)) := by
  obtain ⟨added, adds, ⟨atEnd, isLast, rfl⟩ | ⟨before, result, ran, recorded, rfl, went⟩⟩ := turned.events
  · refine ⟨_, adds, Or.inl ⟨atEnd, isLast, ?_⟩⟩
    rcases atEnd with stage | stage | stage <;> simp [Brain.needsApproval, stage]
  · refine ⟨_, adds, Or.inr ⟨before, result, ?_, ?_⟩⟩
    · cases last with
      | true => exact went
      | false => exact went.1
    · have ranNeeds : ran.any Brain.needsApproval = false ↔ s.stage ≠ .execute := by
        unfold Ran at recorded
        by_cases atExecute : s.stage = .execute
        · rw [if_pos atExecute] at recorded
          obtain ⟨_, request, rfl⟩ := recorded
          simp [Brain.needsApproval, atExecute]
        · rw [if_neg atExecute] at recorded
          simp [recorded, atExecute]
      have savesNeed : (WorkflowEvent.saved (s.next result) :: (if last then [.saved (s.next result).closed] else [])).any
          Brain.needsApproval = false ↔ (s.next result).stage ≠ .createPr := by
        cases last <;> simp [Brain.needsApproval, WorkflowState.closed]
      rw [List.any_append, Bool.or_eq_false_iff, ranNeeds, savesNeed]

namespace WorkflowEngine
variable {answers : Nat → ExecutionStatus} {hasPullRequests : Bool} {o : WorkflowOutside} {s : WorkflowState}
  {w : WorkflowWorld}

/-- `resume` does not look at the approval state: it executes or enters
`createPr` unless the stage alone keeps it from doing so. -/
theorem resume_halted_iff (found : w.checkpoints.get s.workflowId = some s) (clean : o.Clean)
    (available : (w.select true true).isSome = true) :
    Returns o ((main answers hasPullRequests).resume s.workflowId) w
      (fun _ t => (t.events.drop w.events.length).any needsApproval = false ↔ s.Halted) := by
  -- What happened so far, and what will happen from here on, decide.
  refine resume_returns found clean available
    (Recorded w fun events _ t => s.Halted ↔ events.any needsApproval = false ∧ t.Halted)
    (fun _ t => (t.events.drop w.events.length).any needsApproval = false ↔ s.Halted) ?_ ?_ ?_
  · exact Recorded.start (by simp)
  · rintro t v ⟨events, split, decides⟩ running t' last u turned
    obtain ⟨added, adds, did⟩ := turned.needsApproval
    have together : u.events = w.events ++ (events ++ added) := by rw [adds, split, List.append_assoc]
    have here : t.Halted ↔ added.any needsApproval = false ∧ (last = false → t'.Halted) := by
      rcases did with ⟨atEnd, isLast, nothing⟩ | ⟨before, result, went, needs⟩
      · refine iff_of_true (fun _ => Or.inl ?_) ⟨nothing, fun more => by rw [isLast] at more; cases more⟩
        rcases atEnd with stage | stage | stage <;> simp [stage]
      · rw [@WorkflowState.next_halted _ result running before, needs, and_assoc]
        refine and_congr_right fun _ => and_congr_right fun _ => ?_
        cases last with
        | true =>
          refine iff_of_true (fun _ => Or.inl ?_) (fun more => by cases more)
          rcases (show (t.next result).isFinal from went) with stage | stage <;> simp [stage]
        | false => exact ⟨fun halted _ => by rw [show t' = t.next result from went]; exact halted,
            fun halted => by rw [← show t' = t.next result from went]; exact halted rfl⟩
    have whole : s.Halted ↔ (events ++ added).any needsApproval = false ∧ (last = false → t'.Halted) := by
      rw [decides, here, List.any_append, Bool.or_eq_false_iff, and_assoc]
    cases last with
    | true =>
      rw [if_pos rfl, together, List.drop_left, whole]
      exact (and_iff_left fun more => by cases more).symm
    | false =>
      refine ⟨events ++ added, together, whole.trans (and_congr_right fun _ => ?_)⟩
      exact ⟨fun halted => halted rfl, fun halted _ => halted⟩
  · intro t v recorded stopped
    have decides := recorded.newEvents
    rw [decides]
    exact (and_iff_left fun running => absurd running stopped).symm

def waitingWorkflow : WorkflowState :=
  { workflowId := .v5 "workflow", stage := .execute, approvalState := .pending }

/-- Two approvals are requested. The first is rejected, the second is approved and applied last. -/
def maskedCalls : List GateCall :=
  [.request .plan none, .request .security none, .decide (.v4 0) (.v5 "a") .rejected "", .apply (.v4 0),
    .decide (.v4 1) (.v5 "b") .approved "", .apply (.v4 1)]

end WorkflowEngine

end Brain
