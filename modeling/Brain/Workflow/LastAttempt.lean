import Brain.Workflow.Bounds

namespace Brain
open Calls

/-! ### The attempts of a run -/

/-- The states the executor was called in, and what it returned. -/
def executions (events : List WorkflowEvent) : List (WorkflowState × ExecutionResult) :=
  events.filterMap fun
    | .executed state _ result => some (state, result)
    | .saved _ => none

/-- The workflow came to a human, or failed. -/
def Halts (events : List WorkflowEvent) : Prop :=
  ∃ state, .saved state ∈ events ∧ (state.stage = .human ∨ state.stage = .failed)

/-- After `k` executions another one was made, verified, and led to a pull request. -/
def PassesAfter (k : Nat) (events : List WorkflowEvent) : Prop :=
  ∃ before state request result verified passed after,
    events = before ++ .executed state request result :: .saved verified :: .saved passed :: after ∧
      (executions before).length = k ∧ verified.stage = .verify ∧ passed.stage = .createPr

section Events
variable {events added : List WorkflowEvent} {k : Nat}

theorem executions_append (before after : List WorkflowEvent) :
    executions (before ++ after) = executions before ++ executions after := List.filterMap_append ..

theorem length_executions (events : List WorkflowEvent) : (executions events).length = (events.filterMap fun
    | .executed state _ _ => some state
    | .saved _ => none).length := by
  induction events with
  | nil => rfl
  | cons event events ih =>
    cases event with
    | executed state request result => exact congrArg Nat.succ ih
    | saved state => exact ih

theorem halts_append (before after : List WorkflowEvent) : Halts (before ++ after) ↔ Halts before ∨ Halts after := by
  simp only [Halts, List.mem_append, or_and_right, exists_or]

theorem not_halts_executed (state : WorkflowState) (request : ExecutionRequest) (result : ExecutionResult) :
    ¬ Halts [.executed state request result] := by
  simp [Halts]

theorem halts_saved (state : WorkflowState) : Halts [.saved state] ↔ state.stage = .human ∨ state.stage = .failed := by
  simp [Halts]

theorem PassesAfter.append (passes : PassesAfter k events) (added : List WorkflowEvent) : PassesAfter k (events ++ added) := by
  obtain ⟨before, state, request, result, verified, passed, after, isList, counted, atVerify, atPr⟩ := passes
  exact ⟨before, state, request, result, verified, passed, after ++ added, by simp [isList], counted, atVerify, atPr⟩

end Events

namespace WorkflowState
variable {s t : WorkflowState} {answers : Nat → ExecutionStatus} {calls : Nat} {events : List WorkflowEvent}

structure Fresh (s : WorkflowState) : Prop where
  stage : s.stage = .intake
  status : s.status = .running
  retryCount : s.retryCount = 0
  maxRetries : 0 ≤ s.maxRetries

/-- An execution that does not complete leaves the last error as it was, and this is retryable. -/
def retryable (s : WorkflowState) : Prop := (WorkflowEngine.retryDecision s).retryable = true

instance (s : WorkflowState) : Decidable s.retryable := inferInstanceAs (Decidable (_ = true))

theorem retryable_congr (same : t.lastError = s.lastError) : t.retryable ↔ s.retryable := by
  have decision : WorkflowEngine.retryDecision t = WorkflowEngine.retryDecision s := by
    unfold WorkflowEngine.retryDecision hasError
    rw [same]
  rw [retryable, retryable, decision]

theorem hasError_of_retryable (retryable : s.retryable) : hasError s = true := by
  by_contra clear
  rw [Bool.not_eq_true] at clear
  simp [WorkflowState.retryable, WorkflowEngine.retryDecision, clear] at retryable

/-- The calls `calls`, …, `calls + k - 1` do not complete. -/
def AllFail (answers : Nat → ExecutionStatus) (calls k : Nat) : Prop := ∀ i < k, (answers (calls + i)).isGood = false

/-- The first completed result is honoured, and only failures stop the workflow. -/
structure Honours (answers : Nat → ExecutionStatus) (calls : Nat) (s : WorkflowState) (events : List WorkflowEvent) :
    Prop where
  passes : ∀ k : Nat, k ≤ s.maxRetries → AllFail answers calls k → (answers (calls + k)).isGood = true →
    (0 < k → s.retryable) → PassesAfter k events
  halts : Halts events →
    (executions events).length = s.maxRetries + 1 ∧ (∀ e ∈ executions events, e.2.status.isGood = false) ∨
      ∃ e ∈ executions events, e.2.status.isGood = false ∧ ¬ e.1.retryable

/-- Every retry is used up before the first result that completes. -/
def LastCompletes (answers : Nat → ExecutionStatus) (calls : Nat) (s : WorkflowState) : Prop :=
  AllFail answers calls s.maxRetries.toNat ∧ (answers (calls + s.maxRetries.toNat)).isGood = true ∧
    (0 < s.maxRetries → s.retryable)

/-- `k` executions were made, all with the error that was there. -/
structure Attempted (answers : Nat → ExecutionStatus) (calls : Nat) (s : WorkflowState) (k : Nat)
    (events : List WorkflowEvent) : Prop where
  statuses : (executions events).map (·.2.status) = (List.range k).map fun i => answers (calls + i)
  errors : ∀ e ∈ executions events, e.1.lastError = s.lastError

namespace Attempted
variable {k : Nat}

theorem length (attempted : Attempted answers calls s k events) : (executions events).length = k := by
  have lengths := congrArg List.length attempted.statuses
  simpa using lengths

theorem saved (attempted : Attempted answers calls s k events) (state : WorkflowState) :
    Attempted answers calls s k (events ++ [.saved state]) := by
  have same : executions (events ++ [.saved state]) = executions events := by
    rw [executions_append]
    exact List.append_nil _
  exact ⟨by rw [same]; exact attempted.statuses, by rw [same]; exact attempted.errors⟩

theorem executed (attempted : Attempted answers calls s k events) {state : WorkflowState} {request : ExecutionRequest}
    {result : ExecutionResult} (error : state.lastError = s.lastError) (answered : result.status = answers (calls + k)) :
    Attempted answers calls s (k + 1) (events ++ [.executed state request result]) := by
  have more : executions (events ++ [.executed state request result]) = executions events ++ [(state, result)] :=
    executions_append ..
  refine ⟨?_, ?_⟩
  · rw [more, List.map_append, attempted.statuses, List.range_succ, List.map_append, List.map_singleton,
      List.map_singleton, answered]
  · intro e member
    rw [more, List.mem_append, List.mem_singleton] at member
    rcases member with earlier | rfl
    · exact attempted.errors e earlier
    · exact error

theorem all_fail (attempted : Attempted answers calls s k events) (fail : AllFail answers calls k)
    {e : WorkflowState × ExecutionResult} (member : e ∈ executions events) : e.2.status.isGood = false := by
  have listed : e.2.status ∈ (executions events).map (·.2.status) := List.mem_map_of_mem member
  rw [attempted.statuses, List.mem_map] at listed
  obtain ⟨i, inRange, same⟩ := listed
  rw [← same]
  exact fail i (List.mem_range.mp inRange)

theorem exists_execution (attempted : Attempted answers calls s k events) {i : Nat} (below : i < k) :
    ∃ e ∈ executions events, e.2.status = answers (calls + i) := by
  have listed : answers (calls + i) ∈ (executions events).map (·.2.status) := by
    rw [attempted.statuses]
    exact List.mem_map_of_mem (List.mem_range.mpr below)
  exact List.mem_map.mp listed

end Attempted

/-! ### How a run ends -/

inductive Outcome (answers : Nat → ExecutionStatus) (calls : Nat) (s : WorkflowState) (events : List WorkflowEvent) : Prop
  | passed (k : Nat) (left : k < s.maxRetries) (fail : AllFail answers calls k) (good : (answers (calls + k)).isGood = true)
      (passes : PassesAfter k events) (runs : ¬ Halts events)
  | unnoticed (left : 0 < s.maxRetries) (fail : AllFail answers calls 1) (clear : hasError s = false) (runs : ¬ Halts events)
  | refused (left : 0 < s.maxRetries) (fail : AllFail answers calls 1) (refused : ¬ s.retryable)
      (attempted : Attempted answers calls s 1 events)
  | spent (k : Nat) (isLast : k = s.maxRetries) (fail : AllFail answers calls (k + 1))
      (attempted : Attempted answers calls s (k + 1) events)
  | late (k : Nat) (isLast : k = s.maxRetries) (fail : AllFail answers calls k)
      (good : (answers (calls + k)).isGood = true) (retryable : 0 < k → s.retryable)
      (attempted : Attempted answers calls s (k + 1) events) (halted : Halts events)

variable {k : Nat}

theorem AllFail.first_good {j : Nat} (fail : AllFail answers calls j) (good : (answers (calls + k)).isGood = true) : j ≤ k := by
  by_contra before
  rw [fail k (Nat.lt_of_not_le before)] at good
  cases good

theorem Outcome.honours_iff (outcome : Outcome answers calls s events) :
    Honours answers calls s events ↔ ¬ LastCompletes answers calls s := by
  unfold LastCompletes
  cases outcome with
  | passed k left fail good passes runs =>
    refine iff_of_true ⟨?_, fun halts => absurd halts runs⟩ ?_
    · intro j _ allFail isGood _
      have same : j = k := Nat.le_antisymm (allFail.first_good good) (fail.first_good isGood)
      exact same ▸ passes
    · rintro ⟨allFail, _⟩
      have most : s.maxRetries.toNat ≤ k := allFail.first_good good
      omega
  | unnoticed left fail clear runs =>
    have fails : ¬ s.retryable := by
      intro retryable
      rw [hasError_of_retryable retryable] at clear
      cases clear
    refine iff_of_true ⟨?_, fun halts => absurd halts runs⟩ fun last => fails (last.2.2 left)
    intro j _ _ isGood retryable
    exact absurd (retryable (fail.first_good isGood)) fails
  | refused left fail refused attempted =>
    refine iff_of_true ⟨?_, fun _ => Or.inr ?_⟩ fun last => refused (last.2.2 left)
    · intro j _ _ isGood retryable
      exact absurd (retryable (fail.first_good isGood)) refused
    · obtain ⟨e, member, answered⟩ := attempted.exists_execution Nat.one_pos
      refine ⟨e, member, attempted.all_fail fail member, ?_⟩
      rwa [retryable_congr (attempted.errors e member)]
  | spent k isLast fail attempted =>
    refine iff_of_true ⟨?_, fun _ => Or.inl ⟨?_, fun e member => attempted.all_fail fail member⟩⟩ ?_
    · intro j most _ isGood _
      have least : k + 1 ≤ j := fail.first_good isGood
      omega
    · rw [attempted.length, ← isLast]
      rfl
    · rintro ⟨_, good, _⟩
      have least : k + 1 ≤ s.maxRetries.toNat := fail.first_good good
      omega
  | late k isLast fail good retryable attempted halted =>
    have count : s.maxRetries.toNat = k := by omega
    refine iff_of_false ?_ (not_not_intro ⟨count ▸ fail, count ▸ good, fun some => retryable (by omega)⟩)
    intro honours
    rcases honours.halts halted with ⟨_, allFail⟩ | ⟨e, member, failed, refused⟩
    · obtain ⟨e, member, answered⟩ := attempted.exists_execution (Nat.lt_succ_self k)
      have bad := allFail e member
      rw [answered, good] at bad
      cases bad
    · -- a failed execution came before the last, so there was one more retry than none
      rw [retryable_congr (attempted.errors e member)] at refused
      have none : ¬ 0 < k := fun some => refused (retryable some)
      have only : k = 0 := by omega
      have listed : e.2.status ∈ (executions events).map (·.2.status) := List.mem_map_of_mem member
      rw [attempted.statuses, only] at listed
      have same : e.2.status = answers (calls + k) := by
        rw [only]
        simpa using listed
      rw [same, good] at failed
      cases failed

/-! ### One step -/

/-- The workflow is on its way through a pull request. -/
structure Passing (answers : Nat → ExecutionStatus) (calls : Nat) (s : WorkflowState) (events : List WorkflowEvent) :
    Prop where
  left : 0 < s.maxRetries
  runs : ¬ Halts events
  why : (∃ k : Nat, k < s.maxRetries ∧ AllFail answers calls k ∧ (answers (calls + k)).isGood = true ∧ PassesAfter k events) ∨
    AllFail answers calls 1 ∧ hasError s = false

theorem Passing.saved (passing : Passing answers calls s events) {state : WorkflowState} (notHuman : state.stage ≠ .human)
    (notFailed : state.stage ≠ .failed) : Passing answers calls s (events ++ [.saved state]) := by
  refine ⟨passing.left, ?_, ?_⟩
  · rw [halts_append, halts_saved]
    rintro (halted | human | failed)
    · exact passing.runs halted
    · exact notHuman human
    · exact notFailed failed
  · refine passing.why.imp_left ?_
    rintro ⟨k, left, fail, good, passes⟩
    exact ⟨k, left, fail, good, passes.append _⟩

theorem Passing.outcome (passing : Passing answers calls s events) : Outcome answers calls s events := by
  rcases passing.why with ⟨k, left, fail, good, passes⟩ | ⟨fail, clear⟩
  · exact .passed k left fail good passes passing.runs
  · exact .unnoticed passing.left fail clear passing.runs

/-- `k` executions failed, and nothing stopped the workflow. -/
structure Awaiting (answers : Nat → ExecutionStatus) (calls : Nat) (s : WorkflowState) (k : Nat)
    (events : List WorkflowEvent) : Prop where
  fail : AllFail answers calls k
  retryable : 0 < k → s.retryable
  attempted : Attempted answers calls s k events
  runs : ¬ Halts events

theorem Awaiting.saved (awaiting : Awaiting answers calls s k events) {state : WorkflowState}
    (notHuman : state.stage ≠ .human) (notFailed : state.stage ≠ .failed) :
    Awaiting answers calls s k (events ++ [.saved state]) := by
  refine ⟨awaiting.fail, awaiting.retryable, awaiting.attempted.saved state, ?_⟩
  rw [halts_append, halts_saved]
  rintro (halted | human | failed)
  · exact awaiting.runs halted
  · exact notHuman human
  · exact notFailed failed

/-- The execution after `k` failed ones was made. -/
structure Tried (answers : Nat → ExecutionStatus) (calls : Nat) (s : WorkflowState) (k : Nat) (t : WorkflowState)
    (events : List WorkflowEvent) : Prop where
  fail : AllFail answers calls k
  retryable : 0 < k → s.retryable
  attempted : Attempted answers calls s (k + 1) events
  runs : ¬ Halts events
  last : ∃ before state request result, events = before ++ [.executed state request result, .saved t] ∧
    (executions before).length = k
  error : t.lastError = if (answers (calls + k)).isGood then none else s.lastError

/-- Where a run is that goes on. The retries count the failed executions. -/
def Trying (answers : Nat → ExecutionStatus) (calls : Nat) (s t : WorkflowState) (events : List WorkflowEvent) : Prop :=
  match t.stage with
  | .intake | .understand | .buildContext | .routeExecutor | .execute =>
    ∃ k : Nat, t.retryCount = k ∧ k ≤ s.maxRetries ∧ t.lastError = s.lastError ∧ Awaiting answers calls s k events
  | .verify => ∃ k : Nat, t.retryCount = k ∧ k ≤ s.maxRetries ∧ Tried answers calls s k t events
  | .retry => ∃ k : Nat, t.retryCount = k ∧ k < s.maxRetries ∧ t.lastError = s.lastError ∧ (0 < k → s.retryable) ∧
      AllFail answers calls (k + 1) ∧ Attempted answers calls s (k + 1) events ∧ ¬ Halts events
  | .createPr | .updateBrain => Passing answers calls s events
  | .human => Outcome answers calls s events
  | .complete | .failed => False

theorem not_isFinal {stage : WorkflowStage} (isStage : t.stage = stage) (notComplete : stage ≠ .complete)
    (notFailed : stage ≠ .failed) : ¬ t.isFinal := by
  rw [← isStage] at notComplete notFailed
  rintro (complete | failed)
  · exact notComplete complete
  · exact notFailed failed

theorem Awaiting.trying (awaiting : Awaiting answers calls s k events) (counted : t.retryCount = k)
    (most : k ≤ s.maxRetries) (error : t.lastError = s.lastError) (early : t.isEarly = true) :
    Trying answers calls s t events := by
  unfold Trying
  cases stage : t.stage <;> simp [isEarly, stage] at early <;> exact ⟨k, counted, most, error, awaiting⟩

theorem Trying.awaiting (trying : Trying answers calls s t events) (early : t.isEarly = true) :
    ∃ k : Nat, t.retryCount = k ∧ k ≤ s.maxRetries ∧ t.lastError = s.lastError ∧ Awaiting answers calls s k events := by
  unfold Trying at trying
  cases stage : t.stage <;> simp [isEarly, stage] at early <;> simpa only [stage] using trying

variable {u : WorkflowState}

theorem trying_executed {request : ExecutionRequest} {result : ExecutionResult}
    (awaiting : Awaiting answers calls s k events) (error : t.lastError = s.lastError)
    (answered : result.status = answers (calls + k)) (atVerify : u.stage = .verify)
    (left : u.lastError = if result.status.isGood then none else t.lastError) :
    Tried answers calls s k u (events ++ [.executed t request result] ++ [.saved u]) := by
  refine ⟨awaiting.fail, awaiting.retryable, (awaiting.attempted.executed error answered).saved u, ?_, ?_, ?_⟩
  · rw [halts_append, halts_append, halts_saved, atVerify]
    rintro ((halted | executed) | human | failed)
    · exact awaiting.runs halted
    · exact not_halts_executed _ _ _ executed
    · cases human
    · cases failed
  · exact ⟨events, t, request, result, List.append_assoc .., awaiting.attempted.length⟩
  · rw [left, answered, error]

theorem Tried.blocked (tried : Tried answers calls s k t events) (isLast : (k : Int) = s.maxRetries)
    (atHuman : u.stage = .human) : Outcome answers calls s (events ++ [.saved u]) := by
  have halted : Halts (events ++ [.saved u]) := by
    rw [halts_append, halts_saved]
    exact Or.inr (Or.inl atHuman)
  cases good : (answers (calls + k)).isGood with
  | true => exact .late k isLast tried.fail good tried.retryable (tried.attempted.saved u) halted
  | false =>
    refine .spent k isLast ?_ (tried.attempted.saved u)
    intro i below
    rcases Nat.lt_succ_iff_lt_or_eq.mp below with earlier | rfl
    · exact tried.fail i earlier
    · exact good

theorem Tried.verified (tried : Tried answers calls s k t events) (left : (k : Int) < s.maxRetries)
    (counted : t.retryCount = k) (atVerify : t.stage = .verify)
    (decided : u = { t with stage := if hasError t then .retry else .createPr }) :
    Trying answers calls s u (events ++ [.saved u]) := by
  have runs : ∀ {stage}, u.stage = stage → stage ≠ .human → stage ≠ .failed → ¬ Halts (events ++ [.saved u]) := by
    intro stage isStage notHuman notFailed
    rw [halts_append, halts_saved, isStage]
    rintro (halted | human | failed)
    · exact tried.runs halted
    · exact notHuman human
    · exact notFailed failed
  cases error : hasError t with
  | true =>
    have stage : u.stage = .retry := by rw [decided, error]; rfl
    have failed : (answers (calls + k)).isGood = false := by
      by_contra good
      rw [Bool.not_eq_false] at good
      have cleared : t.lastError = none := by rw [tried.error, good]; rfl
      simp [hasError, cleared] at error
    have kept : t.lastError = s.lastError := by rw [tried.error, failed]; rfl
    unfold Trying
    rw [stage]
    refine ⟨k, ?_, left, ?_, tried.retryable, ?_, tried.attempted.saved u, runs stage (by simp) (by simp)⟩
    · rw [decided]
      exact counted
    · rw [decided]
      exact kept
    · intro i below
      rcases Nat.lt_succ_iff_lt_or_eq.mp below with earlier | rfl
      · exact tried.fail i earlier
      · exact failed
  | false =>
    have stage : u.stage = .createPr := by rw [decided, error]; rfl
    unfold Trying
    rw [stage]
    refine ⟨by omega, runs stage (by simp) (by simp), ?_⟩
    cases good : (answers (calls + k)).isGood with
    | true =>
      obtain ⟨before, state, request, result, rfl, counted⟩ := tried.last
      refine Or.inl ⟨k, left, tried.fail, good, before, state, request, result, t, u, [], ?_, counted, atVerify, stage⟩
      simp
    | false =>
      have kept : t.lastError = s.lastError := by rw [tried.error, good]; rfl
      have clear : hasError s = false := by
        rw [hasError, ← kept]
        exact error
      refine Or.inr ⟨?_, clear⟩
      -- with no error from the start there was no retry
      have first : k = 0 := by
        by_contra some
        rw [hasError_of_retryable (tried.retryable (Nat.pos_of_ne_zero some))] at clear
        cases clear
      intro i below
      rw [Nat.lt_one_iff.mp below, ← first]
      rw [first] at good
      rw [first]
      exact good

/-- The events of a step in front of what it saves. -/
def Runs (answers : Nat → ExecutionStatus) (calls : Nat) (t : WorkflowState) (events : List WorkflowEvent)
    (result : ExecutionResult) (ran : List WorkflowEvent) : Prop :=
  if t.stage = .execute then
    result.status = answers (calls + (executions events).length) ∧ ∃ request, ran = [.executed t request result]
  else ran = []

theorem next_trying {result : ExecutionResult} {ran : List WorkflowEvent} (trying : Trying answers calls s t events)
    (before : ¬ t.atEnd) (same : t.maxRetries = s.maxRetries) (runs : Runs answers calls t events result ran) :
    (¬ (t.next result).isFinal → Trying answers calls s (t.next result) (events ++ ran ++ [.saved (t.next result)])) ∧
      ((t.next result).isFinal → Outcome answers calls s
        (events ++ ran ++ [.saved (t.next result)] ++ [.saved (t.next result).closed])) := by
  unfold Runs at runs
  refine next_cases (P := fun u => (¬ u.isFinal → Trying answers calls s u (events ++ ran ++ [.saved u])) ∧
    (u.isFinal → Outcome answers calls s (events ++ ran ++ [.saved u] ++ [.saved u.closed]))) before ?_ ?_ ?_ ?_ ?_ ?_
  · intro stage spent
    rw [if_neg (by simp [stage])] at runs
    rw [runs, List.append_nil]
    simp only [Trying, stage] at trying
    obtain ⟨k, counted, most, tried⟩ := trying
    refine ⟨fun _ => ?_, fun final => absurd final (not_isFinal rfl (by simp) (by simp))⟩
    exact tried.blocked (by omega) rfl
  · intro stage left
    rw [if_neg (by simp [stage])] at runs
    rw [runs, List.append_nil]
    simp only [Trying, stage] at trying
    obtain ⟨k, counted, most, tried⟩ := trying
    refine ⟨fun _ => tried.verified (by omega) counted stage rfl, fun final => absurd final ?_⟩
    cases hasError t
    · exact not_isFinal rfl (by simp) (by simp)
    · exact not_isFinal rfl (by simp) (by simp)
  · intro stage again
    rw [if_neg (by simp [stage])] at runs
    rw [runs, List.append_nil]
    simp only [Trying, stage] at trying
    obtain ⟨k, counted, most, error, retryable, fail, attempted, noHalt⟩ := trying
    have awaiting : Awaiting answers calls s (k + 1) events :=
      ⟨fail, fun _ => (retryable_congr error).mp again.1, attempted, noHalt⟩
    refine ⟨fun _ => ?_, fun final => absurd final (not_isFinal rfl (by simp) (by simp))⟩
    exact (awaiting.saved (by simp) (by simp)).trying (by simp [counted]) (by omega) error rfl
  · intro stage done
    rw [if_neg (by simp [stage])] at runs
    rw [runs, List.append_nil]
    simp only [Trying, stage] at trying
    obtain ⟨k, counted, most, error, retryable, fail, attempted, _⟩ := trying
    refine ⟨fun further => absurd (Or.inr rfl) further, fun _ => ?_⟩
    -- a retry is left, so the error is not retryable, and this was the first execution
    have refused : ¬ s.retryable := fun isRetryable => done ⟨(retryable_congr error).mpr isRetryable, by omega⟩
    have first : k = 0 := by
      by_contra some
      exact refused (retryable (Nat.pos_of_ne_zero some))
    rw [first] at fail attempted
    exact .refused (by omega) fail refused ((attempted.saved _).saved _)
  · intro stage
    rw [if_pos stage] at runs
    obtain ⟨k, counted, most, error, awaiting⟩ := trying.awaiting (by simp [isEarly, stage])
    obtain ⟨answered, request, rfl⟩ := runs
    rw [awaiting.attempted.length] at answered
    refine ⟨fun _ => ?_, fun final => absurd final (not_isFinal rfl (by simp) (by simp))⟩
    exact ⟨k, counted, most, trying_executed awaiting error answered rfl rfl⟩
  · intro stage edge
    have other : t.stage ≠ .execute := by
      intro atExecute
      simp [atExecute] at edge
    rw [if_neg other] at runs
    rw [runs, List.append_nil]
    have early : t.isEarly = true → ({ t with stage } : WorkflowState).isEarly = true →
        Trying answers calls s { t with stage } (events ++ [.saved { t with stage }]) := by
      intro isEarly stillEarly
      obtain ⟨k, counted, most, error, awaiting⟩ := trying.awaiting isEarly
      refine (awaiting.saved ?_ ?_).trying counted most error stillEarly
      · rintro rfl
        cases stillEarly
      · rintro rfl
        cases stillEarly
    simp only [List.mem_cons, Prod.mk.injEq, List.not_mem_nil, or_false] at edge
    rcases edge with ⟨source, rfl⟩ | ⟨source, rfl⟩ | ⟨source, rfl⟩ | ⟨source, rfl⟩ | ⟨source, rfl⟩ | ⟨source, rfl⟩
    · exact ⟨fun _ => early (by simp [isEarly, source]) rfl, fun final => absurd final (not_isFinal rfl (by simp) (by simp))⟩
    · exact ⟨fun _ => early (by simp [isEarly, source]) rfl, fun final => absurd final (not_isFinal rfl (by simp) (by simp))⟩
    · exact ⟨fun _ => early (by simp [isEarly, source]) rfl, fun final => absurd final (not_isFinal rfl (by simp) (by simp))⟩
    · exact ⟨fun _ => early (by simp [isEarly, source]) rfl, fun final => absurd final (not_isFinal rfl (by simp) (by simp))⟩
    · simp only [Trying, source] at trying
      exact ⟨fun _ => trying.saved (by simp) (by simp), fun final => absurd final (not_isFinal rfl (by simp) (by simp))⟩
    · simp only [Trying, source] at trying
      refine ⟨fun further => absurd (Or.inl rfl) further, fun _ => ?_⟩
      have closing := @Passing.saved _ _ _ _ trying { t with stage := .complete } (by simp) (by simp)
      exact (closing.saved (by simp [closed]) (by simp [closed])).outcome

end WorkflowState

/-! ### The run -/

namespace WorkflowEngine
open WorkflowState
variable {answers : Nat → ExecutionStatus} {hasPullRequests : Bool} {o : WorkflowOutside} {s : WorkflowState}
  {w : WorkflowWorld}

/-- How a run from a new workflow stands: it goes on, or it waits for a human. -/
structure Underway (answers : Nat → ExecutionStatus) (s : WorkflowState) (w : WorkflowWorld) (t : WorkflowState)
    (u : WorkflowWorld) : Prop where
  maxRetries : t.maxRetries = s.maxRetries
  trying : ∃ events, u.events = w.events ++ events ∧ Trying answers w.visits.length s t events
  waits : t.status = .running ∧ t.stage ≠ .human ∨ t.status ≠ .running ∧ t.stage = .human

theorem length_visits {u : WorkflowWorld} {events : List WorkflowEvent}
    (split : u.events = w.events ++ events) : u.visits.length = w.visits.length + (executions events).length := by
  rw [length_executions, WorkflowWorld.visits, split, List.filterMap_append, List.length_append]
  rfl

theorem resume_outcome (found : w.checkpoints.get s.workflowId = some s) (clean : o.Clean)
    (available : (w.select true true).isSome = true) (fresh : s.Fresh) :
    Returns o ((main answers hasPullRequests).resume s.workflowId) w
      (fun _ t => Outcome answers w.visits.length s (t.events.drop w.events.length)) := by
  refine resume_returns found clean available (Underway answers s w)
    (fun _ t => Outcome answers w.visits.length s (t.events.drop w.events.length)) ?_ ?_ ?_
  · refine ⟨rfl, ⟨[], by simp, ?_⟩, Or.inl ⟨fresh.status, by simp [fresh.stage]⟩⟩
    have awaiting : Awaiting answers w.visits.length s 0 [] := by
      refine ⟨?_, by simp, ⟨rfl, by simp [executions]⟩, by simp [Halts]⟩
      intro i below
      exact absurd below (Nat.not_lt_zero i)
    exact awaiting.trying fresh.retryCount fresh.maxRetries rfl (by simp [isEarly, fresh.stage])
  · rintro t u ⟨same, ⟨events, split, trying⟩, waits⟩ running t' last v turned
    obtain ⟨added, adds, ⟨atEnd, _, _⟩ | ⟨before, result, ran, recorded, isAdded, went⟩⟩ := turned.events
    · -- a run that goes on is at no end
      have notHuman : t.stage ≠ .human := by
        rcases waits with ⟨_, notHuman⟩ | ⟨ended, _⟩
        · exact notHuman
        · exact absurd running ended
      rcases atEnd with stage | stage | stage
      · exact absurd stage notHuman
      · simp [Trying, stage] at trying
      · simp [Trying, stage] at trying
    · have runs : Runs answers w.visits.length t events result ran := by
        unfold Ran at recorded
        unfold Runs
        rw [length_visits split] at recorded
        exact recorded
      obtain ⟨goesOn, ends⟩ := next_trying trying before same runs
      cases last with
      | true =>
        rw [if_pos rfl] at went ⊢
        rw [adds, split, isAdded, List.append_assoc, List.drop_left]
        simpa using ends went
      | false =>
        obtain ⟨rfl, further⟩ := went
        have whole : v.events = w.events ++ (events ++ ran ++ [.saved (t.next result)]) := by
          rw [adds, split, isAdded]
          simp
        refine ⟨(next_follows before result).maxRetries.trans same, ⟨_, whole, goesOn further⟩, ?_⟩
        rcases next_agrees before running further with ⟨goes, notEnd⟩ | ⟨blocked, human⟩ | ⟨_, complete⟩ | ⟨_, failed⟩
        · exact Or.inl ⟨goes, fun human => notEnd (Or.inl human)⟩
        · exact Or.inr ⟨by simp [blocked], human⟩
        · exact absurd (Or.inl complete) further
        · exact absurd (Or.inr failed) further
  · rintro t u ⟨same, ⟨events, split, trying⟩, waits⟩ ended
    obtain ⟨_, atHuman⟩ := waits.resolve_left fun goes => ended goes.1
    simp only [Trying, atHuman] at trying
    rw [split, List.drop_left]
    exact trying

/-- From a new workflow, with any error left from before, the first completed
result is honoured unless it is the one after the last retry. -/
theorem last_attempt_honoured_iff (answers : Nat → ExecutionStatus) (hasPullRequests : Bool) (w : WorkflowWorld)
    (s : WorkflowState) (found : w.checkpoints.get s.workflowId = some s) (clean : o.Clean)
    (available : (w.select true true).isSome = true) (fresh : s.Fresh) :
    Returns o ((main answers hasPullRequests).resume s.workflowId) w (fun _ t =>
      Honours answers w.visits.length s (t.events.drop w.events.length) ↔ ¬ LastCompletes answers w.visits.length s) := by
  refine (resume_outcome found clean available fresh).mono ?_
  intro r t reached
  cases r with
  | ok _ => exact Outcome.honours_iff reached
  | error _ => exact reached

/-- A new workflow without retries. -/
def onlyAttempt : WorkflowState := { workflowId := .v5 "workflow", maxRetries := 0 }

theorem last_attempt_honoured_iff_only :
    Returns Outside.clean ((main (fun _ => .completed) false).resume onlyAttempt.workflowId) (worldWith onlyAttempt)
      (fun _ t => Honours (fun _ => .completed) (worldWith onlyAttempt).visits.length onlyAttempt
          (t.events.drop (worldWith onlyAttempt).events.length) ↔
        ¬ LastCompletes (fun _ => .completed) (worldWith onlyAttempt).visits.length onlyAttempt) := by
  have clean : (Outside.clean : WorkflowOutside).Clean := Outside.clean_clean
  generalize Outside.clean = o at clean ⊢
  exact last_attempt_honoured_iff (fun _ => .completed) false (worldWith onlyAttempt) onlyAttempt
    (worldWith_checkpoint onlyAttempt) clean (worldWith_available onlyAttempt) ⟨rfl, rfl, rfl, by decide⟩

/-- Its one execution completes, and a human is asked. -/
theorem completed_attempt_blocked : ¬ Honours (fun _ => .completed) 0 onlyAttempt
    ((main (fun _ => .completed) false).resume onlyAttempt.workflowId Outside.clean 0 (worldWith onlyAttempt)).store.events := by
  generalize isRun : ((main (fun _ => .completed) false).resume onlyAttempt.workflowId Outside.clean 0
    (worldWith onlyAttempt)).store.events = events
  have asked : (events.any fun
      | .executed .. => false
      | .saved state => state.stage = .human) = true := by
    rw [← isRun]
    decide +kernel
  have good : ((executions events).all fun e => e.2.status.isGood) = true ∧ (executions events).length = 1 := by
    rw [← isRun]
    decide +kernel
  intro honours
  obtain ⟨event, member, isHuman⟩ := List.any_eq_true.mp asked
  have halts : Halts events := by
    cases event with
    | executed => cases isHuman
    | saved state => exact ⟨state, member, Or.inl (of_decide_eq_true isHuman)⟩
  have completed : ∀ e ∈ executions events, e.2.status.isGood ≠ false := by
    intro e listed
    rw [List.all_eq_true.mp good.1 e listed]
    simp
  rcases honours.halts halts with ⟨_, fail⟩ | ⟨e, listed, fail, _⟩
  · obtain ⟨e, listed⟩ := List.exists_mem_of_length_pos (Nat.lt_of_lt_of_eq Nat.one_pos good.2.symm)
    exact completed e listed (fail e listed)
  · exact completed e listed fail

end WorkflowEngine

end Brain
