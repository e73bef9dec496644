import Brain.Application.CommandHandlers

namespace Brain

/-- The statuses that `completed_at` is set for. -/
def ExecutionStatus.IsTerminal (status : ExecutionStatus) : Prop :=
  status ∈ [ExecutionStatus.completed, .failed, .cancelled]

instance (status : ExecutionStatus) : Decidable status.IsTerminal := inferInstanceAs (Decidable (_ ∈ _))

def ExecutionShared.recorded (s : ExecutionShared) (execution : ExecutionId) : Option ExecutionStatus :=
  (s.executions.get execution).map Execution.status

def ExecuteStage.isExecuting : ExecuteStage → Bool
  | .executing .. => true
  | _ => false

/-- The handler is past the creation of the record and has not ended. -/
def ExecuteStage.isActive : ExecuteStage → Bool
  | .getWorkItem | .getProject _ | .listRepositories .. | .createWorkspace _ | .createExecution ..
  | .finished _ => false
  | _ => true

/-- What a handler does to its record when it goes from one await to the next. -/
inductive RecordStep
  | creates
  | begins
  | blocks
  | settles (status : ExecutionStatus)
  | ends
  | goesOn

def ExecuteStage.recordStep : ExecuteStage → ExecuteStage → RecordStep
  | .createExecution .., .tryAcquire .. | .createExecution .., .execute .. => .creates
  | .execute .., .executing .. => .begins
  | .blockedUpdate _, .blockedWorkItem => .blocks
  | .updateExecution _ result, .finished (.ok _) => .settles result.status
  | _, .finished _ => .ends
  | _, _ => .goesOn

def RecordStep.writes : RecordStep → Option ExecutionStatus
  | creates => some .started
  | blocks => some .blocked
  | settles status => some status
  | _ => none

inductive RecordWrite (execution : ExecutionId) (s s' : ExecutionShared) : Option ExecutionStatus → Prop
  | keeps (kept : s'.executions = s.executions) : RecordWrite execution s s' none
  | stores (record : Execution) (own : record.id = execution) (stored : s'.executions = s.executions.upsert record) :
    RecordWrite execution s s' (some record.status)

inductive RecordMove (stage next : ExecuteStage) : RecordStep → Prop
  | creates (active : next.isActive = true) (idle : next.isExecuting = false) : RecordMove stage next .creates
  | begins (active : next.isActive = true) (executing : next.isExecuting = true) : RecordMove stage next .begins
  | blocks (active : next.isActive = true) (idle : next.isExecuting = false) : RecordMove stage next .blocks
  | settles (status : ExecutionStatus) (finished : next.isFinished = true) : RecordMove stage next (.settles status)
  | ends (finished : next.isFinished = true) : RecordMove stage next .ends
  | goesOn (unfinished : next.isFinished = false) (idle : next.isExecuting = false)
      (active : stage.isActive = true → next.isActive = true) : RecordMove stage next .goesOn

namespace ExecuteWorkItem
variable {command : ExecuteWorkItem} {now : Time} {answer : ExecuteAnswer} {stage stage' : ExecuteStage}
  {s s' : ExecutionShared}

/-- The copy of the record that a handler is about to store. -/
def Copies (command : ExecuteWorkItem) : ExecuteStage → Prop
  | .blockedUpdate execution => execution.id = command.execution ∧ execution.status = .blocked
  | .updateExecution execution result => execution.id = command.execution ∧ execution.status = result.status
  | _ => True

structure RecordTurn (command : ExecuteWorkItem) (stage next : ExecuteStage) (s s' : ExecutionShared) : Prop where
  move : RecordMove stage next (stage.recordStep next)
  write : RecordWrite command.execution s s' (stage.recordStep next).writes
  copies : command.Copies next

theorem afterExecute_turn (lock : Option Repository) (request : WorkspaceRequest)
    (ended : Except PyException ExecutorResult) :
    RecordTurn command (.executing lock request) (afterExecute lock request ended) s s := by
  cases lock with
  | some repository => exact ⟨.goesOn rfl rfl fun _ => rfl, .keeps rfl, trivial⟩
  | none =>
    cases ended with
    | ok result => exact ⟨.goesOn rfl rfl fun _ => rfl, .keeps rfl, trivial⟩
    | error exception => exact ⟨.ends rfl, .keeps rfl, trivial⟩

theorem raised_record {exception : PyException}
    (moved : command.resume now (.raises exception) stage s = some (stage', s')) :
    RecordTurn command stage stage' s s' := by
  cases stage with
  | executing lock request => cases moved; exact afterExecute_turn ..
  | tryAcquire | execute | release | finished => cases moved
  | _ => cases moved; exact ⟨.ends rfl, .keeps rfl, trivial⟩

theorem resume_record (copies : command.Copies stage)
    (moved : command.resume now answer stage s = some (stage', s')) : RecordTurn command stage stage' s s' := by
  have stores : ∀ execution : Execution, execution.id = command.execution →
      RecordWrite command.execution s { s with executions := s.executions.upsert execution } (some execution.status) :=
    fun execution own => .stores execution own rfl
  cases answer with
  | raises exception => exact raised_record moved
  | result result =>
    cases stage with
    | executing lock request => cases moved; exact afterExecute_turn ..
    | _ => cases moved
  | workItem found =>
    cases stage with
    | getWorkItem =>
      cases found <;> cases moved <;> exact ⟨.goesOn rfl rfl fun idle => absurd idle Bool.false_ne_true, .keeps rfl, trivial⟩
    | blockedWorkItem => cases found <;> cases moved <;> exact ⟨.goesOn rfl rfl fun _ => rfl, .keeps rfl, trivial⟩
    | _ => cases moved
  | repositories found =>
    cases stage with
    | listRepositories workItem project =>
      simp only [resume] at moved
      split at moved <;> cases moved <;> exact ⟨.goesOn rfl rfl fun idle => absurd idle Bool.false_ne_true, .keeps rfl, trivial⟩
    | _ => cases moved
  | project found =>
    cases stage with
    | getProject workItem =>
      cases moved; exact ⟨.goesOn rfl rfl fun idle => absurd idle Bool.false_ne_true, .keeps rfl, trivial⟩
    | _ => cases moved
  | workspace found =>
    cases stage with
    | createWorkspace repository =>
      cases moved; exact ⟨.goesOn rfl rfl fun idle => absurd idle Bool.false_ne_true, .keeps rfl, trivial⟩
    | _ => cases moved
  | done =>
    cases stage with
    | createExecution repository request =>
      cases moved
      cases repository <;> exact ⟨.creates rfl rfl, stores (command.startedExecution request) rfl, trivial⟩
    | tryAcquire repository request =>
      simp only [resume] at moved
      split at moved <;> cases moved <;> exact ⟨.goesOn rfl rfl fun _ => rfl, .keeps rfl, trivial⟩
    | execute lock request => cases moved; exact ⟨.begins rfl rfl, .keeps rfl, trivial⟩
    | release repository request ended =>
      cases ended with
      | ok result => cases moved; exact ⟨.goesOn rfl rfl fun _ => rfl, .keeps rfl, trivial⟩
      | error exception => cases moved; exact ⟨.ends rfl, .keeps rfl, trivial⟩
    | updateExecution execution result =>
      cases moved
      have write := stores execution copies.1
      rw [copies.2] at write
      exact ⟨.settles result.status rfl, write, trivial⟩
    | blockedUpdate execution =>
      cases moved
      have write := stores execution copies.1
      rw [copies.2] at write
      exact ⟨.blocks rfl rfl, write, trivial⟩
    | getExecution result =>
      simp only [resume] at moved
      split at moved <;> rename_i found <;> cases moved
      · exact ⟨.goesOn rfl rfl fun _ => rfl, .keeps rfl, (Keyed.get_eq_some.mp found).2, rfl⟩
      · exact ⟨.ends rfl, .keeps rfl, trivial⟩
    | blockedGet =>
      simp only [resume] at moved
      split at moved <;> rename_i found <;> cases moved
      · exact ⟨.goesOn rfl rfl fun _ => rfl, .keeps rfl, (Keyed.get_eq_some.mp found).2, rfl⟩
      · exact ⟨.goesOn rfl rfl fun _ => rfl, .keeps rfl, trivial⟩
    | auditExecution result | blockedObservation =>
      cases moved; exact ⟨.goesOn rfl rfl fun _ => rfl, .keeps rfl, trivial⟩
    | blockedAudit => cases moved; exact ⟨.ends rfl, .keeps rfl, trivial⟩
    | _ => cases moved

end ExecuteWorkItem

section Writes
variable {execution other : ExecutionId} {s s' : ExecutionShared} {written : Option ExecutionStatus}

theorem RecordWrite.recorded (write : RecordWrite execution s s' written) :
    s'.recorded execution = written.or (s.recorded execution) := by
  unfold ExecutionShared.recorded
  cases write with
  | keeps kept => rw [kept, Option.none_or]
  | stores record own stored =>
    rw [stored, ← own, Keyed.get_upsert_self]
    rfl

theorem RecordWrite.recorded_other (write : RecordWrite execution s s' written) (different : other ≠ execution) :
    s'.recorded other = s.recorded other := by
  unfold ExecutionShared.recorded
  cases write with
  | keeps kept => rw [kept]
  | stores record own stored =>
    rw [stored, Keyed.get_upsert_ne]
    rw [own]
    exact different

end Writes

theorem inactive_of_isFinished {stage : ExecuteStage} (finished : stage.isFinished = true) : stage.isActive = false := by
  cases stage with
  | finished ended => rfl
  | _ => cases finished

theorem idle_of_isFinished {stage : ExecuteStage} (finished : stage.isFinished = true) : stage.isExecuting = false := by
  cases stage with
  | finished ended => rfl
  | _ => cases finished

namespace ExecuteTasks
variable {ι : Type} {commands : ι → ExecuteWorkItem} {tasks tasks' : ExecuteTasks ι}

/-- Another delivery of the same execution is at a stage of `p`. -/
def Others (commands : ι → ExecuteWorkItem) (tasks : ExecuteTasks ι) (i : ι) (p : ExecuteStage → Bool) : Prop :=
  ∃ j, j ≠ i ∧ (commands j).execution = (commands i).execution ∧ p (tasks.state j) = true

/-- The records tell what the executors do. An execution of an unknown work item
has no record. -/
structure Truthful (commands : ι → ExecuteWorkItem) (tasks : ExecuteTasks ι) : Prop where
  inProgress : ∀ i, (tasks.state i).isExecuting = true →
    ∀ status, tasks.shared.recorded (commands i).execution = some status → status = .started
  /-- Once a handler has ended and no other one of the execution is on its way. -/
  ended : ∀ i, (tasks.state i).isFinished = true →
    (∀ j, (commands j).execution = (commands i).execution → (tasks.state j).isActive = false) →
    tasks.shared.recorded (commands i).execution ≠ some .started

/-- No recorded terminal status is reset. -/
def KeepsTerminal (tasks tasks' : ExecuteTasks ι) : Prop :=
  ∀ execution status, tasks.shared.recorded execution = some status → status.IsTerminal →
    tasks'.shared.recorded execution = some status

/-- What a turn may do: create or block a record that is not terminal, the latter
while no other delivery executes, begin to execute over a STARTED record, store a
result that is not STARTED, and end without a result only when STARTED is not
left behind. -/
def Careful (commands : ι → ExecuteWorkItem) (tasks : ExecuteTasks ι) (turn : ι × Time × ExecuteAnswer) : Prop :=
  let i := turn.1
  let recorded := tasks.shared.recorded (commands i).execution
  ∀ next shared, (commands i).resume turn.2.1 turn.2.2 (tasks.state i) tasks.shared = some (next, shared) →
    match (tasks.state i).recordStep next with
    | .creates => ∀ status, recorded = some status → ¬ status.IsTerminal
    | .begins => ∀ status, recorded = some status → status = .started
    | .blocks => (∀ status, recorded = some status → ¬ status.IsTerminal) ∧
        ¬ Others commands tasks i ExecuteStage.isExecuting
    | .settles result => (∀ status, recorded = some status → status.IsTerminal → status = result) ∧
        (Others commands tasks i ExecuteStage.isExecuting → result = .started) ∧
        (¬ Others commands tasks i ExecuteStage.isActive → result ≠ .started)
    | .ends => ¬ Others commands tasks i ExecuteStage.isActive → recorded ≠ some .started
    | .goesOn => True

theorem truthful_start (executions : Keyed Execution.id) : Truthful commands (start executions) where
  inProgress := by
    intro i executing
    cases executing
  ended := by
    intro i finished
    cases finished

section Moves
variable {i : ι}

theorem Truthful.executing (truthful : Truthful commands tasks)
    (others : Others commands tasks i ExecuteStage.isExecuting) :
    ∀ status, tasks.shared.recorded (commands i).execution = some status → status = .started := by
  obtain ⟨j, _, same, executing⟩ := others
  rw [← same]
  exact truthful.inProgress j executing

theorem Truthful.quiet (truthful : Truthful commands tasks) (others : Others commands tasks i ExecuteStage.isFinished)
    (inactive : (tasks.state i).isActive = false) (alone : ¬ Others commands tasks i ExecuteStage.isActive) :
    tasks.shared.recorded (commands i).execution ≠ some .started := by
  obtain ⟨j, _, same, finished⟩ := others
  rw [← same]
  refine truthful.ended j finished ?_
  intro k sameToo
  by_cases mine : k = i
  · rw [mine]
    exact inactive
  · by_contra active
    exact alone ⟨k, mine, sameToo.trans same, by simpa using active⟩

variable [DecidableEq ι] {next : ExecuteStage} {shared : ExecutionShared}

theorem truthful_move_iff (truthful : Truthful commands tasks)
    (frame : ∀ execution, execution ≠ (commands i).execution →
      shared.recorded execution = tasks.shared.recorded execution) :
    Truthful commands (tasks.move i next shared) ↔
      ((next.isExecuting = true ∨ Others commands tasks i ExecuteStage.isExecuting) →
        ∀ status, shared.recorded (commands i).execution = some status → status = .started) ∧
      ((next.isFinished = true ∨ Others commands tasks i ExecuteStage.isFinished) → next.isActive = false →
        ¬ Others commands tasks i ExecuteStage.isActive → shared.recorded (commands i).execution ≠ some .started) := by
  have here : (tasks.move i next shared).state i = next := Tasks.state_move_self
  have there : ∀ {j}, j ≠ i → (tasks.move i next shared).state j = tasks.state j := Tasks.state_move_other
  constructor
  · intro after
    refine ⟨?_, ?_⟩
    · rintro (executing | ⟨j, other, same, executing⟩)
      · exact after.inProgress i (by rw [here]; exact executing)
      · rw [← same]
        exact after.inProgress j (by rw [there other]; exact executing)
    · intro finished inactive alone
      have quiet : ∀ k, (commands k).execution = (commands i).execution →
          ((tasks.move i next shared).state k).isActive = false := by
        intro k same
        by_cases mine : k = i
        · rw [mine, here]
          exact inactive
        · rw [there mine]
          by_contra active
          exact alone ⟨k, mine, same, by simpa using active⟩
      rcases finished with finished | ⟨j, other, same, finished⟩
      · exact after.ended i (by rw [here]; exact finished) quiet
      · rw [← same]
        exact after.ended j (by rw [there other]; exact finished) fun k sameToo => quiet k (sameToo.trans same)
  · rintro ⟨executing, finished⟩
    refine ⟨?_, ?_⟩
    · intro j runs
      by_cases same : (commands j).execution = (commands i).execution
      · rw [same]
        by_cases mine : j = i
        · rw [mine, here] at runs
          exact executing (Or.inl runs)
        · rw [there mine] at runs
          exact executing (Or.inr ⟨j, mine, same, runs⟩)
      · have mine : j ≠ i := fun equal => same (by rw [equal])
        rw [there mine] at runs
        rw [Tasks.shared_move, frame _ same]
        exact truthful.inProgress j runs
    · intro j ended quiet
      by_cases same : (commands j).execution = (commands i).execution
      · have inactive : next.isActive = false := by
          rw [← here]
          exact quiet i same.symm
        have alone : ¬ Others commands tasks i ExecuteStage.isActive := by
          rintro ⟨k, other, sameToo, active⟩
          have idle := quiet k (sameToo.trans same.symm)
          rw [there other, active] at idle
          cases idle
        rw [same]
        by_cases mine : j = i
        · rw [mine, here] at ended
          exact finished (Or.inl ended) inactive alone
        · rw [there mine] at ended
          exact finished (Or.inr ⟨j, mine, same, ended⟩) inactive alone
      · have mine : j ≠ i := fun equal => same (by rw [equal])
        rw [there mine] at ended
        rw [Tasks.shared_move, frame _ same]
        refine truthful.ended j ended ?_
        intro k sameToo
        have other : k ≠ i := fun equal => same (by rw [← sameToo, equal])
        rw [← there other]
        exact quiet k sameToo

theorem keepsTerminal_move_iff
    (frame : ∀ execution, execution ≠ (commands i).execution →
      shared.recorded execution = tasks.shared.recorded execution) :
    KeepsTerminal tasks (tasks.move i next shared) ↔
      ∀ status, tasks.shared.recorded (commands i).execution = some status → status.IsTerminal →
        shared.recorded (commands i).execution = some status := by
  constructor
  · exact fun keeps => keeps _
  · intro keeps execution status before terminal
    by_cases same : execution = (commands i).execution
    · rw [same] at before ⊢
      exact keeps status before terminal
    · rw [Tasks.shared_move, frame _ same]
      exact before

end Moves

section Steps
variable [DecidableEq ι]

/-- Every handler carries copies of its own record. -/
def Copying (commands : ι → ExecuteWorkItem) (tasks : ExecuteTasks ι) : Prop :=
  ∀ i, (commands i).Copies (tasks.state i)

theorem copying_step (tasks : ExecuteTasks ι) (turn : ι × Time × ExecuteAnswer) (tasks' : ExecuteTasks ι)
    (copying : Copying commands tasks) (taken : step commands tasks turn = some tasks') : Copying commands tasks' := by
  obtain ⟨i, now, answer⟩ := turn
  obtain ⟨next, shared, moved, rfl⟩ := Tasks.turn_eq_some.mp taken
  intro j
  by_cases mine : j = i
  · rw [mine, Tasks.state_move_self]
    exact (ExecuteWorkItem.resume_record (copying i) moved).copies
  · rw [Tasks.state_move_other mine]
    exact copying j

theorem truthful_step_iff (tasks : ExecuteTasks ι) (turn : ι × Time × ExecuteAnswer) (tasks' : ExecuteTasks ι)
    (copying : Copying commands tasks) (truthful : Truthful commands tasks)
    (taken : step commands tasks turn = some tasks') :
    Truthful commands tasks' ∧ KeepsTerminal tasks tasks' ↔ Careful commands tasks turn := by
  obtain ⟨i, now, answer⟩ := turn
  obtain ⟨next, shared, moved, rfl⟩ := Tasks.turn_eq_some.mp taken
  obtain ⟨move, write, _⟩ := ExecuteWorkItem.resume_record (copying i) moved
  have frame : ∀ other, other ≠ (commands i).execution → shared.recorded other = tasks.shared.recorded other :=
    fun _ => write.recorded_other
  have executing := truthful.executing (i := i)
  have quiet := truthful.quiet (i := i)
  rw [truthful_move_iff truthful frame, keepsTerminal_move_iff frame, write.recorded]
  have careful : Careful commands tasks (i, now, answer) ↔ _ :=
    ⟨fun careful => careful next shared moved, fun allowed next' shared' moved' => by
      rw [moved] at moved'
      cases moved'
      exact allowed⟩
  rw [careful]
  generalize (tasks.state i).recordStep next = kind at move write ⊢
  generalize tasks.shared.recorded (commands i).execution = recorded at executing quiet ⊢
  cases move with
  | creates active idle =>
    constructor
    · rintro ⟨_, keeps⟩ status before terminal
      have reset := keeps status before terminal
      cases reset
      exact absurd terminal (by decide)
    · intro fresh
      refine ⟨⟨?_, ?_⟩, ?_⟩
      · rintro _ status ⟨⟩
        rfl
      · intro _ inactive
        rw [active] at inactive
        cases inactive
      · exact fun status before terminal => absurd terminal (fresh status before)
  | begins active runs =>
    constructor
    · exact fun truthful => truthful.1.1 (Or.inl runs)
    · intro started
      refine ⟨⟨fun _ => started, ?_⟩, fun status before _ => before⟩
      intro _ inactive
      rw [active] at inactive
      cases inactive
  | blocks active idle =>
    constructor
    · rintro ⟨⟨honest, _⟩, keeps⟩
      refine ⟨?_, ?_⟩
      · intro status before terminal
        have reset := keeps status before terminal
        cases reset
        exact absurd terminal (by decide)
      · intro others
        exact absurd (honest (Or.inr others) _ rfl) (by decide)
    · rintro ⟨fresh, alone⟩
      refine ⟨⟨?_, ?_⟩, fun status before terminal => absurd terminal (fresh status before)⟩
      · rintro (runs | others)
        · rw [idle] at runs
          cases runs
        · exact absurd others alone
      · intro _ inactive
        rw [active] at inactive
        cases inactive
  | settles result finished =>
    constructor
    · rintro ⟨⟨honest, left⟩, keeps⟩
      refine ⟨?_, ?_, ?_⟩
      · intro status before terminal
        exact (Option.some.inj (keeps status before terminal)).symm
      · exact fun others => honest (Or.inr others) result rfl
      · intro alone started
        exact left (Or.inl finished) (inactive_of_isFinished finished) alone (congrArg some started)
    · rintro ⟨same, honest, left⟩
      refine ⟨⟨?_, ?_⟩, ?_⟩
      · rintro (runs | others) status ⟨⟩
        · rw [idle_of_isFinished finished] at runs
          cases runs
        · exact honest others
      · exact fun _ _ alone started => left alone (Option.some.inj started)
      · exact fun status before terminal => congrArg some (same status before terminal).symm
  | ends finished =>
    constructor
    · exact fun truthful alone => truthful.1.2 (Or.inl finished) (inactive_of_isFinished finished) alone
    · intro left
      refine ⟨⟨?_, fun _ _ => left⟩, fun status before _ => before⟩
      rintro (runs | others)
      · rw [idle_of_isFinished finished] at runs
        cases runs
      · exact executing others
  | goesOn unfinished idle active =>
    refine iff_of_true ⟨⟨?_, ?_⟩, fun status before _ => before⟩ trivial
    · rintro (runs | others)
      · rw [idle] at runs
        cases runs
      · exact executing others
    · rintro (finished | others) inactive alone
      · rw [unfinished] at finished
        cases finished
      · refine quiet others ?_ alone
        by_contra wasActive
        rw [active (by simpa using wasActive)] at inactive
        cases inactive

/-- Along a run of deliveries, in any interleaving, the records are truthful and
no terminal status is reset exactly when every turn is a careful one. -/
theorem records_truthful_iff (commands : ι → ExecuteWorkItem) (executions : Keyed Execution.id)
    (turns : List (ι × Time × ExecuteAnswer)) :
    Runs.Throughout (step commands) (Truthful commands) turns (start executions) ∧
        Runs.Moving (step commands) KeepsTerminal turns (start executions) ↔
      Runs.Along (step commands) (Careful commands) turns (start executions) :=
  Runs.throughout_moving_iff_along copying_step truthful_step_iff (fun _ => trivial) (truthful_start executions)

end Steps

def deliveredTwice (_ : Bool) : ExecuteWorkItem :=
  { workItemId := .v4 1, executionId := some (.v4 2), newExecutionId := .v4 7, newWorkflowId := .v4 3
    newActorId := .v4 4 }

/-- A delivery up to its try for the lock, which leads on to the executor's call
or to the blocked path. -/
def lockTried (i : Bool) : List (Bool × Time × ExecuteAnswer) :=
  [(i, 0, .workItem (some { id := .v4 1, projectId := .v4 0, title := "t" })), (i, 0, .project none),
    (i, 0, .repositories [{ id := .v4 6, projectId := .v4 0, name := "r", cloneUrl := "u" }]), (i, 0, .done),
    (i, 0, .done), (i, 0, .done)]

/-- The second delivery marks the running execution as blocked, an executor that
raises leaves it started, and a delivery after the end makes it start again. -/
theorem records_untruthful :
    (∃ tasks, Runs.after (step deliveredTwice) (lockTried false ++ lockTried true ++ [(true, 0, .done)])
        (start Keyed.empty) = some tasks ∧
      (tasks.state false).isExecuting = true ∧ tasks.shared.recorded (.v4 2) = some .blocked ∧
      ¬ Truthful deliveredTwice tasks) ∧
    (∃ tasks, Runs.after (step deliveredTwice)
        (lockTried false ++ [(false, 0, .raises ⟨"RuntimeError", ""⟩), (false, 0, .done)]) (start Keyed.empty) = some tasks ∧
      (tasks.state false).isFinished = true ∧ tasks.shared.recorded (.v4 2) = some .started ∧
      ¬ Truthful deliveredTwice tasks) ∧
    ∃ tasks, Runs.after (step deliveredTwice)
        (lockTried false ++ [(false, 0, .result { executionId := .v4 2, status := .completed })] ++
          List.replicate 4 (false, 0, .done) ++ (lockTried true).take 3) (start Keyed.empty) = some tasks ∧
      tasks.shared.recorded (.v4 2) = some .completed ∧
      ∃ tasks', step deliveredTwice tasks (true, 0, .done) = some tasks' ∧
        tasks'.shared.recorded (.v4 2) = some .started ∧ ¬ KeepsTerminal tasks tasks' := by
  refine ⟨⟨_, rfl, rfl, rfl, ?_⟩, ⟨_, rfl, rfl, rfl, ?_⟩, _, rfl, rfl, _, rfl, rfl, ?_⟩
  · intro truthful
    have status := truthful.inProgress false rfl .blocked rfl
    cases status
  · intro truthful
    refine truthful.ended false rfl ?_ rfl
    intro j _
    cases j <;> rfl
  · intro keeps
    have kept := keeps (.v4 2) .completed rfl (by decide)
    cases kept

end ExecuteTasks

end Brain
